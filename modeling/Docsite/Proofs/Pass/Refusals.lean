import Docsite.Proofs.Pass.Sequence
import Mathlib.Data.List.Forall2

/-!
# Docsite.Proofs.Pass.Refusals

What rewriting the links leaves behind when a link is refused.

The rewriter is asked about one URL after another, so what it has said to the URLs before some
URL settles whether it hears of that one at all (`answers_of_maps`).  A refusal ends the pass,
and the run of passes with it; the fault that the caller sees is the refusal itself or names the
pass (`runAll_cons_of_fault`).
-/

namespace Docsite

/-- Does a rewriter answer to some URLs, one by one, with some others? -/
abbrev Link.Rewriter.Maps (rewriter : Link.Rewriter) : List String → List String → Prop :=
  List.Forall₂ fun url image => rewriter url = .ok image

namespace Pass

open Document Docsite.Tree

/-- The URLs that the pass asks its rewriter about, in order: those of the links that its visitor
is called for.  Writing its calls down changes nothing about the walk (`Tree.walk_eq_noting`). -/
def askedUrls (rewriter : Link.Rewriter) (n : Node) : List String :=
  (n.walk (notingVisitor rewriter) (enoughSteps n) (0, [])).state.urls

theorem askedUrls_document (rewriter : Link.Rewriter) (blocks : List Node) :
    askedUrls rewriter (.document blocks) =
      (answers rewriter (Node.document blocks).linkUrls).heard := by
  obtain ⟨s, heard, walked⟩ := walk_noted rewriter blocks
  rw [askedUrls, walked, heard]
  rfl

section

variable {rewriter : Link.Rewriter} {urls images : List String}

/-- Behind URLs that are answered, the rewriter goes on with the others. -/
theorem answers_of_maps (maps : rewriter.Maps urls images) (later : List String) :
    answers rewriter (urls ++ later) =
      ⟨urls ++ (answers rewriter later).heard, images ++ (answers rewriter later).left,
        (answers rewriter later).refusal?⟩ := by
  induction maps with
  | nil => rfl
  | cons answer _ ih => simp only [List.cons_append, answers, answer, ih]

theorem answers_of_maps_all (maps : rewriter.Maps urls images) :
    answers rewriter urls = ⟨urls, images, none⟩ := by
  simpa only [List.append_nil, answers] using answers_of_maps maps []

/-- The first refusal is the last that the rewriter hears of. -/
theorem answers_of_refused {url : String} {refusal : Link.Refusal}
    (maps : rewriter.Maps urls images) (refused : rewriter url = .error refusal)
    (after : List String) :
    answers rewriter (urls ++ url :: after) =
      ⟨urls ++ [url], images ++ url :: after, some refusal⟩ := by
  simp only [answers_of_maps maps, answers, refused]

end

/-- The rewritten blocks make the one document that has the answers for URLs and is as before in
all else. -/
theorem eq_document_relinkedAll (rewriter : Link.Rewriter) (blocks : List Node) (n : Node) :
    n = .document (relinkedAll rewriter blocks).1 ↔
      n.unlinked = (Node.document blocks).unlinked ∧
        n.linkUrls = (answers rewriter (Node.document blocks).linkUrls).left := by
  obtain ⟨rest, urls, -⟩ := relinkedAll_answers rewriter blocks
  have documentRest : (Node.document (relinkedAll rewriter blocks).1).unlinked =
      (Node.document blocks).unlinked := by
    simp only [Node.unlinked, rest]
  have documentUrls : (Node.document (relinkedAll rewriter blocks).1).linkUrls =
      (answers rewriter (Node.document blocks).linkUrls).left := urls
  rw [← documentRest, ← documentUrls]
  exact ⟨fun same => same ▸ ⟨rfl, rfl⟩, fun same => Node.eq_of_unlinked n _ same.1 same.2⟩

/-- The fault that a refusal amounts to. -/
def faultOfRefusal (p : Pass) : Link.Refusal → Fault
  | .cause cause => .passFailed p.name cause
  | .fault fault => fault

/-- A refused link is the fault of the pass. -/
theorem result_rewriteLinks {rewriter : Link.Rewriter} {blocks : List Node}
    {refusal : Link.Refusal} (h : (relinkedAll rewriter blocks).2 = some refusal) :
    ((rewriteLinks rewriter).run (.document blocks)).answer.result (rewriteLinks rewriter).name =
      .error ((rewriteLinks rewriter).faultOfRefusal refusal) := by
  obtain ⟨total, walked⟩ := walk_links rewriter blocks
  rw [h] at walked
  rw [rewriteLinks, ← linkVisitor]
  simp only
  rw [walked]
  cases refusal <;> rfl

/-! ## the course of the pass -/

/-- **The rewriter hears of every link once, in document order, up to the first that it
refuses.**  If it refuses none, the passes behind go on with the one document in which each URL
is replaced by its image and nothing else is changed.  If it refuses one, it hears of none behind
it: what is left is the one document in which the URLs before it are replaced by their images
and nothing else is changed.  The caller gets the refusal itself where it is a fault of this
library, and else a fault of the pass, with the refusal as its cause. -/
theorem rewriteLinks_course (rewriter : Link.Rewriter) (passes : List Pass) (blocks : List Node) :
    let document := Node.document blocks
    let run := runAll (rewriteLinks rewriter :: passes) document
    (∀ images, rewriter.Maps document.linkUrls images →
      askedUrls rewriter document = document.linkUrls ∧
      ∃ blocks', (∀ n : Node, n = .document blocks' ↔
          n.unlinked = document.unlinked ∧ n.linkUrls = images) ∧
        run.left = (runAll passes (.document blocks')).left ∧
        run.fault? = (runAll passes (.document blocks')).fault?) ∧
    (∀ before url after images refusal, document.linkUrls = before ++ url :: after →
      rewriter.Maps before images → rewriter url = .error refusal →
      askedUrls rewriter document = before ++ [url] ∧
      (∀ n : Node, n = run.left ↔
        n.unlinked = document.unlinked ∧ n.linkUrls = images ++ url :: after) ∧
      match refusal with
      | .fault fault => run.fault? = some fault
      | .cause cause => ∃ fault, run.fault? = some fault ∧ fault.faultClass = .transform ∧
          fault.subject? = some "rewrite-links" ∧ fault.cause? = some cause ∧
          fault.message = "Transform rewrite-links failed: " ++ cause.message) := by
  intro document run
  have asked := askedUrls_document rewriter blocks
  have settled := eq_document_relinkedAll rewriter blocks
  have refusal? : (relinkedAll rewriter blocks).2 = (answers rewriter document.linkUrls).refusal? :=
    (relinkedAll_answers rewriter blocks).2.2
  constructor
  · intro images maps
    rw [answers_of_maps_all maps] at asked settled refusal?
    exact ⟨asked, _, settled, (leaves_rewriteLinks refusal?).run_cons passes⟩
  · intro before url after images refusal urls maps refused
    rw [urls, answers_of_refused maps refused] at asked settled refusal?
    obtain ⟨left, fault⟩ := runAll_cons_of_fault (result_rewriteLinks refusal?) passes
    rw [rewriteLinks_left] at left
    refine ⟨asked, fun n => (congrArg (n = ·) left).to_iff.trans (settled n), ?_⟩
    cases refusal with
    | fault own => exact fault
    | cause cause => exact ⟨_, fault, rfl, rfl, rfl, rfl⟩

/-- Links in a heading, in a link, in a list and in a table: if the third is refused, the two
before it are rewritten and the fourth is not; if none is, all are. -/
theorem rewriteLinks_course_nested :
    let linked (a b c d : String) : List Node :=
      [.branch (.heading 1) [.branch (.link a none) [Node.text "x", .branch (.link b none) []]],
        .branch (.list false 1 true) [.branch (.item none) [Node.paragraph [.branch (.link c none) []]]],
        .branch (.table [none]) [.branch (.row true) [.branch (.cell none)
          [.branch (.link d none) [Node.text "y"]]]]]
    let rewriter : Link.Rewriter := fun url =>
      if url = "c" then .error (.cause (.rewriter "no c")) else .ok ("/" ++ url)
    let document := Node.document (linked "a" "b" "c" "d")
    let refused := runAll [rewriteLinks rewriter, annotateSymbols {}] document
    let run := runAll [rewriteLinks (.prepending "/")] document
    document.linkUrls = ["a", "b"] ++ "c" :: ["d"] ∧
      askedUrls rewriter document = ["a", "b", "c"] ∧
      refused.left = .document (linked "/a" "/b" "c" "d") ∧
      (∃ fault, refused.fault? = some fault ∧ fault.faultClass = .transform ∧
        fault.subject? = some "rewrite-links" ∧ fault.cause? = some (.rewriter "no c") ∧
        fault.message = "Transform rewrite-links failed: no c") ∧
      askedUrls (.prepending "/") document = ["a", "b", "c", "d"] ∧
      run.left = .document (linked "/a" "/b" "/c" "/d") ∧ run.fault? = none := by
  intro linked rewriter document refused run
  have urls : document.linkUrls = ["a", "b"] ++ "c" :: ["d"] := rfl
  have maps : Link.Rewriter.Maps (.prepending "/") document.linkUrls ["/a", "/b", "/c", "/d"] :=
    .cons rfl (.cons rfl (.cons rfl (.cons rfl .nil)))
  obtain ⟨asked, left, fault⟩ := (rewriteLinks_course rewriter [annotateSymbols {}] _).2
    ["a", "b"] "c" ["d"] ["/a", "/b"] (.cause (.rewriter "no c")) urls
    (.cons rfl (.cons rfl .nil)) rfl
  obtain ⟨askedAll, blocks, settled, runLeft, runFault⟩ :=
    (rewriteLinks_course (.prepending "/") [] _).1 _ maps
  have leftRefused := (left (.document (linked "/a" "/b" "c" "d"))).2 ⟨rfl, rfl⟩
  have leftRun := (settled (.document (linked "/a" "/b" "/c" "/d"))).2 ⟨rfl, rfl⟩
  exact ⟨urls, asked, leftRefused.symm, fault, askedAll, runLeft.trans leftRun.symm, runFault⟩

end Pass

end Docsite
