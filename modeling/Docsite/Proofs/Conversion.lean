import Docsite.Markdown.Tokenize
import Docsite.Proofs.FrontMatter.Block
import Docsite.Proofs.FrontMatter.Title
import Docsite.Proofs.Pass.Shape

/-!
# Docsite.Proofs.Conversion

What a conversion comes to.

The title of a page is looked for in its text and not in its document, so a document without a
heading of the first level is refused only as long as no line of the page looks like one.  Code and
HTML are written as they stand, and a comment in them that begins with a hash sign is such a line.
Whatever a page is made from, its lines end with line feeds (`return_notMem_run`).
-/

namespace Docsite.Conversion

open Document FrontMatter Markdown

/-- The passes of a conversion, run on what is read from tokens. -/
def finished (s : Settings) (tokens : List Token) : PassRun :=
  Pass.runAll (Pass.standard s.rewriter s.tables) (ofTokens tokens)

/-- Passes that end without a fault leave a page that has a title, or the fault that it has none. -/
theorem result_run {s : Settings} {tokens : List Token}
    (ran : (finished s tokens).fault? = none) :
    (run s (.ok tokens)).result =
      match prepend? s.tables (body s (finished s tokens).left).toList with
      | none => .error (.missingTitle s.file)
      | some (_, text) => .ok (.ofList text) := by
  unfold run read
  simp only
  rw [← finished, ran]
  simp only [finish, withFrontMatter]
  split <;> simp_all

/-- A fault of the passes is the fault of the conversion. -/
theorem result_run_fault {s : Settings} {tokens : List Token} {fault : Fault}
    (ran : (finished s tokens).fault? = some fault) :
    (run s (.ok tokens)).result = .error fault := by
  unfold run read
  simp only
  rw [← finished, ran]

/-- Line endings are line feeds where a document is written. -/
theorem return_notMem_body (s : Settings) (n : Node) : '\r' ∉ (body s n).toList := by
  rw [body, render, String.toList_append, String.toList_ofList, List.mem_append]
  refine not_or.mpr ⟨fun mem => ?_, by decide⟩
  rw [tidy, Text.trimEnd] at mem
  have inside := (Text.dropEndWhile_prefix _ _).subset mem
  exact Text.return_notMem_normalizeNewlines _ ((Text.trimWhile_infix _ _).subset inside)

/-- And so they are in a page, front matter and all. -/
theorem return_notMem_run {s : Settings} {tokens : Except Cause (List Token)} {page : String}
    (converted : (run s tokens).result = .ok page) : '\r' ∉ page.toList := by
  cases tokens with
  | error cause => contradiction
  | ok tokens =>
    cases ran : (finished s tokens).fault? with
    | some fault =>
      rw [result_run_fault ran] at converted
      contradiction
    | none =>
      rw [result_run ran] at converted
      have whole := return_notMem_body s (finished s tokens).left
      generalize (body s (finished s tokens).left).toList = text at converted whole
      cases prepended : prepend? s.tables text with
      | none =>
        rw [prepended] at converted
        contradiction
      | some found =>
        rw [prepended] at converted
        obtain rfl := Except.ok.inj converted
        obtain ⟨title, -, rfl⟩ := Option.map_eq_some_iff.mp prepended
        simp [return_notMem_block, whole]

/-- **What a page without a top heading is titled by.**  If no heading of the first level is among
the blocks of a finished document, only code and HTML among these blocks can bring a title.  If
none of them has a title line there is no title, and that is a fault.  The first title line in them
becomes the title of the page. -/
theorem run_untitled {s : Settings} (marks : s.writing = {}) {tokens : List Token}
    (ran : (finished s tokens).fault? = none)
    (untitled : ∀ n ∈ (finished s tokens).left.children, isTitleHeading n = false)
    (calm : ∀ m ∈ (finished s tokens).left.subtrees, isCalm m = true) :
    ((finished s tokens).left.children.findSome? verbatimTitle? = none →
        (run s (.ok tokens)).result = .error (.missingTitle s.file)) ∧
      ∀ title ≠ [], (finished s tokens).left.children.findSome? verbatimTitle? = some title →
        (run s (.ok tokens)).result =
          .ok (.ofList ((ofTitle s.tables (.ofList title)).block ++
            '\n' :: '\n' :: (body s (finished s tokens).left).toList)) := by
  obtain ⟨blocks, left, shape⟩ :=
    Pass.shape_runAll (Pass.keepsShape_standard s.rewriter s.tables) (Document.blocks tokens)
      (wellShaped_ofTokens tokens)
  have done : (finished s tokens).left = .document blocks := left
  rw [result_run ran]
  rw [done] at untitled calm ⊢
  have tame : Tame (.document blocks) := fun m mem => ⟨admits_of_fits (shape m mem), calm m mem⟩
  obtain ⟨kinds, -, below⟩ := tame_branch tame
  have same : ∀ n ∈ blocks, blockTitle? n = verbatimTitle? n := fun n mem =>
    blockTitle?_eq_verbatimTitle? (kinds n mem) (below n mem) (untitled n mem)
  have titles : blocks.findSome? blockTitle? = blocks.findSome? verbatimTitle? := by
    have all := congrArg (List.findSome? id) (List.map_congr_left same)
    simpa only [List.findSome?_map, Function.id_comp] using all
  constructor
  · intro nothing
    rw [Tree.children_branch, ← titles] at nothing
    have worded : blocks.findSome? blockTitle? ≠ some [] := by simp [nothing]
    rw [prepend?, toOption_extractTitle, titleOf?_body marks worded, nothing]
    rfl
  · intro title filled something
    rw [Tree.children_branch, ← titles] at something
    have worded : blocks.findSome? blockTitle? ≠ some [] := by simpa [something] using filled
    rw [prepend?, toOption_extractTitle, titleOf?_body marks worded, something]
    rfl

/-- Hash signs in headings, quotes, lists, text, code in a line, a table and a code block. -/
theorem run_untitled_second_level :
    let tokens := tokenize {}
      "## A\n\n> # B\n\n- # C\n\n\\# d `# e` <b>\n\n| # f |\n|---|\n\n```\n## g\n```\n"
    (finished {} tokens).left.children.findSome? verbatimTitle? = none ∧
      (run {} (.ok tokens)).result = .error (.missingTitle none) := by
  intro tokens
  have ran : (finished {} tokens).fault? = none := by decide +kernel
  have untitled : ∀ n ∈ (finished {} tokens).left.children, isTitleHeading n = false := by
    decide +kernel
  have calm : ∀ m ∈ (finished {} tokens).left.subtrees, isCalm m = true := by decide +kernel
  have nothing : (finished {} tokens).left.children.findSome? verbatimTitle? = none := by
    decide +kernel
  exact ⟨nothing, (run_untitled rfl ran untitled calm).1 nothing⟩

/-- A comment in a code block is the title of a page without a heading. -/
theorem not_missingTitle :
    ¬∀ (s : Settings) (tokens : List Token), s.writing = {} →
      (finished s tokens).fault? = none →
      (∀ n ∈ (finished s tokens).left.children, isTitleHeading n = false) →
      (run s (.ok tokens)).result = .error (.missingTitle s.file) := by
  intro missing
  have ran : (finished {} (tokenize {} "```\n# x\n```\n")).fault? = none := by decide +kernel
  have untitled : ∀ n ∈ (finished {} (tokenize {} "```\n# x\n```\n")).left.children,
      isTitleHeading n = false := by decide +kernel
  have fault := missing {} _ rfl ran untitled
  have titled : (run {} (.ok (tokenize {} "```\n# x\n```\n"))).result =
      .ok "---\ntitle: x\nsidebar_label: x\n---\n\n```\n# x\n```\n" := by decide +kernel
  rw [titled] at fault
  exact absurd fault nofun

end Docsite.Conversion
