import Docsite.Proofs.Pass.Admonitions
import Docsite.Proofs.Pass.Examples
import Docsite.Proofs.Pass.Links
import Docsite.Proofs.Pass.Relay
import Docsite.Proofs.Pass.Symbols

/-!
# Docsite.Proofs.Pass.Sequence

What passes leave one after another.

A pass that answers with a document hands the tree that it leaves to the next one, so a run of
such passes leaves what each of them makes of what the one before it left (`Leaves.run_cons`).
-/

namespace Docsite.Pass

open Document

/-- Does a pass answer with the document of some blocks, given that of others? -/
structure Leaves (p : Pass) (blocks blocks' : List Node) : Prop where
  left : (p.run (.document blocks)).left = .document blocks'
  answer : (p.run (.document blocks)).answer = .document

/-- A run goes on with what its first pass leaves. -/
theorem Leaves.run_cons {p : Pass} {blocks blocks' : List Node} (h : p.Leaves blocks blocks')
    (passes : List Pass) :
    (runAll (p :: passes) (.document blocks)).left = (runAll passes (.document blocks')).left ∧
      (runAll (p :: passes) (.document blocks)).fault? =
        (runAll passes (.document blocks')).fault? := by
  have answered : (p.run (.document blocks)).answer.result p.name = .ok () := by
    rw [h.answer]
    rfl
  rw [← h.left]
  exact runAll_cons_of_document answered passes

/-- What two passes leave one after the other. -/
theorem Leaves.run_pair {p q : Pass} {blocks blocks' blocks'' : List Node}
    (first : p.Leaves blocks blocks') (second : q.Leaves blocks' blocks'') :
    (runAll [p, q] (.document blocks)).left = .document blocks'' ∧
      (runAll [p, q] (.document blocks)).fault? = none := by
  rw [(first.run_cons [q]).1, (first.run_cons [q]).2, (second.run_cons []).1,
    (second.run_cons []).2]
  exact ⟨rfl, rfl⟩

theorem leaves_rewriteLinks {rewriter : Link.Rewriter} {blocks : List Node}
    (h : (relinkedAll rewriter blocks).2 = none) :
    (rewriteLinks rewriter).Leaves blocks (relinkedAll rewriter blocks).1 where
  left := rewriteLinks_left rewriter blocks
  answer := by
    obtain ⟨total, walked⟩ := walk_links rewriter blocks
    rw [rewriteLinks, ← linkVisitor]
    simp only
    rw [walked, h]
    rfl

theorem leaves_wrapExamples (tables : Tables) (blocks : List Node) :
    (wrapExamples tables).Leaves blocks (wrappedSiblings tables false blocks) where
  left := wrapExamples_left tables blocks
  answer := by
    change answerWith ((wrapExamples tables).run (.document blocks)).left = .document
    rw [wrapExamples_left]
    rfl

theorem leaves_convertAdmonitions (tables : Tables) (blocks : List Node) :
    (convertAdmonitions tables).Leaves blocks (convertedAll tables blocks) where
  left := convertAdmonitions_left tables blocks
  answer := by
    change answerWith ((convertAdmonitions tables).run (.document blocks)).left = .document
    rw [convertAdmonitions_left]
    rfl

theorem leaves_annotateSymbols (tables : Tables) (blocks : List Node) :
    (annotateSymbols tables).Leaves blocks (annotatedAll tables blocks) where
  left := annotateSymbols_left tables blocks
  answer := by
    change answerWith ((annotateSymbols tables).run (.document blocks)).left = .document
    rw [annotateSymbols_left]
    rfl

/-! ## the passes of a conversion -/

section

variable (f : String → String) (tables : Tables) (blocks : List Node)

/-- The blocks of a document when its links are rewritten and its examples wrapped. -/
def wrappedBlocks : List Node := wrappedSiblings tables false (relinkedAll (.ofFunction f) blocks).1

/-- What the first two passes of a conversion leave, the first three, and all four, if no link is
refused. -/
theorem run_standard :
    (runAll ((standard (.ofFunction f) tables).take 2) (.document blocks)).left =
        .document (wrappedBlocks f tables blocks) ∧
      (runAll ((standard (.ofFunction f) tables).take 3) (.document blocks)).left =
        .document (convertedAll tables (wrappedBlocks f tables blocks)) ∧
      (runAll (standard (.ofFunction f) tables) (.document blocks)).left =
        .document (annotatedAll tables (convertedAll tables (wrappedBlocks f tables blocks))) ∧
      (runAll (standard (.ofFunction f) tables) (.document blocks)).fault? = none := by
  have links := leaves_rewriteLinks (relinkedAll_ofFunction f blocks)
  have examples := leaves_wrapExamples tables (relinkedAll (.ofFunction f) blocks).1
  have quotes := leaves_convertAdmonitions tables (wrappedBlocks f tables blocks)
  have symbols := leaves_annotateSymbols tables
    (convertedAll tables (wrappedBlocks f tables blocks))
  rw [← wrappedBlocks] at examples
  simp only [standard, List.take_succ_cons, List.take_zero, links.run_cons, examples.run_cons,
    quotes.run_cons, symbols.run_cons]
  exact ⟨rfl, rfl, rfl, rfl⟩

end

end Docsite.Pass
