import Docsite.Proofs.Markdown.Ancestors
import Docsite.Proofs.Markdown.Fences

/-!
# Docsite.Proofs.Markdown.CarefulWriter

A writer that stops where something would go wrong.

The careful writer goes through a document as the plain one does.  Where a list is to get its
bullet it stops rather than take a remainder by zero, or a bullet that there is none of; where
code is written it stops rather than write a fence with fewer characters than it is told to.
With options that are allowed it never stops, so it writes what the plain writer writes, at every
depth and place (`writeCarefully_eq`), and only options that are allowed ever come into force.
-/

namespace Docsite.Markdown

open Document

/-! ## what may go wrong -/

/-- Why a careful writer stops. -/
inductive Hazard where
  /-- The bullet of lists at a depth would take a remainder by zero. -/
  | remainderByZero (depth : Nat)
  /-- There is no bullet at the index. -/
  | noBulletAt (index : Nat)
  | shortFence (fence : List Char)
  deriving DecidableEq, Repr

/-- A remainder, if it is none by zero. -/
def remainder? (a b : Nat) : Option Nat := if b = 0 then none else some (a % b)

/-- The bullet of lists at a depth. -/
def carefulBullet (o : WritingOptions) (depth : Nat) : Except Hazard Char :=
  match remainder? depth o.bullets.length with
  | none => .error (.remainderByZero depth)
  | some index =>
    match o.bullets.toList[index]? with
    | none => .error (.noBulletAt index)
    | some bullet => .ok bullet

/-- The fence around code. -/
def fenceAround (o : WritingOptions) (content : List Char) : List Char :=
  let length := max o.fenceMin (Text.longestRun o.fence.toList content + 1)
  (List.replicate length.toNat o.fence.toList).flatten

/-- A leaf, with fences of at least so many characters around code. -/
def carefulLeaf (least : Nat) (o : WritingOptions) (place : Place) :
    Leaf → Except Hazard (List Char)
  | .codeBlock content language =>
    let fence := fenceAround o content.toList
    if fence.length < least then .error (.shortFence fence)
    else .ok (fence ++ (language.getD "").toList ++ '\n' :: withFinalNewline content.toList ++ fence)
  | l => .ok (writeLeaf o place l)

/-! ## nodes -/

mutual

/-- A node as it is written with care, at a place and at a depth of lists, and the place after
it. -/
def writeCarefully (least : Nat) (o : WritingOptions) (depth : Nat) (place : Place) :
    Node → Except Hazard (List Char × Place)
  | .leaf l => do
    let text ← carefulLeaf least o place l
    pure (text, place)
  | .branch .root kids => do
    let (texts, after) ← allCarefully least o depth place kids
    pure (joinBlocks (spacing false) texts, after)
  | .branch (.heading level) kids => do
    let (texts, after) ← allCarefully least o depth { place with inHeading := true } kids
    pure (List.replicate level.toNat '#' ++ ' ' :: texts.flatten, { after with inHeading := false })
  | .branch .quote kids => do
    let (texts, after) ← allCarefully least o depth place kids
    pure (quoteLines (joinBlocks (spacing false) texts), after)
  | .branch (.list ordered start tight) kids => do
    let bullet ← carefulBullet o depth
    let (bodies, after) ← itemsCarefully least o (depth + 1) place tight kids
    pure ((spacing tight).intercalate (placeItems ordered start bullet 0 bodies), after)
  | .branch (.item task) kids => do
    let (texts, after) ← allCarefully least o depth place kids
    pure (placeItem ['-', ' '] (taskBox task ++ joinBlocks (spacing true) texts), after)
  | .branch (.table alignments) kids => do
    let (rows, after) ← rowsCarefully least o depth place kids
    pure (Text.unlines (tableLines alignments rows), after)
  | .branch (.row _) kids => do
    let (cells, after) ← cellsCarefully least o depth { place with inCell := true } kids
    pure (tableLine cells, { after with inCell := false })
  | .branch .paragraph kids => do
    let (texts, after) ← allCarefully least o depth place kids
    pure (texts.flatten, after)
  | .branch (.cell _) kids => do
    let (texts, after) ← allCarefully least o depth place kids
    pure (texts.flatten, after)
  | .branch .emphasis kids => do
    let (texts, after) ← allCarefully least o depth place kids
    pure (o.emphasis.toList ++ texts.flatten ++ o.emphasis.toList, after)
  | .branch .strong kids => do
    let (texts, after) ← allCarefully least o depth place kids
    pure ('*' :: '*' :: texts.flatten ++ ['*', '*'], after)
  | .branch .strikethrough kids => do
    let (texts, after) ← allCarefully least o depth place kids
    pure ('~' :: '~' :: texts.flatten ++ ['~', '~'], after)
  | .branch (.link url title) kids => do
    let (texts, after) ← allCarefully least o depth place kids
    pure (linkAround texts.flatten url title, after)

/-- Nodes written with care one after another. -/
def allCarefully (least : Nat) (o : WritingOptions) (depth : Nat) (place : Place) :
    List Node → Except Hazard (List (List Char) × Place)
  | [] => pure ([], place)
  | n :: ns => do
    let (text, between) ← writeCarefully least o depth place n
    let (texts, after) ← allCarefully least o depth between ns
    pure (text :: texts, after)

/-- The bodies of the items of a list.  What is no item stands for a body of its own. -/
def itemsCarefully (least : Nat) (o : WritingOptions) (depth : Nat) (place : Place) (tight : Bool) :
    List Node → Except Hazard (List (List Char) × Place)
  | [] => pure ([], place)
  | .branch (.item task) kids :: ns => do
    let (texts, between) ← allCarefully least o depth place kids
    let (bodies, after) ← itemsCarefully least o depth between tight ns
    pure ((taskBox task ++ joinBlocks (spacing tight) texts) :: bodies, after)
  | n :: ns => do
    let (body, between) ← writeCarefully least o depth place n
    let (bodies, after) ← itemsCarefully least o depth between tight ns
    pure (body :: bodies, after)

/-- The cells of the rows of a table.  What is no row counts as a row without cells. -/
def rowsCarefully (least : Nat) (o : WritingOptions) (depth : Nat) (place : Place) :
    List Node → Except Hazard (List (List (List Char)) × Place)
  | [] => pure ([], place)
  | .branch (.row _) kids :: ns => do
    let (cells, between) ← cellsCarefully least o depth { place with inCell := true } kids
    let (rows, after) ← rowsCarefully least o depth { between with inCell := false } ns
    pure (cells :: rows, after)
  | _ :: ns => do
    let (rows, after) ← rowsCarefully least o depth place ns
    pure ([] :: rows, after)

/-- The contents of the cells of a row.  What is no cell is left out. -/
def cellsCarefully (least : Nat) (o : WritingOptions) (depth : Nat) (place : Place) :
    List Node → Except Hazard (List (List Char) × Place)
  | [] => pure ([], place)
  | .branch (.cell _) kids :: ns => do
    let (texts, between) ← allCarefully least o depth place kids
    let (cells, after) ← cellsCarefully least o depth between ns
    pure (texts.flatten :: cells, after)
  | _ :: ns => cellsCarefully least o depth place ns

end

/-! ## leaves -/

variable {o : WritingOptions} {least : Nat}

/-- The code is written with a line feed at its end, between two fences of the same length. -/
theorem codeBlock_eq (o : WritingOptions) (content : List Char) (language : Option String) :
    codeBlock o content language =
      fenceAround o content ++ (language.getD "").toList ++ '\n' :: withFinalNewline content ++
        fenceAround o content := by
  rw [codeBlock, withFinalNewline, fenceAround]
  split <;> simp

/-- A fence of one character has at least as many of them as the options say. -/
theorem le_length_fenceAround (one : o.fence.length = 1) (content : List Char) :
    o.fenceMin ≤ (fenceAround o content).length := by
  rw [← String.length_toList] at one
  rw [fenceAround, List.length_flatten, List.map_replicate, List.sum_replicate_nat, one, Nat.mul_one]
  omega

theorem carefulLeaf_eq (long : ∀ content, least ≤ (fenceAround o content).length) (place : Place)
    (l : Leaf) : carefulLeaf least o place l = .ok (writeLeaf o place l) := by
  cases l with
  | codeBlock content language =>
    rw [carefulLeaf, writeLeaf, codeBlock_eq]
    exact if_neg (Nat.not_lt.mpr (long content.toList))
  | _ => rfl

theorem carefulBullet_eq (allowed : o.Allowed) (depth : Nat) :
    carefulBullet o depth = .ok (bulletAt o depth) := by
  have checked : o.check = .ok o := WritingOptions.check_eq_ok_iff.mpr ⟨rfl, allowed⟩
  rw [carefulBullet, remainder?, if_neg allowed.length_bullets_pos.ne']
  simp only [getElem?_bullets checked]

/-! ## whole trees -/

/-- Is there neither a bullet nor a leaf that the careful writer stops at? -/
structure Harmless (least : Nat) (o : WritingOptions) : Prop where
  bullet : ∀ depth, carefulBullet o depth = .ok (bulletAt o depth)
  leaf : ∀ place l, carefulLeaf least o place l = .ok (writeLeaf o place l)

mutual

/-- **Where no bullet and no leaf stops it, the careful writer writes what the plain one does.** -/
theorem writeCarefully_eq (free : Harmless least o) (depth : Nat) (place : Place) : (n : Node) →
    writeCarefully least o depth place n = .ok (write o depth place n)
  | .leaf l => by
    rw [writeCarefully, write, free.leaf]
    rfl
  | .branch b kids => by
    cases b with
    | list ordered start tight =>
      rw [writeCarefully, write, free.bullet, itemsCarefully_eq free (depth + 1) place tight kids]
      rfl
    | table alignments =>
      rw [writeCarefully, write, rowsCarefully_eq free depth place kids]
      rfl
    | row isHeader =>
      rw [writeCarefully, write, cellsCarefully_eq free depth _ kids]
      rfl
    | _ =>
      rw [writeCarefully, write, allCarefully_eq free depth _ kids]
      rfl

theorem allCarefully_eq (free : Harmless least o) (depth : Nat) (place : Place) : (ns : List Node) →
    allCarefully least o depth place ns = .ok (writeAll o depth place ns)
  | [] => by
    rw [allCarefully, writeAll]
    rfl
  | n :: ns => by
    have rest := allCarefully_eq free depth (write o depth place n).2 ns
    rw [allCarefully, writeAll, writeCarefully_eq free depth place n]
    exact congrArg (· >>= fun (texts, after) => .ok ((write o depth place n).1 :: texts, after)) rest

theorem itemsCarefully_eq (free : Harmless least o) (depth : Nat) (place : Place) (tight : Bool) :
    (ns : List Node) →
    itemsCarefully least o depth place tight ns = .ok (writeItems o depth place tight ns)
  | [] => by
    rw [itemsCarefully, writeItems]
    rfl
  | n :: ns => by
    have other (h : ∀ task kids, n ≠ .branch (.item task) kids) :
        itemsCarefully least o depth place tight (n :: ns) =
          .ok (writeItems o depth place tight (n :: ns)) := by
      have rest := itemsCarefully_eq free depth (write o depth place n).2 tight ns
      rw [itemsCarefully, writeItems, writeCarefully_eq free depth place n]
      · exact congrArg (· >>= fun (bodies, after) =>
          .ok ((write o depth place n).1 :: bodies, after)) rest
      · exact h
      · exact h
    cases n with
    | leaf l => exact other nofun
    | branch b kids =>
      cases b with
      | item task =>
        have rest := itemsCarefully_eq free depth (writeAll o depth place kids).2 tight ns
        rw [itemsCarefully, writeItems, allCarefully_eq free depth place kids]
        exact congrArg (· >>= fun (bodies, after) =>
          .ok ((taskBox task ++ joinBlocks (spacing tight) (writeAll o depth place kids).1) :: bodies,
            after)) rest
      | _ => exact other nofun

theorem rowsCarefully_eq (free : Harmless least o) (depth : Nat) (place : Place) : (ns : List Node) →
    rowsCarefully least o depth place ns = .ok (writeRows o depth place ns)
  | [] => by
    rw [rowsCarefully, writeRows]
    rfl
  | n :: ns => by
    have other (h : ∀ isHeader kids, n ≠ .branch (.row isHeader) kids) :
        rowsCarefully least o depth place (n :: ns) = .ok (writeRows o depth place (n :: ns)) := by
      rw [rowsCarefully, writeRows, rowsCarefully_eq free depth place ns]
      · rfl
      · exact h
      · exact h
    cases n with
    | leaf l => exact other nofun
    | branch b kids =>
      cases b with
      | row isHeader =>
        have rest := rowsCarefully_eq free depth
          { (writeCells o depth { place with inCell := true } kids).2 with inCell := false } ns
        rw [rowsCarefully, writeRows, cellsCarefully_eq free depth _ kids]
        exact congrArg (· >>= fun (rows, after) =>
          .ok ((writeCells o depth { place with inCell := true } kids).1 :: rows, after)) rest
      | _ => exact other nofun

theorem cellsCarefully_eq (free : Harmless least o) (depth : Nat) (place : Place) : (ns : List Node) →
    cellsCarefully least o depth place ns = .ok (writeCells o depth place ns)
  | [] => by
    rw [cellsCarefully, writeCells]
    rfl
  | n :: ns => by
    have other (h : ∀ alignment kids, n ≠ .branch (.cell alignment) kids) :
        cellsCarefully least o depth place (n :: ns) =
          .ok (writeCells o depth place (n :: ns)) := by
      rw [cellsCarefully, writeCells]
      · exact cellsCarefully_eq free depth place ns
      · exact h
      · exact h
    cases n with
    | leaf l => exact other nofun
    | branch b kids =>
      cases b with
      | cell alignment =>
        have rest := cellsCarefully_eq free depth (writeAll o depth place kids).2 ns
        rw [cellsCarefully, writeCells, allCarefully_eq free depth place kids]
        exact congrArg (· >>= fun (cells, after) =>
          .ok ((writeAll o depth place kids).1.flatten :: cells, after)) rest
      | _ => exact other nofun

end

/-- Without bullets it stops at the first list. -/
example : writeCarefully 0 { bullets := "" } 2 {} (.branch (.list false 1 true) []) =
    .error (.remainderByZero 2) := by rfl

/-- With options that are allowed the careful writer does not stop, if it is to see to the fences
only where they are of one character. -/
theorem writeCarefully_of_allowed (allowed : o.Allowed) (fences : least ≤ 3)
    (one : least ≠ 0 → o.fence.length = 1) (depth : Nat) (place : Place) (n : Node) :
    writeCarefully least o depth place n = .ok (write o depth place n) := by
  refine writeCarefully_eq ⟨carefulBullet_eq allowed, carefulLeaf_eq fun content => ?_⟩ depth place n
  by_cases none : least = 0
  · omega
  · have options := allowed.fenceMin
    have long := le_length_fenceAround (one none) content
    omega

/-- **Only options that are allowed ever come into force, and with them every document can be
written.**  Whatever options a row of changes begins with and whichever of the changes are refused,
there is a bullet to write lists with, and no fence may have fewer than three marks; a change that
is refused leaves the options that were in force before it.  So no list takes a remainder by zero
for its bullet, at whatever depth it stands, and a fence of one character has it at least three
times. -/
theorem writeCarefully_afterSteps {first : WritingChange} {made : WritingOptions}
    (constructed : WritingOptions.change {} first = .ok made) (changes : List WritingChange) :
    let o := made.afterSteps changes
    (o.bullets ≠ "" ∧ 3 ≤ o.fenceMin) ∧
      (∀ c, made.steps (changes ++ [c]) = made.steps changes ++ [o.change c] ∧
        made.afterSteps (changes ++ [c]) =
          match o.change c with
          | .ok changed => changed
          | .error _ => o) ∧
      (∀ depth place n, writeCarefully 0 o depth place n = .ok (write o depth place n)) ∧
      (o.fence.length = 1 →
        ∀ depth place n, writeCarefully 3 o depth place n = .ok (write o depth place n)) := by
  intro o
  have allowed : o.Allowed := by
    obtain ⟨rfl, begun⟩ := WritingOptions.change_eq_ok_iff.mp constructed
    exact begun.afterSteps changes
  refine ⟨⟨allowed.bullets, allowed.fenceMin⟩, fun c => ?_, ?_, fun one => ?_⟩
  · exact ⟨WritingOptions.steps_concat made changes c, WritingOptions.afterSteps_concat made changes c⟩
  · exact writeCarefully_of_allowed allowed (Nat.zero_le 3) (absurd rfl)
  · exact writeCarefully_of_allowed allowed le_rfl fun _ => one

/-- No bullets and fences of two marks are refused; tildes and two bullets are what stays, for a
list with code and a list in it. -/
theorem writeCarefully_afterSteps_refused :
    let first : WritingChange := { bullets := some "-+" }
    let changes : List WritingChange :=
      [{ bullets := some "" }, { fence := some "~" }, { fenceMin := some 2, emphasis := some "_" }]
    let o : WritingOptions := { bullets := "-+", fence := "~" }
    let inner : Node := .branch (.list false 1 true)
      [.branch (.item none) [.leaf (.codeBlock "x" none)]]
    WritingOptions.change {} first = .ok { bullets := "-+" } ∧
      WritingOptions.afterSteps { bullets := "-+" } changes = o ∧ o.fence.length = 1 ∧
      writeCarefully 3 o 0 {} (.branch (.list false 1 true) [.branch (.item none) [inner]]) =
        .ok ("- + ~~~\n    x\n    ~~~".toList, {}) := by
  intro first changes o inner
  have made : WritingOptions.change {} first = .ok { bullets := "-+" } := by decide +kernel
  have after : WritingOptions.afterSteps { bullets := "-+" } changes = o := by decide +kernel
  have one : o.fence.length = 1 := by decide +kernel
  have written := (writeCarefully_afterSteps made changes).2.2.2
  rw [after] at written
  refine ⟨made, after, one, (written one 0 {} _).trans ?_⟩
  decide +kernel

end Docsite.Markdown
