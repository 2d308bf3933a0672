import Docsite.Document.OfTokens
import Docsite.Markdown.Inline.OfText
import Docsite.Proofs.Markdown.Rest
import Docsite.Proofs.Markdown.TableCells

/-!
# Docsite.Proofs.Markdown.CellInlines

What is read in the cell of a table.

The source of a cell stays in its cell, and so does every piece of it.  Whatever the tokenizer makes
of it, by code spans, raw HTML and links, and by pairing runs of emphasis, gives nodes that are
settled (`settled_inlinesOf`): code and raw HTML are pieces of the source, URLs are encoded, and no
line feed is there for a text to hold.
-/

namespace Docsite.Markdown

open Document Docsite.Tree

variable {s t : List Char}

/-! ## URLs -/

theorem ne_of_mem_hexByte {b : UInt8} {c : Char} (mem : c ∈ Unicode.hexByte b) :
    c ≠ '\n' ∧ c ≠ '|' := by
  have digit : ∀ n < 16, (Nat.digitChar n).toUpper ≠ '\n' ∧ (Nat.digitChar n).toUpper ≠ '|' := by
    decide
  have bound : b.toNat < 256 := b.toNat_lt
  rw [Unicode.hexByte, List.mem_cons, List.mem_singleton] at mem
  rcases mem with rfl | rfl
  · exact digit _ (by omega)
  · exact digit _ (by omega)

theorem ne_of_mem_percentEncode {c : Char} (mem : c ∈ Unicode.percentEncode s) :
    c ≠ '\n' ∧ c ≠ '|' := by
  obtain ⟨d, -, inside⟩ := List.mem_flatMap.mp mem
  rw [Unicode.percentEncodeChar] at inside
  split at inside
  · next safe =>
    obtain rfl := List.mem_singleton.mp inside
    constructor
    · rintro rfl
      exact absurd safe (by decide)
    · rintro rfl
      exact absurd safe (by decide)
  · obtain ⟨b, -, inside⟩ := List.mem_flatMap.mp inside
    rcases List.mem_cons.mp inside with rfl | inside
    · decide
    · exact ne_of_mem_hexByte inside

/-- An encoded text has no pipe and no line feed. -/
theorem staysInCell_percentEncode (s : List Char) : StaysInCell (Unicode.percentEncode s) :=
  staysInCell_of_notMem (fun mem => (ne_of_mem_percentEncode mem).1 rfl)
    fun mem => (ne_of_mem_percentEncode mem).2 rfl

theorem staysInCell_addressOf (destination : List Char) :
    StaysInCell (addressOf destination).toList := by
  rw [addressOf, String.toList_ofList]
  exact staysInCell_percentEncode _

/-! ## tokens -/

/-- Is the node of a token, if it has one, settled? -/
def Sound (t : Token) : Prop :=
  ∀ n, inline? t = some n → staysItself n = true ∧ Settled n.children

theorem settled_nil : Settled [] := fun _ none => absurd none List.not_mem_nil

theorem settled_consInline {n : Node} {ns : List Node} (itself : staysItself n = true)
    (below : Settled n.children) (rest : Settled ns) : Settled (consInline n ns) := by
  unfold consInline
  split
  · next a b ns =>
    obtain ⟨text, -, others⟩ := settled_cons.mp rest
    have joined : staysItself (.text (a ++ b)) = true := by
      have first : '\n' ∉ a.toList := of_decide_eq_true itself
      have second : '\n' ∉ b.toList := of_decide_eq_true text
      exact decide_eq_true (by simp [first, second])
    exact settled_cons.mpr ⟨joined, settled_nil, others⟩
  · exact settled_cons.mpr ⟨itself, below, rest⟩

/-- Sound tokens have settled nodes. -/
theorem settled_inlines {ts : List Token} (sound : ∀ t ∈ ts, Sound t) : Settled (inlines ts) := by
  induction ts with
  | nil => exact settled_nil
  | cons t ts ih =>
    rw [List.forall_mem_cons] at sound
    rw [inlines]
    split
    · next n is =>
      obtain ⟨itself, below⟩ := sound.1 n is
      exact settled_consInline itself below (ih sound.2)
    · exact ih sound.2

theorem sound_text (line : '\n' ∉ s) : Sound (.ofRaw .text (.ofList s)) := by
  rintro n ⟨⟩
  exact ⟨decide_eq_true (by rwa [String.toList_ofList]), settled_nil⟩

theorem sound_codeSpan (stays : StaysInCell s) : Sound (.ofRaw .codeSpan (.ofList s)) := by
  rintro n ⟨⟩
  exact ⟨decide_eq_true (by rwa [String.toList_ofList]), settled_nil⟩

theorem sound_inlineHtml (stays : StaysInCell s) : Sound (.ofRaw .inlineHtml (.ofList s)) := by
  rintro n ⟨⟩
  exact ⟨decide_eq_true (by rwa [String.toList_ofList]), settled_nil⟩

theorem sound_link (image : Bool) (attributes : Token.Attributes) {inside : List Token}
    (url : StaysInCell attributes.url.toList) (sound : ∀ t ∈ inside, Sound t) :
    Sound (.mk (if image then .image else .link) "" attributes none inside) := by
  cases image with
  | true =>
    rintro n ⟨⟩
    exact ⟨decide_eq_true url, settled_nil⟩
  | false =>
    rintro n ⟨⟩
    exact ⟨decide_eq_true url, settled_inlines sound⟩

/-- Pairs of runs make emphasis of some kind. -/
theorem sound_around (opening closing : Run) {inside : List Token} (sound : ∀ t ∈ inside, Sound t) :
    Sound (.around (opening.kind closing) inside) := by
  have content := settled_inlines sound
  unfold Run.kind
  split
  · rintro n ⟨⟩
    exact ⟨rfl, content⟩
  · split
    · rintro n ⟨⟩
      exact ⟨rfl, content⟩
    · rintro n ⟨⟩
      exact ⟨rfl, content⟩

/-! ## runs of emphasis -/

/-- Does a piece bring sound tokens, or a run of some mark? -/
def Piece.Sound : Piece → Prop
  | .token t => Markdown.Sound t
  | .run r => r.mark ≠ '\n'

/-- An open run of some mark behind sound tokens. -/
structure OpenRun.Sound (o : OpenRun) : Prop where
  mark : o.run.mark ≠ '\n'
  before : ∀ t ∈ o.before, Markdown.Sound t

/-- All that has been added is sound. -/
structure Emphasis.Sound (e : Emphasis) : Prop where
  stack : ∀ o ∈ e.stack, o.Sound
  tokens : ∀ t ∈ e.tokens, Markdown.Sound t

theorem Run.sound_text {r : Run} (mark : r.mark ≠ '\n') : Sound r.text :=
  Markdown.sound_text fun mem => mark (List.eq_of_mem_replicate mem).symm

namespace Emphasis

variable {e : Emphasis} {r : Run}

theorem sound_flatten {tokens : List Token} {os : List OpenRun} (sound : ∀ t ∈ tokens, Markdown.Sound t)
    (open_ : ∀ o ∈ os, o.Sound) : ∀ t ∈ flatten tokens os, Markdown.Sound t := by
  induction os generalizing tokens with
  | nil => exact sound
  | cons o os ih =>
    rw [List.forall_mem_cons] at open_
    rw [flatten, List.forall_mem_append, List.forall_mem_cons]
    exact ⟨sound, Run.sound_text open_.1.mark, ih open_.1.before open_.2⟩

theorem nearest?_eq_some {os above below : List OpenRun} {o : OpenRun}
    (h : nearest? r os = some (above, o, below)) : os = above ++ o :: below := by
  induction os generalizing above with
  | nil => contradiction
  | cons p ps ih =>
    rw [nearest?] at h
    split at h
    · obtain ⟨rfl, rest⟩ := Prod.mk.inj (Option.some.inj h)
      obtain ⟨rfl, rfl⟩ := Prod.mk.inj rest
      rfl
    · obtain ⟨⟨above', o', below'⟩, found, same⟩ := Option.map_eq_some_iff.mp h
      obtain ⟨rfl, rest⟩ := Prod.mk.inj same
      obtain ⟨rfl, rfl⟩ := Prod.mk.inj rest
      rw [ih found, List.cons_append]

theorem Sound.leave (sound : e.Sound) (mark : r.mark ≠ '\n') : (e.leave r).Sound := by
  rw [Emphasis.leave]
  split
  · exact ⟨List.forall_mem_cons.mpr ⟨⟨mark, sound.tokens⟩, sound.stack⟩, nofun⟩
  · exact ⟨sound.stack, List.forall_mem_cons.mpr ⟨Run.sound_text mark, sound.tokens⟩⟩

theorem Sound.meet (fuel : Nat) (sound : e.Sound) (mark : r.mark ≠ '\n') :
    (e.meet fuel r).Sound := by
  induction fuel generalizing e r with
  | zero =>
    rw [Emphasis.meet]
    split
    · exact sound
    · exact sound.leave mark
  | succ fuel ih =>
    rw [Emphasis.meet]
    split
    · exact sound
    · split
      · exact sound.leave mark
      · next above o below found =>
        have split_ : e.stack = above ++ o :: below := by
          split at found
          · exact nearest?_eq_some found
          · contradiction
        have stack := sound.stack
        rw [split_, List.forall_mem_append, List.forall_mem_cons] at stack
        obtain ⟨inside, here, outside⟩ := stack
        have pair : Markdown.Sound (Token.around (o.run.kind r) (flatten e.tokens above).reverse) :=
          sound_around _ _ fun t mem =>
            sound_flatten sound.tokens inside t (List.mem_reverse.mp mem)
        refine ih ?_ mark
        split
        · exact ⟨outside, List.forall_mem_cons.mpr ⟨pair, here.before⟩⟩
        · exact ⟨List.forall_mem_cons.mpr ⟨⟨here.mark, here.before⟩, outside⟩,
            List.forall_mem_cons.mpr ⟨pair, nofun⟩⟩

theorem Sound.add (sound : e.Sound) {p : Piece} (h : p.Sound) : (e.add p).Sound := by
  cases p with
  | token t => exact ⟨sound.stack, List.forall_mem_cons.mpr ⟨h, sound.tokens⟩⟩
  | run r => exact sound.meet _ h

end Emphasis

/-- Pairing runs of emphasis makes sound tokens of sound pieces. -/
theorem sound_tokens {pieces : List Piece} (sound : ∀ p ∈ pieces, p.Sound) :
    ∀ t ∈ Piece.tokens pieces, Sound t := by
  have all (e : Emphasis) (start : e.Sound) : (pieces.foldl Emphasis.add e).Sound := by
    induction pieces generalizing e with
    | nil => exact start
    | cons p ps ih =>
      rw [List.forall_mem_cons] at sound
      exact ih sound.2 _ (start.add sound.1)
  have done := all {} ⟨nofun, nofun⟩
  intro t mem
  exact Emphasis.sound_flatten done.tokens done.stack t (List.mem_reverse.mp mem)

/-! ## spans -/

/-- The beginning of a text that stays in its cell. -/
theorem StaysInCell.beginning (h : StaysInCell s) (part : t <+: s) : StaysInCell t :=
  Guarded.within h (List.cons_prefix_cons.mpr ⟨rfl, part⟩).isInfix

theorem staysInCell_codeOf (stays : StaysInCell s) : StaysInCell (codeOf s) := by
  have line : s.map (fun c => if c = '\n' then ' ' else c) = s := by
    conv_rhs => rw [← List.map_id s]
    refine List.map_congr_left fun c mem => if_neg ?_
    rintro rfl
    exact stays.line (List.mem_cons_of_mem _ mem)
  unfold codeOf
  rw [line]
  dsimp only
  split
  · next outer =>
    obtain ⟨t, rfl⟩ : ∃ t, s = ' ' :: t := List.head?_eq_some_iff.mp outer.1
    rw [staysInCell_cons (by decide) (by decide) (by decide)] at stays
    exact stays.beginning (List.dropLast_prefix t)
  · exact stays

/-- A backtick stands before what follows a run of them. -/
theorem suffix_of_ticks (s : List Char) :
    '\x60' :: s.dropWhile (· == '\x60') <:+ '\x60' :: s := by
  induction s with
  | nil => exact List.suffix_refl _
  | cons c cs ih =>
    by_cases tick : c = '\x60'
    · subst tick
      exact ih.trans (List.suffix_cons ..)
    · simp [tick]

/-! ## reading a cell -/

/-- All pieces that have been read are sound. -/
structure Reading.Sound (r : Reading) : Prop where
  pieces : ∀ p ∈ r.pieces, p.Sound
  before : ∀ b ∈ r.brackets, ∀ p ∈ b.before, p.Sound

/-- A step keeps what has been read sound, and goes on with the end of the text. -/
structure Reading.Goes (s : List Char) (next : Reading × List Char) : Prop where
  sound : next.1.Sound
  rest : next.2 <:+ s

theorem Piece.sound_text (line : '\n' ∉ s) : (Piece.text s).Sound := Markdown.sound_text line

theorem Bracket.sound_text (b : Bracket) : b.text.Sound := by
  rw [Bracket.text]
  apply Piece.sound_text
  split <;> decide

namespace Reading

variable {r : Reading} {c : Char}

theorem Sound.add (sound : r.Sound) (last : Char) {p : Piece} (h : p.Sound) : (r.add last p).Sound :=
  ⟨List.forall_mem_cons.mpr ⟨h, sound.pieces⟩, sound.before⟩

theorem Sound.addText (sound : r.Sound) (line : '\n' ∉ s) (last : Char) : (r.addText s last).Sound :=
  sound.add last (Piece.sound_text line)

theorem Sound.space (sound : r.Sound) (line : '\n' ∉ s) : Goes s (r.space s) := by
  have white : '\n' ∉ s.takeWhile isAsciiSpace := fun mem => line ((List.takeWhile_subset _) mem)
  rw [Reading.space]
  rw [if_neg (by simpa using white)]
  exact ⟨sound.addText white _, List.dropWhile_suffix _⟩

theorem Sound.escape (sound : r.Sound) (line : '\n' ∉ s) : Goes s (r.escape s) := by
  unfold Reading.escape
  split
  · simp at line
  · next c cs _ =>
    rw [List.mem_cons, not_or] at line
    split
    · exact ⟨sound.addText (by simpa using line.1) _, List.suffix_cons ..⟩
    · exact ⟨sound.addText (by decide) _, List.suffix_refl _⟩
  · exact ⟨sound.addText (by decide) _, List.suffix_refl _⟩

theorem Sound.code (sound : r.Sound) (guarded : Guarded ('\x60' :: s)) :
    Goes ('\x60' :: s) (r.code ('\x60' :: s)) := by
  have ticks : '\n' ∉ ('\x60' :: s).takeWhile (· == '\x60') :=
    fun mem => guarded.line (List.takeWhile_subset _ mem)
  have behind : ('\x60' :: s).dropWhile (· == '\x60') <:+ '\x60' :: s := List.dropWhile_suffix _
  have stays : StaysInCell (('\x60' :: s).dropWhile (· == '\x60')) := by
    rw [List.dropWhile_cons_of_pos rfl]
    have marked : '\x60' ≠ '\n' ∧ '\x60' ≠ '\\' := by decide
    rw [← guarded_cons marked.1 marked.2]
    exact guarded.within (suffix_of_ticks s).isInfix
  unfold Reading.code
  dsimp only
  split
  · next code rest read =>
    obtain ⟨source, begins, rfl, ends⟩ := codeSpan?_eq_some read
    exact ⟨sound.add _ (sound_codeSpan (staysInCell_codeOf (stays.beginning begins))),
      ends.trans behind⟩
  · exact ⟨sound.addText ticks _, behind⟩

theorem Sound.angle (sound : r.Sound) (guarded : Guarded ('<' :: s)) : Goes s (r.angle s) := by
  have line : '\n' ∉ s := fun mem => guarded.line (List.mem_cons_of_mem _ mem)
  unfold Reading.angle
  split
  · next written url rest read =>
    obtain ⟨begins, ends, address, encoded⟩ := autolink?_eq_some read
    have stays : StaysInCell url.toList := by
      rcases encoded with is | is
      · rw [is]
        exact staysInCell_percentEncode address
      · rw [is]
        exact StaysInCell.append (by decide) (staysInCell_percentEncode address)
    have text := Markdown.sound_text fun mem => line (begins.subset mem)
    have link := sound_link false { url } stays (List.forall_mem_singleton.mpr text)
    exact ⟨sound.add _ link, ends⟩
  · split
    · next rest read =>
      have html : StaysInCell ('<' :: s.take (s.length - rest.length)) := by
        refine staysInCell_iff.mpr ⟨guarded.within ?_, by simp⟩
        exact (List.cons_prefix_cons.mpr ⟨rfl, List.take_prefix ..⟩).isInfix
      exact ⟨sound.add _ (sound_inlineHtml html), RawHtml.suffix_of_afterPiece? read⟩
    · exact ⟨sound.addText (by decide) _, List.suffix_refl _⟩

theorem Sound.marks (sound : r.Sound) (line : c ≠ '\n') (s : List Char) :
    Goes s (r.marks c s) := by
  refine ⟨sound.add c ?_, List.dropWhile_suffix _⟩
  show (Run.ofEmphasis ..).mark ≠ '\n'
  rw [Run.ofEmphasis]
  split <;> exact line

theorem Sound.tildes (sound : r.Sound) (s : List Char) : Goes s (r.tildes s) := by
  have run : '\n' ∉ s.takeWhile (· == '~') := by
    intro mem
    exact absurd (List.all_eq_true.mp List.all_takeWhile _ mem) (by decide)
  have mark (length : Nat) (before after : Char) :
      (Piece.run (.ofTildes length before after)).Sound := by
    show '~' ≠ '\n'
    decide
  unfold Reading.tildes
  dsimp only
  split
  · exact ⟨sound.addText run _, List.dropWhile_suffix _⟩
  · refine ⟨?_, List.dropWhile_suffix _⟩
    split
    · exact sound.add _ (mark _ _ _)
    · exact (sound.addText (fun mem => run (List.mem_of_mem_drop mem)) _).add _ (mark _ _ _)

theorem Sound.openBracket (sound : r.Sound) (image : Bool) (s : List Char) :
    Goes s (r.openBracket image s) :=
  ⟨⟨nofun, List.forall_mem_cons.mpr ⟨sound.pieces, sound.before⟩⟩, List.suffix_refl _⟩

theorem Sound.closeBracket {ds : List Definition}
    (urls : ∀ d ∈ ds, StaysInCell d.target.url.toList) (sound : r.Sound) (s : List Char) :
    Goes s (r.closeBracket ds s) := by
  have before := sound.before
  unfold Reading.closeBracket
  split
  · exact ⟨sound.addText (by decide) _, List.suffix_refl _⟩
  · next b bs brackets =>
    rw [brackets, List.forall_mem_cons] at before
    split
    · next target rest found =>
      have read : linkTarget? ds b.inside s = some (target, rest) := by
        split at found
        · exact found
        · contradiction
      obtain ⟨address, ends⟩ := linkTarget?_eq_some read
      have url : StaysInCell target.url.toList := by
        rcases address with ⟨destination, is⟩ | ⟨d, mem, rfl⟩
        · rw [is]
          exact staysInCell_addressOf destination
        · exact urls d mem
      have inside : ∀ t ∈ Piece.tokens r.pieces.reverse, Markdown.Sound t :=
        sound_tokens fun p mem => sound.pieces p (List.mem_reverse.mp mem)
      have token := sound_link b.image { url := target.url, title := target.title } url inside
      refine ⟨⟨List.forall_mem_cons.mpr ⟨token, before.1⟩, ?_⟩, ends⟩
      show ∀ b' ∈ if b.image then bs else aroundLink bs, ∀ p ∈ b'.before, p.Sound
      split
      · exact before.2
      · exact List.forall_mem_map.mpr before.2
    · refine ⟨⟨?_, before.2⟩, List.suffix_refl _⟩
      rw [List.cons_append, List.forall_mem_cons, List.forall_mem_append, List.forall_mem_cons]
      exact ⟨Piece.sound_text (by decide), sound.pieces, b.sound_text, before.1⟩

theorem Goes.cons {next : Reading × List Char} (goes : Goes s next) (c : Char) :
    Goes (c :: s) next := ⟨goes.sound, goes.rest.trans (List.suffix_cons ..)⟩

/-- One piece. -/
theorem Sound.step {k : InlineContext} (urls : ∀ d ∈ k.definitions, StaysInCell d.target.url.toList)
    (sound : r.Sound) (guarded : Guarded (c :: s)) : Goes (c :: s) (r.step k c s) := by
  have line := guarded.line
  have here : '\n' ∉ [c] := fun mem => line (List.mem_cons.mpr (.inl (List.mem_singleton.mp mem)))
  have behind : '\n' ∉ s := fun mem => line (List.mem_cons_of_mem _ mem)
  have single : Goes (c :: s) (r.addText [c] c, s) :=
    ⟨sound.addText here _, List.suffix_cons ..⟩
  unfold Reading.step
  split
  · exact sound.space line
  · split
    · exact (sound.escape behind).cons _
    · exact sound.code guarded
    · exact (sound.angle guarded).cons _
    · exact sound.marks (by decide) _
    · exact sound.marks (by decide) _
    · split
      · exact sound.tildes _
      · exact single
    · split
      · exact ((sound.openBracket true _).cons _).cons _
      · exact single
    · exact (sound.openBracket false s).cons _
    · exact (sound.closeBracket urls s).cons _
    · refine ⟨sound.addText ?_ _, (List.drop_suffix ..).trans (List.suffix_cons ..)⟩
      intro mem
      exact line (List.cons_subset_cons _ (List.takeWhile_subset _) mem)

/-- A whole text. -/
theorem Sound.run {k : InlineContext} (urls : ∀ d ∈ k.definitions, StaysInCell d.target.url.toList)
    (sound : r.Sound) (guarded : Guarded s) (fuel : Nat) : (run k fuel r s).Sound := by
  induction fuel generalizing r s with
  | zero => exact sound
  | succ fuel ih =>
    cases s with
    | nil => exact sound
    | cons c cs =>
      have goes := sound.step urls guarded
      exact ih goes.sound (guarded.within goes.rest.isInfix)

theorem Sound.allPieces (sound : r.Sound) : ∀ p ∈ r.allPieces, p.Sound := by
  intro p mem
  rw [Reading.allPieces, List.mem_reverse, List.mem_append, List.mem_flatMap] at mem
  rcases mem with mem | ⟨b, bracket, mem⟩
  · exact sound.pieces p mem
  · rcases List.mem_cons.mp mem with rfl | mem
    · exact b.sound_text
    · exact sound.before b bracket p mem

end Reading

/-- The source of a cell has settled nodes. -/
theorem settled_inlinesOf {k : InlineContext}
    (urls : ∀ d ∈ k.definitions, StaysInCell d.target.url.toList) {source : List Char}
    (guarded : Guarded source) : Settled (inlines (inlinesOf k source)) := by
  unfold inlinesOf
  split
  · exact settled_inlines (List.forall_mem_singleton.mpr (sound_text (s := []) (by decide)))
  · next trimmed =>
    have start : ({} : Reading).Sound := ⟨nofun, nofun⟩
    have text := guarded.within (Text.trimWhile_infix isOuterSpace source)
    exact settled_inlines (sound_tokens (start.run urls text _).allPieces)

end Docsite.Markdown
