import Docsite.Proofs.Walk.Step

/-!
# Docsite.Proofs.Walk.Survivors

Which siblings a walk still comes to while a visitor rearranges them.

A visitor may take nodes out, put nodes in and move nodes, wherever it likes at the place of the
visited node and behind it.  If the visited node is then no longer in its place, the walk knows
only how many siblings there are, and goes on before the last of them: as many as there were
ahead of the node (`Stop.passed`).  A sibling that stays in the list is *passed over* if it is
none of these.  Whoever is not passed over is stepped on later, or taken out before that
(`walk_survivors`).

Nodes are told apart by names, which may be any function of them: with labels that hold a
number of their own, the name of a node is that number, and it stays with the node whatever
becomes of the nodes below it.
-/

namespace Docsite

variable {L B σ ε ι : Type}

namespace Slot

/-- The sibling in a slot; none in that of the visited node. -/
def sibling? : Slot L B → Option (Tree L B)
  | .here => none
  | .sibling t => some t

/-- The names of the siblings in some slots. -/
def names (name : Tree L B → ι) (slots : List (Slot L B)) : List ι :=
  (slots.filterMap sibling?).map name

/-- A sibling in a slot is there whatever node is filled in. -/
theorem names_subset (name : Tree L B → ι) (node : Tree L B) (slots : List (Slot L B)) :
    names name slots ⊆ (slots.map (fill node)).map name := by
  intro n mem
  simp only [names, List.mem_map, List.mem_filterMap] at mem ⊢
  obtain ⟨t, ⟨slot, mem, is⟩, named⟩ := mem
  cases slot with
  | here => simp [sibling?] at is
  | sibling u =>
    obtain rfl : u = t := by simpa [sibling?] using is
    exact ⟨u, ⟨.sibling u, mem, rfl⟩, named⟩

end Slot

/-! ## stops -/

/-- One stop of a walk below the root: the node that it steps on, where the node stands, and the
list of siblings as the visitor leaves it. -/
structure Stop (L B : Type) where
  node : Tree L B
  spot : Spot L B
  family : List (Slot L B)

namespace Stop

variable (s : Stop L B)

/-- What the visitor leaves at the index of the visit and behind it. -/
def rest : List (Slot L B) := s.family.drop s.spot.index

/-- Is the visited node still in its place? -/
def inPlace : Bool := s.rest.head?.any Slot.isHere

/-- How many of the slots left there the walk has behind it after the stop. -/
def passed : Nat := if s.inPlace then 1 else s.rest.length - s.spot.after.length

/-- A sibling with the name stays behind the index. -/
def Keeps (name : Tree L B → ι) (n : ι) : Prop := n ∈ Slot.names name s.rest

/-- A sibling with the name stood ahead of the visited node and is taken out. -/
def Removes (name : Tree L B → ι) (n : ι) : Prop := n ∈ s.spot.after.map name ∧ ¬ s.Keeps name n

/-- The visited node is not in its place, and each sibling with the name that stays has at least
as many nodes behind it as there were ahead of the visited node. -/
def PassesOver (name : Tree L B → ι) (n : ι) : Prop :=
  s.inPlace = false ∧ ∀ front t behind, s.rest = front ++ .sibling t :: behind → name t = n →
    s.spot.after.length ≤ behind.length

/-- A sibling that stays and is not passed over is ahead of the walk after the stop. -/
theorem mem_ahead {name : Tree L B → ι} {n : ι} (keeps : s.Keeps name n)
    (seen : ¬ s.PassesOver name n) : n ∈ Slot.names name (s.rest.drop s.passed) := by
  cases place : s.inPlace with
  | false =>
    obtain ⟨front, t, behind, split, rfl, few⟩ : ∃ front t behind,
        s.rest = front ++ .sibling t :: behind ∧ name t = n ∧
          behind.length < s.spot.after.length := by
      simpa [PassesOver, place] using seen
    have passed : s.passed ≤ front.length := by
      rw [Stop.passed, place, if_neg Bool.false_ne_true, split]
      simp only [List.length_append, List.length_cons]
      omega
    rw [split, List.drop_append_of_le_length passed]
    simp [Slot.names, Slot.sibling?]
  | true =>
    rw [passed, place, if_pos rfl]
    rw [Keeps] at keeps
    rw [inPlace] at place
    cases split : s.rest with
    | nil => simp [split] at place
    | cons slot slots =>
      rw [split] at place keeps
      cases slot with
      | here => simpa [Slot.names, Slot.sibling?] using keeps
      | sibling t => simp [Slot.isHere] at place

/-- The walk has behind it no more slots than there are. -/
theorem passed_le : s.passed ≤ s.rest.length := by
  unfold passed
  split
  · next place =>
    rw [inPlace] at place
    cases split : s.rest with
    | nil => simp [split] at place
    | cons slot slots => simp
  · omega

end Stop

namespace Visitor

/-- The visitor changes nothing but the siblings at the place of the visited node and behind it,
and lets the walk proceed or skip what is below the node. -/
structure EditsAhead (v : Visitor L B σ ε) : Prop where
  node : ∀ s t spot, (v s t spot).node = t
  before : ∀ s t b before after, (v s t (some (.between b before after))).family.take before.length
    = before.map .sibling
  signal : ∀ s t spot, (v s t spot).signal = .proceed ∨ (v s t spot).signal = .skip

/-- The visitor that also writes down its stops. -/
def transcribing (v : Visitor L B σ ε) : Visitor L B (σ × List (Stop L B)) ε := fun s t spot =>
  let r := v s.1 t spot
  ⟨(r.state, s.2 ++ (spot.map fun spot => ⟨t, spot, r.family⟩).toList), r.node, r.family, r.signal⟩

theorem EditsAhead.only {v : Visitor L B σ ε} (edits : v.EditsAhead) (test : Tree L B → Bool) :
    (Visitor.only test v).EditsAhead where
  node s t spot := by
    cases passes : test t <;> simp [Visitor.only, passes, edits.node]
  before s t b before after := by
    cases passes : test t with
    | true => simp [Visitor.only, passes, edits.before]
    | false => simp [Visitor.only, passes, Spot.family, Spot.between]
  signal s t spot := by
    cases passes : test t with
    | true => simpa [Visitor.only, passes] using edits.signal s t spot
    | false => simp [Visitor.only, passes]

theorem EditsAhead.transcribing {v : Visitor L B σ ε} (edits : v.EditsAhead) :
    v.transcribing.EditsAhead where
  node s t spot := edits.node s.1 t spot
  before s t b before after := edits.before s.1 t b before after
  signal s t spot := edits.signal s.1 t spot

end Visitor

/-! ## steps -/

namespace Tree

variable {v : Visitor L B σ ε}

/-- The walk through what is below a visited node, if the node is in its place and the visitor
does not skip it. -/
def walkInside (v : Visitor L B σ ε) (fuel : Nat) (stop : Stop L B) (r : Reply L B σ ε) :
    Walked σ (Tree L B) ε :=
  match r.signal with
  | .proceed =>
    if stop.inPlace then walkBelow v fuel r.state r.node else ⟨r.state, r.node, .finished⟩
  | _ => ⟨r.state, r.node, .finished⟩

section

variable {fuel : Nat} {s : σ} {b : B} {before after : List (Tree L B)} {t : Tree L B}
  {r : Reply L B σ ε} {stop : Stop L B}

theorem walkInside_proceed (signal : r.signal = .proceed) :
    walkInside v fuel stop r =
      if stop.inPlace then walkBelow v fuel r.state r.node else ⟨r.state, r.node, .finished⟩ := by
  rw [walkInside, signal]

theorem walkInside_skip (signal : r.signal = .skip) :
    walkInside v fuel stop r = ⟨r.state, r.node, .finished⟩ := by
  rw [walkInside, signal]

/-- The siblings before the visited node are left as they were. -/
theorem family_editing (edits : v.EditsAhead)
    (reply : v s t (some (.between b before after)) = r)
    (is : stop = ⟨t, .between b before after, r.family⟩) :
    r.family = before.map .sibling ++ stop.rest := by
  rw [← edits.before s t b before after, reply, Stop.rest, is]
  exact (List.take_append_drop _ _).symm

/-- The visited node is found at its index if it is still in its place. -/
theorem attached_eq_inPlace (kept : r.family = before.map .sibling ++ stop.rest) :
    r.family[before.length]?.any Slot.isHere = stop.inPlace := by
  rw [Stop.inPlace, kept, List.head?_eq_getElem?]
  simp [List.getElem?_append]

/-- The index at which the walk goes on is that behind the slots it has passed. -/
theorem nextIndex_inPlace (spot : stop.spot = .between b before after)
    (kept : r.family = before.map .sibling ++ stop.rest) :
    nextIndex stop.inPlace before.length (before ++ t :: after).length r.family.length =
      before.length + stop.passed := by
  have ahead : stop.spot.after.length = after.length := by rw [spot]; rfl
  have length : r.family.length = before.length + stop.rest.length := by simp [kept]
  rw [nextIndex, Stop.passed, ahead, length]
  simp only [List.length_append, List.length_cons]
  split <;> omega

/-- The list of siblings after a stop: what is behind the walk, and what is ahead. -/
theorem fill_family (kept : r.family = before.map .sibling ++ stop.rest) (node : Tree L B) :
    r.family.map (Slot.fill node) = (before ++ (stop.rest.take stop.passed).map (Slot.fill node)) ++
      (stop.rest.drop stop.passed).map (Slot.fill node) := by
  rw [kept, List.map_append, fill_sibling, List.append_assoc, ← List.map_append,
    List.take_append_drop]

/-- After a stop the walk is through with what is below the node, and stands behind the first of
the slots that the visitor has left. -/
theorem walkFrom_editing (edits : v.EditsAhead) (reply : v s t (some (.between b before after)) = r)
    (is : stop = ⟨t, .between b before after, r.family⟩)
    (ended : (walkInside v fuel stop r).ending = .finished) :
    let left := (walkInside v fuel stop r).left
    let behind := before ++ (stop.rest.take stop.passed).map (Slot.fill left)
    walkFrom v (fuel + 1) s b (before ++ t :: after) before.length =
      walkFrom v fuel (walkInside v fuel stop r).state b
        (behind ++ (stop.rest.drop stop.passed).map (Slot.fill left)) behind.length := by
  have spot : stop.spot = .between b before after := by rw [is]
  have kept := family_editing edits reply is
  have next := nextIndex_inPlace (t := t) spot kept
  have length : (before ++ (stop.rest.take stop.passed).map
      (Slot.fill (walkInside v fuel stop r).left)).length = before.length + stop.passed := by
    simp [Nat.min_eq_left stop.passed_le]
  intro left behind
  rw [walkFrom_between, reply, walkOn, ← fill_family kept, length, ← next,
    attached_eq_inPlace kept]
  have goes := edits.signal s t (some (.between b before after))
  rw [reply] at goes
  obtain signal | signal := goes
  · simp only [signal, left, ← walkInside_proceed signal, ended]
  · simp only [signal, left, walkInside_skip signal]

/-- A walk that does not come through with what is below a node ends there. -/
theorem ending_walkFrom_editing (edits : v.EditsAhead)
    (reply : v s t (some (.between b before after)) = r)
    (is : stop = ⟨t, .between b before after, r.family⟩)
    (stuck : (walkInside v fuel stop r).ending = .unfinished) :
    (walkFrom v (fuel + 1) s b (before ++ t :: after) before.length).ending = .unfinished := by
  have kept := family_editing edits reply is
  have goes := edits.signal s t (some (.between b before after))
  rw [reply] at goes
  obtain signal | signal := goes
  · rw [walkFrom_between, reply, walkOn, attached_eq_inPlace kept]
    simp only [signal, ← walkInside_proceed signal, stuck]
  · rw [walkInside_skip signal] at stuck
    contradiction

end

end Tree

/-! ## transcripts -/

section

variable {name : Tree L B → ι} {n : ι}

/-- Some stop is at a node with the name or takes a sibling with the name out, unless one of the
stops passes over the name. -/
def Reached (name : Tree L B → ι) (stops : List (Stop L B)) (n : ι) : Prop :=
  (∀ stop ∈ stops, ¬ stop.PassesOver name n) →
    ∃ stop ∈ stops, name stop.node = n ∨ stop.Removes name n

/-- At each of the stops, a sibling that was ahead of the node, stays and is not passed over is
reached at one of the later stops. -/
def Accounted (name : Tree L B → ι) : List (Stop L B) → Prop
  | [] => True
  | stop :: later =>
    (∀ n ∈ stop.spot.after.map name, stop.Keeps name n → ¬ stop.PassesOver name n →
      Reached name later n) ∧ Accounted name later

theorem Reached.append_left {stops : List (Stop L B)} (reached : Reached name stops n)
    (earlier : List (Stop L B)) : Reached name (earlier ++ stops) n := by
  intro seen
  obtain ⟨stop, mem, met⟩ := reached fun stop mem => seen stop (List.mem_append_right _ mem)
  exact ⟨stop, List.mem_append_right _ mem, met⟩

theorem Reached.append_right {stops : List (Stop L B)} (reached : Reached name stops n)
    (later : List (Stop L B)) : Reached name (stops ++ later) n := by
  intro seen
  obtain ⟨stop, mem, met⟩ := reached fun stop mem => seen stop (List.mem_append_left _ mem)
  exact ⟨stop, List.mem_append_left _ mem, met⟩

theorem Accounted.append {stops later : List (Stop L B)} (first : Accounted name stops)
    (next : Accounted name later) : Accounted name (stops ++ later) := by
  induction stops with
  | nil => exact next
  | cons stop stops ih =>
    exact ⟨fun n ahead keeps seen => (first.1 n ahead keeps seen).append_right later, ih first.2⟩

theorem Accounted.split {earlier later : List (Stop L B)} {stop : Stop L B}
    (h : Accounted name (earlier ++ stop :: later)) :
    ∀ n ∈ stop.spot.after.map name, stop.Keeps name n → ¬ stop.PassesOver name n →
      Reached name later n := by
  induction earlier with
  | nil => exact h.1
  | cons first earlier ih => exact ih h.2

/-- The walk comes to an end and has written down stops that account for their siblings and reach
what was ahead of it. -/
def Transcribed (name : Tree L B → ι) (log : List (Stop L B)) (ahead : List (Tree L B)) {α : Type}
    (walked : Walked (σ × List (Stop L B)) α ε) : Prop :=
  ∃ s' stops left, walked = ⟨(s', log ++ stops), left, .finished⟩ ∧ Accounted name stops ∧
    ∀ n ∈ ahead.map name, Reached name stops n

/-- A stop, what is below its node, and the stops after it. -/
theorem Transcribed.stop {log inside : List (Stop L B)} {stop : Stop L B} {node : Tree L B}
    {walked : Walked (σ × List (Stop L B)) (List (Tree L B)) ε} (within : Accounted name inside)
    (rest : Transcribed name (log ++ stop :: inside)
      ((stop.rest.drop stop.passed).map (Slot.fill node)) walked) :
    Transcribed name log (stop.node :: stop.spot.after) walked := by
  obtain ⟨s', stops, left, rfl, accounted, reached⟩ := rest
  have ahead (n : ι) (keeps : stop.Keeps name n) (seen : ¬ stop.PassesOver name n) :
      Reached name (inside ++ stops) n :=
    (reached n (Slot.names_subset name node _ (stop.mem_ahead keeps seen))).append_left inside
  refine ⟨s', stop :: (inside ++ stops), left, by simp,
    ⟨fun n _ => ahead n, within.append accounted⟩, ?_⟩
  intro n mem seen
  rw [List.map_cons, List.mem_cons] at mem
  obtain rfl | mem := mem
  · exact ⟨stop, List.mem_cons_self, .inl rfl⟩
  · by_cases keeps : stop.Keeps name n
    · obtain ⟨other, at_, met⟩ := ahead n keeps (seen stop List.mem_cons_self) fun other at_ =>
        seen other (List.mem_cons_of_mem _ at_)
      exact ⟨other, List.mem_cons_of_mem _ at_, met⟩
    · exact ⟨stop, List.mem_cons_self, .inr ⟨mem, keeps⟩⟩

end

namespace Tree

variable {v : Visitor L B σ ε} {name : Tree L B → ι}

/-- The walk below a node is transcribed if walks through lists of siblings are. -/
theorem walkBelow_transcribed {fuel : Nat}
    (lists : ∀ (s : σ) (log : List (Stop L B)) (c : B) (kids : List (Tree L B)),
      (walkFrom v.transcribing fuel (s, log) c kids 0).ending ≠ .unfinished →
      Transcribed name log kids (walkFrom v.transcribing fuel (s, log) c kids 0))
    (s : σ) (log : List (Stop L B)) (t : Tree L B)
    (ends : (walkBelow v.transcribing fuel (s, log) t).ending ≠ .unfinished) :
    Transcribed name log [] (walkBelow v.transcribing fuel (s, log) t) := by
  cases t with
  | leaf l => exact ⟨s, [], .leaf l, by simp [walkBelow], trivial, by simp⟩
  | branch c kids =>
    obtain ⟨s', stops, left, walked, accounted, -⟩ := lists s log c kids ends
    refine ⟨s', stops, .branch c left, ?_, accounted, by simp⟩
    rw [walkBelow, walked]

/-- So is the walk through what is below a visited node, whether it goes there or not. -/
theorem walkInside_transcribed {fuel : Nat}
    (lists : ∀ (s : σ) (log : List (Stop L B)) (c : B) (kids : List (Tree L B)),
      (walkFrom v.transcribing fuel (s, log) c kids 0).ending ≠ .unfinished →
      Transcribed name log kids (walkFrom v.transcribing fuel (s, log) c kids 0))
    (stop : Stop L B) (r : Reply L B (σ × List (Stop L B)) ε)
    (ends : (walkInside v.transcribing fuel stop r).ending ≠ .unfinished) :
    Transcribed name r.state.2 [] (walkInside v.transcribing fuel stop r) := by
  have still : Transcribed name r.state.2 []
      (⟨r.state, r.node, .finished⟩ : Walked (σ × List (Stop L B)) (Tree L B) ε) :=
    ⟨r.state.1, [], r.node, by simp, trivial, by simp⟩
  rw [walkInside] at ends ⊢
  cases signal : r.signal with
  | proceed =>
    rw [signal] at ends
    cases place : stop.inPlace with
    | true =>
      rw [place] at ends
      exact walkBelow_transcribed lists r.state.1 r.state.2 r.node ends
    | false => exact still
  | skip | exit | resumeAt _ | fail _ => exact still

/-- A walk through siblings with a visitor that edits ahead is transcribed, unless it runs out of
fuel. -/
theorem walkFrom_transcribed (edits : v.EditsAhead) (fuel : Nat) (s : σ) (log : List (Stop L B))
    (b : B) (before ahead : List (Tree L B))
    (ends : (walkFrom v.transcribing fuel (s, log) b (before ++ ahead) before.length).ending ≠
      .unfinished) :
    Transcribed name log ahead
      (walkFrom v.transcribing fuel (s, log) b (before ++ ahead) before.length) := by
  induction fuel generalizing s log b before ahead with
  | zero => exact absurd rfl ends
  | succ fuel ih =>
    cases ahead with
    | nil =>
      refine ⟨s, [], before, ?_, trivial, by simp⟩
      simpa using walkFrom_end v.transcribing fuel (s, log) b before
    | cons t after =>
      obtain ⟨r, reply⟩ : ∃ r, v.transcribing (s, log) t (some (.between b before after)) = r :=
        ⟨_, rfl⟩
      obtain ⟨stop, is⟩ : ∃ stop : Stop L B, stop = ⟨t, .between b before after, r.family⟩ :=
        ⟨_, rfl⟩
      have written : r.state.2 = log ++ [stop] := by
        rw [is, ← reply]
        rfl
      by_cases stuck : (walkInside v.transcribing fuel stop r).ending = .unfinished
      · exact absurd (ending_walkFrom_editing edits.transcribing reply is stuck) ends
      · obtain ⟨s', stops, left, walked, within, -⟩ :=
          walkInside_transcribed (fun s log c kids => ih s log c [] kids) stop r stuck
        have step := walkFrom_editing edits.transcribing reply is (by rw [walked])
        rw [walked, written, List.append_assoc] at step
        rw [step] at ends ⊢
        have list : t :: after = stop.node :: stop.spot.after := by
          rw [is]
          rfl
        rw [list]
        exact Transcribed.stop within (ih _ _ _ _ _ ends)

/-- A walk through a whole tree is transcribed. -/
theorem walk_transcribed (edits : v.EditsAhead) (fuel : Nat) (s : σ) (t : Tree L B)
    (ends : (walk v.transcribing fuel (s, []) t).ending ≠ .unfinished) :
    Transcribed name [] [] (walk v.transcribing fuel (s, []) t) := by
  have lists (s : σ) (log : List (Stop L B)) (c : B) (kids : List (Tree L B))
      (ends : (walkFrom v.transcribing fuel (s, log) c kids 0).ending ≠ .unfinished) :
      Transcribed name log kids (walkFrom v.transcribing fuel (s, log) c kids 0) :=
    walkFrom_transcribed edits fuel s log c [] kids ends
  have goes := edits.signal s t none
  have reply : v.transcribing (s, []) t none =
      ⟨((v s t none).state, []), (v s t none).node, (v s t none).family, (v s t none).signal⟩ := rfl
  obtain signal | signal := goes
  · rw [signal] at reply
    rw [walk_proceed fuel reply] at ends ⊢
    exact walkBelow_transcribed lists _ _ _ ends
  · rw [signal] at reply
    rw [walk_skip fuel reply]
    exact ⟨(v s t none).state, [], (v s t none).node, rfl, trivial, by simp⟩

/-- **A walk comes to every sibling that stays and is not passed over.**  The visitor may edit the
siblings ahead as it likes.  If the walk ends, a sibling that stood behind the visited node and
is still there after the visit is stepped on later, unless a later visit takes it out before or
passes over it. -/
theorem walk_survivors (name : Tree L B → ι) (test : Tree L B → Bool) (edits : v.EditsAhead)
    (fuel : Nat) (s : σ) (t : Tree L B)
    (ends : (walk (Visitor.only test v) fuel s t).ending ≠ .unfinished) :
    ∃ s' left stops,
      walk (Visitor.only test v) fuel s t = ⟨s', left, .finished⟩ ∧
      walk (Visitor.only test v).transcribing fuel (s, []) t = ⟨(s', stops), left, .finished⟩ ∧
      ∀ earlier stop later, stops = earlier ++ stop :: later →
        ∀ u ∈ stop.spot.after, stop.Keeps name (name u) →
          (∀ other ∈ stop :: later, ¬ other.PassesOver name (name u)) →
          ∃ other ∈ later, name other.node = name u ∨ other.Removes name (name u) := by
  have plain : walk (Visitor.only test v) fuel s t =
      (walk (Visitor.only test v).transcribing fuel (s, []) t).mapState Prod.fst :=
    walk_mapState (f := Prod.fst) (u := (Visitor.only test v).transcribing)
      (fun _ _ _ => rfl) fuel (s, []) t
  rw [plain] at ends
  obtain ⟨s', stops, left, walked, accounted, -⟩ :
      Transcribed name [] [] (walk (Visitor.only test v).transcribing fuel (s, []) t) :=
    walk_transcribed (edits.only test) fuel s t ends
  refine ⟨s', left, stops, by rw [plain, walked]; rfl, walked, ?_⟩
  rintro earlier stop later rfl u mem keeps seen
  have reached := accounted.split (name u) (List.mem_map_of_mem mem) keeps
    (seen stop List.mem_cons_self)
  exact reached fun other at_ => seen other (List.mem_cons_of_mem _ at_)

end Tree

namespace Visitor

/-- A visitor that takes a one out and puts a three at the end of its siblings, and in place of a
zero and the sibling next to it puts a five and a six. -/
def shuffler : Visitor Nat Nat Unit Empty := fun _ t spot =>
  match spot with
  | none => ⟨(), t, [], .proceed⟩
  | some spot =>
    if t = .leaf 1 then
      ⟨(), t, (spot.before ++ (spot.after ++ [Tree.leaf 3])).map .sibling, .proceed⟩
    else if t = .leaf 0 then
      ⟨(), t, (spot.before ++ Tree.leaf 5 :: Tree.leaf 6 :: spot.after.drop 1).map .sibling, .skip⟩
    else ⟨(), t, spot.family, .proceed⟩

theorem shuffler_editsAhead : shuffler.EditsAhead where
  node s t spot := by
    cases spot with
    | none => rfl
    | some spot =>
      simp only [shuffler]
      split
      · rfl
      · split <;> rfl
  before s t b before after := by
    simp only [shuffler]
    split
    · simp [Spot.between]
    · split <;> simp [Spot.between, Spot.family]
  signal s t spot := by
    cases spot with
    | none => exact .inl rfl
    | some spot =>
      simp only [shuffler]
      split
      · exact .inl rfl
      · split
        · exact .inr rfl
        · exact .inl rfl

end Visitor

namespace Tree

theorem walk_survivors_shuffler :
    Visitor.shuffler.EditsAhead ∧
      (walk (Visitor.only (fun _ => true) Visitor.shuffler) 9 ()
        (.branch 0 [.leaf 0, .leaf 7, .leaf 8, .branch 4 [.leaf 1], .leaf 0])).ending ≠
        .unfinished ∧
      ∃ s' left stops,
        walk (Visitor.only (fun _ => true) Visitor.shuffler) 9 ()
          (.branch 0 [.leaf 0, .leaf 7, .leaf 8, .branch 4 [.leaf 1], .leaf 0]) =
          ⟨s', left, .finished⟩ ∧
        walk (Visitor.only (fun _ => true) Visitor.shuffler).transcribing 9 ((), [])
          (.branch 0 [.leaf 0, .leaf 7, .leaf 8, .branch 4 [.leaf 1], .leaf 0]) =
          ⟨(s', stops), left, .finished⟩ ∧
        ∀ earlier stop later, stops = earlier ++ stop :: later →
          ∀ u ∈ stop.spot.after, stop.Keeps id (id u) →
            (∀ other ∈ stop :: later, ¬ other.PassesOver id (id u)) →
            ∃ other ∈ later, id other.node = id u ∨ other.Removes id (id u) :=
  ⟨Visitor.shuffler_editsAhead, by decide,
    walk_survivors id (fun _ => true) Visitor.shuffler_editsAhead 9 () _ (by decide)⟩

/-- A sibling may be passed over: the visitor takes a one out and puts a three behind the two next
to it, and the walk goes on at the three.  The two stays, and the walk never steps on it. -/
theorem walk_passes_survivor :
    Visitor.shuffler.EditsAhead ∧
      ∃ left stop later,
        walk (Visitor.only (fun _ => true) Visitor.shuffler).transcribing 9 ((), [])
          (.branch 0 [.leaf 1, .leaf 2]) = ⟨((), stop :: later), left, .finished⟩ ∧
        .leaf 2 ∈ stop.spot.after ∧ stop.Keeps id (.leaf 2) ∧
        ∀ other ∈ later, other.node ≠ .leaf 2 ∧ ¬ other.Removes id (.leaf 2) := by
  refine ⟨Visitor.shuffler_editsAhead, .branch 0 [.leaf 2, .leaf 3],
    ⟨.leaf 1, ⟨0, 0, [], [.leaf 2]⟩, [.sibling (.leaf 2), .sibling (.leaf 3)]⟩,
    [⟨.leaf 3, ⟨1, 0, [.leaf 2], []⟩, [.sibling (.leaf 2), .here]⟩], rfl, ?_⟩
  simp [Stop.Keeps, Stop.Removes, Stop.rest, Slot.names, Slot.sibling?]

end Tree

end Docsite
