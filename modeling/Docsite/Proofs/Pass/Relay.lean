import Docsite.Pass.Sequence

/-!
# Docsite.Proofs.Pass.Relay

What a run comes to in which runners hand on a document to each other.

Whether a runner runs at all depends only on those before it: each of them has to hand on a
document.  So a run either is such a chain to its end, or it is one up to a runner that hands on
none, and ends there whatever stands behind (`HandsOn.relay_stop`).
-/

namespace Docsite

section

variable {σ δ : Type} {r : Runner σ δ} {runners before : List (Runner σ δ)} {s s₁ s' : σ}
  {d d₁ d' : δ} {fault : Fault}

/-! ## what is handed on -/

/-- Is a fault what the caller gets where the runner of a name hands on no document?  A fault of
this library comes to the caller as it is; the others name the runner. -/
def Handover.FailsAs (name : String) (fault : Fault) : Handover δ → Prop
  | .document _ => False
  | .other className =>
    fault = .passAnswer name className ∧ fault.faultClass = .transform ∧
      fault.subject? = some name ∧ fault.cause? = none ∧
      fault.message = "Transform " ++ name ++ " must return Document, got " ++ className
  | .failed cause =>
    fault = .passFailed name cause ∧ fault.faultClass = .transform ∧
      fault.subject? = some name ∧ fault.cause? = some cause ∧
      fault.message = "Transform " ++ name ++ " failed: " ++ cause.message
  | .fault own => fault = own

theorem Handover.result_eq_ok_iff {h : Handover δ} {name : String} :
    h.result name = .ok d ↔ h = .document d := by
  cases h <;> simp [result]

theorem Handover.result_eq_error_iff {h : Handover δ} {name : String} :
    h.result name = .error fault ↔ h.FailsAs name fault := by
  cases h with
  | document handed => simp [result, FailsAs]
  | other className =>
    rw [result, FailsAs, Except.error.injEq, eq_comm]
    refine ⟨?_, And.left⟩
    rintro rfl
    exact ⟨rfl, rfl, rfl, rfl, rfl⟩
  | failed cause =>
    rw [result, FailsAs, Except.error.injEq, eq_comm]
    refine ⟨?_, And.left⟩
    rintro rfl
    exact ⟨rfl, rfl, rfl, rfl, rfl⟩
  | fault own => rw [result, FailsAs, Except.error.injEq, eq_comm]

/-! ## chains -/

/-- Does each of the runners hand on a document, from a store and a document to others?  Each gets
the store that the one before it leaves, and the document that it hands on. -/
inductive HandsOn : List (Runner σ δ) → σ → δ → σ → δ → Prop where
  | nil (s : σ) (d : δ) : HandsOn [] s d s d
  | cons {r : Runner σ δ} {runners : List (Runner σ δ)} {s s' : σ} {d d₁ d' : δ}
    (handed : (r.run s d).handover = .document d₁)
    (later : HandsOn runners (r.run s d).store d₁ s' d') : HandsOn (r :: runners) s d s' d'

theorem relay_cons_of_document (handed : (r.run s d).handover = .document d₁)
    (runners : List (Runner σ δ)) :
    relay (r :: runners) s d =
      let later := relay runners (r.run s d).store d₁
      ⟨later.store, r.startRecord :: (r.run s d).log ++ later.log, later.result⟩ := by
  simp only [relay, handed, Handover.result, Handover.log, List.append_nil]

theorem relay_cons_of_fault (stop : (r.run s d).handover.result r.name = .error fault)
    (runners : List (Runner σ δ)) :
    relay (r :: runners) s d =
      ⟨(r.run s d).store,
        r.startRecord :: (r.run s d).log ++ (r.run s d).handover.log r.name, .error fault⟩ := by
  simp only [relay, stop]

/-- Behind a chain, a run goes on from what the chain leads to. -/
theorem HandsOn.relay_append (chain : HandsOn before s d s₁ d₁) (after : List (Runner σ δ)) :
    relay (before ++ after) s d =
      let later := relay after s₁ d₁
      ⟨later.store, (relay before s d).log ++ later.log, later.result⟩ := by
  induction chain with
  | nil s d => rfl
  | cons handed later ih =>
    simp only [List.cons_append, relay_cons_of_document handed, ih, List.append_assoc]

theorem HandsOn.relay_eq (chain : HandsOn runners s d s' d') :
    relay runners s d = ⟨s', (relay runners s d).log, .ok d'⟩ := by
  have whole := chain.relay_append []
  simpa only [relay, List.append_nil] using whole

/-- A chain ends at a runner that hands on no document, and nothing behind that one matters. -/
theorem HandsOn.relay_stop (chain : HandsOn before s d s₁ d₁)
    (stop : (r.run s₁ d₁).handover.result r.name = .error fault) (after : List (Runner σ δ)) :
    relay (before ++ r :: after) s d =
      ⟨(r.run s₁ d₁).store,
        (relay before s d).log ++
          (r.startRecord :: (r.run s₁ d₁).log ++ (r.run s₁ d₁).handover.log r.name),
        .error fault⟩ := by
  rw [chain.relay_append, relay_cons_of_fault stop]

/-- Runners are a chain, or some first ones of them are, up to one that hands on no document. -/
theorem handsOn_or_stops (runners : List (Runner σ δ)) (s : σ) (d : δ) :
    (∃ s' d', HandsOn runners s d s' d') ∨
      ∃ before r after s₁ d₁ fault, runners = before ++ r :: after ∧ HandsOn before s d s₁ d₁ ∧
        (r.run s₁ d₁).handover.result r.name = .error fault := by
  induction runners generalizing s d with
  | nil => exact .inl ⟨s, d, .nil s d⟩
  | cons r runners ih =>
    cases outcome : (r.run s d).handover.result r.name with
    | error fault => exact .inr ⟨[], r, runners, s, d, fault, rfl, .nil s d, outcome⟩
    | ok d₁ =>
      have handed := Handover.result_eq_ok_iff.mp outcome
      rcases ih (r.run s d).store d₁ with ⟨s', d', later⟩ | ⟨before, r', after, s₁, d₂, fault, rest⟩
      · exact .inl ⟨s', d', .cons handed later⟩
      · obtain ⟨rfl, chain, stop⟩ := rest
        exact .inr ⟨r :: before, r', after, s₁, d₂, fault, rfl, .cons handed chain, stop⟩

/-! ## outcomes -/

/-- A run ends with a document just if the runners are a chain to it. -/
theorem relay_eq_ok_iff :
    ((relay runners s d).store = s' ∧ (relay runners s d).result = .ok d') ↔
      HandsOn runners s d s' d' := by
  constructor
  · rintro ⟨rfl, handed⟩
    rcases handsOn_or_stops runners s d with ⟨s₁, d₁, chain⟩ | ⟨before, r, after, s₁, d₁, fault, rest⟩
    · rw [chain.relay_eq] at handed ⊢
      cases handed
      exact chain
    · obtain ⟨rfl, chain, stop⟩ := rest
      rw [chain.relay_stop stop] at handed
      contradiction
  · intro chain
    rw [chain.relay_eq]
    exact ⟨rfl, rfl⟩

/-- A run ends with a fault just if some first runners are a chain up to one that amounts to it,
and those behind that one could be any others. -/
theorem relay_eq_error_iff :
    ((relay runners s d).store = s' ∧ (relay runners s d).result = .error fault) ↔
      ∃ before r after s₁ d₁, runners = before ++ r :: after ∧ HandsOn before s d s₁ d₁ ∧
        (r.run s₁ d₁).handover.FailsAs r.name fault ∧ (r.run s₁ d₁).store = s' ∧
        ∀ others, relay (before ++ r :: others) s d = relay runners s d := by
  constructor
  · rintro ⟨rfl, failed⟩
    rcases handsOn_or_stops runners s d with ⟨s₁, d₁, chain⟩ | ⟨before, r, after, s₁, d₁, own, rest⟩
    · rw [chain.relay_eq] at failed
      contradiction
    · obtain ⟨rfl, chain, stop⟩ := rest
      have ended := chain.relay_stop stop
      rw [ended] at failed ⊢
      cases failed
      exact ⟨before, r, after, s₁, d₁, rfl, chain, Handover.result_eq_error_iff.mp stop, rfl, ended⟩
  · rintro ⟨before, r, after, s₁, d₁, rfl, chain, fails, rfl, -⟩
    rw [chain.relay_stop (Handover.result_eq_error_iff.mpr fails)]
    exact ⟨rfl, rfl⟩

/-- **A run ends with a document just if every runner hands one on, and else with the first that
does not.**  In the first case the store and the document are what the runners make of the first
ones in their order.  In the second case the store is as that runner leaves it, the fault is what
it hands on, and the outcome is the same whatever runners stand behind it. -/
theorem relay_outcome (runners : List (Runner σ δ)) (s : σ) (d : δ) :
    (∀ s' d', ((relay runners s d).store = s' ∧ (relay runners s d).result = .ok d') ↔
      HandsOn runners s d s' d') ∧
    (∀ s' fault, ((relay runners s d).store = s' ∧ (relay runners s d).result = .error fault) ↔
      ∃ before r after s₁ d₁, runners = before ++ r :: after ∧ HandsOn before s d s₁ d₁ ∧
        (r.run s₁ d₁).handover.FailsAs r.name fault ∧ (r.run s₁ d₁).store = s' ∧
        ∀ others, relay (before ++ r :: others) s d = relay runners s d) :=
  ⟨fun _ _ => relay_eq_ok_iff, fun _ _ => relay_eq_error_iff⟩

/-- The first runner changes the document that it gets and hands on a copy, the second changes the
copy and fails, and the third does not run. -/
example :
    let copy : Runner (List String) Nat :=
      ⟨"copy", fun s d => ⟨s.modify d (· ++ "!") ++ [s.getD d ""], [], .document s.length⟩⟩
    let fail : Runner (List String) Nat :=
      ⟨"fail", fun s d => ⟨s.modify d (· ++ "?"), [], .failed (.raised "KeyError" "x")⟩⟩
    let run := relay [copy, fail, copy] ["a"] 0
    (run.store, run.result) =
      (["a!", "a?"], .error (.passFailed "fail" (.raised "KeyError" "x"))) := by
  rfl

end

namespace Pass

/-! ## passes -/

/-- A run of passes ends with the first that does not answer with a document. -/
theorem runAll_cons (p : Pass) (passes : List Pass) (n : Node) :
    runAll (p :: passes) n =
      let a := p.run n
      let log := p.runner.startRecord :: a.log ++ a.answer.log p.name
      match a.answer.result p.name with
      | .error fault => ⟨a.left, log, some fault⟩
      | .ok () =>
        let later := runAll passes a.left
        ⟨later.left, log ++ later.log, later.fault?⟩ := by
  cases answer : (p.run n).answer with
  | document handed =>
    simp only [runAll, runner, relay, List.map_cons, answer, Handover.result]
    cases (relay (passes.map runner) (p.run n).left ()).result <;> rfl
  | _ => simp only [runAll, runner, relay, List.map_cons, answer, Handover.result]

section

variable {p : Pass} {n : Node} {fault : Fault}

/-- A pass that amounts to a fault is the last that is run. -/
theorem runAll_cons_of_fault (h : (p.run n).answer.result p.name = .error fault)
    (passes : List Pass) :
    (runAll (p :: passes) n).left = (p.run n).left ∧
      (runAll (p :: passes) n).fault? = some fault := by
  simp only [runAll_cons, h, and_self]

/-- Behind any other the run goes on with what the pass leaves. -/
theorem runAll_cons_of_document (h : (p.run n).answer.result p.name = .ok ())
    (passes : List Pass) :
    (runAll (p :: passes) n).left = (runAll passes (p.run n).left).left ∧
      (runAll (p :: passes) n).fault? = (runAll passes (p.run n).left).fault? := by
  simp only [runAll_cons, h, and_self]

end

end Pass

end Docsite
