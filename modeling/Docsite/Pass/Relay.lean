import Docsite.Fault
import Docsite.Log

/-!
# Docsite.Pass.Relay

Runners that hand a document on to each other.

All documents are kept in a store.  A runner gets the document that the one before it handed
on; it may change whatever it finds in the store, and hand on the document that it got or
another one.  The first runner that hands on no document ends the run, and the store stays as
that runner left it.
-/

namespace Docsite

/-- What a runner hands on. -/
inductive Handover (δ : Type) where
  | document (handed : δ)
  /-- Something else, of a class that is no document. -/
  | other (className : String)
  /-- A failure outside this library. -/
  | failed (cause : Cause)
  /-- A fault of this library. -/
  | fault (fault : Fault)
  deriving DecidableEq, Repr

/-- What a runner leaves behind. -/
structure Leg (σ δ : Type) where
  store : σ
  log : List Log.Record
  handover : Handover δ

/-- A named operation on the documents of a store. -/
structure Runner (σ δ : Type) where
  name : String
  run : σ → δ → Leg σ δ

/-- The outcome of a run: the store, what was recorded, and the last document, if each runner
handed one on. -/
structure Relayed (σ δ : Type) where
  store : σ
  log : List Log.Record
  result : Except Fault δ

namespace Handover

variable {δ : Type}

/-- The document, or the fault that what is handed on by the runner of a name amounts to. -/
def result (name : String) : Handover δ → Except Fault δ
  | document handed => .ok handed
  | other className => .error (.passAnswer name className)
  | failed cause => .error (.passFailed name cause)
  | fault own => .error own

/-- What is recorded of it besides what the runner recorded. -/
def log (name : String) : Handover δ → List Log.Record
  | failed cause => [⟨.error, .pipeline, (Fault.passFailed name cause).message⟩]
  | _ => []

end Handover

/-- The record of a runner that begins. -/
def Runner.startRecord {σ δ : Type} (r : Runner σ δ) : Log.Record :=
  ⟨.debug, .pipeline, "Applying transform: " ++ r.name⟩

/-- Let runners run in order. -/
def relay {σ δ : Type} : List (Runner σ δ) → σ → δ → Relayed σ δ
  | [], store, document => ⟨store, [], .ok document⟩
  | r :: runners, store, document =>
    let leg := r.run store document
    let log := r.startRecord :: leg.log ++ leg.handover.log r.name
    match leg.handover.result r.name with
    | .error fault => ⟨leg.store, log, .error fault⟩
    | .ok handed =>
      let later := relay runners leg.store handed
      ⟨later.store, log ++ later.log, later.result⟩

end Docsite
