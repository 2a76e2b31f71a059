/-!
# Steps on a state

Stores and files are changed in steps.  A `Step σ ε α` works on a state `σ` and answers `α`, or
fails with `ε`; what it did to the state before it failed stays done.
-/

namespace RecordTables

/-- A step on a state that may fail. -/
abbrev Step (σ ε α : Type) := ExceptT ε (StateM σ) α

namespace Step

variable {σ ε ε' α : Type}

/-- The answer that is there, or a failure. -/
def ofOption (fault : ε) : Option α → Step σ ε α
  | some x => pure x
  | none => throw fault

/-- A step whose failures are told in another way. -/
def mapError (f : ε → ε') (step : Step σ ε α) : Step σ ε' α := ExceptT.adapt f step

/-- A change of the state that may be impossible. -/
def change (fault : ε) (f : σ → Option σ) : Step σ ε Unit := do
  match f (← get) with
  | some s => set s
  | none => throw fault

/-- A step on a part of the state. -/
def within {τ : Type} (get : σ → τ) (set : σ → τ → σ) (step : Step τ ε α) : Step σ ε α :=
  ExceptT.mk fun s =>
    let (outcome, part) := step.run.run (get s)
    (outcome, set s part)

end Step

end RecordTables
