/-! Results of steps that may fail. -/
namespace LinkedSchema

variable {α β ε σ : Type}

/-- Whether a step succeeded. Runs on fixed states can be tested for it. -/
def succeeds : EStateM.Result ε σ α → Bool
  | .ok _ _ => true
  | .error _ _ => false

theorem exists_of_succeeds {result : EStateM.Result ε σ α} (h : succeeds result = true) :
    ∃ a s, result = .ok a s := by
  cases result with
  | ok a s => exact ⟨a, s, rfl⟩
  | error e s => cases h

/-- Whether a step succeeded with such a result and state. -/
def endsIn (good : α → σ → Bool) : EStateM.Result ε σ α → Bool
  | .ok a s => good a s
  | .error _ _ => false

theorem exists_of_endsIn {good : α → σ → Bool} {result : EStateM.Result ε σ α}
    (h : endsIn good result = true) : ∃ a s, result = .ok a s ∧ good a s = true := by
  cases result with
  | ok a s => exact ⟨a, s, rfl, h⟩
  | error e s => cases h

theorem bind_ok {x : Except ε α} {f : α → Except ε β} {b : β} (made : x.bind f = .ok b) :
    ∃ a, x = .ok a ∧ f a = .ok b := by
  cases x with
  | ok a => exact ⟨a, rfl, made⟩
  | error e => cases made

theorem map_ok {x : Except ε α} {f : α → β} {b : β} (made : x.map f = .ok b) :
    ∃ a, x = .ok a ∧ f a = b := by
  cases x with
  | ok a =>
    cases made
    exact ⟨a, rfl, rfl⟩
  | error e => cases made

end LinkedSchema
