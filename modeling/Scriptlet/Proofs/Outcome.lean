import Scriptlet.Run.Machine

/-!
# Outcomes of steps

A step changes a state and ends with a value or stops. The second of two steps happens only when the
first ends with a value (`bind_eq_ok`).
-/

namespace Scriptlet

variable {ε σ α β : Type}

/-- Two steps end with a value if both do, one after the other. -/
theorem bind_eq_ok {step : EStateM ε σ α} {next : α → EStateM ε σ β} {state after : σ} {value : β} :
    (step >>= next) state = .ok value after ↔
      ∃ first middle, step state = .ok first middle ∧ next first middle = .ok value after := by
  change EStateM.bind step next state = _ ↔ _
  unfold EStateM.bind
  cases step state with
  | ok first middle =>
      constructor
      · exact fun ended => ⟨first, middle, rfl, ended⟩
      · rintro ⟨_, _, same, ended⟩
        cases same
        exact ended
  | error stop middle =>
      constructor
      · exact fun ended => by cases ended
      · rintro ⟨_, _, same, _⟩
        cases same

/-- If the first of two steps ends with a value, the second decides. -/
theorem bind_of_ok {step : EStateM ε σ α} {next : α → EStateM ε σ β} {state middle : σ} {first : α}
    (ended : step state = .ok first middle) : (step >>= next) state = next first middle := by
  change EStateM.bind step next state = _
  unfold EStateM.bind
  rw [ended]

/-- If the first of two steps stops, so do both. -/
theorem bind_of_error {step : EStateM ε σ α} {next : α → EStateM ε σ β} {state middle : σ}
    {stop : ε}
    (ended : step state = .error stop middle) : (step >>= next) state = .error stop middle := by
  change EStateM.bind step next state = _
  unfold EStateM.bind
  rw [ended]

/-- A look at the state goes on with the state. -/
theorem get_bind {next : σ → EStateM ε σ β} {state : σ} :
    ((get : EStateM ε σ σ) >>= next) state = next state state := rfl

/-- A look at the store hands it to the step that comes next. -/
theorem Run.inspect_bind {look : Store → α} {next : α → Run β} {machine : Machine} :
    (Run.inspect look >>= next) machine = next (look machine.store) machine := rfl

end Scriptlet
