import Scriptlet.Proofs.Run.Coupling

/-!
# What runs leave behind

What was printed and tested stays, whatever a run does next, and classes change only as single
operations may change them (`Machine.Continues`).
-/

namespace Scriptlet

/-- A later state of a machine: more has been printed and tested, and classes have changed as
operations may change them. -/
structure Machine.Continues (machine later : Machine) : Prop where
  output : ∃ lines, later.output = machine.output ++ lines
  tests : ∃ outcomes, later.tests = machine.tests ++ outcomes
  classes : Relation.ReflTransGen Store.Reclasses machine.store later.store

namespace Machine.Continues

private theorem refl (machine : Machine) : machine.Continues machine :=
  ⟨⟨#[], Array.append_empty.symm⟩, ⟨#[], Array.append_empty.symm⟩, .refl⟩

private theorem trans {first second third : Machine} (left : first.Continues second)
    (right : second.Continues third) : first.Continues third := by
  obtain ⟨⟨earlierLines, printed⟩, ⟨earlierOutcomes, tested⟩, before⟩ := left
  obtain ⟨⟨lines, printedNext⟩, ⟨outcomes, testedNext⟩, after⟩ := right
  refine ⟨⟨earlierLines ++ lines, ?_⟩, ⟨earlierOutcomes ++ outcomes, ?_⟩, before.trans after⟩
  · rw [printedNext, printed, Array.append_assoc]
  · rw [testedNext, tested, Array.append_assoc]

end Machine.Continues

namespace Run

variable {α β : Type} {step : Run α}

private theorem Silent.continues (silent : Silent step) (machine : Machine) :
    machine.Continues (machineAfter (step machine)) := by
  have quiet := silent.quiet machine
  refine ⟨⟨#[], ?_⟩, ⟨#[], ?_⟩, ?_⟩
  · rw [quiet.output, Array.append_empty]
  · rw [quiet.tests, Array.append_empty]
  · have led := silent.classes machine trivial
    cases ended : step machine with
    | ok value later =>
        rw [ended] at led
        exact led.1
    | error stop later =>
        rw [ended] at led
        exact led

private theorem continues_bind {next : α → Run β}
    (first : ∀ machine : Machine, machine.Continues (machineAfter (step machine)))
    (rest : ∀ value (machine : Machine), machine.Continues (machineAfter (next value machine)))
    (machine : Machine) : machine.Continues (machineAfter ((step >>= next) machine)) := by
  have continued := first machine
  cases ended : step machine with
  | ok value middle =>
      rw [ended] at continued
      rw [bind_of_ok ended]
      exact continued.trans (rest value middle)
  | error stop middle =>
      rw [ended] at continued
      rw [bind_of_error ended]
      exact continued

private theorem continues_around {enter : Machine → Machine} {leave : Machine → Machine → Machine}
    (inside : ∀ machine : Machine, machine.Continues (machineAfter (step machine)))
    (left : ∀ machine later, (enter machine).Continues later →
      machine.Continues (leave machine later)) (machine : Machine) :
    machine.Continues (machineAfter (around enter leave step machine)) := by
  have continued := left machine _ (inside (enter machine))
  unfold around
  cases ended : step (enter machine) <;> rwa [ended] at continued

/-- A failed test is recorded before the run stops. -/
theorem continues_testResult (name : String) (completion : Completion) (location : Location)
    (machine : Machine) :
    machine.Continues (machineAfter (testResult name completion location machine)) := by
  have recorded (passed : Bool) :
      machine.Continues (machineAfter (recordTest name passed location machine)) := by
    have noted : machine.Continues { machine with tests := machine.tests.push ⟨name, passed⟩ } :=
      ⟨⟨#[], Array.append_empty.symm⟩, ⟨#[⟨name, passed⟩], rfl⟩, .refl⟩
    cases passed <;> exact noted
  cases completion with
  | normal => exact recorded true
  | returning value => exact recorded value.isTruthy
  | breaking => exact .refl machine
  | continuing => exact .refl machine

/-- The coupling of all steps that leave what was printed and tested. -/
def continuing : Coupling where
  relates step _ := ∀ machine : Machine, machine.Continues (machineAfter (step machine))

private theorem lawful_continuing (setting : Setting) :
    continuing.Lawful setting fun _ step => step where
  silent silent machine := silent.continues machine
  bind first rest := continues_bind first rest
  here rest machine := rest machine.env machine
  inScope scope _ _ inside := continues_around inside
    fun _ _ continued => ⟨continued.output, continued.tests, continued.classes⟩
  asOwner owner _ _ inside := continues_around inside
    fun _ _ continued => ⟨continued.output, continued.tests, continued.classes⟩
  inCall location step _ inside machine := by
    by_cases full : setting.options.maxCallDepth ≤ machine.callDepth
    · rw [ifRoom_of_le full]
      exact .refl machine
    · rw [ifRoom_of_lt (Nat.lt_of_not_le full), inCall_eq_around]
      refine continues_around inside (fun _ _ continued => ?_) machine
      exact ⟨continued.output, continued.tests, continued.classes⟩
  noting expr step _ inside machine := by
    have continued := inside machine
    unfold noting
    dsimp only
    cases ended : step machine <;>
      (rw [ended] at continued; exact ⟨continued.output, continued.tests, continued.classes⟩)
  print value machine := ⟨⟨#[_], rfl⟩, ⟨#[], Array.append_empty.symm⟩, .refl⟩
  test name location _ _ inside :=
    continues_bind inside fun completion => continues_testResult name completion location
  exhausted _ machine := .refl machine

/-- Whatever code runs, what was printed and tested stays. -/
theorem continuing_routines (setting : Setting) (depth : Nat) :
    continuing.Couples (routines setting depth) (routines setting depth) := by
  have unchanged {inner twin : Routines}
      (couples : continuing.Couples inner (twin.stamped fun _ step => step)) :
      continuing.Couples inner (id twin) := by
    rwa [Routines.stamped_self] at couples
  have coupled := (lawful_continuing setting).routines unchanged depth
  rwa [changedRoutines_id] at coupled

/-- A run of a program leaves what was printed and tested before. -/
theorem continues_interpret (setting : Setting) (program : Program) (machine : Machine) :
    machine.Continues (machineAfter (interpret setting program machine)) :=
  (lawful_continuing setting).interpretBy (continuing_routines setting depthBound) program machine

end Run

end Scriptlet
