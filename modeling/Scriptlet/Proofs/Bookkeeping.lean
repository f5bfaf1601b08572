import Scriptlet.Proofs.Run.Frame
import Scriptlet.Proofs.Run.Continuing
import Scriptlet.Proofs.Run.History

/-!
# Bookkeeping

A run that comes back from a piece of code, on whatever path, stands in the scope it stood in, as
code of the classes it was code of, and as deep in calls (`Machine.Restores`). What was printed and
tested stays. On the way it is never deeper in calls than it was at first or than the options allow:
it goes just as one that is stopped there (`Run.limited`).
-/

namespace Scriptlet

/-- What a piece of code leaves: the machine stands where it stood, and what was printed and tested
is still there. -/
structure Machine.Restores (machine later : Machine) : Prop where
  env : later.env = machine.env
  owners : later.owners = machine.owners
  callDepth : later.callDepth = machine.callDepth
  output : ∃ lines, later.output = machine.output ++ lines
  tests : ∃ outcomes, later.tests = machine.tests ++ outcomes

namespace Run

variable {α β : Type} {bound : Nat}

/-- A step that is stopped if calls nest deeper than a bound. -/
def limited (bound : Nat) (stop : RunStop) (step : Run α) : Run α :=
  fun machine => if machine.callDepth ≤ bound then step machine else .error stop machine

private theorem limited_of_le {stop : RunStop} {step : Run α} {machine : Machine}
    (low : machine.callDepth ≤ bound) : limited bound stop step machine = step machine :=
  if_pos low

/-- Routines that are stopped if calls nest deeper than a bound. -/
def Routines.limited (bound : Nat) (stop : RunStop) (routines : Routines) : Routines where
  evaluate expr := Run.limited bound stop (routines.evaluate expr)
  execute statement := Run.limited bound stop (routines.execute statement)
  executeAll statements := Run.limited bound stop (routines.executeAll statements)

/-- The coupling of steps that go alike where calls nest no deeper than a bound, and come back
as deep in calls as they began. -/
def limiting (bound : Nat) : Coupling where
  relates step twin := ∀ machine : Machine, machine.callDepth ≤ bound →
    twin machine = step machine ∧ (machineAfter (step machine)).callDepth = machine.callDepth

private theorem limiting_self {step : Run α}
    (kept : ∀ machine : Machine, (machineAfter (step machine)).callDepth = machine.callDepth) :
    (limiting bound).relates step step :=
  fun machine _ => ⟨rfl, kept machine⟩

private theorem limiting_bind {step twin : Run α} {next nextTwin : α → Run β}
    (first : (limiting bound).relates step twin)
    (rest : ∀ value, (limiting bound).relates (next value) (nextTwin value)) :
    (limiting bound).relates (step >>= next) (twin >>= nextTwin) := by
  intro machine low
  obtain ⟨same, kept⟩ := first machine low
  cases ended : step machine with
  | ok value middle =>
      rw [ended] at same kept
      rw [bind_of_ok ended, bind_of_ok same]
      obtain ⟨sameNext, keptNext⟩ := rest value middle (Nat.le_trans (Nat.le_of_eq kept) low)
      exact ⟨sameNext, keptNext.trans kept⟩
  | error stop middle =>
      rw [ended] at same kept
      rw [bind_of_error ended, bind_of_error same]
      exact ⟨rfl, kept⟩

/-- A step on a changed machine goes alike if calls nest no deeper than the bound there too. -/
theorem limiting_around {step twin : Run α} {enter : Machine → Machine}
    {leave : Machine → Machine → Machine} {machine : Machine}
    (related : (limiting bound).relates step twin) (low : (enter machine).callDepth ≤ bound)
    (left : ∀ later : Machine, later.callDepth = (enter machine).callDepth →
      (leave machine later).callDepth = machine.callDepth) :
    around enter leave twin machine = around enter leave step machine ∧
      (machineAfter (around enter leave step machine)).callDepth = machine.callDepth := by
  obtain ⟨same, kept⟩ := related (enter machine) low
  unfold around
  rw [same]
  refine ⟨rfl, ?_⟩
  cases ended : step (enter machine) <;>
    (rw [ended] at kept; exact left _ kept)

private theorem lawful_limiting {setting : Setting}
    (enough : setting.options.maxCallDepth ≤ bound) :
    (limiting bound).Lawful setting fun _ step => step where
  silent silent := limiting_self fun machine => (silent.quiet machine).callDepth
  bind first rest := limiting_bind first rest
  here rest machine := rest machine.env machine
  inScope scope _ _ inside _ low := by
    rw [inScope_eq_around, inScope_eq_around]
    exact limiting_around inside low fun _ kept => kept
  asOwner owner _ _ inside _ low := by
    rw [asOwner_eq_around, asOwner_eq_around]
    exact limiting_around inside low fun _ kept => kept
  inCall location step twin inside machine low := by
    by_cases full : setting.options.maxCallDepth ≤ machine.callDepth
    · rw [ifRoom_of_le full, ifRoom_of_le full]
      exact ⟨rfl, rfl⟩
    · have room := Nat.lt_of_not_le full
      rw [ifRoom_of_lt room, ifRoom_of_lt room, inCall_eq_around, inCall_eq_around]
      exact limiting_around inside (Nat.le_trans room enough) fun _ kept => congrArg (· - 1) kept
  noting expr step twin inside machine low := by
    obtain ⟨same, kept⟩ := inside machine low
    unfold noting
    dsimp only
    rw [same]
    refine ⟨rfl, ?_⟩
    cases ended : step machine <;>
      (rw [ended] at kept; exact kept)
  print value := limiting_self fun _ => rfl
  test name location _ _ inside := limiting_bind inside fun completion =>
    limiting_self fun machine =>
      (Leaves.testResult name completion location machine : machine.Keeps [] _).callDepth
  exhausted _ := limiting_self fun _ => rfl

private theorem limiting_limited {step twin : Run α} (related : (limiting bound).relates step twin)
    (stop : RunStop) : (limiting bound).relates step (limited bound stop twin) := by
  intro machine low
  rw [limited_of_le low]
  exact related machine low

/-- Routines that are stopped where calls nest too deep go as those that are not. -/
theorem limiting_routines {setting : Setting} (enough : setting.options.maxCallDepth ≤ bound)
    (stop : RunStop) (depth : Nat) : (limiting bound).Couples (routines setting depth)
      (changedRoutines setting (Routines.limited bound stop) depth) := by
  refine (lawful_limiting enough).routines (fun {inner twin} couples => ?_) depth
  rw [Routines.stamped_self] at couples
  exact ⟨fun expr => limiting_limited (couples.evaluate expr) stop,
    fun statement => limiting_limited (couples.execute statement) stop,
    fun statements => limiting_limited (couples.executeAll statements) stop⟩

end Run

/-- Whatever is evaluated or executed, on whatever machine and with whatever outcome, the machine
stands afterwards where it stood, and has only printed and tested more. A run that is stopped as
soon as code is to be run with calls nesting deeper than they did at first and deeper than the
options allow goes just the same. -/
theorem bookkeeping_restored (setting : Setting) (depth : Nat) (machine : Machine)
    (stop : RunStop) :
    let bound := max machine.callDepth setting.options.maxCallDepth
    let routines := Run.routines setting depth
    let stopped := Run.changedRoutines setting (Run.Routines.limited bound stop) depth
    (∀ expr, machine.Restores (Run.machineAfter (routines.evaluate expr machine)) ∧
      stopped.evaluate expr machine = routines.evaluate expr machine) ∧
    (∀ statement, machine.Restores (Run.machineAfter (routines.execute statement machine)) ∧
      stopped.execute statement machine = routines.execute statement machine) ∧
    (∀ statements, machine.Restores (Run.machineAfter (routines.executeAll statements machine)) ∧
      stopped.executeAll statements machine = routines.executeAll statements machine) := by
  intro bound routines stopped
  have framed := Run.framed_routines setting depth
  have continuing := Run.continuing_routines setting depth
  have enough : setting.options.maxCallDepth ≤ bound := Nat.le_max_right _ _
  have limiting := Run.limiting_routines enough stop depth
  have restores {changes : List (String × Bool)} {later : Machine}
      (kept : machine.Keeps changes later) (continued : machine.Continues later) :
      machine.Restores later :=
    ⟨kept.env, kept.owners, kept.callDepth, continued.output, continued.tests⟩
  have low : machine.callDepth ≤ bound := Nat.le_max_left _ _
  refine ⟨fun expr => ⟨?_, (limiting.evaluate expr machine low).1⟩,
    fun statement => ⟨?_, (limiting.execute statement machine low).1⟩,
    fun statements => ⟨?_, (limiting.executeAll statements machine low).1⟩⟩
  · exact restores (framed.evaluate expr machine) (continuing.evaluate expr machine)
  · exact restores (framed.execute statement machine) (continuing.execute statement machine)
  · exact restores (framed.executeAll statements machine)
      (continuing.executeAll statements machine)

/-- With a bound that leaves no room for a call, a call is what the run is stopped at. -/
example : Run.fault? ((Run.changedRoutines (.bare .empty)
    (Run.Routines.limited 0 (.fault ⟨.callDepthExceeded 0, .start⟩)) 5).executeAll
      [.function ⟨"f", .function, [], [], false, .start⟩,
        .expression (.call (.var 0 "f" .start) [] .start) .start] (.start .bare ⟨0⟩)) =
      some ⟨.callDepthExceeded 0, .start⟩ := by decide +kernel

end Scriptlet
