import Scriptlet.Proofs.Run.Coupling
import Scriptlet.Proofs.Run.History

/-!
# The outcomes of tests

Only the last outcome of a run can be that of a test that failed, since such a test stops the run
(`AllPassed`). To see that each test that is executed leaves one outcome, the run is compared to one
in which executing a test leaves a mark as well (`Run.marking`): the marks stand right after the
outcomes (`withMarks`).
-/

namespace Scriptlet

/-- Outcomes of tests, with a mark after each of them. -/
def withMarks (mark : String → TestOutcome) (tests : Array TestOutcome) : Array TestOutcome :=
  tests.flatMap fun outcome => #[outcome, mark outcome.name]

private theorem withMarks_push (mark : String → TestOutcome) (tests : Array TestOutcome)
    (outcome : TestOutcome) :
    withMarks mark (tests.push outcome) =
      ((withMarks mark tests).push outcome).push (mark outcome.name) := by
  apply Array.ext'
  simp [withMarks]

/-- All tests have passed. -/
def AllPassed (tests : Array TestOutcome) : Prop :=
  ∀ outcome ∈ tests, outcome.passed = true

private theorem AllPassed.push {tests : Array TestOutcome} (passed : AllPassed tests)
    (name : String) :
    AllPassed (tests.push ⟨name, true⟩) := by
  intro outcome member
  obtain earlier | rfl := Array.mem_push.mp member
  · exact passed outcome earlier
  · rfl

private theorem AllPassed.pop {tests : Array TestOutcome} (passed : AllPassed tests) :
    AllPassed tests.pop := by
  intro outcome member
  rw [← Array.mem_toList_iff, Array.toList_pop] at member
  exact passed outcome (Array.mem_toList_iff.mp (List.dropLast_subset _ member))

private theorem AllPassed.back?_ne {tests : Array TestOutcome} (passed : AllPassed tests)
    (name : String) :
    tests.back? ≠ some ⟨name, false⟩ := by
  intro last
  cases passed _ (Array.mem_of_back? last)

/-- What is recorded when a run stops: only a test that has failed has left an outcome that
says so, and it is the last one. -/
inductive Recorded : RunStop → Array TestOutcome → Prop where
  | failed {earlier : Array TestOutcome} {name : String} {location : Location} :
      AllPassed earlier →
      Recorded (.fault ⟨.testFailed name, location⟩) (earlier.push ⟨name, false⟩)
  | other {stop : RunStop} {tests : Array TestOutcome} :
      (∀ name location, stop ≠ .fault ⟨.testFailed name, location⟩) → AllPassed tests →
      Recorded stop tests

namespace Recorded

variable {stop : RunStop} {tests : Array TestOutcome}

private theorem pop (recorded : Recorded stop tests) : AllPassed tests.pop := by
  cases recorded with
  | failed passed =>
      rw [Array.pop_push]
      exact passed
  | other _ passed => exact passed.pop

/-- The last outcome is that of a test that failed exactly if the run stopped because of it. -/
theorem back?_eq_iff (recorded : Recorded stop tests) (name : String) :
    tests.back? = some ⟨name, false⟩ ↔
      ∃ location, stop = .fault ⟨.testFailed name, location⟩ := by
  cases recorded with
  | @failed earlier culprit location passed =>
      rw [Array.back?_push]
      constructor
      · intro same
        cases same
        exact ⟨location, rfl⟩
      · rintro ⟨_, same⟩
        cases same
        rfl
  | other unfailed passed =>
      constructor
      · intro last
        exact absurd last (passed.back?_ne name)
      · rintro ⟨location, failed⟩
        exact absurd failed (unfailed name location)

end Recorded

/-- The machine of a run that leaves marks. -/
def Machine.marked (mark : String → TestOutcome) (machine : Machine) : Machine :=
  { machine with tests := withMarks mark machine.tests }

namespace Run

variable {α β : Type} {mark : String → TestOutcome}

/-- A step that leaves a mark if it ends with a value. -/
def marking (outcome : TestOutcome) (step : Run Completion) : Run Completion := do
  let completion ← step
  modify fun machine => { machine with tests := machine.tests.push outcome }
  return completion

/-- A step that ends with a value has recorded tests that passed, and ends with the same value
where marks are left, which then stand after the outcomes. -/
def Logs (mark : String → TestOutcome) (twin : EStateM.Result RunStop Machine α) :
    EStateM.Result RunStop Machine α → Prop
  | .ok value later => AllPassed later.tests ∧ twin = .ok value (later.marked mark)
  | .error stop later => Recorded stop later.tests

/-- The coupling of a run to one that leaves marks. -/
def logging (mark : String → TestOutcome) : Coupling where
  relates step twin := ∀ machine : Machine, AllPassed machine.tests →
    Logs mark (twin (machine.marked mark)) (step machine)

private theorem Silent.logs {step : Run α} (silent : Silent step) :
    (logging mark).relates step step := by
  intro machine passed
  have quiet := silent.quiet machine
  have blind : step (machine.marked mark) = withTests _ (step machine) := silent.blind machine _
  cases ended : step machine with
  | ok value later =>
      rw [ended] at quiet blind
      have same : later.tests = machine.tests := quiet.tests
      refine ⟨same ▸ passed, blind.trans ?_⟩
      rw [Machine.marked, same]
      rfl
  | error stop later =>
      rw [ended] at quiet
      have same : later.tests = machine.tests := quiet.tests
      refine .other (fun name location failed => ?_) (same ▸ passed)
      subst failed
      exact silent.passes machine name location later ended

private theorem logging_bind {step twin : Run α} {next nextTwin : α → Run β}
    (first : (logging mark).relates step twin)
    (rest : ∀ value, (logging mark).relates (next value) (nextTwin value)) :
    (logging mark).relates (step >>= next) (twin >>= nextTwin) := by
  intro machine passed
  have logged := first machine passed
  cases ended : step machine with
  | ok value middle =>
      rw [ended] at logged
      rw [bind_of_ok ended, bind_of_ok logged.2]
      exact rest value middle logged.1
  | error stop middle =>
      rw [ended] at logged
      rw [bind_of_error ended]
      exact logged

/-- A step on a changed machine leaves the same outcomes if the change is not one of tests. -/
theorem logging_around {step twin : Run α} {enter : Machine → Machine}
    {leave : Machine → Machine → Machine} (related : (logging mark).relates step twin)
    (enters : ∀ machine, enter (machine.marked mark) = (enter machine).marked mark)
    (entered : ∀ machine, (enter machine).tests = machine.tests)
    (leaves : ∀ machine later : Machine, leave (machine.marked mark) (later.marked mark) =
      (leave machine later).marked mark)
    (left : ∀ machine later, (leave machine later).tests = later.tests) :
    (logging mark).relates (around enter leave step) (around enter leave twin) := by
  intro machine passed
  have logged := related (enter machine) ((entered machine).symm ▸ passed)
  rw [← enters] at logged
  unfold around
  cases ended : step (enter machine) with
  | ok value later =>
      rw [ended] at logged
      rw [logged.2]
      refine ⟨(left machine later).symm ▸ logged.1, ?_⟩
      rw [← leaves]
  | error stop later =>
      rw [ended] at logged
      change Recorded stop (leave machine later).tests
      rw [left]
      exact logged

/-- A test leaves its outcome and then its mark. -/
theorem logging_recordTest (name : String) (passed : Bool) (location : Location) :
    (logging mark).relates (recordTest name passed location)
      (marking (mark name) (recordTest name passed location)) := by
  intro machine before
  cases passed with
  | true =>
      refine ⟨before.push name, ?_⟩
      change EStateM.Result.ok _ { machine with tests := _ } =
        EStateM.Result.ok _ { machine with tests := withMarks mark _ }
      rw [withMarks_push]
      rfl
  | false => exact .failed before

private theorem marking_bind (outcome : TestOutcome) (step : Run α) (next : α → Run Completion) :
    marking outcome (step >>= next) = step >>= fun value => marking outcome (next value) :=
  bind_assoc step next _

private theorem lawful_logging (setting : Setting) (mark : String → TestOutcome) :
    (logging mark).Lawful setting fun name => marking (mark name) where
  silent silent := silent.logs
  bind first rest := logging_bind first rest
  here rest machine := rest machine.env machine
  inScope scope _ _ inside := logging_around inside (fun _ => rfl) (fun _ => rfl)
    (fun _ _ => rfl) fun _ _ => rfl
  asOwner owner _ _ inside := logging_around inside (fun _ => rfl) (fun _ => rfl)
    (fun _ _ => rfl) fun _ _ => rfl
  inCall location step twin inside machine passed := by
    by_cases full : setting.options.maxCallDepth ≤ machine.callDepth
    · rw [ifRoom_of_le full]
      exact .other nofun passed
    · have room : (machine.marked mark).callDepth < setting.options.maxCallDepth :=
        Nat.lt_of_not_le full
      have called : (logging mark).relates (Run.inCall step) (Run.inCall twin) :=
        logging_around inside (fun _ => rfl) (fun _ => rfl) (fun _ _ => rfl) fun _ _ => rfl
      rw [ifRoom_of_lt room, ifRoom_of_lt (Nat.lt_of_not_le full)]
      exact called machine passed
  noting expr step twin inside machine passed := by
    have logged := inside machine passed
    unfold noting
    dsimp only
    cases ended : step machine with
    | ok value later =>
        rw [ended] at logged
        rw [logged.2]
        exact ⟨logged.1, rfl⟩
    | error stop later =>
        rw [ended] at logged
        exact logged
  print value machine passed := ⟨passed, rfl⟩
  test name location _ _ inside := by
    rw [marking_bind]
    refine logging_bind inside fun completion => ?_
    cases completion with
    | normal => exact logging_recordTest name true location
    | returning value => exact logging_recordTest name value.isTruthy location
    | breaking => exact fun machine passed => .other nofun passed
    | continuing => exact fun machine passed => .other nofun passed
  exhausted _ machine passed := .other nofun passed

end Run

/-- Of the outcomes a run of a program leaves, all but the last are of tests that passed. The last
is of one that failed exactly if the run stops because of it. If the run ends well, all tests have
passed, and each that was executed has left one outcome, when it was over: if executing a test
leaves a mark as well, the run goes the same way, and the marks stand after the outcomes. -/
theorem tests_logged (setting : Setting) (program : Program) (store : Store) (globals : ScopeRef)
    (mark : String → TestOutcome) :
    let result := Run.interpret setting program (.start store globals)
    let later := Run.machineAfter result
    let marked := Run.changedRoutines setting
      (Run.Routines.stamped fun name => Run.marking (mark name)) Run.depthBound
    (∀ outcome ∈ later.tests.pop, outcome.passed = true) ∧
    (∀ name, later.tests.back? = some ⟨name, false⟩ ↔
      ∃ location, result = .error (.fault ⟨.testFailed name, location⟩) later) ∧
    (result = .ok () later → (∀ outcome ∈ later.tests, outcome.passed = true) ∧
      Run.interpretBy marked.execute program (.start store globals) =
        .ok () { later with
          tests := later.tests.flatMap fun outcome => #[outcome, mark outcome.name] }) := by
  intro result later marked
  have lawful := Run.lawful_logging setting mark
  have untested : AllPassed (Machine.start store globals).tests := fun _ => nofun
  have logged : Run.Logs mark (Run.interpretBy marked.execute program (.start store globals))
      result :=
    lawful.interpretBy (lawful.routines id Run.depthBound) program (.start store globals) untested
  cases ended : result with
  | ok value machine =>
      rw [ended] at logged
      obtain rfl : later = machine := congrArg Run.machineAfter ended
      obtain ⟨passed, same⟩ := logged
      refine ⟨passed.pop, fun name => ⟨fun last => absurd last (passed.back?_ne name), ?_⟩,
        fun _ => ⟨passed, same⟩⟩
      rintro ⟨_, failed⟩
      cases failed
  | error stop machine =>
      rw [ended] at logged
      obtain rfl : later = machine := congrArg Run.machineAfter ended
      have recorded : Recorded stop later.tests := logged
      refine ⟨recorded.pop, fun name => ?_, nofun⟩
      rw [recorded.back?_eq_iff]
      constructor
      · rintro ⟨location, rfl⟩
        exact ⟨location, rfl⟩
      · rintro ⟨location, same⟩
        cases same
        exact ⟨location, rfl⟩

/-- A test inside of another one is over first. -/
example : (Run.machineAfter (Run.interpret (.bare .empty)
    [.test "outer" [.test "inner" [] .start] .start] (.start .bare ⟨0⟩))).tests =
      #[⟨"inner", true⟩, ⟨"outer", true⟩] := by decide +kernel

end Scriptlet
