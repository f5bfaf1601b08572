import Scriptlet.Proofs.Outcome
import Scriptlet.Run.Evaluate

/-!
# Steps along a relation

A relation between machines that every machine has to itself and that chains holds
between the start and the end of a run if it holds of each of its steps. `Leads` says so
of one step, from where one thing holds to where another does.
-/

namespace Scriptlet

/-- A relation between a machine and a later one, and one to a machine on which a step
stopped. -/
structure Evolution where
  relates : Machine → Machine → Prop
  stops : Machine → RunStop → Machine → Prop
  refl : ∀ machine, relates machine machine
  trans : ∀ {first second third}, relates first second → relates second third →
    relates first third
  fault : ∀ machine fault, stops machine (.fault fault) machine
  endless : ∀ machine, stops machine .endless machine
  onward : ∀ {first second third stop}, relates first second → stops second stop third →
    stops first stop third

/-- The evolution that makes no difference between paths. -/
def Evolution.ofRelation (relates : Machine → Machine → Prop)
    (refl : ∀ machine, relates machine machine)
    (trans : ∀ {first second third}, relates first second → relates second third →
      relates first third) : Evolution where
  relates := relates
  stops := fun machine _ later => relates machine later
  refl := refl
  trans := trans
  fault := fun machine _ => refl machine
  endless := refl
  onward := trans

namespace Run

variable {α β : Type}

/-- A step on a changed machine, which is changed back on every path. -/
def around (enter : Machine → Machine) (leave : Machine → Machine → Machine) (step : Run α) :
    Run α :=
  fun machine =>
    match step (enter machine) with
    | .ok value later => .ok value (leave machine later)
    | .error stop later => .error stop (leave machine later)

/-- A step in another scope is a step around which the scope of the machine is changed. -/
theorem inScope_eq_around (scope : ScopeRef) (step : Run α) :
    Run.inScope scope step = around (fun machine => { machine with env := scope })
      (fun machine later => { later with env := machine.env }) step := rfl

/-- A step as another owner is a step around which an owner is put on top of the others. -/
theorem asOwner_eq_around (owner : Option ClassRef) (step : Run α) :
    Run.asOwner owner step =
      around (fun machine => { machine with owners := owner :: machine.owners })
        (fun _ later => { later with owners := later.owners.tail }) step := rfl

/-- A step in a call is a step around which calls nest one deeper. -/
theorem inCall_eq_around (step : Run α) :
    Run.inCall step =
      around (fun machine => { machine with callDepth := machine.callDepth + 1 })
        (fun _ later => { later with callDepth := later.callDepth - 1 }) step := rfl

/-- The end of a step along the relation, where something holds if it ends with a value. -/
def Ends (evolution : Evolution) (machine : Machine) (after : α → Machine → Prop) :
    EStateM.Result RunStop Machine α → Prop
  | .ok value later => evolution.relates machine later ∧ after value later
  | .error stop later => evolution.stops machine stop later

/-- From where one thing holds, the step ends along the relation on every path, and where
the other thing holds if it ends with a value. -/
def Leads (evolution : Evolution) (before : Machine → Prop) (step : Run α)
    (after : α → Machine → Prop) : Prop :=
  ∀ machine, before machine → Ends evolution machine after (step machine)

variable {evolution : Evolution} {before : Machine → Prop} {step : Run α}
  {after : α → Machine → Prop}

/-- What holds at the end of a step may be replaced by what follows from it. -/
theorem Ends.imp {machine : Machine} {weaker : α → Machine → Prop}
    {result : EStateM.Result RunStop Machine α} (ended : Ends evolution machine after result)
    (implied : ∀ value later, result = .ok value later → evolution.relates machine later →
      after value later → weaker value later) : Ends evolution machine weaker result := by
  cases result with
  | ok value later => exact ⟨ended.1, implied value later rfl ended.1 ended.2⟩
  | error stop later => exact ended

namespace Leads

/-- A step may be said to begin where more holds, and to end where less does. -/
theorem mono {stronger : Machine → Prop} {weaker : α → Machine → Prop}
    (leads : Leads evolution before step after)
    (implies : ∀ machine, stronger machine → before machine)
    (implied : ∀ value machine, after value machine → weaker value machine) :
    Leads evolution stronger step weaker := by
  intro machine holds
  exact (leads machine (implies machine holds)).imp fun value later _ _ => implied value later

/-- A step may be said to begin where more holds. -/
theorem strengthen {stronger : Machine → Prop} (leads : Leads evolution before step after)
    (implies : ∀ machine, stronger machine → before machine) :
    Leads evolution stronger step after :=
  leads.mono implies fun _ _ holds => holds

/-- A step may be said to end where less holds. -/
theorem weaken {weaker : α → Machine → Prop} (leads : Leads evolution before step after)
    (implied : ∀ value machine, after value machine → weaker value machine) :
    Leads evolution before step weaker :=
  leads.mono (fun _ holds => holds) implied

/-- Giving a value leads from a machine to itself. -/
protected theorem pure {value : α} (implies : ∀ machine, before machine → after value machine) :
    Leads evolution before (pure value) after :=
  fun machine holds => ⟨evolution.refl machine, implies machine holds⟩

/-- A fault leads from a machine to itself. -/
protected theorem fail (fault : RuntimeFault) (location : Location) :
    Leads evolution before (Run.fail fault location) after :=
  fun machine _ => evolution.fault machine _

/-- A step that never ends leads along every relation. -/
protected theorem endless : Leads evolution before Run.endless after :=
  fun machine _ => evolution.endless machine

/-- Looking at the machine leads from the machine to itself. -/
protected theorem get : Leads evolution before (get : Run Machine)
    fun value machine => value = machine ∧ before machine :=
  fun machine holds => ⟨evolution.refl machine, rfl, holds⟩

/-- Looking at the store leads from a machine to itself. -/
protected theorem inspect (look : Store → α) : Leads evolution before (Run.inspect look)
    fun value machine => value = look machine.store ∧ before machine :=
  fun machine holds => ⟨evolution.refl machine, rfl, holds⟩

/-- Giving a result, or failing with its fault, leads from a machine to itself. -/
protected theorem orFail (result : Except RuntimeFault α) (location : Location) :
    Leads evolution before (Run.orFail result location) fun value machine =>
      result = .ok value ∧ before machine := by
  cases result with
  | ok value => exact .pure fun _ holds => ⟨rfl, holds⟩
  | error fault => exact .fail fault location

/-- One step after another leads along the relation, if the first one leads to where the second may
begin. -/
theorem bind {next : α → Run β} {final : β → Machine → Prop}
    (first : Leads evolution before step after)
    (rest : ∀ value, Leads evolution (after value) (next value) final) :
    Leads evolution before (step >>= next) final := by
  intro machine holds
  have ended := first machine holds
  change Ends evolution machine final (EStateM.bind step next machine)
  unfold EStateM.bind
  cases result : step machine with
  | ok value middle =>
      rw [result] at ended
      have further := rest value middle ended.2
      change Ends evolution machine final (next value middle)
      cases last : next value middle with
      | ok final later =>
          rw [last] at further
          exact ⟨evolution.trans ended.1 further.1, further.2⟩
      | error stop later =>
          rw [last] at further
          exact evolution.onward ended.1 further
  | error stop middle =>
      rw [result] at ended
      exact ended

/-- Two steps, with what holds between them. -/
theorem through {next : α → Run β} {final : β → Machine → Prop} (between : α → Machine → Prop)
    (first : Leads evolution before step between)
    (rest : ∀ value, Leads evolution (between value) (next value) final) :
    Leads evolution before (step >>= next) final :=
  first.bind rest

/-- What no step along the relation undoes still holds afterwards. -/
theorem keep (known : Machine → Prop) (leads : Leads evolution before step after)
    (kept : ∀ machine later, evolution.relates machine later → known machine → known later) :
    Leads evolution (fun machine => known machine ∧ before machine) step
      fun value machine => known machine ∧ after value machine := by
  rintro machine ⟨fact, holds⟩
  exact (leads machine holds).imp fun _ later _ moved ended =>
    ⟨kept machine later moved fact, ended⟩

/-- A fact that is no matter of the machine may be set aside. -/
theorem assuming {fact : Prop} (each : fact → Leads evolution before step after) :
    Leads evolution (fun machine => fact ∧ before machine) step after :=
  fun machine holds => each holds.1 machine holds.2

/-- A step in another scope, for another owner or one call deeper goes along the relation if
entering and leaving make no difference to it. -/
theorem around {enter : Machine → Machine} {leave : Machine → Machine → Machine}
    {entered : Machine → Prop} {done : α → Machine → Prop}
    (inside : Leads evolution entered step done)
    (enters : ∀ machine, before machine → entered (enter machine))
    (relates : ∀ machine later, before machine → evolution.relates (enter machine) later →
      evolution.relates machine (leave machine later))
    (stops : ∀ machine stop later, before machine → evolution.stops (enter machine) stop later →
      evolution.stops machine stop (leave machine later))
    (leaves : ∀ value machine later, before machine → evolution.relates (enter machine) later →
      done value later → after value (leave machine later)) :
    Leads evolution before (Run.around enter leave step) after := by
  intro machine holds
  have ended := inside (enter machine) (enters machine holds)
  unfold Run.around
  cases result : step (enter machine) with
  | ok value later =>
      rw [result] at ended
      exact ⟨relates machine later holds ended.1, leaves value machine later holds ended.1 ended.2⟩
  | error stop later =>
      rw [result] at ended
      exact stops machine stop later holds ended

/-- Evaluating an initial value leads where evaluating the expression does, if there is one. -/
protected theorem valueOrNil {evaluate : Expr → Run Value} {expr : Option Expr}
    (inside : ∀ one, expr = some one → Leads evolution before (evaluate one) fun _ => before) :
    Leads evolution before (Run.valueOrNil evaluate expr) fun _ => before := by
  cases expr with
  | some one => exact inside one rfl
  | none => exact .pure fun _ holds => holds

end Leads

end Run

end Scriptlet
