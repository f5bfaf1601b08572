import Scriptlet.Proofs.Lexical.Proper
import Scriptlet.Proofs.Outcome
import Scriptlet.Proofs.Rerun.Values
import Scriptlet.Run.Evaluate

/-!
# Steps that repeat

A step that ends well repeats on top of what earlier runs left: it ends well there too, with the
same value and the same machine, moved (`Run.Repeats`). A step that fails need not: it may look for
a name that only an earlier run has bound.
-/

namespace Scriptlet

/-! ### Machines on top of what there was before -/

section Moving

variable (past : Store)

def Completion.atop : Completion → Completion
  | .normal => .normal
  | .breaking => .breaking
  | .continuing => .continuing
  | .returning value => .returning (value.atop past)

def Use.atop (use : Use) : Use :=
  ⟨use.id, use.name, use.env.atop past⟩

def FieldUse.atop (use : FieldUse) : FieldUse :=
  ⟨use.object.atop past, use.name, use.slot.atop past, use.kind, use.env.atop past,
    use.owner.map (·.atop past)⟩

def Evaluation.atop (evaluation : Evaluation) : Evaluation :=
  ⟨evaluation.expr, evaluation.env.atop past, evaluation.owners.map (·.map (·.atop past)),
    evaluation.callDepth, past.classes ++ evaluation.classes.map (·.atop past),
    evaluation.outcome.map (·.atop past)⟩

/-- A machine whose store is on top of what earlier runs left. -/
def Machine.atop (machine : Machine) : Machine where
  store := machine.store.atop past
  env := machine.env.atop past
  owners := machine.owners.map (·.map (·.atop past))
  callDepth := machine.callDepth
  initDepth := machine.initDepth
  uses := machine.uses.map (·.atop past)
  fieldUses := machine.fieldUses.map (·.atop past)
  evaluations := machine.evaluations.map (·.atop past)
  output := machine.output
  tests := machine.tests

/-- The store of the machine on top is the store on top. -/
@[simp] theorem Machine.store_atop (machine : Machine) :
    (machine.atop past).store = machine.store.atop past := rfl

/-- The owner of the code on top is the class its owner is moved to. -/
@[simp] theorem Machine.owner_atop (machine : Machine) :
    (machine.atop past).owner = machine.owner.map (·.atop past) := by
  unfold Machine.owner Machine.atop
  cases machine.owners <;> rfl

end Moving

/-! ### Stores whose code is proper -/

/-- A function whose code is proper. A constructor closes over the scope of its receiver. -/
structure FunctionObject.Proper (function : FunctionObject) : Prop where
  body : Statement.areProper function.decl.body = true
  inner : function.decl.kind = .constructor → function.closure ≠ ⟨0⟩

/-- A class whose code is proper. -/
structure ClassObject.Proper (object : ClassObject) : Prop where
  methods : ∀ name method, object.methods.find? name = some method →
    Statement.areProper method.decl.body = true

/-- A store of proper code, without native modules. -/
structure Store.Proper (store : Store) : Prop where
  rooted : store.Rooted
  functions : ∀ ref function, store.function? ref = some function → function.Proper
  classes : ∀ ref object, store.class? ref = some object → object.Proper
  modules : store.modules = #[]

/-! ### Steps -/

namespace Run

variable {α β γ δ : Type} {past : Store}

/-- A step that ends well ends well on top of what earlier runs left, with the same value, moved. -/
def Repeats (past : Store) (moved : α → β) (step : Run α) (again : Run β) : Prop :=
  ∀ machine value later, machine.store.Proper → step machine = .ok value later →
    later.store.Proper ∧ again (machine.atop past) = .ok (moved value) (later.atop past)

namespace Repeats

variable {moved : α → β} {step : Run α} {again : Run β}

/-- Giving a value repeats. -/
protected theorem pure (value : α) : Repeats past moved (pure value) (pure (moved value)) := by
  intro machine result later proper ended
  cases ended
  exact ⟨proper, rfl⟩

/-- A step that fails has nothing to repeat. -/
protected theorem fail (fault : RuntimeFault) (location : Location) (again : Run β) :
    Repeats past moved (Run.fail fault location) again :=
  fun _ _ _ _ ended => by cases ended

/-- A step that stops for its depth does not end well. -/
protected theorem exhausted (again : Run β) : Repeats past moved Run.exhausted again :=
  fun _ _ _ _ ended => by cases ended

/-- What comes after a step of whose value something is known. -/
theorem bindKnowing {next : α → Run γ} {nextAgain : β → Run δ} {onward : γ → δ}
    {holds : α → Prop} (first : Repeats past moved step again)
    (known : ∀ machine value later, machine.store.Proper → step machine = .ok value later →
      holds value)
    (rest : ∀ value, holds value → Repeats past onward (next value) (nextAgain (moved value))) :
    Repeats past onward (step >>= next) (again >>= nextAgain) := by
  intro machine value later proper ended
  obtain ⟨middle, between, firstEnded, restEnded⟩ := bind_eq_ok.mp ended
  obtain ⟨properToo, firstAgain⟩ := first machine middle between proper firstEnded
  obtain ⟨properLater, restAgain⟩ :=
    rest middle (known machine middle between proper firstEnded)
      between value later properToo restEnded
  exact ⟨properLater, bind_eq_ok.mpr ⟨_, _, firstAgain, restAgain⟩⟩

/-- One step after another repeats if both do. -/
theorem bind {next : α → Run γ} {nextAgain : β → Run δ} {onward : γ → δ}
    (first : Repeats past moved step again)
    (rest : ∀ value, Repeats past onward (next value) (nextAgain (moved value))) :
    Repeats past onward (step >>= next) (again >>= nextAgain) :=
  first.bindKnowing (fun _ _ _ _ _ => trivial) fun value _ => rest value

/-- What comes after a look at the machine. -/
theorem get {next : Machine → Run α} {nextAgain : Machine → Run β} {onward : α → β}
    (rest : ∀ machine, machine.store.Proper →
      Repeats past onward (next machine) (nextAgain (machine.atop past))) :
    Repeats past onward (MonadState.get >>= next) (MonadState.get >>= nextAgain) := by
  intro machine value later proper ended
  exact rest machine proper machine value later proper ended

/-- What comes after a look at the store. -/
theorem look {see : Store → α} {seeAgain : Store → β} {next : α → Run γ} {nextAgain : β → Run δ}
    {onward : γ → δ} (rest : ∀ store, store.Proper →
      Repeats past onward (next (see store)) (nextAgain (seeAgain (store.atop past)))) :
    Repeats past onward (inspect see >>= next) (inspect seeAgain >>= nextAgain) := by
  intro machine value later proper ended
  exact rest machine.store proper machine value later proper ended

/-- A change of the store repeats, if it goes on top as it goes alone. -/
protected theorem change {update updateAgain : Store → Store}
    (kept : ∀ store, store.Proper → (update store).Proper)
    (same : ∀ store, store.Proper → (update store).atop past = updateAgain (store.atop past)) :
    Repeats past id (Run.change update) (Run.change updateAgain) := by
  intro machine value later proper ended
  cases ended
  refine ⟨kept _ proper, ?_⟩
  change EStateM.Result.ok _
    { machine.atop past with store := updateAgain (machine.store.atop past) }
    = _
  rw [← same _ proper]
  rfl

/-- Making something in the store repeats, if it goes on top as it goes alone. -/
protected theorem create {make : Store → α × Store} {makeAgain : Store → β × Store}
    (kept : ∀ store, store.Proper → (make store).2.Proper)
    (same : ∀ store, store.Proper →
      makeAgain (store.atop past) = (moved (make store).1, (make store).2.atop past)) :
    Repeats past moved (Run.create make) (Run.create makeAgain) := by
  intro machine value later proper ended
  have made : Run.create make machine =
      .ok (make machine.store).1 { machine with store := (make machine.store).2 } := rfl
  have madeAgain : Run.create makeAgain (machine.atop past) =
      .ok (makeAgain (machine.store.atop past)).1
        { machine.atop past with store := (makeAgain (machine.store.atop past)).2 } := rfl
  cases made.symm.trans ended
  refine ⟨kept _ proper, ?_⟩
  rw [madeAgain, same _ proper]
  rfl

/-- A change of the machine that leaves its store as it is. -/
protected theorem modify {update updateAgain : Machine → Machine}
    (store : ∀ machine, (update machine).store = machine.store)
    (same : ∀ machine, (update machine).atop past = updateAgain (machine.atop past)) :
    Repeats past id (modify update) (modify updateAgain) := by
  intro machine value later proper ended
  cases ended
  refine ⟨(store machine).symm ▸ proper, ?_⟩
  change EStateM.Result.ok _ (updateAgain (machine.atop past)) = _
  rw [← same]

/-- What comes after a step that ends well, whatever that leaves. -/
theorem andThen {next : Run γ} {nextAgain : Run δ} {onward : γ → δ}
    (first : Repeats past moved step again) (rest : Repeats past onward next nextAgain) :
    Repeats past onward (step >>= fun _ => next) (again >>= fun _ => nextAgain) :=
  first.bind fun _ => rest

/-- A step in another scope repeats if the step does. -/
protected theorem inScope (inside : Repeats past moved step again) (scope : ScopeRef) :
    Repeats past moved (Run.inScope scope step) (Run.inScope (scope.atop past) again) := by
  intro machine value later proper ended
  unfold Run.inScope at ended ⊢
  dsimp only at ended ⊢
  cases result : step { machine with env := scope } with
  | error stop after =>
      rw [result] at ended
      cases ended
  | ok found after =>
      rw [result] at ended
      cases ended
      obtain ⟨kept, repeated⟩ := inside { machine with env := scope } _ _ proper result
      refine ⟨kept, ?_⟩
      rw [show again { machine.atop past with env := scope.atop past } = _ from repeated]
      rfl

/-- A step as another owner repeats if the step does. -/
protected theorem asOwner (inside : Repeats past moved step again) (owner : Option ClassRef) :
    Repeats past moved (Run.asOwner owner step)
      (Run.asOwner (owner.map (·.atop past)) again) := by
  intro machine value later proper ended
  unfold Run.asOwner at ended ⊢
  cases result : step { machine with owners := owner :: machine.owners } with
  | error stop after =>
      rw [result] at ended
      cases ended
  | ok found after =>
      rw [result] at ended
      cases ended
      obtain ⟨kept, repeated⟩ :=
        inside { machine with owners := owner :: machine.owners } _ _ proper
        result
      refine ⟨kept, ?_⟩
      rw [show again { machine.atop past with
        owners := owner.map (·.atop past) :: (machine.atop past).owners } = _ from repeated]
      simp [Machine.atop, List.map_tail]

/-- A step in a call repeats if the step does. -/
protected theorem inCall (inside : Repeats past moved step again) :
    Repeats past moved (Run.inCall step) (Run.inCall again) := by
  intro machine value later proper ended
  unfold Run.inCall at ended ⊢
  cases result : step { machine with callDepth := machine.callDepth + 1 } with
  | error stop after =>
      rw [result] at ended
      cases ended
  | ok found after =>
      rw [result] at ended
      cases ended
      obtain ⟨kept, repeated⟩ :=
        inside { machine with callDepth := machine.callDepth + 1 } _ _ proper
        result
      refine ⟨kept, ?_⟩
      rw [show again { machine.atop past with callDepth := (machine.atop past).callDepth + 1 } = _
        from repeated]
      rfl

/-- An evaluation that is noted repeats if it does so without the note. -/
protected theorem noting {step again : Run Value} (inside : Repeats past (·.atop past) step again)
    (expr : Expr) : Repeats past (·.atop past) (Run.noting expr step) (Run.noting expr again) := by
  intro machine value later proper ended
  unfold Run.noting at ended ⊢
  dsimp only at ended ⊢
  cases result : step machine with
  | error stop after =>
      rw [result] at ended
      cases ended
  | ok found after =>
      rw [result] at ended
      cases ended
      obtain ⟨kept, repeated⟩ := inside machine _ _ proper result
      refine ⟨kept, ?_⟩
      rw [repeated]
      rfl

/-- Values are found one after the other. -/
protected theorem valuesOf {evaluate : Expr → Run Value}
    (exprs : ∀ expr, Repeats past (·.atop past) (evaluate expr) (evaluate expr))
    (listed : List Expr) :
    Repeats past (List.map (·.atop past)) (valuesOf evaluate listed)
      (valuesOf evaluate listed) := by
  induction listed with
  | nil => exact .pure []
  | cons expr rest ih =>
      exact (exprs expr).bind fun value => ih.bind fun values => .pure (value :: values)

/-- Evaluating an initial value repeats if evaluating expressions does. -/
protected theorem valueOrNil {evaluate : Expr → Run Value}
    (exprs : ∀ expr, Repeats past (·.atop past) (evaluate expr) (evaluate expr))
    (initial : Option Expr) :
    Repeats past (·.atop past) (valueOrNil evaluate initial) (valueOrNil evaluate initial) := by
  cases initial with
  | some expr => exact exprs expr
  | none => exact .pure Value.nil

/-- A loop repeats if its rounds do. -/
protected theorem untilDone {step : Run (Option Completion)}
    (round : Repeats past (Option.map (·.atop past)) step step) (bound : Nat) :
    Repeats past (·.atop past) (untilDone step bound) (untilDone step bound) := by
  induction bound with
  | zero =>
      intro machine value later proper ended
      cases ended
  | succ bound ih =>
      refine round.bind fun result => ?_
      cases result with
      | some completion => exact .pure completion
      | none => exact ih

/-- A loop of so many rounds repeats if its rounds do. -/
protected theorem times {step : Run (Option Completion)}
    (round : Repeats past (Option.map (·.atop past)) step step) (count : Nat) :
    Repeats past (·.atop past) (times step count) (times step count) := by
  induction count with
  | zero => exact .pure Completion.normal
  | succ count ih =>
      refine round.bind fun result => ?_
      cases result with
      | some completion => exact .pure completion
      | none => exact ih

/-- What an operation on values makes, or its fault. -/
protected theorem orFail {result : Except RuntimeFault α} {again : Except RuntimeFault β}
    (same : again = result.map moved) (location : Location) :
    Repeats past moved (Run.orFail result location) (Run.orFail again location) := by
  subst same
  cases result with
  | ok value => exact .pure value
  | error fault => exact .fail _ _ _

end Repeats

end Run

end Scriptlet
