import Scriptlet.Proofs.Renumbering.Resolving
import Scriptlet.Proofs.Renumbering.Stores

/-!
# Steps of a run with other numbers

A step of a run goes in a machine as it goes in the machine with other numbers (`Run.Mirrored`): it
ends with the same fault, or with the same value, renumbered. The classes that are made on the way
get the next numbers in both machines, so the numbers of these must have been chosen accordingly;
how many there will be is known only at the end, and until then the machines are compared only as
long as there are not more classes than that (`Machine.Twin`).
-/

namespace Scriptlet

/-- What is decided before a run, with other numbers of nodes. -/
structure Setting.Twin (onNode : NodeId → NodeId) (setting twin : Setting) : Prop where
  resolutions : setting.resolutions.Renumbers onNode twin.resolutions
  modules : twin.modules = setting.modules
  globals : twin.globals = setting.globals
  options : twin.options = setting.options

/-- How a statement ends, with other numbers. -/
def Completion.renumber (numbers : Renumbering) : Completion → Completion
  | .normal => .normal
  | .breaking => .breaking
  | .continuing => .continuing
  | .returning value => .returning (value.renumber numbers)

/-- One machine has the store of another one with other numbers, and runs at the same place. -/
structure Machine.Near (numbers : Renumbering) (machine twin : Machine) : Prop where
  store : machine.store.Twin numbers twin.store
  env : twin.env = machine.env
  owners : twin.owners = machine.owners.map (Option.map (ClassRef.renumber numbers))
  callDepth : twin.callDepth = machine.callDepth

/-- One machine is another one with other numbers, and will give the numbers it should to the
classes it makes, up to a bound. -/
structure Machine.Twin (numbers : Renumbering) (bound : Nat) (machine twin : Machine) : Prop
    extends machine.Near numbers twin where
  classless : machine.store.Classless
  onward : ∀ next, machine.store.classes.size ≤ next → next < bound →
    numbers.onClass next + machine.store.classes.size = next + twin.store.classes.size
  output : twin.output = machine.output
  tests : twin.tests = machine.tests

variable {numbers : Renumbering} {bound : Nat}

/-- The owner of the code in a machine is, in the other one, the class with the other number. -/
theorem Machine.Near.owner {machine twin : Machine} (near : machine.Near numbers twin) :
    twin.owner = machine.owner.map (ClassRef.renumber numbers) := by
  unfold Machine.owner
  rw [near.owners]
  cases machine.owners <;> rfl

private theorem Machine.exists_near (numbers : Renumbering) (machine : Machine) :
    ∃ twin, machine.Near numbers twin := by
  obtain ⟨store, met⟩ := machine.store.exists_twin numbers
  exact ⟨{ machine with
    store := store
    owners := machine.owners.map (Option.map (ClassRef.renumber numbers)) }, met, rfl, rfl, rfl⟩

/-- A change of the store that makes no class and leaves the modules keeps machines twins. -/
theorem Machine.Twin.withStore {machine twin : Machine} (met : machine.Twin numbers bound twin)
    {store image : Store} (changed : store.Twin numbers image)
    (size : store.classes.size = machine.store.classes.size)
    (sizeImage : image.classes.size = twin.store.classes.size)
    (classless : store.Classless) :
    Machine.Twin numbers bound { machine with store := store } { twin with store := image } where
  store := changed
  env := met.env
  owners := met.owners
  callDepth := met.callDepth
  classless := classless
  onward next := by
    dsimp only
    rw [size, sizeImage]
    exact met.onward next
  output := met.output
  tests := met.tests

namespace Run

variable {α β γ δ : Type}

/-- A step of a run with other numbers does what a step of the run does. -/
def Mirrored (numbers : Renumbering) (bound : Nat) (move : α → β) (image : Run β)
    (step : Run α) : Prop :=
  Mirrors (fun machine => machine.store.classes.size ≤ bound) (Machine.Twin numbers bound) move
    image step

namespace Mirrored

variable {move : α → β} {onward : γ → δ} {image : Run β} {step : Run α}

/-- A value may be given with other numbers. -/
protected theorem pure (value : α) : Mirrored numbers bound move (pure (move value)) (pure value) :=
  Mirrors.pure value

/-- A run stops the same with other numbers. -/
protected theorem throw (stop : RunStop) :
    Mirrored numbers bound move (throw stop) (throw stop) :=
  Mirrors.throw stop

/-- A fault is the same with other numbers. -/
protected theorem fail (fault : RuntimeFault) (location : Location) :
    Mirrored numbers bound move (Run.fail fault location) (Run.fail fault location) :=
  Mirrors.throw _

/-- One step after another goes the same with other numbers if both do. -/
protected theorem bind {next : α → Run γ} {nextImage : β → Run δ}
    (first : Mirrored numbers bound move image step)
    (second : ∀ value, Mirrored numbers bound onward (nextImage (move value)) (next value)) :
    Mirrored numbers bound onward (image >>= nextImage) (step >>= next) :=
  Mirrors.bind first second

/-- One step after another goes the same with other numbers if both do, also where the second does
not look at what the first has found. -/
protected theorem andThen {next : Run γ} {nextImage : Run δ}
    (first : Mirrored numbers bound move image step)
    (second : Mirrored numbers bound onward nextImage next) :
    Mirrored numbers bound onward (image >>= fun _ => nextImage) (step >>= fun _ => next) :=
  first.bind fun _ => second

/-- What comes after a look at the machine. -/
protected theorem see {next : Machine → Run γ} {nextImage : Machine → Run δ}
    (second : ∀ machine twin, machine.Near numbers twin →
      Mirrored numbers bound onward (nextImage twin) (next machine)) :
    Mirrored numbers bound onward (get >>= nextImage) (get >>= next) :=
  Mirrors.get (Machine.exists_near numbers) (fun _ _ met => met.toNear) second

/-- What comes after a look at the store. -/
protected theorem look {see : Store → α} {seeImage : Store → β} {next : α → Run γ}
    {nextImage : β → Run δ}
    (second : ∀ store twin, store.Twin numbers twin →
      Mirrored numbers bound onward (nextImage (seeImage twin)) (next (see store))) :
    Mirrored numbers bound onward (inspect seeImage >>= nextImage) (inspect see >>= next) :=
  Mirrored.see fun _ _ near => second _ _ near.store

/-- A choice goes the same with other numbers if both of its sides do. -/
protected theorem ite {condition : Prop} [Decidable condition] {first second : Run α}
    {firstImage secondImage : Run β} (yes : Mirrored numbers bound move firstImage first)
    (no : Mirrored numbers bound move secondImage second) :
    Mirrored numbers bound move (if condition then firstImage else secondImage)
      (if condition then first else second) :=
  Mirrors.ite yes no

/-- A change of the machine that leaves its store as it is. -/
protected theorem modify {update updateImage : Machine → Machine}
    (store : ∀ machine, (update machine).store = machine.store)
    (kept : ∀ machine twin, machine.Twin numbers bound twin →
      (update machine).Twin numbers bound (updateImage twin)) :
    Mirrored numbers bound id (modify updateImage) (modify update) :=
  Mirrors.modify (fun machine holds => by rwa [store] at holds)
    fun machine twin met _ => kept machine twin met

/-- A change of the store that makes no class and leaves the modules. -/
protected theorem change {update updateImage : Store → Store}
    (kept : ∀ store twin, store.Twin numbers twin →
      (update store).Twin numbers (updateImage twin))
    (modules : ∀ store, (update store).modules = store.modules)
    (size : ∀ store, (update store).classes.size = store.classes.size)
    (sizeImage : ∀ store, (updateImage store).classes.size = store.classes.size) :
    Mirrored numbers bound id (Run.change updateImage) (Run.change update) := by
  refine Mirrors.modify (fun machine holds => ?_) fun machine twin met _ => ?_
  · dsimp only at holds
    rwa [size] at holds
  · refine met.withStore (kept _ _ met.store) (size _) (sizeImage _) fun ref native found => ?_
    unfold Store.module? at found
    rw [modules] at found
    exact met.classless ref native found

/-- Something new in the store that is no class. -/
protected theorem create {make : Store → α × Store} {makeImage : Store → β × Store}
    (same : ∀ store twin, store.Twin numbers twin → (makeImage twin).1 = move (make store).1)
    (kept : ∀ store twin, store.Twin numbers twin →
      (make store).2.Twin numbers (makeImage twin).2)
    (modules : ∀ store, (make store).2.modules = store.modules)
    (size : ∀ store, (make store).2.classes.size = store.classes.size)
    (sizeImage : ∀ store, (makeImage store).2.classes.size = store.classes.size) :
    Mirrored numbers bound move (Run.create makeImage) (Run.create make) := by
  refine Mirrors.modifyGet (fun machine holds => ?_) (fun machine twin met _ => ?_)
    fun machine twin met _ => ?_
  · change (make machine.store).2.classes.size ≤ bound at holds
    rwa [size] at holds
  · exact same _ _ met.store
  · refine met.withStore (kept _ _ met.store) (size _) (sizeImage _) fun ref native found => ?_
    unfold Store.module? at found
    rw [modules] at found
    exact met.classless ref native found

/-- A class. -/
protected theorem newClass {make makeImage : Store → ClassObject}
    (same : ∀ store twin, store.Twin numbers twin →
      numbers.onClass store.classes.size = twin.classes.size →
      makeImage twin = (make store).renumber numbers) :
    Mirrored numbers bound (ClassRef.renumber numbers)
      (Run.create fun store => store.newClass (makeImage store))
      (Run.create fun store => store.newClass (make store)) := by
  have next {machine twin : Machine} (met : machine.Twin numbers bound twin)
      (holds : (machine.store.newClass (make machine.store)).2.classes.size ≤ bound) :
      numbers.onClass machine.store.classes.size = twin.store.classes.size := by
    have inside : machine.store.classes.size < bound := by
      simpa [Store.newClass, Nat.succ_le_iff] using holds
    have known := met.onward _ (Nat.le_refl _) inside
    omega
  refine Mirrors.modifyGet (fun machine holds => ?_) (fun machine twin met holds => ?_)
    fun machine twin met holds => ?_
  · change (machine.store.newClass (make machine.store)).2.classes.size ≤ bound at holds
    simp only [Store.newClass, Array.size_push] at holds
    omega
  · change (⟨twin.store.classes.size⟩ : ClassRef) = ⟨numbers.onClass machine.store.classes.size⟩
    rw [next met holds]
  · have known := next met holds
    have made := met.store.newClass known (make machine.store)
    rw [← same _ _ met.store known] at made
    refine ⟨⟨made, met.env, met.owners, met.callDepth⟩, met.classless, fun index after inside => ?_,
      met.output, met.tests⟩
    have offset := met.onward index (by
      simp only [Store.newClass, Array.size_push] at after
      omega) inside
    simp only [Store.newClass, Array.size_push]
    omega

/-- A call of a native function. -/
protected theorem invoke (ref : ModuleRef) (name : String) (place : Nat) (arguments : List Value) :
    Mirrored numbers bound (Except.map (Value.renumber numbers))
      (Run.create (·.invoke ref name place (arguments.map (Value.renumber numbers))))
      (Run.create (·.invoke ref name place arguments)) := by
  have size (store : Store) (arguments : List Value) :
      (store.invoke ref name place arguments).2.classes.size = store.classes.size :=
    congrArg Array.size (List.cons.inj (store.code_invoke ref name place arguments).2).1
  refine Mirrors.modifyGet (fun machine holds => ?_) (fun machine twin met _ => ?_)
    fun machine twin met _ => ?_
  · change (machine.store.invoke ref name place arguments).2.classes.size ≤ bound at holds
    rwa [size] at holds
  · exact (met.store.invoke met.classless ref name place arguments).1
  · exact met.withStore (met.store.invoke met.classless ref name place arguments).2 (size _ _)
      (size _ _) (met.classless.invoke ref name place arguments)

/-! ### Where and as what code runs -/

/-- A step on a changed machine, which is changed back. -/
protected theorem around {enter enterImage : Machine → Machine}
    {leave leaveImage : Machine → Machine → Machine}
    (mirrors : Mirrored numbers bound move image step)
    (entered : ∀ machine, (enter machine).store = machine.store)
    (left : ∀ machine later, (leave machine later).store = later.store)
    (enters : ∀ machine twin, machine.Twin numbers bound twin →
      (enter machine).Twin numbers bound (enterImage twin))
    (leaves : ∀ machine twin later laterTwin, machine.Twin numbers bound twin →
      later.Twin numbers bound laterTwin →
      (leave machine later).Twin numbers bound (leaveImage twin laterTwin)) :
    Mirrored numbers bound move (Run.around enterImage leaveImage image)
      (Run.around enter leave step) := by
  have inside (machine : Machine)
      (holds : (endState (Run.around enter leave step machine)).store.classes.size ≤ bound) :
      (endState (step (enter machine))).store.classes.size ≤ bound := by
    unfold Run.around at holds
    generalize step (enter machine) = ended at holds ⊢
    cases ended <;> exact (congrArg (·.classes.size) (left _ _)).symm.trans_le holds
  refine ⟨fun machine holds => ?_, fun machine twin met holds => ?_⟩
  · exact (congrArg (·.classes.size) (entered machine)).symm.trans_le
      (mirrors.back _ (inside machine holds))
  · have alike := mirrors.ends _ _ (enters _ _ met) (inside machine holds)
    unfold Run.around
    generalize step (enter machine) = ended at alike ⊢
    generalize image (enterImage twin) = endedImage at alike ⊢
    cases alike with
    | ok value there => exact .ok value (leaves _ _ _ _ met there)
    | error stop there => exact .error stop (leaves _ _ _ _ met there)

/-- A step in another scope goes the same with other numbers if the step does. -/
protected theorem inScope (mirrors : Mirrored numbers bound move image step) (scope : ScopeRef) :
    Mirrored numbers bound move (Run.inScope scope image) (Run.inScope scope step) := by
  rw [inScope_eq_around, inScope_eq_around]
  refine .around mirrors ?_ ?_ ?_ ?_
  · exact fun _ => rfl
  · exact fun _ _ => rfl
  · exact fun _ _ met => { met with env := rfl }
  · exact fun _ _ _ _ met there => { there with env := met.env }

/-- A step as another owner goes the same with other numbers if the step does. -/
protected theorem asOwner (mirrors : Mirrored numbers bound move image step)
    (owner : Option ClassRef) :
    Mirrored numbers bound move (Run.asOwner (owner.map (ClassRef.renumber numbers)) image)
      (Run.asOwner owner step) := by
  rw [asOwner_eq_around, asOwner_eq_around]
  refine .around mirrors ?_ ?_ ?_ ?_
  · exact fun _ => rfl
  · exact fun _ _ => rfl
  · exact fun _ _ met => { met with owners := congrArg (_ :: ·) met.owners }
  · exact fun _ _ _ _ _ there => { there with
      owners := (congrArg List.tail there.owners).trans List.map_tail.symm }

/-- A step in a call goes the same with other numbers if the step does. -/
protected theorem inCall (mirrors : Mirrored numbers bound move image step) :
    Mirrored numbers bound move (Run.inCall image) (Run.inCall step) := by
  rw [inCall_eq_around, inCall_eq_around]
  refine .around mirrors ?_ ?_ ?_ ?_
  · exact fun _ => rfl
  · exact fun _ _ => rfl
  · exact fun _ _ met => { met with callDepth := congrArg (· + 1) met.callDepth }
  · exact fun _ _ _ _ _ there => { there with
      callDepth := congrArg (· - 1) there.callDepth }

/-- An evaluation that is noted goes the same with other numbers if it does so without the note. -/
protected theorem noting {step image : Run Value}
    (mirrors : Mirrored numbers bound (Value.renumber numbers) image step) (expr other : Expr) :
    Mirrored numbers bound (Value.renumber numbers) (Run.noting other image)
      (Run.noting expr step) where
  back machine holds := by
    refine mirrors.back machine ?_
    unfold Run.noting at holds
    dsimp only at holds
    generalize step machine = ended at holds ⊢
    cases ended <;> exact holds
  ends machine twin met holds := by
    unfold Run.noting at holds ⊢
    dsimp only at holds ⊢
    have alike := mirrors.ends _ _ met (by
      generalize step machine = ended at holds ⊢
      cases ended <;> exact holds)
    generalize step machine = ended at alike ⊢
    generalize image twin = endedImage at alike ⊢
    cases alike with
    | ok value there => exact .ok value { there with }
    | error stop there => exact .error stop { there with }

/-- Making a scope goes the same with other numbers. -/
protected theorem newScope (enclosing : Option ScopeRef) (tag : ScopeTag)
    (bindings : Table Binding) :
    Mirrored numbers bound id
      (Run.create (·.newScope enclosing (tag.renumber numbers.onNode)
        (bindings.mapEntries (Binding.renumber numbers))))
      (Run.create (·.newScope enclosing tag bindings)) :=
  .create (fun _ _ met => congrArg ScopeRef.mk met.scopes_size)
    (fun _ _ met => met.newScope enclosing tag bindings) (fun _ => rfl) (fun _ => rfl) fun _ => rfl

/-- A step in a scope of its own goes the same with other numbers if the step does. -/
protected theorem within (mirrors : Mirrored numbers bound move image step) (enclosing : ScopeRef)
    (tag : ScopeTag) (bindings : Table Binding) :
    Mirrored numbers bound move
      (Run.within enclosing (tag.renumber numbers.onNode)
        (bindings.mapEntries (Binding.renumber numbers)) image)
      (Run.within enclosing tag bindings step) :=
  (Mirrored.newScope (some enclosing) tag bindings).bind fun scope => mirrors.inScope scope

/-- Binding a name goes the same with other numbers. -/
protected theorem define (name : String) (value : Value) (isFinal : Bool) :
    Mirrored numbers bound id (Run.define name (value.renumber numbers) isFinal)
      (Run.define name value isFinal) := by
  refine Mirrors.modify (fun _ holds => holds) fun machine twin met _ => ?_
  have defined : (machine.store.define machine.env name value isFinal).Twin numbers
      (twin.store.define twin.env name (value.renumber numbers) isFinal) := by
    rw [met.env]
    exact met.store.define machine.env name value isFinal
  exact met.withStore defined rfl rfl met.classless

/-! ### Lists, options and loops -/

/-- Evaluating expressions in order goes the same with other numbers if each evaluation does. -/
protected theorem valuesOf {evaluate evaluateImage : Expr → Run Value}
    (exprs : ∀ expr, Mirrored numbers bound (Value.renumber numbers)
      (evaluateImage (expr.renumber numbers.onNode)) (evaluate expr)) (listed : List Expr) :
    Mirrored numbers bound (List.map (Value.renumber numbers))
      (Run.valuesOf evaluateImage (Expr.renumberAll numbers.onNode listed))
      (Run.valuesOf evaluate listed) := by
  induction listed with
  | nil => exact .pure []
  | cons expr rest ih =>
      exact (exprs expr).bind fun value => ih.bind fun values => .pure (value :: values)

/-- Evaluating an initial value goes the same with other numbers if evaluating expressions does. -/
protected theorem valueOrNil {evaluate evaluateImage : Expr → Run Value}
    (exprs : ∀ expr, Mirrored numbers bound (Value.renumber numbers)
      (evaluateImage (expr.renumber numbers.onNode)) (evaluate expr)) (initial : Option Expr) :
    Mirrored numbers bound (Value.renumber numbers)
      (Run.valueOrNil evaluateImage (initial.map (Expr.relabel numbers.onNode id)))
      (Run.valueOrNil evaluate initial) := by
  cases initial with
  | some expr => exact exprs expr
  | none => exact .pure Value.nil

/-- A loop goes the same with other numbers if its rounds do. -/
protected theorem untilDone {step image : Run (Option Completion)}
    (round : Mirrored numbers bound (Option.map (Completion.renumber numbers)) image step)
    (rounds : Nat) :
    Mirrored numbers bound (Completion.renumber numbers) (Run.untilDone image rounds)
      (Run.untilDone step rounds) := by
  induction rounds with
  | zero => exact .throw _
  | succ rounds ih =>
      refine round.bind fun result => ?_
      cases result with
      | some completion => exact .pure completion
      | none => exact ih

/-- A loop of so many rounds goes the same with other numbers if its rounds do. -/
protected theorem times {step image : Run (Option Completion)}
    (round : Mirrored numbers bound (Option.map (Completion.renumber numbers)) image step)
    (count : Nat) :
    Mirrored numbers bound (Completion.renumber numbers) (Run.times image count)
      (Run.times step count) := by
  induction count with
  | zero => exact .pure Completion.normal
  | succ count ih =>
      refine round.bind fun result => ?_
      cases result with
      | some completion => exact .pure completion
      | none => exact ih

/-- What an operation on values makes, or its fault. -/
protected theorem orFail {result : Except RuntimeFault α} {resultImage : Except RuntimeFault β}
    (same : resultImage = result.map move) (location : Location) :
    Mirrored numbers bound move (Run.orFail resultImage location) (Run.orFail result location) := by
  subst same
  cases result with
  | ok value => exact .pure value
  | error fault => exact .fail _ _

end Mirrored

end Run

end Scriptlet
