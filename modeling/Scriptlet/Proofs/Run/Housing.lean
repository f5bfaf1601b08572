import Scriptlet.Proofs.Run.Serving

/-!
# Code runs as code of its class

Wherever code runs, the owner of the machine is the class whose code stands there (`Store.Houses`),
and the store is tidy (`Machine.Tidy`). Each evaluation that is noted began on such a machine and
ended as the evaluation of its expression there does (`Evaluation.Begins`); a private field was used
by code of its owner only (`FieldUse.Tidy`).
-/

namespace Scriptlet

/-- How a step ends, apart from the machine it leaves. -/
def Run.outcome {α : Type} : EStateM.Result RunStop Machine α → Except RunStop α
  | .ok value _ => .ok value
  | .error stop _ => .error stop

/-- What an access to a property has done when the property is used: the target was evaluated, and
then the value that is assigned. -/
def Run.accessTarget (evaluate : Expr → Run Value) : Expr → Run Value
  | .get object _ _ => evaluate object
  | .set object _ value _ => do
    let target ← evaluate object
    let _ ← evaluate value
    return target
  | _ => return .nil

/-- A scope holds an object as the receiver of the code inside of it. -/
def Store.HasReceiver (store : Store) (env : ScopeRef) (object : ObjectRef) : Prop :=
  ∃ scope, store.scope? env = some scope ∧ scope.tag.isSealed = true ∧ store.Serves scope object

/-- A field was used by code of the class that owns the code, which is the owner of the field
if the field is private. The initialiser of a field has the object as its receiver. -/
structure FieldUse.Tidy (store : Store) (globals : ScopeRef) (use : FieldUse) : Prop where
  houses : store.Houses globals use.env use.owner
  slot : use.slot.Tidy store use.name
  ownClass : use.kind ≠ .declared → use.slot.visibility = .ownClass →
    use.owner = some use.slot.owner
  receiver : use.kind = .declared → store.HasReceiver use.env use.object

/-- An evaluation began on a machine, and ended as its expression evaluates there. -/
structure Evaluation.Begins (setting : Setting) (globals : ScopeRef) (store : Store)
    (evaluation : Evaluation) (start : Machine) (depth : Nat) : Prop where
  tidy : start.store.Tidy globals
  houses : start.store.Houses globals start.env start.owner
  env : start.env = evaluation.env
  owners : start.owners = evaluation.owners
  callDepth : start.callDepth = evaluation.callDepth
  classes : start.store.classes = evaluation.classes
  begun : start.store.Lasts store
  outcome : Run.outcome (Run.evaluateStep setting (Run.routines setting depth) evaluation.expr
    start) = evaluation.outcome
  ended : (Run.machineAfter (Run.evaluateStep setting (Run.routines setting depth)
    evaluation.expr start)).store.Lasts store
  reached : ∀ target later, Run.accessTarget (Run.routines setting depth).evaluate evaluation.expr
    start = .ok target later →
      later.owners = start.owners ∧ later.store.Tidy globals ∧ start.store.Lasts later.store

/-- The evaluation of an expression that began on a tidy store. -/
def Evaluation.Tidy (setting : Setting) (globals : ScopeRef) (store : Store)
    (evaluation : Evaluation) : Prop :=
  ∃ start depth, evaluation.Begins setting globals store start depth

/-- A machine with a tidy store that has run tidily so far. -/
structure Machine.Tidy (setting : Setting) (globals : ScopeRef) (machine : Machine) : Prop where
  store : machine.store.Tidy globals
  fieldUses : ∀ use ∈ machine.fieldUses, use.Tidy machine.store globals
  evaluations : ∀ evaluation ∈ machine.evaluations,
    evaluation.Tidy setting globals machine.store

/-- A later machine that stands where it stood, and is tidy if it was. Then each scope of a
receiver that is new has its receiver. -/
structure Machine.Tidies (setting : Setting) (globals : ScopeRef) (machine later : Machine) :
    Prop where
  env : later.env = machine.env
  owners : later.owners = machine.owners
  uses : machine.uses ⊆ later.uses
  tidy : machine.Tidy setting globals → later.Tidy setting globals ∧
    machine.store.Lasts later.store
  supplies : machine.Tidy setting globals → machine.Supplies setting later

section Lasting

variable {setting : Setting} {globals : ScopeRef} {store after : Store}

/-- A scope goes on holding its receiver. -/
theorem Store.HasReceiver.last {env : ScopeRef} {object : ObjectRef}
    (receiver : store.HasReceiver env object) (lasts : store.Lasts after) :
    after.HasReceiver env object := by
  obtain ⟨scope, found, held, serves⟩ := receiver
  obtain ⟨later, foundLater, _, _, fixed⟩ := lasts.scopes env scope found
  rw [fixed held] at foundLater
  exact ⟨scope, foundLater, held, serves.last lasts⟩

private theorem FieldUse.Tidy.last {use : FieldUse} (tidy : use.Tidy store globals)
    (lasts : store.Lasts after) : use.Tidy after globals :=
  ⟨lasts.houses tidy.houses, tidy.slot.last lasts, tidy.ownClass,
    fun declared => (tidy.receiver declared).last lasts⟩

private theorem Evaluation.Tidy.last {evaluation : Evaluation}
    (tidy : evaluation.Tidy setting globals store) (lasts : store.Lasts after) :
    evaluation.Tidy setting globals after := by
  obtain ⟨start, depth, begins⟩ := tidy
  exact ⟨start, depth, { begins with
    begun := begins.begun.trans lasts, ended := begins.ended.trans lasts }⟩

end Lasting

namespace Machine

variable {setting : Setting} {globals : ScopeRef} {machine later : Machine}

/-- A machine stays tidy if its store does and nothing was used or evaluated since. -/
theorem Tidy.of_store (tidy : machine.Tidy setting globals)
    (lasts : machine.store.Lasts later.store) (store : later.store.Tidy globals)
    (fieldUses : later.fieldUses = machine.fieldUses)
    (evaluations : later.evaluations = machine.evaluations) : later.Tidy setting globals := by
  refine ⟨store, fun use member => ?_, fun evaluation member => ?_⟩
  · rw [fieldUses] at member
    exact (tidy.fieldUses use member).last lasts
  · rw [evaluations] at member
    exact (tidy.evaluations evaluation member).last lasts

namespace Tidies

/-- A machine stands where it stands. -/
theorem refl (machine : Machine) : machine.Tidies setting globals machine :=
  ⟨rfl, rfl, List.Subset.refl _, fun tidy => ⟨tidy, .refl _⟩, fun _ => .refl machine⟩

/-- What happens to a machine in two parts happens to it as a whole. -/
theorem trans {last : Machine} (left : machine.Tidies setting globals later)
    (right : later.Tidies setting globals last) : machine.Tidies setting globals last := by
  refine ⟨right.env.trans left.env, right.owners.trans left.owners,
    List.Subset.trans left.uses right.uses, fun tidy => ?_, fun tidy => ?_⟩
  · obtain ⟨between, lasts⟩ := left.tidy tidy
    obtain ⟨after, further⟩ := right.tidy between
    exact ⟨after, lasts.trans further⟩
  · obtain ⟨between, _⟩ := left.tidy tidy
    exact (left.supplies tidy).trans (right.supplies between) (right.tidy between).2 right.uses

/-- A step that changes the store only, and perhaps notes names that are used. -/
theorem of_store (env : later.env = machine.env) (owners : later.owners = machine.owners)
    (uses : machine.uses ⊆ later.uses) (lasts : machine.store.Lasts later.store)
    (store : later.store.Tidy globals) (supplies : machine.Supplies setting later)
    (fieldUses : later.fieldUses = machine.fieldUses)
    (evaluations : later.evaluations = machine.evaluations) :
    machine.Tidies setting globals later :=
  ⟨env, owners, uses, fun tidy => ⟨tidy.of_store lasts store fieldUses evaluations, lasts⟩,
    fun _ => supplies⟩

end Tidies

end Machine

/-- Runs keep a machine tidy. -/
def tidying (setting : Setting) (globals : ScopeRef) : Evolution :=
  .ofRelation (Machine.Tidies setting globals) .refl .trans

/-- A method of some class. -/
def Store.HoldsMethod (store : Store) (globals : ScopeRef) (method : MethodObject) : Prop :=
  ∃ ref object name, store.class? ref = some object ∧
    method.BelongsTo store globals ref object name

/-- A scope in which a construct may open another one for code of a class. -/
def Store.Lodges (store : Store) (globals around : ScopeRef) (tag : ScopeTag)
    (owner : Option ClassRef) : Prop :=
  ∃ tags, store.Chain globals around tags ∧ store.Owns owner (classAround (tag :: tags))

namespace Store

variable {globals : ScopeRef} {store after : Store}

/-- A scope in which code of a class may be run stays one. -/
theorem Lodges.last {around : ScopeRef} {tag : ScopeTag} {owner : Option ClassRef}
    (lodges : store.Lodges globals around tag owner) (lasts : store.Lasts after) :
    after.Lodges globals around tag owner := by
  obtain ⟨tags, chain, owns⟩ := lodges
  exact ⟨tags, lasts.chain chain, lasts.owns owns⟩

/-- A scope that is opened where it may be houses the code. -/
theorem Lodges.push {around : ScopeRef} {tag : ScopeTag} {owner : Option ClassRef}
    (lodges : store.Lodges globals around tag owner) (bindings : Table Binding) :
    (store.newScope (some around) tag bindings).2.Houses globals
      (store.newScope (some around) tag bindings).1 owner := by
  obtain ⟨tags, chain, owns⟩ := lodges
  exact ⟨tag :: tags, chain.push tag bindings, (Lasts.newScope _ _ _ _).owns owns⟩

/-- A method that gets its receiver stands where the code of its owner may. -/
theorem HoldsMethod.lodges {method : MethodObject} (holds : store.HoldsMethod globals method)
    (tidy : store.Tidy globals) :
    store.Lodges globals method.closure method.receiver method.owner := by
  obtain ⟨ref, object, name, found, belongs⟩ := holds
  cases belongs with
  | declared =>
      obtain ⟨tags, chain⟩ := (tidy.classes ref object found).closure
      exact ⟨tags, chain, .some found⟩
  | added _ chain => exact ⟨_, chain, .none⟩

/-- The scope of a receiver is tidy. -/
theorem HoldsMethod.scope {method : MethodObject} (holds : store.HoldsMethod globals method)
    (receiver : Value) :
    (⟨[("this", ⟨receiver, true⟩)], some method.closure, method.receiver⟩ : Scope).Tidy store := by
  obtain ⟨ref, object, name, found, belongs⟩ := holds
  cases belongs with
  | declared => exact ⟨⟨receiver, rfl⟩, ref, object, found, rfl, rfl⟩
  | added => exact ⟨receiver, rfl⟩

/-- A method waits for its receiver in a scope for receivers. -/
theorem HoldsMethod.isSealed {method : MethodObject} (holds : store.HoldsMethod globals method) :
    method.receiver.isSealed = true := by
  obtain ⟨ref, object, name, found, belongs⟩ := holds
  cases belongs <;> rfl

/-- The method that is found for a class is a method of some class. -/
theorem Tidy.method? (tidy : store.Tidy globals) {ref : ClassRef} {name : String}
    {method : MethodObject} (found : store.method? ref name = some method) :
    store.HoldsMethod globals method := by
  obtain ⟨owner, object, held, own⟩ := exists_of_method? found
  exact ⟨owner, object, name, held, (tidy.classes owner object held).methods name method own⟩

end Store

namespace Run

variable {α β : Type} (setting : Setting) (globals : ScopeRef)

/-- The step keeps a machine tidy from where one thing holds to where another does. -/
def Tidily (before : Machine → Prop) (step : Run α) (after : α → Machine → Prop) : Prop :=
  Leads (tidying setting globals) (fun machine => machine.Tidy setting globals ∧ before machine)
    step after

namespace Tidily

variable {setting globals} {before : Machine → Prop} {step : Run α} {after : α → Machine → Prop}

/-- One step after another keeps a machine tidy, if the first one leads to where the second may
begin. -/
theorem bind {next : α → Run β} {final : β → Machine → Prop}
    (first : Tidily setting globals before step after)
    (rest : ∀ value, Tidily setting globals (after value) (next value) final) :
    Tidily setting globals before (step >>= next) final := by
  have leaves : Leads (tidying setting globals)
      (fun machine => machine.Tidy setting globals ∧ before machine) step
      fun value machine => machine.Tidy setting globals ∧ after value machine :=
    fun machine holds => (first machine holds).imp fun _ _ _ tidies ended =>
      ⟨(tidies.tidy holds.1).1, ended⟩
  exact leaves.bind rest

/-- Two steps, with what holds between them. -/
theorem through {next : α → Run β} {final : β → Machine → Prop} (between : α → Machine → Prop)
    (first : Tidily setting globals before step between)
    (rest : ∀ value, Tidily setting globals (between value) (next value) final) :
    Tidily setting globals before (step >>= next) final :=
  first.bind rest

/-- A step may be said to begin where more holds, and to end where less does. -/
theorem mono {stronger : Machine → Prop} {weaker : α → Machine → Prop}
    (tidily : Tidily setting globals before step after)
    (implies : ∀ machine, machine.Tidy setting globals → stronger machine → before machine)
    (implied : ∀ value machine, after value machine → weaker value machine) :
    Tidily setting globals stronger step weaker :=
  Leads.mono tidily (fun machine holds => ⟨holds.1, implies machine holds.1 holds.2⟩) implied

/-- A step may be said to begin where more holds. -/
theorem strengthen {stronger : Machine → Prop} (tidily : Tidily setting globals before step after)
    (implies : ∀ machine, machine.Tidy setting globals → stronger machine → before machine) :
    Tidily setting globals stronger step after :=
  tidily.mono implies fun _ _ holds => holds

/-- What lasts still holds after the step. -/
theorem keep (known : Machine → Prop) (tidily : Tidily setting globals before step after)
    (kept : ∀ machine later : Machine, later.env = machine.env → later.owners = machine.owners →
      machine.store.Lasts later.store → known machine → known later) :
    Tidily setting globals (fun machine => known machine ∧ before machine) step
      fun value machine => known machine ∧ after value machine := by
  rintro machine ⟨tidy, fact, holds⟩
  exact (tidily machine ⟨tidy, holds⟩).imp fun _ later _ tidies ended =>
    ⟨kept machine later tidies.env tidies.owners (tidies.tidy tidy).2 fact, ended⟩

/-- Giving a value leaves the machine where it is. -/
protected theorem pure {value : α} (implies : ∀ machine, before machine → after value machine) :
    Tidily setting globals before (pure value) after :=
  Leads.pure fun machine holds => implies machine holds.2

/-- A fault leaves the machine where it is. -/
protected theorem fail (fault : RuntimeFault) (location : Location) :
    Tidily setting globals before (Run.fail fault location) after :=
  Leads.fail fault location

/-- Looking at the machine leaves it where it is. -/
protected theorem get : Tidily setting globals before (get : Run Machine)
    fun value machine => value = machine ∧ before machine :=
  (Leads.get).weaken fun _ _ holds => ⟨holds.1, holds.2.2⟩

/-- Looking at the store leaves the machine where it is. -/
protected theorem inspect (look : Store → α) :
    Tidily setting globals before (Run.inspect look)
      fun value machine => value = look machine.store ∧ before machine :=
  (Leads.inspect look).weaken fun _ _ holds => ⟨holds.1, holds.2.2⟩

/-- Something new in the store that leaves it tidy. -/
theorem create {make : Store → α × Store}
    (lasts : ∀ machine : Machine, before machine → machine.store.Tidy globals →
      machine.store.Lasts (make machine.store).2)
    (store : ∀ machine : Machine, before machine → machine.store.Tidy globals →
      (make machine.store).2.Tidy globals)
    (supplies : ∀ machine : Machine, before machine →
      machine.Supplies setting { machine with store := (make machine.store).2 })
    (reached : ∀ machine : Machine, before machine → machine.store.Tidy globals →
      after (make machine.store).1 { machine with store := (make machine.store).2 }) :
    Tidily setting globals before (Run.create make) after :=
  fun machine ⟨tidy, holds⟩ =>
    ⟨.of_store rfl rfl (List.Subset.refl _) (lasts machine holds tidy.store)
      (store machine holds tidy.store) (supplies machine holds) rfl rfl,
      reached machine holds tidy.store⟩

/-- A change of the store that leaves it tidy. -/
theorem change {update : Store → Store}
    (lasts : ∀ machine : Machine, before machine → machine.store.Tidy globals →
      machine.store.Lasts (update machine.store))
    (store : ∀ machine : Machine, before machine → machine.store.Tidy globals →
      (update machine.store).Tidy globals)
    (scopes : ∀ store : Store, (update store).scopes = store.scopes) :
    Tidily setting globals before (Run.change update) fun _ _ => True :=
  fun machine ⟨tidy, holds⟩ =>
    ⟨.of_store rfl rfl (List.Subset.refl _) (lasts machine holds tidy.store)
      (store machine holds tidy.store) (.of_scopes_eq (scopes machine.store)) rfl rfl, trivial⟩

/-- A scope that is made for code of a class houses the code of this class. -/
protected theorem newScope (enclosing : ScopeRef) (tag : ScopeTag) (bindings : Table Binding) :
    Tidily setting globals
      (fun machine => (⟨bindings, some enclosing, tag⟩ : Scope).Tidy machine.store ∧
        machine.store.Lodges globals enclosing tag machine.owner ∧
        machine.MayReceive setting ⟨bindings, some enclosing, tag⟩)
      (Run.create (·.newScope (some enclosing) tag bindings))
      fun scope machine => machine.store.Houses globals scope machine.owner ∧
        machine.store.scope? scope = some ⟨bindings, some enclosing, tag⟩ :=
  .create (fun _ _ _ => .newScope _ _ _ _) (fun _ holds tidy => tidy.newScope holds.1)
    (fun _ holds => .newScope rfl (List.Subset.refl _) holds.2.2)
    fun _ holds _ => ⟨holds.2.1.push bindings, Array.getElem?_push_size⟩

/-- Making a function keeps a machine tidy, if the function closes over a scope that houses its
code. -/
protected theorem newFunction (function : FunctionObject) :
    Tidily setting globals
      (fun machine => machine.store.Houses globals function.closure function.owner)
      (Run.create (·.newFunction function)) fun _ _ => True :=
  .create (fun _ _ _ => .of_scopes_eq (.newFunction _ _) rfl)
    (fun _ holds tidy => tidy.newFunction holds) (fun _ _ => .of_scopes_eq rfl)
    fun _ _ _ => trivial

/-- A step in another scope comes back. -/
theorem inScope (scope : ScopeRef)
    (inside : Tidily setting globals before step fun _ _ => True) :
    Tidily setting globals (fun machine => before { machine with env := scope })
      (Run.inScope scope step) fun _ _ => True := by
  have back (machine later : Machine)
      (tidies : Machine.Tidies setting globals { machine with env := scope } later) :
      machine.Tidies setting globals { later with env := machine.env } := by
    refine ⟨rfl, tidies.owners, tidies.uses, fun tidy => ?_,
      fun tidy => tidies.supplies ⟨tidy.store, tidy.fieldUses, tidy.evaluations⟩⟩
    obtain ⟨after, lasts⟩ := tidies.tidy ⟨tidy.store, tidy.fieldUses, tidy.evaluations⟩
    exact ⟨⟨after.store, after.fieldUses, after.evaluations⟩, lasts⟩
  exact Leads.around inside
    (fun _ holds => ⟨⟨holds.1.store, holds.1.fieldUses, holds.1.evaluations⟩, holds.2⟩)
    (fun machine later _ => back machine later) (fun machine _ later _ => back machine later)
    fun _ _ _ _ _ _ => trivial

/-- A step as code of a class comes back. -/
theorem asOwner (owner : Option ClassRef)
    (inside : Tidily setting globals before step fun _ _ => True) :
    Tidily setting globals
      (fun machine => before { machine with owners := owner :: machine.owners })
      (Run.asOwner owner step) fun _ _ => True := by
  have back (machine later : Machine) (tidies : Machine.Tidies setting globals
      { machine with owners := owner :: machine.owners } later) :
      machine.Tidies setting globals { later with owners := later.owners.tail } := by
    refine ⟨tidies.env, congrArg List.tail tidies.owners, tidies.uses, fun tidy => ?_,
      fun tidy => tidies.supplies ⟨tidy.store, tidy.fieldUses, tidy.evaluations⟩⟩
    obtain ⟨after, lasts⟩ := tidies.tidy ⟨tidy.store, tidy.fieldUses, tidy.evaluations⟩
    exact ⟨⟨after.store, after.fieldUses, after.evaluations⟩, lasts⟩
  exact Leads.around inside
    (fun _ holds => ⟨⟨holds.1.store, holds.1.fieldUses, holds.1.evaluations⟩, holds.2⟩)
    (fun machine later _ => back machine later) (fun machine _ later _ => back machine later)
    fun _ _ _ _ _ _ => trivial

/-- A step one call deeper comes back. -/
theorem inCall (inside : Tidily setting globals before step fun _ _ => True) :
    Tidily setting globals
      (fun machine => before { machine with callDepth := machine.callDepth + 1 })
      (Run.inCall step) fun _ _ => True := by
  have back (machine later : Machine) (tidies : Machine.Tidies setting globals
      { machine with callDepth := machine.callDepth + 1 } later) :
      machine.Tidies setting globals { later with callDepth := later.callDepth - 1 } := by
    refine ⟨tidies.env, tidies.owners, tidies.uses, fun tidy => ?_,
      fun tidy => tidies.supplies ⟨tidy.store, tidy.fieldUses, tidy.evaluations⟩⟩
    obtain ⟨after, lasts⟩ := tidies.tidy ⟨tidy.store, tidy.fieldUses, tidy.evaluations⟩
    exact ⟨⟨after.store, after.fieldUses, after.evaluations⟩, lasts⟩
  exact Leads.around inside
    (fun _ holds => ⟨⟨holds.1.store, holds.1.fieldUses, holds.1.evaluations⟩, holds.2⟩)
    (fun machine later _ => back machine later) (fun machine _ later _ => back machine later)
    fun _ _ _ _ _ _ => trivial

end Tidily

/-- Where the code of a construct may run: as code of the class around it, in a scope the
construct opened. -/
def Opened (globals : ScopeRef) (tag : ScopeTag) (machine : Machine) : Prop :=
  machine.store.Houses globals machine.env machine.owner ∧
    ∀ actual, machine.store.scope? machine.env = some actual → actual.tag = tag

namespace Tidily

variable {setting globals} {before : Machine → Prop} {step : Run α} {after : α → Machine → Prop}

/-- A construct opens a scope where it lodges. -/
theorem within (known : Store → Prop)
    (kept : ∀ store after : Store, store.Lasts after → known store → known after)
    (enclosing : ScopeRef) (tag : ScopeTag) (bindings : Table Binding)
    (inside : Tidily setting globals
      (fun machine => known machine.store ∧ Opened globals tag machine ∧
        machine.store.scope? machine.env = some ⟨bindings, some enclosing, tag⟩)
      step fun _ _ => True) :
    Tidily setting globals
      (fun machine => known machine.store ∧
        (⟨bindings, some enclosing, tag⟩ : Scope).Tidy machine.store ∧
        machine.store.Lodges globals enclosing tag machine.owner ∧
        machine.MayReceive setting ⟨bindings, some enclosing, tag⟩)
      (Run.within enclosing tag bindings step) fun _ _ => True := by
  refine bind ((Tidily.newScope enclosing tag bindings).keep (known ·.store)
    fun machine later _ _ lasts => kept machine.store later.store lasts) fun scope => ?_
  refine (inScope scope inside).strengthen fun machine _ holds => ?_
  obtain ⟨fact, houses, found⟩ := holds
  refine ⟨fact, ⟨houses, fun actual other => ?_⟩, found⟩
  cases found.symm.trans other
  rfl

/-- A method that gets its receiver is code of its owner. -/
protected theorem bindMethod (method : MethodObject) (receiver : Value) :
    Tidily setting globals
      (fun machine => machine.store.HoldsMethod globals method ∧ machine.MayReceive setting
        ⟨[("this", ⟨receiver, true⟩)], some method.closure, method.receiver⟩)
      (Run.bindMethod method receiver)
      fun function machine => machine.store.Houses globals function.closure function.owner := by
  refine through (fun scope machine => machine.store.Houses globals scope method.owner) ?_
    fun scope => .pure fun _ holds => holds
  exact .create (fun _ _ _ => .newScope _ _ _ _)
    (fun _ holds tidy => tidy.newScope (holds.1.scope _))
    (fun _ holds => .newScope rfl (List.Subset.refl _) holds.2)
    fun machine holds tidy => (holds.1.lodges tidy).push _

/-- A method becomes a function of its receiver in a scope that holds the receiver. -/
protected theorem boundMethod (method : MethodObject) (receiver : Value) :
    Tidily setting globals
      (fun machine => machine.store.HoldsMethod globals method ∧ machine.MayReceive setting
        ⟨[("this", ⟨receiver, true⟩)], some method.closure, method.receiver⟩)
      (Run.boundMethod method receiver) fun _ _ => True :=
  bind (.bindMethod method receiver) fun function => bind (.newFunction function) fun _ =>
    .pure fun _ _ => trivial

/-- The use of a name is noted with the node and the name. -/
protected theorem noteUse (id : NodeId) (name : String) :
    Tidily setting globals before (Run.noteUse id name) fun use machine =>
      use ∈ machine.uses ∧ use.id = id ∧ use.name = name :=
  fun _ ⟨tidy, _⟩ => ⟨.of_store rfl rfl (List.subset_cons_self _ _) (.refl _) tidy.store
    (.of_scopes_eq rfl) rfl rfl, List.mem_cons_self .., rfl, rfl⟩

/-- Looking up a name keeps a machine tidy. -/
protected theorem lookup (id : NodeId) (name : String) (location : Location) :
    Tidily setting globals before (Run.lookup setting id name location) fun _ _ => True := by
  refine bind (.noteUse id name) fun use => bind (.inspect _) fun found => ?_
  split
  · exact .pure fun _ _ => trivial
  · exact .fail _ _

end Tidily

end Run

end Scriptlet
