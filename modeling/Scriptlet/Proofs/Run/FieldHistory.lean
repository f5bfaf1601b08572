import Scriptlet.Proofs.Run.Growing
import Scriptlet.Proofs.Run.Regime

/-!
# The history of fields

A machine notes each use of a field with the slot the use leaves (`Recounts`). The notes tell what
the slot of a field was at every moment of a run: that of the latest use (`slotAfter`). Of a final
field that has its value only an initialiser of the object that is being made leaves another slot,
and only if the classes of the object declare the field once more (`FieldUse.Redeclares`).
-/

namespace Scriptlet

/-- The slot of a field after some uses, of which the latest comes first. -/
def slotAfter (first : ObjectRef → String → Option FieldSlot) :
    List FieldUse → ObjectRef → String → Option FieldSlot
  | [], object, name => first object name
  | use :: earlier, object, name =>
    if use.object = object ∧ use.name = name then some use.slot
    else slotAfter first earlier object name

private theorem slotAfter_append (first : ObjectRef → String → Option FieldSlot)
    (latest earlier : List FieldUse) :
    slotAfter first (latest ++ earlier) = slotAfter (slotAfter first earlier) latest := by
  induction latest with
  | nil => rfl
  | cons use latest ih =>
      funext object name
      rw [List.cons_append, slotAfter, slotAfter, ih]

/-- The use is one by an initialiser, and the classes of the object declare the field before
that for good. -/
def FieldUse.Redeclares (store : Store) (use : FieldUse) : Prop :=
  use.kind = .declared ∧ ∃ object passed field rest, store.object? use.object = some object ∧
    store.declaredFields object.ofClass = passed ++ field :: rest ∧ field.name = use.name ∧
    ∃ earlier ∈ passed, earlier.name = use.name ∧ earlier.isFinal = true

/-- A use leaves the slot it reads, and the slot of a final field that has its value unless
it declares the field anew. -/
structure FieldUse.Respects (store : Store) (known : ObjectRef → String → Option FieldSlot)
    (use : FieldUse) : Prop where
  read : use.kind = .read → known use.object use.name = some use.slot
  fixed : ∀ slot, known use.object use.name = some slot → slot.isFinal = true →
    slot.assigned = true → use.slot = slot ∨ use.Redeclares store

/-- Uses of which each respects the slots the ones before it left. -/
def Recounts (store : Store) (first : ObjectRef → String → Option FieldSlot) :
    List FieldUse → Prop
  | [] => True
  | use :: earlier => use.Respects store (slotAfter first earlier) ∧ Recounts store first earlier

namespace Recounts

variable {store : Store} {first : ObjectRef → String → Option FieldSlot}

private theorem append {latest earlier : List FieldUse}
    (after : Recounts store (slotAfter first earlier) latest)
    (before : Recounts store first earlier) : Recounts store first (latest ++ earlier) := by
  induction latest with
  | nil => exact before
  | cons use latest ih =>
      rw [List.cons_append, Recounts, slotAfter_append]
      exact ⟨after.1, ih after.2⟩

/-- Among uses that each respect the slots before them, every single one does. -/
theorem respects {later earlier : List FieldUse} {use : FieldUse}
    (recounts : Recounts store first (later ++ use :: earlier)) :
    use.Respects store (slotAfter first earlier) := by
  induction later with
  | nil => exact recounts.1
  | cons other later ih => exact ih recounts.2

end Recounts

section Growth

variable {making : Option ObjectRef} {store after : Store}

private theorem FieldUse.Redeclares.grow {use : FieldUse} (redeclares : use.Redeclares store)
    (grows : store.Grows making after) : use.Redeclares after := by
  obtain ⟨declared, object, passed, field, rest, found, fields, redeclared⟩ := redeclares
  obtain ⟨later, foundLater, ofClass, _⟩ := grows.objects use.object object found
  refine ⟨declared, later, passed, field, rest, foundLater, ?_, redeclared⟩
  have present : (store.class? object.ofClass).isSome := by
    refine Store.class?_isSome_of_declaredFields fun nothing => ?_
    simp [nothing] at fields
  rw [ofClass, grows.declaredFields present, fields]

private theorem Recounts.grow {first : ObjectRef → String → Option FieldSlot} {uses : List FieldUse}
    (recounts : Recounts store first uses) (grows : store.Grows making after) :
    Recounts after first uses := by
  induction uses with
  | nil => trivial
  | cons use uses ih =>
      obtain ⟨respects, others⟩ := recounts
      exact ⟨⟨respects.read, fun slot known final given =>
        (respects.fixed slot known final given).imp id (·.grow grows)⟩, ih others⟩

end Growth

/-- A later machine whose notes tell what became of the fields since. -/
structure Machine.Grows (making : Option ObjectRef) (machine later : Machine) : Prop where
  store : machine.store.Grows making later.store
  initDepth : machine.initDepth ≤ later.initDepth
  fieldUses : ∃ latest, later.fieldUses = latest ++ machine.fieldUses ∧
    Recounts later.store machine.store.field? latest ∧
    later.store.field? = slotAfter machine.store.field? latest

namespace Machine.Grows

variable {making : Option ObjectRef} {machine later : Machine}

private theorem refl (machine : Machine) : machine.Grows making machine :=
  ⟨.refl _, Nat.le_refl _, [], rfl, trivial, rfl⟩

private theorem trans {last : Machine} (left : machine.Grows making later)
    (right : later.Grows making last) : machine.Grows making last := by
  obtain ⟨grows, deep, uses, noted, recounts, fields⟩ := left
  obtain ⟨further, deeper, more, notedMore, recountsMore, fieldsMore⟩ := right
  rw [fields] at recountsMore fieldsMore
  refine ⟨grows.trans further, Nat.le_trans deep deeper, more ++ uses, ?_,
    recountsMore.append (recounts.grow further), ?_⟩
  · rw [notedMore, noted, List.append_assoc]
  · rw [fieldsMore, slotAfter_append]

/-- A step that changes no field has nothing to note. -/
theorem of_store (grows : machine.store.Grows making later.store)
    (objects : later.store.objects = machine.store.objects)
    (fieldUses : later.fieldUses = machine.fieldUses) (deep : machine.initDepth ≤ later.initDepth) :
    machine.Grows making later := by
  refine ⟨grows, deep, [], fieldUses, trivial, ?_⟩
  funext ref name
  simp [Store.field?, Store.object?, objects, slotAfter]

private theorem quiet (grows : machine.Grows none later) : machine.Grows making later :=
  ⟨grows.store.quiet, grows.initDepth, grows.fieldUses⟩

private theorem of_fresh {ref : ObjectRef} (grows : machine.Grows (some ref) later)
    (fresh : machine.store.object? ref = none) : machine.Grows none later :=
  ⟨grows.store.of_fresh fresh, grows.initDepth, grows.fieldUses⟩

end Machine.Grows

/-- The declarations by which an object was given fields: of which class and by which name, the
latest first. -/
def declarationsOf (object : ObjectRef) (uses : List FieldUse) : List (ClassRef × String) :=
  (uses.filter fun use => use.kind = .declared ∧ use.object = object).map fun use =>
    (use.slot.owner, use.name)

/-- A later machine in which no object but the one that is being made was given a declared
field. -/
structure Machine.Advances (making : Option ObjectRef) (machine later : Machine) : Prop
    extends machine.Grows making later where
  declarations : ∀ object, making ≠ some object → (machine.store.object? object).isSome →
    declarationsOf object later.fieldUses = declarationsOf object machine.fieldUses

namespace Machine.Advances

variable {making : Option ObjectRef} {machine later : Machine}

/-- A machine advances to itself. -/
theorem refl (machine : Machine) : machine.Advances making machine :=
  ⟨.refl machine, fun _ _ _ => rfl⟩

private theorem trans {last : Machine} (left : machine.Advances making later)
    (right : later.Advances making last) : machine.Advances making last := by
  refine ⟨left.toGrows.trans right.toGrows, fun object other present => ?_⟩
  obtain ⟨known, found⟩ := Option.isSome_iff_exists.mp present
  obtain ⟨still, foundLater, _⟩ := left.store.objects object known found
  rw [right.declarations object other (by simp [foundLater]),
    left.declarations object other present]

/-- A machine that noted no uses of fields and left the objects alone has advanced. -/
theorem of_store (grows : machine.store.Grows making later.store)
    (objects : later.store.objects = machine.store.objects)
    (fieldUses : later.fieldUses = machine.fieldUses) (deep : machine.initDepth ≤ later.initDepth) :
    machine.Advances making later :=
  ⟨.of_store grows objects fieldUses deep, fun _ _ _ => by rw [fieldUses]⟩

/-- A machine that advanced while no object was being made has advanced whatever is being made. -/
theorem quiet (advances : machine.Advances none later) : machine.Advances making later :=
  ⟨advances.toGrows.quiet, fun object _ => advances.declarations object nofun⟩

/-- Making an object that did not exist before gives no field to any object there was. -/
theorem of_fresh {ref : ObjectRef} (advances : machine.Advances (some ref) later)
    (fresh : machine.store.object? ref = none) : machine.Advances none later := by
  refine ⟨advances.toGrows.of_fresh fresh, fun object _ present => ?_⟩
  refine advances.declarations object (fun same => ?_) present
  cases same
  rw [fresh] at present
  cases present

end Machine.Advances

/-- Growth, but for the fields of an object that is being made. -/
def growing (making : Option ObjectRef) : Evolution :=
  .ofRelation (Machine.Advances making) .refl .trans

namespace Store

/-- The fields after one of an object there is was set. -/
theorem field?_putField {store : Store} {ref : ObjectRef} {object : Instance} {name : String}
    {slot : FieldSlot} (found : store.object? ref = some object) (other : ObjectRef)
    (query : String) :
    (store.putField ref name slot).field? other query =
      if ref = other ∧ name = query then some slot else store.field? other query := by
  unfold field?
  rw [object?_putField]
  by_cases same : other = ref
  · subst same
    rw [found]
    by_cases hit : name = query
    · subst hit
      simp
    · simp [hit, Table.find?_put_of_ne]
  · rw [if_neg fun both => same both.1.symm]
    cases store.object? other <;> simp [same]

end Store

namespace Run

variable {α β : Type} {making : Option ObjectRef} {setting : Setting} {inner : Routines}
  {depth : Nat}

/-- Growth wherever code runs. -/
def growth : Regime :=
  ⟨growing none, fun _ _ _ => True⟩

/-- The step grows the machine wherever it begins. -/
abbrev Growing (making : Option ObjectRef) (step : Run α) : Prop :=
  Leads (growing making) (fun _ => True) step fun _ _ => True

namespace Growing

/-- A step grows the machine if it does so together with its notes of uses. -/
theorem of {step : Run α}
    (advances : ∀ machine : Machine, machine.Advances making (machineAfter (step machine))) :
    Growing making step := by
  intro machine _
  have grown := advances machine
  cases result : step machine with
  | ok value later =>
      rw [result] at grown
      exact ⟨grown, trivial⟩
  | error stop later =>
      rw [result] at grown
      exact grown

/-- A step that grows the machine keeps its notes of uses in step with the objects. -/
theorem advances {step : Run α} (growing : Growing making step) (machine : Machine) :
    machine.Advances making (machineAfter (step machine)) := by
  have ended := growing machine trivial
  cases result : step machine with
  | ok value later =>
      rw [result] at ended
      exact ended.1
  | error stop later =>
      rw [result] at ended
      exact ended

/-- A step that sets no fields anew grows the machine also while an object is being made. -/
theorem quiet {step : Run α} (growing : Growing none step) : Growing making step :=
  .of fun machine => (growing.advances machine).quiet

/-- One step after another grows the machine if both do. -/
theorem bind {step : Run α} {next : α → Run β} (first : Growing making step)
    (rest : ∀ value, Growing making (next value)) : Growing making (step >>= next) :=
  Leads.bind first rest

/-- Giving a value grows the machine. -/
protected theorem pure (value : α) : Growing making (pure value : Run α) :=
  Leads.pure fun _ _ => trivial

/-- Looking at the store grows the machine. -/
protected theorem inspect (look : Store → α) : Growing making (Run.inspect look) :=
  (Leads.inspect look).weaken fun _ _ _ => trivial

/-- A step that changes no field of an object and loses no code. -/
theorem of_store {step : Run α}
    (store : ∀ machine : Machine, machine.store.Grows making (machineAfter (step machine)).store)
    (objects : ∀ machine : Machine,
      (machineAfter (step machine)).store.objects = machine.store.objects)
    (fieldUses : ∀ machine : Machine, (machineAfter (step machine)).fieldUses = machine.fieldUses)
    (deep : ∀ machine : Machine, machine.initDepth ≤ (machineAfter (step machine)).initDepth) :
    Growing making step :=
  .of fun machine =>
    .of_store (store machine) (objects machine) (fieldUses machine) (deep machine)

/-- Binding a name grows the machine. -/
protected theorem define (name : String) (value : Value) (isFinal : Bool) :
    Growing making (Run.define name value isFinal) :=
  .of_store (fun _ => .of_eq rfl rfl rfl) (fun _ => rfl) (fun _ => rfl) fun _ => Nat.le_refl _

/-- Making a scope grows the machine. -/
protected theorem newScope (enclosing : Option ScopeRef) (tag : ScopeTag)
    (bindings : Table Binding) :
    Growing making (Run.create (·.newScope enclosing tag bindings)) :=
  .of_store (fun _ => .of_eq rfl rfl rfl) (fun _ => rfl) (fun _ => rfl) fun _ => Nat.le_refl _

/-- Noting that an initialiser runs grows the machine. -/
protected theorem noteInitializing : Growing making Run.noteInitializing :=
  .of_store (fun _ => .of_eq rfl rfl rfl) (fun _ => rfl) (fun _ => rfl) fun _ =>
    Nat.le_max_left _ _

/-- Noting the use of a name grows the machine. -/
protected theorem noteUse (id : NodeId) (name : String) : Growing making (Run.noteUse id name) :=
  .of_store (fun _ => .of_eq rfl rfl rfl) (fun _ => rfl) (fun _ => rfl) fun _ => Nat.le_refl _

/-- Making a function grows the machine. -/
protected theorem newFunction (function : FunctionObject) :
    Growing making (Run.create (·.newFunction function)) :=
  .of_store (fun machine => .newFunction machine.store function) (fun _ => rfl) (fun _ => rfl)
    fun _ => Nat.le_refl _

/-- Making a class grows the machine. -/
protected theorem newClass (object : ClassObject) :
    Growing making (Run.create (·.newClass object)) :=
  .of_store (fun machine => .newClass machine.store object) (fun _ => rfl) (fun _ => rfl)
    fun _ => Nat.le_refl _

/-- Setting a method of a class grows the machine. -/
protected theorem addMethod (target : ClassRef) (name : String) (method : MethodObject) :
    Growing making (Run.change (·.addMethod target name method)) :=
  .of_store (fun machine => .addMethod machine.store target name method) (fun _ => rfl)
    (fun _ => rfl) fun _ => Nat.le_refl _

/-- Binding a method to its receiver grows the machine. -/
protected theorem bindMethod (method : MethodObject) (receiver : Value) :
    Growing making (Run.bindMethod method receiver) :=
  bind (.newScope _ _ _) fun _ => .pure _

/-- Making a function of a method and its receiver grows the machine. -/
protected theorem boundMethod (method : MethodObject) (receiver : Value) :
    Growing making (Run.boundMethod method receiver) :=
  bind (.bindMethod method receiver) fun function => bind (.newFunction function) fun _ => .pure _

/-- Looking up a name grows the machine. -/
protected theorem lookup (id : NodeId) (name : String) (location : Location) :
    Growing making (Run.lookup setting id name location) := by
  refine bind (.noteUse id name) fun use => bind (.inspect _) fun found => ?_
  split
  · exact .pure _
  · exact Leads.fail _ _

/-- Assigning to a name grows the machine. -/
protected theorem assign (id : NodeId) (name : String) (value : Value) (location : Location) :
    Growing making (Run.assign setting id name value location) := by
  refine .of_store ?_ ?_ ?_ ?_
  all_goals
    intro machine
    rw [assign_eq]
    cases assignTarget setting ⟨id, name, machine.env⟩ machine.store with
    | ok target => first | exact .of_eq rfl rfl rfl | exact Nat.le_refl _ | rfl
    | error fault => first | exact .refl _ | exact Nat.le_refl _

/-- A private field is checked before it is used. -/
protected theorem checkAccess {before : Machine → Prop} (slot : FieldSlot) (name : String)
    (location : Location) :
    Leads (growing making) before (Run.checkAccess slot name location) fun _ => before := by
  refine Leads.bind .get fun machine => ?_
  split
  · exact .fail _ _
  · exact .pure fun _ holds => holds.2

/-- A field that is there may be read. -/
protected theorem noteField (object : ObjectRef) (name : String) (slot : FieldSlot) :
    Leads (growing making) (fun machine => machine.store.field? object name = some slot)
      (Run.noteField object name slot .read) fun _ _ => True := by
  intro machine found
  refine ⟨⟨⟨.refl _, Nat.le_refl _, [_], rfl, ⟨⟨fun _ => found, fun other known _ _ => ?_⟩,
    trivial⟩, ?_⟩, fun _ _ _ => rfl⟩, trivial⟩
  · exact .inl (Option.some.inj (found.symm.trans known))
  · funext other query
    change machine.store.field? other query =
      if object = other ∧ name = query then some slot else machine.store.field? other query
    split
    · rename_i same
      rw [← same.1, ← same.2, found]
    · rfl

end Growing

end Run

end Scriptlet
