import Scriptlet.Proofs.Run.Leading
import Scriptlet.Proofs.Run.Primitive

/-!
# How a store grows

Nothing in a store is lost (`Store.Grows`): functions stay what they are, classes keep their
declaration and their superclass, and objects their class. A field keeps who may use it, and a final
field that has its value keeps the value (`FieldSlot.Becomes`). Only an object that is being made
may have a field set anew, by an initialiser that declares the field once more.
-/

namespace Scriptlet

/-- What an array holds it still holds when something is added. -/
theorem getElem?_push_of_eq_some {α : Type} {items : Array α} {index : Nat} {item : α}
    (found : items[index]? = some item) (last : α) : (items.push last)[index]? = some item := by
  have inside := (Array.getElem?_eq_some_iff.mp found).1
  rw [Array.getElem?_push, if_neg (Nat.ne_of_lt inside)]
  exact found

/-- A later state of a field. -/
structure FieldSlot.Becomes (slot later : FieldSlot) : Prop where
  visibility : later.visibility = slot.visibility
  isFinal : later.isFinal = slot.isFinal
  owner : later.owner = slot.owner
  assigned : slot.assigned = true → later.assigned = true
  fixed : slot.isFinal = true → slot.assigned = true → later = slot

namespace FieldSlot.Becomes

/-- A field may stay as it is. -/
theorem refl (slot : FieldSlot) : slot.Becomes slot :=
  ⟨rfl, rfl, rfl, id, fun _ _ => rfl⟩

private theorem trans {first second third : FieldSlot} (left : first.Becomes second)
    (right : second.Becomes third) : first.Becomes third := by
  refine ⟨right.visibility.trans left.visibility, right.isFinal.trans left.isFinal,
    right.owner.trans left.owner, fun given => right.assigned (left.assigned given),
    fun final given => ?_⟩
  rw [right.fixed (left.isFinal.trans final) (left.assigned given), left.fixed final given]

end FieldSlot.Becomes

/-- A later state of an object. Fields it did not have before are open to everyone. -/
structure Instance.Becomes (object later : Instance) : Prop where
  kept : ∀ name slot, object.fields.find? name = some slot →
    ∃ changed, later.fields.find? name = some changed ∧ slot.Becomes changed
  added : ∀ name slot, object.fields.find? name = none → later.fields.find? name = some slot →
    slot.visibility = .everyone ∧ slot.isFinal = false

namespace Instance.Becomes

private theorem refl (object : Instance) : object.Becomes object :=
  ⟨fun _ slot found => ⟨slot, found, .refl slot⟩, fun _ _ absent found => by
    cases absent.symm.trans found⟩

private theorem trans {first second third : Instance} (left : first.Becomes second)
    (right : second.Becomes third) : first.Becomes third := by
  refine ⟨fun name slot found => ?_, fun name slot absent found => ?_⟩
  · obtain ⟨middle, foundMiddle, becomes⟩ := left.kept name slot found
    obtain ⟨last, foundLast, later⟩ := right.kept name middle foundMiddle
    exact ⟨last, foundLast, becomes.trans later⟩
  · cases between : second.fields.find? name with
    | none => exact right.added name slot between found
    | some middle =>
        obtain ⟨everyone, changeable⟩ := left.added name middle absent between
        obtain ⟨last, foundLast, becomes⟩ := right.kept name middle between
        cases found.symm.trans foundLast
        exact ⟨becomes.visibility.trans everyone, becomes.isFinal.trans changeable⟩

end Instance.Becomes

/-- A later state of a class. -/
structure ClassObject.Becomes (object later : ClassObject) : Prop where
  decl : later.decl = object.decl
  superclass : later.superclass = object.superclass
  closure : later.closure = object.closure

namespace Store

/-- Setting a field of an object changes the fields of no other. -/
theorem object?_putField {store : Store} {ref other : ObjectRef} {name : String}
    {slot : FieldSlot} :
    (store.putField ref name slot).object? other = (store.object? other).map fun object =>
      if other = ref then { object with fields := object.fields.put name slot } else object := by
  unfold object? putField
  rw [Array.getElem?_modify]
  by_cases same : other = ref
  · subst same
    simp
  · have apart : ref.index ≠ other.index := fun equal =>
      same (by cases ref; cases other; cases equal; rfl)
    simp [same, apart]

/-- The fields a class declares. -/
def ownFields (store : Store) (ref : ClassRef) : List FieldDecl :=
  match store.class? ref with
  | some object => object.decl.fields
  | none => []

/-- The fields a class and the classes it builds on declare, in the order in which an object
gets them. -/
def declaredFields (store : Store) (ref : ClassRef) : List FieldDecl :=
  (store.lineage ref).reverse.flatMap store.ownFields

/-- A later store. The fields of an object that is being made may be any. -/
structure Grows (making : Option ObjectRef) (store after : Store) : Prop where
  functions : ∀ ref function, store.function? ref = some function →
    after.function? ref = some function
  classes : ∀ ref object, store.class? ref = some object →
    ∃ later, after.class? ref = some later ∧ object.Becomes later
  objects : ∀ ref object, store.object? ref = some object →
    ∃ later, after.object? ref = some later ∧ later.ofClass = object.ofClass ∧
      (making ≠ some ref → object.Becomes later)

namespace Grows

variable {making : Option ObjectRef} {store after : Store}

/-- A store that stays as it is has grown. -/
theorem refl (store : Store) : store.Grows making store :=
  ⟨fun _ _ found => found, fun _ object found => ⟨object, found, rfl, rfl, rfl⟩,
    fun _ object found => ⟨object, found, rfl, fun _ => .refl object⟩⟩

/-- A store that grows twice has grown. -/
theorem trans {last : Store} (left : store.Grows making after) (right : after.Grows making last) :
    store.Grows making last := by
  refine ⟨fun ref function found => right.functions ref function
    (left.functions ref function found),
    fun ref object found => ?_, fun ref object found => ?_⟩
  · obtain ⟨middle, foundMiddle, becomes⟩ := left.classes ref object found
    obtain ⟨later, foundLater, further⟩ := right.classes ref middle foundMiddle
    exact ⟨later, foundLater, further.decl.trans becomes.decl,
      further.superclass.trans becomes.superclass, further.closure.trans becomes.closure⟩
  · obtain ⟨middle, foundMiddle, ofClass, becomes⟩ := left.objects ref object found
    obtain ⟨later, foundLater, ofSame, further⟩ := right.objects ref middle foundMiddle
    exact ⟨later, foundLater, ofSame.trans ofClass,
      fun other => (becomes other).trans (further other)⟩

/-- A store with the same functions, classes and objects has grown. -/
theorem of_eq (functions : after.functions = store.functions)
    (classes : after.classes = store.classes) (objects : after.objects = store.objects) :
    store.Grows making after := by
  obtain ⟨keptFunctions, keptClasses, keptObjects⟩ : store.Grows making store := .refl store
  refine ⟨?_, ?_, ?_⟩
  · unfold function? at keptFunctions ⊢
    rwa [functions]
  · unfold class? at keptClasses ⊢
    rwa [classes]
  · unfold object? at keptObjects ⊢
    rwa [objects]

/-- Making a function grows the store. -/
theorem newFunction (store : Store) (function : FunctionObject) :
    store.Grows making (store.newFunction function).2 :=
  ⟨fun _ _ found => getElem?_push_of_eq_some found _,
    fun _ object found => ⟨object, found, rfl, rfl, rfl⟩,
    fun _ object found => ⟨object, found, rfl, fun _ => .refl object⟩⟩

/-- Making a class grows the store. -/
theorem newClass (store : Store) (object : ClassObject) :
    store.Grows making (store.newClass object).2 :=
  ⟨fun _ _ found => found,
    fun _ other found => ⟨other, getElem?_push_of_eq_some found _, rfl, rfl, rfl⟩,
    fun _ object found => ⟨object, found, rfl, fun _ => .refl object⟩⟩

/-- Setting a method grows the store. -/
theorem addMethod (store : Store) (target : ClassRef) (name : String) (method : MethodObject) :
    store.Grows making (store.addMethod target name method) := by
  refine ⟨fun _ _ found => found, fun ref object found => ?_,
    fun _ object found => ⟨object, found, rfl, fun _ => .refl object⟩⟩
  unfold class? at found
  unfold class? Store.addMethod
  rw [Array.getElem?_modify, found]
  split
  · exact ⟨_, rfl, rfl, rfl, rfl⟩
  · exact ⟨_, rfl, rfl, rfl, rfl⟩

/-- Making an object grows the store. -/
theorem newObject (store : Store) (ofClass : ClassRef) :
    store.Grows making (store.newObject ofClass).2 :=
  ⟨fun _ _ found => found, fun _ object found => ⟨object, found, rfl, rfl, rfl⟩,
    fun _ object found => ⟨object, getElem?_push_of_eq_some found _, rfl, fun _ => .refl object⟩⟩

/-- Setting a field grows the store, if the object may become what it is then or is being made. -/
theorem putField {ref : ObjectRef} {object : Instance} {name : String} {slot : FieldSlot}
    (found : store.object? ref = some object)
    (becomes : making ≠ some ref →
      object.Becomes { object with fields := object.fields.put name slot }) :
    store.Grows making (store.putField ref name slot) := by
  refine ⟨fun _ _ held => held, fun _ known held => ⟨known, held, rfl, rfl, rfl⟩,
    fun other known held => ?_⟩
  rw [object?_putField, held]
  by_cases same : other = ref
  · subst same
    cases found.symm.trans held
    exact ⟨_, rfl, by simp, fun other => by simpa using becomes other⟩
  · exact ⟨known, by simp [same], rfl, fun _ => .refl known⟩

/-- A store that grows while no object is made grows whatever is being made. -/
theorem quiet (grows : store.Grows none after) : store.Grows making after := by
  refine ⟨grows.functions, grows.classes, fun ref object found => ?_⟩
  obtain ⟨later, foundLater, ofClass, becomes⟩ := grows.objects ref object found
  exact ⟨later, foundLater, ofClass, fun _ => becomes nofun⟩

/-- An object that was not there yet may be made. -/
theorem of_fresh {ref : ObjectRef} (grows : store.Grows (some ref) after)
    (fresh : store.object? ref = none) : store.Grows none after := by
  refine ⟨grows.functions, grows.classes, fun other object found => ?_⟩
  obtain ⟨later, foundLater, ofClass, becomes⟩ := grows.objects other object found
  refine ⟨later, foundLater, ofClass, fun _ => becomes fun same => ?_⟩
  cases same
  cases fresh.symm.trans found

/-- A class there was is still there. -/
theorem class?_isSome (grows : store.Grows making after) {ref : ClassRef}
    (present : (store.class? ref).isSome) : (after.class? ref).isSome := by
  obtain ⟨object, found⟩ := Option.isSome_iff_exists.mp present
  obtain ⟨later, foundLater, _⟩ := grows.classes ref object found
  simp [foundLater]

/-- A class declares the same fields for good. -/
theorem ownFields (grows : store.Grows making after) {ref : ClassRef}
    (present : (store.class? ref).isSome) : after.ownFields ref = store.ownFields ref := by
  obtain ⟨object, found⟩ := Option.isSome_iff_exists.mp present
  obtain ⟨later, foundLater, becomes⟩ := grows.classes ref object found
  simp [Store.ownFields, found, foundLater, becomes.decl]

private theorem superclass? (grows : store.Grows making after) {ref : ClassRef}
    (present : (store.class? ref).isSome) : after.superclass? ref = store.superclass? ref := by
  obtain ⟨object, found⟩ := Option.isSome_iff_exists.mp present
  obtain ⟨later, foundLater, becomes⟩ := grows.classes ref object found
  simp [Store.superclass?, found, foundLater, becomes.superclass]

end Grows

/-- The superclass of a class there is is a class there is. -/
theorem class?_superclass? {store : Store} {ref superclass : ClassRef}
    (upward : store.superclass? ref = some superclass) : (store.class? superclass).isSome := by
  have smaller := superclass?_index_lt upward
  have inside : ref.index < store.classes.size := by
    unfold superclass? at upward
    split at upward
    · rename_i object found
      exact (Array.getElem?_eq_some_iff.mp found).1
    · cases upward
  unfold class?
  rw [Array.getElem?_eq_getElem (Nat.lt_trans smaller inside)]
  rfl

/-- The lineage of a class goes on with that of its superclass. -/
theorem lineage_of_superclass? {store : Store} {ref superclass : ClassRef}
    (upward : store.superclass? ref = some superclass) :
    store.lineage ref = ref :: store.lineage superclass := by
  rw [lineage]
  split <;> rename_i other
  · cases upward.symm.trans other
    rfl
  · cases upward.symm.trans other

/-- A class without a superclass is all of its lineage. -/
theorem lineage_of_root {store : Store} {ref : ClassRef} (root : store.superclass? ref = none) :
    store.lineage ref = [ref] := by
  rw [lineage]
  split <;> rename_i other
  · cases root.symm.trans other
  · rfl

/-- What holds of a class if it holds of the class it builds on holds of every class. -/
theorem lineage_induction (store : Store) {property : ClassRef → Prop}
    (root : ∀ ref, store.superclass? ref = none → property ref)
    (inherits : ∀ ref superclass, store.superclass? ref = some superclass → property superclass →
      property ref) (ref : ClassRef) : property ref := by
  cases upward : store.superclass? ref with
  | none => exact root ref upward
  | some superclass =>
      exact inherits ref superclass upward (lineage_induction store root inherits superclass)
termination_by ref.index
decreasing_by exact superclass?_index_lt upward

/-- Every class of the lineage of a class there is is there. -/
theorem class?_lineage {store : Store} {ref : ClassRef} (present : (store.class? ref).isSome) :
    ∀ owner ∈ store.lineage ref, (store.class? owner).isSome := by
  induction ref using lineage_induction store with
  | root ref root =>
      rw [lineage_of_root root]
      exact List.forall_mem_singleton.mpr present
  | inherits ref superclass upward ih =>
      rw [lineage_of_superclass? upward]
      exact List.forall_mem_cons.mpr ⟨present, ih (class?_superclass? upward)⟩

/-- A class builds on all that a class of its lineage builds on. -/
theorem lineage_subset_of_mem {store : Store} {ref owner : ClassRef}
    (member : owner ∈ store.lineage ref) : store.lineage owner ⊆ store.lineage ref := by
  induction ref using lineage_induction store with
  | root ref root =>
      rw [lineage_of_root root] at member
      obtain rfl := List.mem_singleton.mp member
      exact List.Subset.refl _
  | inherits ref superclass upward ih =>
      have whole := lineage_of_superclass? upward
      rw [whole] at member
      rcases List.mem_cons.mp member with rfl | above
      · exact List.Subset.refl _
      · rw [whole]
        exact List.subset_cons_of_subset _ (ih above)

/-- The lineage of a class does not change. -/
theorem Grows.lineage {making : Option ObjectRef} {store after : Store}
    (grows : store.Grows making after) {ref : ClassRef} (present : (store.class? ref).isSome) :
    after.lineage ref = store.lineage ref := by
  induction ref using lineage_induction store with
  | root ref root =>
      rw [lineage_of_root root, lineage_of_root ((grows.superclass? present).trans root)]
  | inherits ref superclass upward ih =>
      rw [lineage_of_superclass? upward,
        lineage_of_superclass? ((grows.superclass? present).trans upward),
        ih (class?_superclass? upward)]

/-- What a class and those it builds on declare stays the same in a store that grows. -/
theorem Grows.declaredFields {making : Option ObjectRef} {store after : Store}
    (grows : store.Grows making after) {ref : ClassRef} (present : (store.class? ref).isSome) :
    after.declaredFields ref = store.declaredFields ref := by
  unfold Store.declaredFields
  rw [grows.lineage present, List.flatMap, List.flatMap, List.map_congr_left]
  intro owner member
  exact grows.ownFields (class?_lineage present owner (List.mem_reverse.mp member))

/-- Only a class there is declares fields. -/
theorem class?_isSome_of_declaredFields {store : Store} {ref : ClassRef}
    (declares : store.declaredFields ref ≠ []) : (store.class? ref).isSome := by
  cases found : store.class? ref with
  | some object => rfl
  | none =>
      have root : store.superclass? ref = none := by simp [superclass?, found]
      refine absurd ?_ declares
      simp [Store.declaredFields, lineage_of_root root, Store.ownFields, found]

end Store

end Scriptlet
