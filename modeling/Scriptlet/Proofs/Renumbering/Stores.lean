import Mathlib.Data.List.Induction
import Mathlib.Order.Monotone.Basic
import Scriptlet.Proofs.Moving
import Scriptlet.Proofs.Renumbering.Facts
import Scriptlet.Proofs.Run.Growing
import Scriptlet.Proofs.Process

/-!
# Stores with other numbers

What is in a store refers to classes by their numbers (`Renumbering`) and holds trees whose nodes
have numbers. Two stores are twins if one is the other with other numbers (`Store.Twin`). Only the
classes may stand at other places then, and between them others that nothing in the store refers to.
Whatever is looked up in a store is found in its twin, and what is done to both keeps them twins.
-/

namespace Scriptlet

/-- Other numbers for nodes and for classes. A class that was made later has a larger number. -/
structure Renumbering where
  onNode : NodeId → NodeId
  onClass : Nat → Nat
  onClass_strictMono : StrictMono onClass

section Renumber

variable (numbers : Renumbering)

def ClassRef.renumber (ref : ClassRef) : ClassRef := ⟨numbers.onClass ref.index⟩

/-- The references to classes are moved, and no others. -/
def Renumbering.moving : Moving := ⟨id, id, ClassRef.renumber numbers, id⟩

abbrev Value.renumber (value : Value) : Value := value.move numbers.moving

def Binding.renumber (binding : Binding) : Binding :=
  ⟨binding.value.renumber numbers, binding.isFinal⟩

def Scope.renumber (scope : Scope) : Scope :=
  ⟨scope.bindings.mapEntries (Binding.renumber numbers), scope.enclosing,
    scope.tag.renumber numbers.onNode⟩

def FunctionObject.renumber (function : FunctionObject) : FunctionObject :=
  ⟨function.decl.renumber numbers.onNode, function.closure,
    function.owner.map (ClassRef.renumber numbers)⟩

def MethodObject.renumber (method : MethodObject) : MethodObject :=
  ⟨method.decl.renumber numbers.onNode, method.closure,
    method.owner.map (ClassRef.renumber numbers), method.receiver.renumber numbers.onNode⟩

def ClassObject.renumber (object : ClassObject) : ClassObject :=
  ⟨object.decl.renumber numbers.onNode, object.superclass.map (ClassRef.renumber numbers),
    object.methods.mapEntries (MethodObject.renumber numbers), object.closure⟩

def FieldSlot.renumber (slot : FieldSlot) : FieldSlot :=
  ⟨slot.value.renumber numbers, slot.visibility, slot.isFinal, slot.assigned,
    slot.owner.renumber numbers⟩

def Instance.renumber (object : Instance) : Instance :=
  ⟨object.ofClass.renumber numbers, object.fields.mapEntries (FieldSlot.renumber numbers)⟩

end Renumber

/-- A native module none of whose functions answers a class of its own accord. -/
def NativeModule.Classless (native : NativeModule) : Prop :=
  ∀ name place overload, native.overload? name place = some overload →
    ∀ ref, overload.action ≠ .answer (.classValue ref)

/-- A store of such native modules only. -/
def Store.Classless (store : Store) : Prop :=
  ∀ ref native, store.module? ref = some native → native.Classless

/-- One store is another one with other numbers. -/
structure Store.Twin (numbers : Renumbering) (store twin : Store) : Prop where
  arrays : twin.arrays = store.arrays.map (·.map (Value.renumber numbers))
  scopes : twin.scopes = store.scopes.map (Scope.renumber numbers)
  functions : twin.functions = store.functions.map (FunctionObject.renumber numbers)
  objects : twin.objects = store.objects.map (Instance.renumber numbers)
  modules : twin.modules = store.modules
  classes : ∀ ref, twin.class? (ref.renumber numbers) =
    (store.class? ref).map (ClassObject.renumber numbers)

variable {numbers : Renumbering}

/-- Two classes never get the same other number. -/
theorem ClassRef.renumber_injective : Function.Injective (ClassRef.renumber numbers) := by
  intro left right same
  cases left
  cases right
  exact congrArg _ (numbers.onClass_strictMono.injective (congrArg ClassRef.index same))

/-- What is no class has no number. -/
theorem Value.renumber_of_ne {value : Value} (other : ∀ ref, value ≠ .classValue ref) :
    value.renumber numbers = value := by
  cases value with
  | classValue ref => exact absurd rfl (other ref)
  | _ => rfl

/-- Moving the references to classes keeps values apart. -/
theorem Renumbering.moving_apart : numbers.moving.Apart :=
  ⟨Function.injective_id, Function.injective_id, ClassRef.renumber_injective,
    Function.injective_id⟩

/-- To change an entry and then all of them is to change all of them and then the entry. -/
private theorem map_modify_eq {α β : Type} (entries : Array α) (change : α → β) {step : α → α}
    {image : β → β} (same : ∀ entry, image (change entry) = change (step entry)) (index : Nat) :
    (entries.map change).modify index image = (entries.modify index step).map change := by
  refine Array.ext_getElem? fun place => ?_
  rw [Array.getElem?_modify, Array.getElem?_map, Array.getElem?_map, Array.getElem?_modify]
  split
  · cases entries[place]? <;> simp [same]
  · rfl

/-- Counting a call changes no answer. -/
theorem NativeModule.Classless.countCall {native : NativeModule} (classless : native.Classless)
    (name : String) (place : Nat) : (native.countCall name place).Classless := by
  intro other index overload found
  unfold NativeModule.countCall at found
  cases known : native.functions.find? name with
  | none =>
      rw [known] at found
      exact classless other index overload found
  | some overloads =>
      rw [known] at found
      unfold NativeModule.overload? at found
      by_cases same : name = other
      · subst same
        rw [Table.find?_put_self] at found
        dsimp only at found
        rw [List.getElem?_modify] at found
        obtain ⟨before, listed, rfl⟩ := Option.map_eq_some_iff.mp found
        have answers := classless name index before (by
          unfold NativeModule.overload?
          rw [known]
          exact listed)
        split
        · exact answers
        · exact answers
      · rw [Table.find?_put_of_ne _ _ same] at found
        exact classless other index overload found

namespace Store.Twin

variable {store twin : Store} (met : store.Twin numbers twin)
include met

/-! ### What is looked up -/

/-- There are as many arrays in both stores. -/
theorem arrays_size : twin.arrays.size = store.arrays.size := by
  rw [met.arrays, Array.size_map]

/-- There are as many scopes in both stores. -/
theorem scopes_size : twin.scopes.size = store.scopes.size := by
  rw [met.scopes, Array.size_map]

/-- There are as many functions in both stores. -/
theorem functions_size : twin.functions.size = store.functions.size := by
  rw [met.functions, Array.size_map]

/-- There are as many objects in both stores. -/
theorem objects_size : twin.objects.size = store.objects.size := by
  rw [met.objects, Array.size_map]

/-- A function is behind the same reference in the twin, with other numbers. -/
theorem function? (ref : FunctionRef) :
    twin.function? ref = (store.function? ref).map (FunctionObject.renumber numbers) := by
  unfold Store.function?
  rw [met.functions, Array.getElem?_map]

/-- An object is behind the same reference in the twin, with other numbers. -/
theorem object? (ref : ObjectRef) :
    twin.object? ref = (store.object? ref).map (Instance.renumber numbers) := by
  unfold Store.object?
  rw [met.objects, Array.getElem?_map]

private theorem scope? (ref : ScopeRef) :
    twin.scope? ref = (store.scope? ref).map (Scope.renumber numbers) := by
  unfold Store.scope?
  rw [met.scopes, Array.getElem?_map]

/-- A native module is behind the same reference in the twin. -/
theorem module? (ref : ModuleRef) : twin.module? ref = store.module? ref := by
  unfold Store.module?
  rw [met.modules]

private theorem className (ref : ClassRef) :
    twin.className (ref.renumber numbers) = store.className ref := by
  unfold Store.className
  rw [met.classes]
  cases store.class? ref with
  | none => rfl
  | some object =>
      obtain ⟨⟨⟩, _, _, _⟩ := object
      rfl

/-- The twin looks the same. -/
theorem moved : store.Moved numbers.moving twin where
  arrays ref := by
    rw [met.arrays, Array.getElem?_map]
    rfl
  functions ref := by
    rw [show numbers.moving.function ref = ref from rfl, met.function?, Option.map_map]
    refine congrArg (Option.map · _) (funext fun function => ?_)
    exact function.decl.name_renumber
  classes ref := met.className ref
  objects ref := by
    rw [show numbers.moving.object ref = ref from rfl, met.object?, Option.map_map]
    rfl
  modules ref := by rw [met.module?]

/-- A scope binds the same names in the twin, with other numbers. -/
theorem bindingsOf (ref : ScopeRef) :
    twin.bindingsOf ref = (store.bindingsOf ref).mapEntries (Binding.renumber numbers) := by
  unfold Store.bindingsOf
  rw [met.scope?]
  cases store.scope? ref <;> rfl

private theorem ancestor? (ref : ScopeRef) (distance : Nat) :
    twin.ancestor? ref distance = store.ancestor? ref distance := by
  induction distance generalizing ref with
  | zero => rfl
  | succ distance ih =>
      rw [Store.ancestor?, Store.ancestor?, met.scope?]
      cases store.scope? ref with
      | none => rfl
      | some scope =>
          obtain ⟨bindings, enclosing, tag⟩ := scope
          cases enclosing with
          | none => rfl
          | some enclosing => exact ih enclosing

/-- A name of a scope has the same value in the twin, with other numbers. -/
theorem valueIn? (ref : ScopeRef) (name : String) :
    twin.valueIn? ref name = (store.valueIn? ref name).map (Value.renumber numbers) := by
  unfold Store.valueIn?
  rw [met.bindingsOf, Table.find?_mapEntries]
  cases (store.bindingsOf ref).find? name <;> rfl

/-- A name so many scopes out has the same value in the twin, with other numbers. -/
theorem valueAt? (ref : ScopeRef) (distance : Nat) (name : String) :
    twin.valueAt? ref distance name =
      (store.valueAt? ref distance name).map (Value.renumber numbers) := by
  unfold Store.valueAt?
  rw [met.ancestor?]
  cases store.ancestor? ref distance with
  | none => rfl
  | some scope => exact met.valueIn? scope name

private theorem checkAssign (ref : ScopeRef) (name : String) :
    twin.checkAssign ref name = store.checkAssign ref name := by
  unfold Store.checkAssign
  rw [met.bindingsOf, Table.find?_mapEntries]
  cases (store.bindingsOf ref).find? name <;> rfl

/-- A name so many scopes out is assigned to in the same scope of the twin. -/
theorem assignTargetAt (ref : ScopeRef) (distance : Nat) (name : String) :
    twin.assignTargetAt ref distance name = store.assignTargetAt ref distance name := by
  unfold Store.assignTargetAt
  rw [met.ancestor?]
  cases store.ancestor? ref distance with
  | none => rfl
  | some scope =>
      dsimp only
      rw [met.checkAssign]

private theorem enclosing? (ref : ScopeRef) : twin.enclosing? ref = store.enclosing? ref := by
  unfold Store.enclosing?
  rw [met.scope?]
  cases store.scope? ref <;> rfl

private theorem binder? (ref : ScopeRef) (name : String) :
    twin.binder? ref name = store.binder? ref name := by
  fun_induction Store.binder? store ref name with
  | case1 ref listed =>
      rw [Store.binder?, met.bindingsOf, Table.contains_mapEntries, if_pos listed]
  | case2 ref unlisted enclosing outward ih =>
      rw [← met.enclosing?] at outward
      rw [Store.binder?, met.bindingsOf, Table.contains_mapEntries, if_neg unlisted]
      split
      · rename_i scope further
        cases outward.symm.trans further
        exact ih
      · rename_i nowhere
        cases outward.symm.trans nowhere
  | case3 ref unlisted outermost =>
      rw [← met.enclosing?] at outermost
      rw [Store.binder?, met.bindingsOf, Table.contains_mapEntries, if_neg unlisted]
      split
      · rename_i scope further
        cases outermost.symm.trans further
      · rfl

/-- A name has the same value in the twin, with other numbers. -/
theorem value? (ref : ScopeRef) (name : String) :
    twin.value? ref name = (store.value? ref name).map (Value.renumber numbers) := by
  unfold Store.value?
  rw [met.binder?]
  cases store.binder? ref name with
  | none => rfl
  | some scope => exact met.valueIn? scope name

/-- A name is assigned to in the same scope of the twin. -/
theorem assignTarget (ref : ScopeRef) (name : String) :
    twin.assignTarget ref name = store.assignTarget ref name := by
  unfold Store.assignTarget
  rw [met.binder?]
  cases store.binder? ref name with
  | none => rfl
  | some scope =>
      dsimp only
      rw [met.checkAssign]

private theorem superclass? (ref : ClassRef) : twin.superclass? (ref.renumber numbers) =
    (store.superclass? ref).map (ClassRef.renumber numbers) := by
  unfold Store.superclass?
  rw [met.classes]
  cases store.class? ref with
  | none => rfl
  | some object =>
      change (object.superclass.map (ClassRef.renumber numbers)).filter _ =
        (object.superclass.filter _).map _
      cases object.superclass with
      | none => rfl
      | some superclass =>
          simp [Option.filter, ClassRef.renumber, apply_ite, numbers.onClass_strictMono.lt_iff_lt]

/-- A class builds on the same classes in the twin, with other numbers. -/
theorem lineage (ref : ClassRef) :
    twin.lineage (ref.renumber numbers) = (store.lineage ref).map (ClassRef.renumber numbers) := by
  induction ref using lineage_induction store with
  | root ref root =>
      have rootToo := met.superclass? ref
      rw [root] at rootToo
      rw [lineage_of_root rootToo, lineage_of_root root]
      rfl
  | inherits ref superclass upward ih =>
      have upwardToo := met.superclass? ref
      rw [upward] at upwardToo
      rw [lineage_of_superclass? upwardToo, lineage_of_superclass? upward, List.map_cons, ih]

private theorem ownMethod? (name : String) (ref : ClassRef) :
    twin.ownMethod? name (ref.renumber numbers) =
      (store.ownMethod? name ref).map (MethodObject.renumber numbers) := by
  unfold Store.ownMethod?
  rw [met.classes]
  cases store.class? ref with
  | none => rfl
  | some object => exact Table.find?_mapEntries _ _ _

/-- A class has the same methods in the twin, with other numbers. -/
theorem method? (ref : ClassRef) (name : String) : twin.method? (ref.renumber numbers) name =
    (store.method? ref name).map (MethodObject.renumber numbers) := by
  unfold Store.method?
  rw [met.lineage, List.findSome?_map, List.map_findSome?]
  congr 1
  funext superclass
  exact met.ownMethod? name superclass

/-- An object has the same fields in the twin, with other numbers. -/
theorem field? (ref : ObjectRef) (name : String) :
    twin.field? ref name = (store.field? ref name).map (FieldSlot.renumber numbers) := by
  unfold Store.field?
  rw [met.object?]
  cases store.object? ref with
  | none => rfl
  | some object => exact Table.find?_mapEntries _ _ _

/-- The next class gets no number of a class there is. -/
theorem size_le : twin.classes.size ≤ numbers.onClass store.classes.size := by
  have absent := met.classes ⟨store.classes.size⟩
  rw [show store.class? ⟨store.classes.size⟩ = none from
    Array.getElem?_eq_none (Nat.le_refl _)] at absent
  exact Array.getElem?_eq_none_iff.mp absent

/-! ### Changes -/

/-- Twins stay twins when an array is made in both. -/
theorem newArray (elements : Array Value) :
    (store.newArray elements).2.Twin numbers
      (twin.newArray (elements.map (Value.renumber numbers))).2 :=
  { met with arrays := by simp [Store.newArray, met.arrays] }

/-- Twins stay twins when an element is set in both. -/
theorem setElement (ref : ArrayRef) (index : Nat) (value : Value) :
    (store.setElement ref index value).Twin numbers
      (twin.setElement ref index (value.renumber numbers)) := by
  refine { met with arrays := ?_ }
  unfold Store.setElement
  rw [met.arrays]
  dsimp only
  refine map_modify_eq store.arrays _ (fun elements => ?_) ref.index
  exact Array.map_setIfInBounds.symm

private theorem pushElement (ref : ArrayRef) (value : Value) :
    (store.pushElement ref value).Twin numbers
      (twin.pushElement ref (value.renumber numbers)) := by
  refine { met with arrays := ?_ }
  unfold Store.pushElement
  rw [met.arrays]
  dsimp only
  refine map_modify_eq store.arrays _ (fun elements => ?_) ref.index
  exact Array.map_push.symm

/-- Twins stay twins when a scope is made in both. -/
theorem newScope (enclosing : Option ScopeRef) (tag : ScopeTag) (bindings : Table Binding) :
    (store.newScope enclosing tag bindings).2.Twin numbers
      (twin.newScope enclosing (tag.renumber numbers.onNode)
        (bindings.mapEntries (Binding.renumber numbers))).2 :=
  { met with scopes := by simp [Store.newScope, met.scopes, Scope.renumber] }

/-- Twins stay twins when a name is bound in both. -/
theorem define (ref : ScopeRef) (name : String) (value : Value) (isFinal : Bool) :
    (store.define ref name value isFinal).Twin numbers
      (twin.define ref name (value.renumber numbers) isFinal) := by
  refine { met with scopes := ?_ }
  unfold Store.define
  rw [met.scopes]
  dsimp only
  refine map_modify_eq store.scopes _ (fun scope => ?_) ref.index
  simp [Scope.renumber, Table.mapEntries_put, Binding.renumber]

/-- Twins stay twins when a function is made in both. -/
theorem newFunction (function : FunctionObject) :
    (store.newFunction function).2.Twin numbers
      (twin.newFunction (function.renumber numbers)).2 :=
  { met with functions := by simp [Store.newFunction, met.functions] }

/-- Twins stay twins when an object is made in both. -/
theorem newObject (ofClass : ClassRef) :
    (store.newObject ofClass).2.Twin numbers (twin.newObject (ofClass.renumber numbers)).2 :=
  { met with
    objects := by simp [Store.newObject, met.objects, Instance.renumber, Table.mapEntries] }

/-- Twins stay twins when a field is set in both. -/
theorem putField (ref : ObjectRef) (name : String) (slot : FieldSlot) :
    (store.putField ref name slot).Twin numbers
      (twin.putField ref name (slot.renumber numbers)) := by
  refine { met with objects := ?_ }
  unfold Store.putField
  rw [met.objects]
  dsimp only
  refine map_modify_eq store.objects _ (fun object => ?_) ref.index
  simp [Instance.renumber, Table.mapEntries_put]

/-- Twins stay twins when a method is set in both. -/
theorem addMethod (ref : ClassRef) (name : String) (method : MethodObject) :
    (store.addMethod ref name method).Twin numbers
      (twin.addMethod (ref.renumber numbers) name (method.renumber numbers)) := by
  refine { met with classes := fun other => ?_ }
  unfold Store.addMethod Store.class?
  rw [Array.getElem?_modify, Array.getElem?_modify]
  have found := met.classes other
  unfold Store.class? at found
  by_cases same : ref.index = other.index
  · have sameToo : (ref.renumber numbers).index = (other.renumber numbers).index :=
      congrArg numbers.onClass same
    rw [if_pos same, if_pos sameToo, found]
    cases store.classes[other.index]? with
    | none => rfl
    | some object => simp [ClassObject.renumber, Table.mapEntries_put]
  · have otherToo : (ref.renumber numbers).index ≠ (other.renumber numbers).index :=
      numbers.onClass_strictMono.injective.ne same
    rw [if_neg same, if_neg otherToo, found]

/-- A class that is made gets the number that the next class has in the twin. -/
theorem newClass (next : numbers.onClass store.classes.size = twin.classes.size)
    (object : ClassObject) :
    (store.newClass object).2.Twin numbers (twin.newClass (object.renumber numbers)).2 := by
  refine { met with classes := fun ref => ?_ }
  unfold Store.newClass Store.class?
  rw [Array.getElem?_push, Array.getElem?_push]
  have found := met.classes ref
  unfold Store.class? at found
  by_cases same : ref.index = store.classes.size
  · have sameToo : (ref.renumber numbers).index = twin.classes.size := by
      rw [← next, ← same]
      rfl
    rw [if_pos same, if_pos sameToo]
    rfl
  · have otherToo : (ref.renumber numbers).index ≠ twin.classes.size := by
      rw [← next]
      exact numbers.onClass_strictMono.injective.ne same
    rw [if_neg same, if_neg otherToo, found]

/-- Numbers of classes can be left out as long as no number that is given out is among them. -/
theorem reserve {next : Nat} (room : next ≤ numbers.onClass store.classes.size) :
    store.Twin numbers (twin.reserve next) := by
  refine { met with classes := fun ref => ?_ }
  have found := met.classes ref
  rw [← found]
  unfold Store.reserve Store.class?
  by_cases inside : ref.index < store.classes.size
  · refine Array.getElem?_append_left ?_
    unfold Store.class? at found
    rw [Array.getElem?_eq_getElem inside, Option.map_some] at found
    exact (Array.getElem?_eq_some_iff.mp found).1
  · have outside : store.classes.size ≤ ref.index := Nat.le_of_not_lt inside
    unfold Store.class? at found
    rw [Array.getElem?_eq_none outside, Option.map_none, Array.getElem?_eq_none_iff] at found
    have beyond : next ≤ (ref.renumber numbers).index :=
      room.trans (numbers.onClass_strictMono.monotone outside)
    rw [Array.getElem?_eq_none found, Array.getElem?_eq_none]
    rw [Array.size_append, Array.size_replicate]
    omega

end Store.Twin

/-- After numbers of classes were left out, the next class gets the next number, or a later one if
there are more classes already. -/
theorem Store.size_reserve (store : Store) (next : Nat) :
    (store.reserve next).classes.size = max store.classes.size next := by
  unfold Store.reserve
  rw [Array.size_append, Array.size_replicate]
  omega

/-- Every store has a twin. -/
theorem Store.exists_twin (numbers : Renumbering) (store : Store) :
    ∃ twin, store.Twin numbers twin := by
  suffices made : ∀ classes : List ClassObject,
      ∃ twin, Store.Twin numbers { store with classes := classes.toArray } twin by
    simpa using made store.classes.toList
  intro classes
  induction classes using List.reverseRecOn with
  | nil =>
      exact ⟨⟨_, _, _, #[], [], _, _⟩, rfl, rfl, rfl, rfl, rfl, fun ref => by simp [Store.class?]⟩
  | append_singleton rest last ih =>
      obtain ⟨twin, met⟩ := ih
      -- The twin leaves out numbers up to that of the last class, and then makes it.
      have next : numbers.onClass rest.length =
          (twin.reserve (numbers.onClass rest.length)).classes.size := by
        rw [Store.size_reserve]
        exact (Nat.max_eq_right met.size_le).symm
      have made := (met.reserve (Nat.le_refl _)).newClass next last
      have pushed : (rest ++ [last]).toArray = rest.toArray.push last := by simp
      rw [pushed]
      exact ⟨_, { made with }⟩

/-! ### Native modules -/

private theorem scoreAll_renumber (params : List ParamType) (arguments : List Value) :
    scoreAll params (arguments.map (Value.renumber numbers)) = scoreAll params arguments := by
  have score (param : ParamType) (value : Value) :
      param.score (value.renumber numbers) = param.score value := by
    cases param <;> cases value <;> rfl
  induction params generalizing arguments with
  | nil => cases arguments <;> rfl
  | cons param rest ih =>
      cases arguments with
      | nil => rfl
      | cons argument others =>
          rw [List.map_cons, scoreAll, scoreAll, score, ih]

private theorem selectFrom_renumber (arguments : List Value) (place : Nat) (best : Option Selection)
    (overloads : List Overload) :
    selectFrom (arguments.map (Value.renumber numbers)) place best overloads =
      selectFrom arguments place best overloads := by
  induction overloads generalizing place best with
  | nil => rfl
  | cons overload rest ih =>
      rw [selectFrom, selectFrom, Overload.score, Overload.score, scoreAll_renumber, ih]

/-- A module chooses the same function for arguments with other numbers, since it looks at their
types only. -/
theorem NativeModule.select_renumber (native : NativeModule) (name : String)
    (arguments : List Value) (permitAmbiguous : Bool) :
    native.select name (arguments.map (Value.renumber numbers)) permitAmbiguous =
      native.select name arguments permitAmbiguous := by
  unfold select
  cases native.functions.find? name with
  | none => rfl
  | some overloads =>
      dsimp only
      rw [selectFrom_renumber]

private theorem Store.Classless.countCall {store : Store} (classless : store.Classless)
    (ref : ModuleRef)
    (name : String) (place : Nat) : (store.countCall ref name place).Classless := by
  intro other native found
  unfold Store.countCall Store.module? at found
  rw [Array.getElem?_modify] at found
  split at found
  · obtain ⟨before, known, rfl⟩ := Option.map_eq_some_iff.mp found
    exact (classless other before known).countCall name place
  · exact classless other native found

/-- What the host makes of a call in one store is what it makes of it in the other. -/
inductive Store.PerformsAlike (numbers : Renumbering) :
    Except String (Value × Store) → Except String (Value × Store) → Prop
  | ok (value : Value) {store twin : Store} : store.Twin numbers twin →
      PerformsAlike numbers (.ok (value, store)) (.ok (value.renumber numbers, twin))
  | error (message : String) : PerformsAlike numbers (.error message) (.error message)

namespace Store.Twin

variable {store twin : Store} (met : store.Twin numbers twin)
include met

private theorem countCall (ref : ModuleRef) (name : String) (place : Nat) :
    (store.countCall ref name place).Twin numbers (twin.countCall ref name place) := by
  refine { met with modules := ?_ }
  unfold Store.countCall
  rw [met.modules]

private theorem perform {action : HostAction}
    (classless : ∀ ref, action ≠ .answer (.classValue ref)) (calls : Nat) (arguments : List Value) :
    PerformsAlike numbers (store.perform action calls arguments)
      (twin.perform action calls (arguments.map (Value.renumber numbers))) := by
  cases action with
  | joinTexts =>
      have texts : (arguments.map (Value.renumber numbers)).map twin.text =
          arguments.map store.text := by
        rw [List.map_map]
        exact congrArg (List.map · arguments)
          (funext (met.moved.text Renumbering.moving_apart))
      unfold Store.perform
      rw [texts]
      exact .ok (.string _) met
  | joinTypes =>
      have types : (arguments.map (Value.renumber numbers)).map (·.type.name) =
          arguments.map (·.type.name) := by simp [Function.comp_def]
      unfold Store.perform
      rw [types]
      exact .ok (.string _) met
  | collect =>
      have made := met.newArray arguments.toArray
      rw [List.map_toArray] at made
      simp only [Store.perform]
      rw [show (twin.newArray _).1 = ⟨twin.arrays.size⟩ from rfl, met.arrays_size]
      exact .ok (.array ⟨store.arrays.size⟩) made
  | countCalls => exact .ok (.number _) met
  | append =>
      cases arguments with
      | nil => exact .ok .nil met
      | cons first rest =>
          cases first with
          | array ref =>
              cases rest with
              | nil => exact .ok .nil met
              | cons value rest => exact .ok .nil (met.pushElement ref value)
          | _ => exact .ok .nil met
  | answer value =>
      have kept : value.renumber numbers = value :=
        Value.renumber_of_ne fun ref same => classless ref (congrArg HostAction.answer same)
      have answered := PerformsAlike.ok value met
      rwa [kept] at answered
  | argument index =>
      simp only [Store.perform, List.getElem?_map]
      cases arguments[index]? with
      | none => exact .error _
      | some value => exact .ok value met
  | field name =>
      cases arguments with
      | nil => exact .error _
      | cons first rest =>
          cases first with
          | object ref =>
              simp only [Store.perform, List.map_cons, Value.move]
              rw [show numbers.moving.object ref = ref from rfl, met.field?]
              cases store.field? ref name with
              | none => exact .error _
              | some slot => exact .ok slot.value met
          | _ => exact .error _
  | fail message => exact .error message

/-- A native function answers the same with other numbers, and the stores stay twins. -/
theorem invoke (classless : store.Classless) (ref : ModuleRef) (name : String) (place : Nat)
    (arguments : List Value) :
    (twin.invoke ref name place (arguments.map (Value.renumber numbers))).1 =
        (store.invoke ref name place arguments).1.map (Value.renumber numbers) ∧
      (store.invoke ref name place arguments).2.Twin numbers
        (twin.invoke ref name place (arguments.map (Value.renumber numbers))).2 := by
  have counted := met.countCall ref name place
  unfold Store.invoke
  dsimp only
  rw [counted.module?]
  cases found : ((store.countCall ref name place).module? ref).bind (·.overload? name place) with
  | none => exact ⟨rfl, counted⟩
  | some overload =>
      obtain ⟨native, known, listed⟩ := Option.bind_eq_some_iff.mp found
      have answers := classless.countCall ref name place ref native known name place overload listed
      have alike := counted.perform answers overload.calls arguments
      dsimp only
      generalize (store.countCall ref name place).perform overload.action overload.calls arguments =
        performed at alike ⊢
      generalize (twin.countCall ref name place).perform overload.action overload.calls
        (arguments.map (Value.renumber numbers)) = image at alike ⊢
      cases alike with
      | ok value met => exact ⟨rfl, met⟩
      | error message => exact ⟨rfl, counted⟩

end Store.Twin

/-- What the host does to a store leaves its modules as they are. -/
theorem Store.modules_perform {store after : Store} {action : HostAction} {calls : Nat}
    {arguments : List Value} {value : Value}
    (performed : store.perform action calls arguments = .ok (value, after)) :
    after.modules = store.modules := by
  unfold Store.perform at performed
  split at performed <;> try cases performed
  all_goals try rfl
  all_goals
    split at performed <;> cases performed
    rfl

/-- Calling a native function brings no classes into the native modules. -/
theorem Store.Classless.invoke {store : Store} (classless : store.Classless) (ref : ModuleRef)
    (name : String) (place : Nat) (arguments : List Value) :
    (store.invoke ref name place arguments).2.Classless := by
  have counted := classless.countCall ref name place
  unfold Store.invoke
  dsimp only
  split
  · split
    · rename_i performed
      intro other native found
      unfold Store.module? at found
      rw [Store.modules_perform performed] at found
      exact counted other native found
    · exact counted
  · exact counted

end Scriptlet
