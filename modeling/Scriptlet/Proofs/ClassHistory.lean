import Scriptlet.Proofs.FinalMethods
import Scriptlet.Proofs.Run.Continuing

/-!
# What stays true of the classes

The classes of a store change when one is made and when a method is added to one, and in no other
way. What these two operations keep true of the classes (`Store.Lasting`) therefore holds of them at
every time of a run (`Store.Lasting.interpret`), and of any number of runs
(`Store.Lasting.successive`).
-/

namespace Scriptlet

namespace Store

variable {store later : Store}

/-- A class of the store after one was made is the one that was made, or was there before. -/
theorem class?_of_newClass {ref : ClassRef} {object known : ClassObject}
    (found : (store.newClass object).2.class? ref = some known) :
    store.class? ref = some known ∨ ref = ⟨store.classes.size⟩ ∧ known = object := by
  unfold class? Store.newClass at found
  rw [Array.getElem?_push] at found
  split at found
  · rename_i new
    cases ref
    cases new
    exact .inr ⟨rfl, (Option.some.inj found).symm⟩
  · exact .inl found

/-- A class is what it was before a method was added, or it is the one that got the method. -/
theorem class?_of_addMethod {target ref : ClassRef} {name : String} {method : MethodObject}
    {known : ClassObject} (found : (store.addMethod target name method).class? ref = some known) :
    ∃ earlier, store.class? ref = some earlier ∧ earlier.superclass = known.superclass ∧
      (known = earlier ∨ ref = target ∧ known.decl = earlier.decl) := by
  unfold class? Store.addMethod at found
  rw [Array.getElem?_modify] at found
  split at found
  · rename_i hit
    obtain ⟨earlier, foundEarlier, rfl⟩ := Option.map_eq_some_iff.mp found
    cases ref
    cases hit
    exact ⟨earlier, foundEarlier, rfl, .inr ⟨rfl, rfl⟩⟩
  · exact ⟨known, found, rfl, .inl rfl⟩

/-- What no operation on the classes of a store breaks. -/
structure Lasting (property : Store → Prop) : Prop where
  classes : ∀ {store later : Store}, property store → later.classes = store.classes →
    property later
  declares : ∀ {store : Store} {object : ClassObject}, property store →
    store.Heritable object.superclass →
    object.methods = Run.classMethods object.decl ⟨store.classes.size⟩ object.closure →
    property (store.newClass object).2
  extended : ∀ {store : Store} {ref : ClassRef} {object : ClassObject} (name : String)
    (method : MethodObject), property store → store.class? ref = some object →
    object.decl.isFinal = false → property (store.addMethod ref name method)

namespace Lasting

variable {property : Store → Prop} (lasting : Lasting property)
include lasting

/-- What one operation does to the classes breaks nothing that lasts. -/
theorem reclasses (changed : store.Reclasses later)
    (intact : ∀ state ∈ store.classHistory, property state) :
    ∀ state ∈ later.classHistory, property state := by
  -- The tables there are now, if they are others than before, and those there were.
  have history {after : Store} (whole : property after)
      (former : after.formerClasses = store.tables) (tables : later.tables = after.tables) :
      ∀ state ∈ later.classHistory, property state := by
    intro state passed
    obtain ⟨classes, listed, rfl⟩ := List.mem_map.mp passed
    rw [tables, Store.tables, former] at listed
    obtain rfl | earlier := List.mem_cons.mp listed
    · exact lasting.classes whole rfl
    · exact lasting.classes (intact _ (List.mem_map_of_mem earlier)) rfl
  have now : property store := intact store (List.mem_cons_self ..)
  cases changed with
  | same tables =>
      intro state passed
      obtain ⟨classes, listed, rfl⟩ := List.mem_map.mp passed
      rw [tables] at listed
      exact lasting.classes (intact _ (List.mem_map_of_mem listed)) rfl
  | declares heritable methods tables =>
      exact history (lasting.declares now heritable methods) rfl tables
  | extended found changeable tables =>
      exact history (lasting.extended _ _ now found changeable) rfl tables

/-- A run breaks nothing that lasts, at no time. -/
theorem interpret {setting : Setting} {program : Program} {globals : ScopeRef}
    (intact : ∀ state ∈ store.classHistory, property state) :
    ∀ state ∈ (Run.machineAfter (Run.interpret setting program
      (.start store globals))).store.classHistory, property state := by
  have changes : Relation.ReflTransGen Store.Reclasses store _ :=
    (Run.continues_interpret setting program (.start store globals)).classes
  generalize (Run.machineAfter (Run.interpret setting program (.start store globals))).store = later
    at changes
  induction changes with
  | refl => exact intact
  | tail _ changed ih => exact lasting.reclasses changed ih

/-- Nothing that lasts is broken by any number of runs. -/
theorem successive {program : Program} {resolutions : Resolutions} {globals : ScopeRef}
    {first : Store} (intact : ∀ state ∈ first.classHistory, property state)
    (successive : Successive program resolutions globals first store) :
    ∀ state ∈ store.classHistory, property state := by
  induction successive with
  | start => exact intact
  | @bind store name value _ ih =>
      have kept : store.Reclasses (store.define globals name value false) := .same rfl
      exact lasting.reclasses kept ih
  | run _ _ _ ih => exact lasting.interpret ih

end Lasting

/-- Where no class was ever made there has been none at any time. -/
theorem class?_of_classless (classless : store.classes = #[]) (unmade : store.formerClasses = [])
    {state : Store} (passed : state ∈ store.classHistory) (ref : ClassRef) :
    state.class? ref = none := by
  obtain ⟨classes, listed, rfl⟩ := List.mem_map.mp passed
  rw [tables, classless, unmade] at listed
  obtain rfl := List.mem_singleton.mp listed
  simp [class?]

end Store

end Scriptlet
