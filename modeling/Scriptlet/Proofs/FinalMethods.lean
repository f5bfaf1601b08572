import Scriptlet.Proofs.ScopeMirror
import Scriptlet.Proofs.Run.Growing

/-!
# Overriding final methods

A method is refused if the class that is built on, or extended, is known to mark it final. What is
known of a class goes by the name it has in the text, and a run does not look at final methods
again. So a run can still put another method in the place of a final one in three ways
(`Store.OverridesUnseen`): the class that marks it final has a second member of the same name; a
class builds on one that has another name, or another class behind its name, than the analysis knew;
or an extension does.
-/

namespace Scriptlet

/-- The store as it is, and as it was before each change of its classes. -/
def Store.classHistory (store : Store) : List Store :=
  store.tables.map fun classes => { store with classes := classes }

/-- A method is a member of a class declaration that is marked final. -/
structure MethodObject.FinalIn (method : MethodObject) (decl : ClassDecl) : Prop where
  member : method.decl ∈ decl.methods
  isFinal : method.decl.isFinal = true
  receiver : method.receiver = .thisOf decl

/-- How a class comes to have a method in place of one that a class of its lineage marks final,
although the program has passed the analysis. -/
inductive Store.OverridesUnseen (store : Store) (program : Program) (analysis : Analysis)
    (ref owner : ClassRef) (found : MethodObject) : Prop where
  | duplicate {object : ClassObject} {method : FunctionDecl} : store.class? owner = some object →
      method ∈ object.decl.methods → method.isFinal = true → found.decl.name = method.name →
      found.decl ∈ object.decl.methods → found.decl.isFinal = false →
      store.OverridesUnseen program analysis ref owner found
  | subclass {nearer : ClassRef} {object : ClassObject} {reference : SuperclassRef}
      {scopes : List StaticScope} : nearer ∈ store.lineage ref → owner ∈ store.lineage nearer →
      owner ≠ nearer → store.class? nearer = some object → found.decl ∈ object.decl.methods →
      object.decl.superclass = some reference →
      ⟨reference.id, reference.name, scopes⟩ ∈ analysis.visits →
      Visit.Permits ⟨reference.id, reference.name, scopes⟩ found.decl.name →
      store.OverridesUnseen program analysis ref owner found
  | extension {id : NodeId} {className : String} {location : Location}
      {around : List LexicalScope} {scopes : List StaticScope} :
      Stands program around (.statement (.extension id className found.decl location)) →
      ⟨id, className, scopes⟩ ∈ analysis.visits →
      Visit.Permits ⟨id, className, scopes⟩ found.decl.name →
      store.OverridesUnseen program analysis ref owner found

namespace Store

variable {store : Store} {ref superclass owner : ClassRef} {name : String}
  {program : Program} {analysis : Analysis} {found : MethodObject}

/-- A method in the own table of a class is the one that is found for the class. -/
theorem method?_of_ownMethod? {method : MethodObject}
    (own : store.ownMethod? name ref = some method) : store.method? ref name = some method := by
  unfold method?
  rw [lineage, List.findSome?_cons, own]

/-- A class without a method of its own has that of its superclass. -/
theorem method?_of_superclass? (none : store.ownMethod? name ref = none)
    (upward : store.superclass? ref = some superclass) :
    store.method? ref name = store.method? superclass name := by
  unfold method?
  rw [lineage_of_superclass? upward, List.findSome?_cons, none]

private theorem mem_lineage_self (store : Store) (ref : ClassRef) : ref ∈ store.lineage ref := by
  rw [lineage]
  exact List.mem_cons_self ..

/-- What replaces a method of a class replaces it in the classes that build on that. -/
theorem OverridesUnseen.inherit
    (unseen : store.OverridesUnseen program analysis superclass owner found)
    (upward : store.superclass? ref = some superclass) :
    store.OverridesUnseen program analysis ref owner found := by
  cases unseen with
  | duplicate held member final named other changeable =>
      exact .duplicate held member final named other changeable
  | subclass above below apart held member derived visited permits =>
      refine .subclass ?_ below apart held member derived visited permits
      rw [lineage_of_superclass? upward]
      exact List.mem_cons_of_mem _ above
  | extension stands visited permits => exact .extension stands visited permits

end Store

namespace Course

variable {course : Course} {analysis : Analysis} {done : Unit} {store : Store}

/-- A class that a declaration of an accepted program builds on was looked up, and is not known
to mark methods of the declaration final. -/
theorem Written.permitted {object : ClassObject} (written : course.Written object)
    (accepted : Resolve.program course.program .start = .ok done analysis)
    (derived : object.superclass.isSome = true) :
    ∃ reference scopes, object.decl.superclass = some reference ∧
      ⟨reference.id, reference.name, scopes⟩ ∈ analysis.visits ∧
      ∀ method ∈ object.decl.methods,
        Visit.Permits ⟨reference.id, reference.name, scopes⟩ method.name := by
  obtain ⟨around, stands⟩ := written.stands
  obtain ⟨reference, inherits⟩ := Option.isSome_iff_exists.mp (written.derived.symm.trans derived)
  have mentioned : (reference.id, reference.name) ∈ (Statement.classDecl object.decl).mentions := by
    rw [Statement.mentions, inherits]
    exact List.mem_singleton.mpr rfl
  obtain ⟨before, after, visited⟩ := visited_of_stands accepted stands
  obtain ⟨scope, outer, rfl⟩ := List.exists_cons_of_ne_nil stands.ne_nil
  obtain ⟨scopes, visit, _, permits⟩ := visit_of_superclass visited mentioned
  exact ⟨reference, scopes, inherits, visit, permits⟩

/-- A class that an extension of an accepted program adds to was looked up, and is not known to
mark the added method final. -/
theorem Extends.unseen {method : MethodObject} (added : course.Extends method)
    (accepted : Resolve.program course.program .start = .ok done analysis) (ref owner : ClassRef) :
    store.OverridesUnseen course.program analysis ref owner method := by
  obtain ⟨id, className, location, around, _, stands⟩ := added
  obtain ⟨before, after, visited⟩ := visited_of_stands accepted stands
  obtain ⟨visit, permits⟩ := visit_of_extension visited
  exact .extension stands visit permits

/-- In classes of an accepted program a final method is what the class that declares it has, and
what the classes that build on this one have, or another method replaces it unseen. -/
theorem WrittenClasses.final (written : course.WrittenClasses store.classes)
    (accepted : Resolve.program course.program .start = .ok done analysis) {owner : ClassRef}
    {object : ClassObject} (held : store.class? owner = some object) {method : FunctionDecl}
    (member : method ∈ object.decl.methods) (final : method.isFinal = true) {ref : ClassRef}
    (inherits : owner ∈ store.lineage ref) :
    ∃ found, store.method? ref method.name = some found ∧ found.decl.name = method.name ∧
      (found.FinalIn object.decl ∨
        store.OverridesUnseen course.program analysis ref owner found) := by
  -- By the lineage of the class: what a class has not itself it has from its superclass.
  have declared : ∃ found, store.ownMethod? method.name owner = some found := by
    obtain ⟨found, listed⟩ :=
      Option.isSome_iff_exists.mp ((written owner object held).declared method member)
    exact ⟨found, by rw [Store.ownMethod?, held]; exact listed⟩
  have own {ref : ClassRef} {found : MethodObject}
      (has : store.ownMethod? method.name ref = some found) : ∃ around,
      store.class? ref = some around ∧ found.decl.name = method.name ∧
        (found.decl ∈ around.decl.methods ∧ found.receiver = .thisOf around.decl ∨
          course.Extends found) := by
    unfold Store.ownMethod? at has
    split at has
    · rename_i around known
      exact ⟨around, known, (written ref around known).methods _ _ has⟩
    · cases has
  -- The class that declares the method has it, a second member of the name, or an extension.
  have atOwner : ∃ found, store.method? owner method.name = some found ∧
      found.decl.name = method.name ∧ (found.FinalIn object.decl ∨
        store.OverridesUnseen course.program analysis owner owner found) := by
    obtain ⟨found, has⟩ := declared
    refine ⟨found, Store.method?_of_ownMethod? has, ?_⟩
    obtain ⟨around, known, named, ⟨listed, receiver⟩ | added⟩ := own has
    · cases held.symm.trans known
      cases fixed : found.decl.isFinal with
      | true => exact ⟨named, .inl ⟨listed, fixed, receiver⟩⟩
      | false => exact ⟨named, .inr (.duplicate held member final named listed fixed)⟩
    · exact ⟨named, .inr (added.unseen accepted owner owner)⟩
  induction ref using Store.lineage_induction store with
  | root ref root =>
      rw [Store.lineage_of_root root] at inherits
      obtain rfl := List.mem_singleton.mp inherits
      exact atOwner
  | inherits ref superclass upward ih =>
      by_cases same : owner = ref
      · exact same ▸ atOwner
      rw [Store.lineage_of_superclass? upward] at inherits
      have above := (List.mem_cons.mp inherits).resolve_left same
      cases has : store.ownMethod? method.name ref with
      | none =>
          obtain ⟨found, inherited, named, kept⟩ := ih above
          rw [Store.method?_of_superclass? has upward]
          exact ⟨found, inherited, named, kept.imp id fun unseen => unseen.inherit upward⟩
      | some found =>
          refine ⟨found, Store.method?_of_ownMethod? has, ?_⟩
          obtain ⟨around, known, named, ⟨listed, _⟩ | added⟩ := own has
          · have derived : around.superclass.isSome = true := by
              rw [Store.superclass?, known] at upward
              rw [(Option.filter_eq_some_iff.mp upward).1]
              rfl
            obtain ⟨reference, scopes, builds, visit, permits⟩ :=
              (written ref around known).permitted accepted derived
            refine ⟨named, .inr (.subclass (store.mem_lineage_self ref) ?_ same known listed builds
              visit (permits _ listed))⟩
            rw [Store.lineage_of_superclass? upward]
            exact List.mem_cons_of_mem _ above
          · exact ⟨named, .inr (added.unseen accepted ref owner)⟩

end Course

variable {program : Program} {analysis : Analysis} {done : Unit} {globals : ScopeRef}
  {first store : Store}

/-- A final method is what its class and the classes that build on it have at every time of a run
of an accepted program, or it was replaced in one of three ways. The run may be any of successive
runs on the same globals, and may end with a fault. -/
theorem finalMethod_cases (accepted : Resolve.program program .start = .ok done analysis)
    (fresh : first.Fresh globals) (unmade : first.formerClasses = [])
    (successive : Successive program analysis.resolutions globals first store)
    (setting : Setting) {machine : Machine}
    (ended : Run.machineAfter (Run.interpret setting program (.start store globals)) = machine) :
    ∀ state ∈ machine.store.classHistory, ∀ (owner : ClassRef) object,
      state.class? owner = some object → ∀ method ∈ object.decl.methods, method.isFinal = true →
      ∀ ref, owner ∈ state.lineage ref →
        ∃ found, state.method? ref method.name = some found ∧ found.decl.name = method.name ∧
          (found.FinalIn object.decl ∨
            state.OverridesUnseen program analysis ref owner found) := by
  subst ended
  have sound := (Course.sound_of_successive fresh successive setting).store
  have none : (Course.beginning program globals first).former = [] := unmade
  intro state passed owner object held method member final ref inherits
  obtain ⟨classes, listed, rfl⟩ := List.mem_map.mp passed
  have written : (Course.beginning program globals first).WrittenClasses classes := by
    rcases List.mem_cons.mp listed with rfl | earlier
    · exact sound.written
    · refine (sound.former classes earlier).resolve_left ?_
      rw [none]
      exact List.not_mem_nil
  exact written.final accepted held member final inherits

/-- `class A { final fun m() { return true; } } var B = A;` and, on the next line,
`class C extends B { fun m() { return nil; } }` -/
def renamedSample : Program :=
  [.classDecl ⟨"A", none, [],
      [⟨"m", .method, [], [.returning (some (.literal (.bool true) ⟨1, 34⟩)) ⟨1, 27⟩], true,
        ⟨1, 21⟩⟩], false, ⟨1, 1⟩⟩,
    .varDecl "B" (some (.var 0 "A" ⟨1, 53⟩)) false ⟨1, 45⟩,
    .classDecl ⟨"C", some ⟨1, "B", ⟨2, 17⟩⟩, [],
      [⟨"m", .method, [], [.returning (some (.literal .nil ⟨2, 38⟩)) ⟨2, 31⟩], false,
        ⟨2, 25⟩⟩], false, ⟨2, 1⟩⟩]

/-- The class `C` overrides the final method of `A`, which it builds on by the name `B`. -/
theorem finalMethod_cases_renamedSample :
    ∃ analysis machine object method found, Resolve.program renamedSample .start = .ok () analysis ∧
      Run.machineAfter (Run.interpret (.bare analysis.resolutions) renamedSample
        (.start .bare ⟨0⟩)) = machine ∧
      machine.store.class? ⟨0⟩ = some object ∧ object.decl.methods = [method] ∧
      method.isFinal = true ∧ (⟨0⟩ : ClassRef) ∈ machine.store.lineage ⟨1⟩ ∧
      machine.store.method? ⟨1⟩ method.name = some found ∧ found.decl.isFinal = false ∧
      machine.store.OverridesUnseen renamedSample analysis ⟨1⟩ ⟨0⟩ found := by
  have ended : ∃ analysis machine, Resolve.program renamedSample .start = .ok () analysis ∧
      Run.machineAfter (Run.interpret (.bare analysis.resolutions) renamedSample
        (.start .bare ⟨0⟩)) = machine ∧
      (machine.store.class? ⟨0⟩).map (·.decl.methods.map fun method =>
        (method.name, method.isFinal)) = some [("m", true)] ∧
      (⟨0⟩ : ClassRef) ∈ machine.store.lineage ⟨1⟩ ∧
      (machine.store.method? ⟨1⟩ "m").map (·.decl.isFinal) = some false :=
    ⟨_, _, rfl, rfl, by decide +kernel, by decide +kernel, by decide +kernel⟩
  obtain ⟨analysis, machine, accepted, ended, declared, inherits, replaced⟩ := ended
  obtain ⟨object, held, listed⟩ := Option.map_eq_some_iff.mp declared
  obtain ⟨method, methods, marked⟩ := List.map_eq_singleton_iff.mp listed
  obtain ⟨named, final⟩ := Prod.mk.inj marked
  obtain ⟨found, has, changeable⟩ := Option.map_eq_some_iff.mp replaced
  refine ⟨analysis, machine, object, method, found, accepted, ended, held, methods, final,
    inherits, named ▸ has, changeable, ?_⟩
  obtain ⟨other, same, _, kept | unseen⟩ := finalMethod_cases accepted Store.fresh_bare rfl .start
    (.bare _) ended machine.store (List.mem_cons_self ..) ⟨0⟩ object held method
    (methods ▸ List.mem_singleton.mpr rfl) final ⟨1⟩ inherits
  · cases (named ▸ has).symm.trans same
    cases changeable.symm.trans kept.isFinal
  · cases (named ▸ has).symm.trans same
    exact unseen

end Scriptlet
