import Scriptlet.Proofs.ClassHistory

/-!
# Final classes

No class builds on a final one, and the methods of a final class are those its declaration lists
(`Store.Sealed`), at every time of a run. Names play no part in this: a class is looked at where a
declaration wants to build on it or to extend it, by whatever name it is found (`Machine.Attempts`).
-/

namespace Scriptlet

namespace Store

/-- What no declaration may break: classes build on classes that are not final, and final
classes have the methods they were declared with. -/
structure Sealed (store : Store) : Prop where
  heritable : ∀ ref object, store.class? ref = some object → store.Heritable object.superclass
  methods : ∀ ref object, store.class? ref = some object → object.decl.isFinal = true →
    object.methods = Run.classMethods object.decl ref object.closure

variable {store later : Store}

/-- What a class may build on stays so, since no class becomes another one. -/
theorem Heritable.grow {superclass : Option ClassRef} (heritable : store.Heritable superclass)
    (grows : store.Grows none later) : later.Heritable superclass := by
  intro ref builds
  obtain ⟨parent, found, changeable⟩ := heritable ref builds
  obtain ⟨after, foundAfter, decl, _, _⟩ := grows.classes ref parent found
  exact ⟨after, foundAfter, decl ▸ changeable⟩

namespace Sealed

private theorem of_classes (intact : store.Sealed) (same : later.classes = store.classes) :
    later.Sealed := by
  have found : later.class? = store.class? := by
    unfold class?
    rw [same]
  refine ⟨fun ref object held superclass builds => ?_, fun ref object held => ?_⟩
  · rw [found] at held ⊢
    exact intact.heritable ref object held superclass builds
  · rw [found] at held
    exact intact.methods ref object held

private theorem newClass (intact : store.Sealed) {object : ClassObject}
    (heritable : store.Heritable object.superclass)
    (methods : object.methods =
      Run.classMethods object.decl ⟨store.classes.size⟩ object.closure) :
    (store.newClass object).2.Sealed := by
  refine ⟨fun ref known found => ?_, fun ref known found final => ?_⟩
  · refine Heritable.grow ?_ (.newClass store object)
    obtain old | ⟨rfl, rfl⟩ := class?_of_newClass found
    · exact intact.heritable ref known old
    · exact heritable
  · obtain old | ⟨rfl, rfl⟩ := class?_of_newClass found
    · exact intact.methods ref known old final
    · exact methods

private theorem addMethod (intact : store.Sealed) {target : ClassRef} {object : ClassObject}
    (found : store.class? target = some object) (changeable : object.decl.isFinal = false)
    (name : String) (method : MethodObject) : (store.addMethod target name method).Sealed := by
  refine ⟨fun ref known now => ?_, fun ref known now final => ?_⟩
  · obtain ⟨earlier, foundEarlier, builds, _⟩ := class?_of_addMethod now
    rw [← builds]
    exact (intact.heritable ref earlier foundEarlier).grow (.addMethod store _ _ _)
  · obtain ⟨earlier, foundEarlier, _, rfl | ⟨rfl, declared⟩⟩ := class?_of_addMethod now
    · exact intact.methods ref known foundEarlier final
    · cases found.symm.trans foundEarlier
      cases (declared ▸ final).symm.trans changeable

private theorem lasting : Lasting Sealed where
  classes := of_classes
  declares intact heritable methods := intact.newClass heritable methods
  extended name method intact found changeable := intact.addMethod found changeable name method

end Sealed

/-- What one operation does to the classes breaks no seal. -/
theorem Reclasses.sealed (changed : store.Reclasses later)
    (intact : ∀ state ∈ store.classHistory, state.Sealed) :
    ∀ state ∈ later.classHistory, state.Sealed :=
  Sealed.lasting.reclasses changed intact

/-- A run breaks no seal, at no time. -/
theorem sealed_of_interpret {setting : Setting} {program : Program} {globals : ScopeRef}
    (intact : ∀ state ∈ store.classHistory, state.Sealed) :
    ∀ state ∈ (Run.machineAfter (Run.interpret setting program
      (.start store globals))).store.classHistory, state.Sealed :=
  Sealed.lasting.interpret intact

/-- Without classes there is no seal to break. -/
theorem sealed_of_classless (classless : store.classes = #[]) (unmade : store.formerClasses = []) :
    ∀ state ∈ store.classHistory, state.Sealed := by
  intro state passed
  have none := class?_of_classless classless unmade passed
  exact ⟨fun ref object held => by simp [none] at held,
    fun ref object held => by simp [none] at held⟩

end Store

/-- The class a name stands for, where it is used. -/
def Machine.classNamed? (machine : Machine) (setting : Setting) (id : NodeId) (name : String) :
    Option ClassObject :=
  match Run.valueOf? setting ⟨id, name, machine.env⟩ machine.store with
  | some (.classValue ref) => machine.store.class? ref
  | _ => none

/-- A statement that would build on a final class or extend one, and the fault it is due. -/
inductive Machine.Attempts (machine : Machine) (setting : Setting) :
    Statement → Located RuntimeFault → Prop where
  | inheritance {decl : ClassDecl} {reference : SuperclassRef} {object : ClassObject} :
      decl.superclass = some reference →
      machine.classNamed? setting reference.id reference.name = some object →
      object.decl.isFinal = true →
      Attempts machine setting (.classDecl decl)
        ⟨.finalInheritance decl.name object.decl.name, reference.location⟩
  | extension {id : NodeId} {className : String} {decl : FunctionDecl} {location : Location}
      {object : ClassObject} :
      machine.classNamed? setting id className = some object → object.decl.isFinal = true →
      Attempts machine setting (.extension id className decl location)
        ⟨.finalExtension className, location⟩

namespace Run

variable {setting : Setting} {machine : Machine} {object : ClassObject}

/-- A name that stands for a class is looked up, and the class is found. -/
theorem lookup_of_classNamed? {id : NodeId} {name : String}
    (named : machine.classNamed? setting id name = some object) (location : Location) :
    ∃ ref, lookup setting id name location machine =
        .ok (.classValue ref) (afterUse id name machine) ∧
      (afterUse id name machine).store.class? ref = some object := by
  unfold Machine.classNamed? at named
  split at named
  · rename_i ref found
    refine ⟨ref, ?_, named⟩
    have noted : noteUse id name machine =
        .ok ⟨id, name, machine.env⟩ (afterUse id name machine) := rfl
    have looked : valueOf? setting ⟨id, name, machine.env⟩ (afterUse id name machine).store =
        some (.classValue ref) := found
    unfold lookup
    rw [bind_of_ok noted, inspect_bind, looked]
    rfl
  · cases named

private theorem superclassOf_of_final {reference : SuperclassRef}
    (named : machine.classNamed? setting reference.id reference.name = some object)
    (final : object.decl.isFinal = true) (className : String) :
    superclassOf setting className reference machine =
      .error (.fault ⟨.finalInheritance className object.decl.name, reference.location⟩)
        (afterUse reference.id reference.name machine) := by
  obtain ⟨ref, looked, found⟩ := lookup_of_classNamed? named reference.location
  unfold superclassOf
  rw [bind_of_ok looked]
  dsimp only
  rw [inspect_bind, found]
  dsimp only
  rw [if_pos final]
  rfl

private theorem declareExtension_of_final {id : NodeId} {className : String}
    (named : machine.classNamed? setting id className = some object)
    (final : object.decl.isFinal = true) (decl : FunctionDecl) (location : Location) :
    declareExtension setting id className decl location machine =
      .error (.fault ⟨.finalExtension className, location⟩) (afterUse id className machine) := by
  obtain ⟨ref, looked, found⟩ := lookup_of_classNamed? named location
  unfold declareExtension
  rw [bind_of_ok looked]
  dsimp only
  rw [inspect_bind, found]
  dsimp only
  rw [if_pos final]
  rfl

/-- What would change a final class stops with the fault it is due, and changes nothing. -/
theorem refused_of_attempts {statement : Statement} {fault : Located RuntimeFault}
    (attempts : machine.Attempts setting statement fault) (depth : Nat) :
    ∃ later, (routines setting (depth + 1)).execute statement machine =
      .error (.fault fault) later ∧ later.store = machine.store := by
  cases attempts with
  | @inheritance decl reference object inherits named final =>
      refine ⟨afterUse reference.id reference.name machine, bind_of_error (bind_of_error ?_), rfl⟩
      unfold declaredSuperclass
      rw [inherits]
      exact bind_of_error (superclassOf_of_final named final _)
  | @extension id className decl location object named final =>
      exact ⟨afterUse id className machine,
        bind_of_error (declareExtension_of_final named final decl location), rfl⟩

end Run

/-- Any number of runs of a program on the same globals, and one more: no class has ever built on
a final class, and every final class has had the methods of its declaration, whatever was
attempted. Where a statement would build on a final class or extend one, by whatever name, it
stops with the fault that is due and leaves the store as it is. -/
theorem final_classes_sealed {program : Program} {resolutions : Resolutions} {globals : ScopeRef}
    {first store : Store} (classless : first.classes = #[]) (unmade : first.formerClasses = [])
    (successive : Successive program resolutions globals first store) (setting : Setting) :
    (∀ state ∈ (Run.machineAfter (Run.interpret setting program
      (.start store globals))).store.classHistory, state.Sealed) ∧
    ∀ (depth : Nat) (machine : Machine) (statement : Statement) (fault : Located RuntimeFault),
      machine.Attempts setting statement fault →
        ∃ later, (Run.routines setting (depth + 1)).execute statement machine =
          .error (.fault fault) later ∧ later.store = machine.store := by
  have intact : ∀ state ∈ store.classHistory, state.Sealed := by
    induction successive with
    | start => exact Store.sealed_of_classless classless unmade
    | @bind store name value _ ih =>
        have kept : store.Reclasses (store.define globals name value false) := .same rfl
        exact kept.sealed ih
    | run _ _ _ ih => exact Store.sealed_of_interpret ih
  exact ⟨Store.sealed_of_interpret intact, fun depth _ _ _ attempts =>
    Run.refused_of_attempts attempts depth⟩

/-- `final class A { fun m() { return nil; } } var B = A;` and, on the next line,
`class C extends B {}` -/
def disguisedSample : Program :=
  [.classDecl ⟨"A", none, [],
      [⟨"m", .method, [], [.returning (some (.literal .nil ⟨1, 34⟩)) ⟨1, 27⟩], false, ⟨1, 21⟩⟩],
      true, ⟨1, 1⟩⟩,
    .varDecl "B" (some (.var 0 "A" ⟨1, 51⟩)) false ⟨1, 43⟩,
    .classDecl ⟨"C", some ⟨1, "B", ⟨2, 17⟩⟩, [], [], false, ⟨2, 1⟩⟩]

/-- The run stops where `C` would build on `A`. By the name `B`, which it has as well, the class
cannot be extended either. -/
theorem final_classes_sealed_disguisedSample :
    ∃ analysis machine later, Resolve.program disguisedSample .start = .ok () analysis ∧
      Run.interpret (.bare analysis.resolutions) disguisedSample (.start .bare ⟨0⟩) =
        .error (.fault ⟨.finalInheritance "C" "A", ⟨2, 17⟩⟩) machine ∧
      (∀ state ∈ machine.store.classHistory, state.Sealed) ∧
      (Run.routines (.bare analysis.resolutions) 1).execute
        (.extension 2 "B" ⟨"m", .method, [], [], false, ⟨3, 10⟩⟩ ⟨3, 8⟩) machine =
          .error (.fault ⟨.finalExtension "B", ⟨3, 8⟩⟩) later ∧
      later.store = machine.store := by
  have ended : ∃ analysis machine, Resolve.program disguisedSample .start = .ok () analysis ∧
      Run.interpret (.bare analysis.resolutions) disguisedSample (.start .bare ⟨0⟩) =
        .error (.fault ⟨.finalInheritance "C" "A", ⟨2, 17⟩⟩) machine ∧
      (machine.classNamed? (.bare analysis.resolutions) 2 "B").map (·.decl.isFinal) = some true :=
    ⟨_, _, rfl, Run.eq_error_of_fault? (by decide +kernel), by decide +kernel⟩
  obtain ⟨analysis, machine, accepted, stopped, marked⟩ := ended
  obtain ⟨object, named, final⟩ := Option.map_eq_some_iff.mp marked
  obtain ⟨intact, refused⟩ := final_classes_sealed rfl rfl
    (.start : Successive disguisedSample analysis.resolutions ⟨0⟩ .bare .bare)
    (.bare analysis.resolutions)
  rw [stopped] at intact
  obtain ⟨later, stops, same⟩ := refused 0 machine _ _ (.extension named final)
  exact ⟨analysis, machine, later, accepted, stopped, intact, stops, same⟩

end Scriptlet
