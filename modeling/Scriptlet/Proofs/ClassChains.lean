import Scriptlet.Proofs.ClassHistory
import Scriptlet.Proofs.Run.Housing
import Scriptlet.Proofs.Run.Initializing

/-!
# The classes that a class builds on

A class builds on a class there was before it (`Store.Ascending`), whatever its name stands for by
now. So the chain of classes that it builds on comes to an end (`Store.Ancestry`). A search for a
method ends at the nearest class of the chain that has it (`Store.Searches`), and a new object gets
the fields of each class of the chain once, those of the root first (`Machine.Initialized`). Of
several fields of one name it keeps that of the nearest class.
-/

namespace Scriptlet

namespace Store

/-! ### Chains -/

/-- Every class that builds on another was made after it. -/
def Ascending (store : Store) : Prop :=
  ∀ ref object superclass, store.class? ref = some object → object.superclass = some superclass →
    superclass.index < ref.index

/-- A class and the classes it builds on, one after the other as they are linked, down to one
that builds on none. -/
inductive Ancestry (store : Store) : ClassRef → List ClassRef → Prop where
  | root {ref : ClassRef} {object : ClassObject} : store.class? ref = some object →
      object.superclass = none → store.Ancestry ref [ref]
  | inherits {ref superclass : ClassRef} {object : ClassObject} {chain : List ClassRef} :
      store.class? ref = some object → object.superclass = some superclass →
      store.Ancestry superclass chain → store.Ancestry ref (ref :: chain)

/-- A search for a method as it goes from class to class: one that has a method of the name ends
it, and any other hands it on to the class it builds on, if there is one. -/
inductive Searches (store : Store) (name : String) : ClassRef → Option MethodObject → Prop where
  | found {ref : ClassRef} {object : ClassObject} {method : MethodObject} :
      store.class? ref = some object → object.methods.find? name = some method →
      store.Searches name ref (some method)
  | inherits {ref superclass : ClassRef} {object : ClassObject} {answer : Option MethodObject} :
      store.class? ref = some object → object.methods.find? name = none →
      object.superclass = some superclass → store.Searches name superclass answer →
      store.Searches name ref answer
  | root {ref : ClassRef} {object : ClassObject} : store.class? ref = some object →
      object.methods.find? name = none → object.superclass = none → store.Searches name ref none

variable {store : Store} {ref superclass : ClassRef} {object : ClassObject}

private theorem ownMethod?_eq {name : String} (found : store.class? ref = some object) :
    store.ownMethod? name ref = object.methods.find? name := by
  unfold ownMethod?
  rw [found]

private theorem method?_of_root {name : String} (root : store.superclass? ref = none) :
    store.method? ref name = store.ownMethod? name ref := by
  unfold method?
  rw [lineage_of_root root, List.findSome?_singleton]

namespace Ascending

private theorem lasting : Lasting Ascending where
  classes := by
    intro store later ascending same ref object superclass found
    unfold class? at found
    rw [same] at found
    exact ascending ref object superclass found
  declares := by
    intro store object ascending heritable _ ref known superclass found builds
    obtain old | ⟨rfl, rfl⟩ := class?_of_newClass found
    · exact ascending ref known superclass old builds
    · -- The class there was has its place among those there were.
      obtain ⟨parent, held, _⟩ := heritable superclass builds
      exact (Array.getElem?_eq_some_iff.mp held).1
  extended := by
    intro store target object name method ascending _ _ ref known superclass found builds
    obtain ⟨earlier, foundEarlier, same, _⟩ := class?_of_addMethod found
    exact ascending ref earlier superclass foundEarlier (same.trans builds)

variable (ascending : store.Ascending)
include ascending

/-- The walk upwards follows every link. -/
theorem superclass?_eq (found : store.class? ref = some object) :
    store.superclass? ref = object.superclass := by
  unfold Store.superclass?
  rw [found]
  dsimp only
  cases builds : object.superclass with
  | none => rfl
  | some superclass =>
      exact Option.filter_some_pos (decide_eq_true (ascending ref object superclass found builds))

/-- What holds of a class if it holds of the one it builds on holds of every class there is. -/
theorem induction {motive : ClassRef → Prop}
    (root : ∀ ref object, store.class? ref = some object → object.superclass = none →
      store.superclass? ref = none → motive ref)
    (inherits : ∀ ref object superclass, store.class? ref = some object →
      object.superclass = some superclass → store.superclass? ref = some superclass →
      motive superclass → motive ref)
    (present : (store.class? ref).isSome) : motive ref := by
  induction ref using lineage_induction store with
  | root ref none =>
      obtain ⟨object, found⟩ := Option.isSome_iff_exists.mp present
      exact root ref object found ((ascending.superclass?_eq found).symm.trans none) none
  | inherits ref superclass upward ih =>
      obtain ⟨object, found⟩ := Option.isSome_iff_exists.mp present
      exact inherits ref object superclass found
        ((ascending.superclass?_eq found).symm.trans upward) upward (ih (class?_superclass? upward))

/-- The classes that the walk upwards comes by are the one chain there is. -/
theorem ancestry_iff (present : (store.class? ref).isSome) (chain : List ClassRef) :
    store.Ancestry ref chain ↔ chain = store.lineage ref := by
  constructor
  · intro ancestry
    induction ancestry with
    | root found root => rw [lineage_of_root ((ascending.superclass?_eq found).trans root)]
    | inherits found builds above ih =>
        have upward := (ascending.superclass?_eq found).trans builds
        rw [lineage_of_superclass? upward, ih (class?_superclass? upward)]
  · rintro rfl
    refine ascending.induction (motive := fun ref => store.Ancestry ref (store.lineage ref))
      ?root ?inherits present
    case root =>
      intro ref object found root none
      rw [lineage_of_root none]
      exact .root found root
    case inherits =>
      intro ref object superclass found builds upward ih
      rw [lineage_of_superclass? upward]
      exact .inherits found builds ih

/-- The search that is made finds what one from class to class finds. -/
theorem searches_iff (present : (store.class? ref).isSome) (name : String)
    (answer : Option MethodObject) :
    store.Searches name ref answer ↔ answer = store.method? ref name := by
  constructor
  · intro searches
    induction searches with
    | found held listed =>
        exact (method?_of_ownMethod? ((ownMethod?_eq held).trans listed)).symm
    | inherits held without builds above ih =>
        have upward := (ascending.superclass?_eq held).trans builds
        rw [method?_of_superclass? ((ownMethod?_eq held).trans without) upward]
        exact ih (class?_superclass? upward)
    | root held without root =>
        rw [method?_of_root ((ascending.superclass?_eq held).trans root),
          ownMethod?_eq held, without]
  · rintro rfl
    refine ascending.induction
      (motive := fun ref => store.Searches name ref (store.method? ref name))
      ?root ?inherits present
    case root =>
      intro ref object found root none
      rw [method?_of_root none, ownMethod?_eq found]
      cases listed : object.methods.find? name with
      | none => exact .root found listed root
      | some method => exact .found found listed
    case inherits =>
      intro ref object superclass found builds upward ih
      cases listed : object.methods.find? name with
      | none =>
          rw [method?_of_superclass? ((ownMethod?_eq found).trans listed) upward]
          exact .inherits found listed builds ih
      | some method =>
          rw [method?_of_ownMethod? ((ownMethod?_eq found).trans listed)]
          exact .found found listed

end Ascending

private theorem Ancestry.index_le {chain : List ClassRef} (ancestry : store.Ancestry ref chain)
    (ascending : store.Ascending) : ∀ owner ∈ chain, owner.index ≤ ref.index := by
  induction ancestry with
  | root => exact List.forall_mem_singleton.mpr (Nat.le_refl _)
  | @inherits ref superclass object chain found builds _ ih =>
      have older := ascending ref object superclass found builds
      exact List.forall_mem_cons.mpr ⟨Nat.le_refl _, fun owner above =>
        Nat.le_of_lt (Nat.lt_of_le_of_lt (ih owner above) older)⟩

/-- The farther a class is up a chain, the earlier it was made, so no class is there twice. -/
theorem Ancestry.older {chain : List ClassRef} (ancestry : store.Ancestry ref chain)
    (ascending : store.Ascending) :
    chain.Pairwise fun nearer farther => farther.index < nearer.index := by
  induction ancestry with
  | root => exact List.pairwise_singleton _ _
  | @inherits ref superclass object chain found builds above ih =>
      have older := ascending ref object superclass found builds
      exact List.pairwise_cons.mpr ⟨fun owner member =>
        Nat.lt_of_le_of_lt (above.index_le ascending owner member) older, ih⟩

/-! ### Declared fields -/

/-- The field that an object of a chain of classes has by some name, with the class that declares
it: the last one of the name that the nearest class declares. -/
def nearestField? (store : Store) (chain : List ClassRef) (name : String) :
    Option (ClassRef × FieldDecl) :=
  chain.findSome? fun owner =>
    ((store.ownFields owner).reverse.find? (·.name = name)).map (owner, ·)

/-- Of the fields that a chain of classes declares, the root first, the last one of a name is
that of the nearest class. -/
theorem find?_reverse_declarations (store : Store) (chain : List ClassRef) (name : String) :
    (store.declarations chain.reverse).reverse.find? (·.2.name = name) =
      store.nearestField? chain name := by
  unfold declarations nearestField?
  rw [List.reverse_flatMap, List.reverse_reverse, List.find?_flatMap]
  congr 1
  funext owner
  rw [Function.comp_apply, ← List.map_reverse, List.find?_map]
  rfl

/-- A field that a class of the chain declares has a nearest declaration. -/
theorem nearestField?_isSome {chain : List ClassRef} {owner : ClassRef} {field : FieldDecl}
    (above : owner ∈ chain) (declared : field ∈ store.ownFields owner) :
    (store.nearestField? chain field.name).isSome := by
  rw [← find?_reverse_declarations, List.find?_isSome]
  refine ⟨(owner, field), ?_, decide_eq_true rfl⟩
  rw [List.mem_reverse]
  exact List.mem_flatMap.mpr ⟨owner, List.mem_reverse.mpr above, List.mem_map_of_mem declared⟩

end Store

/-- Between two machines an object has been given these fields and no others, in this order and
each once. -/
def Machine.Gave (start machine : Machine) (object : ObjectRef)
    (given : List (ClassRef × FieldDecl)) : Prop :=
  declarationsOf object machine.fieldUses =
    (given.map fun declared => (declared.1, declared.2.name)).reverse ++
      declarationsOf object start.fieldUses

/-- A later machine in which an object has the fields of a chain of classes. Each class has given
it those that it declares once, the root first, and it has the nearest one of every name that is
declared. -/
structure Machine.Initialized (start machine : Machine) (object : ObjectRef)
    (chain : List ClassRef) : Prop where
  given : start.Gave machine object (start.store.declarations chain.reverse)
  slots : ∀ owner ∈ chain, ∀ field ∈ start.store.ownFields owner, ∃ nearest declared slot,
    start.store.nearestField? chain field.name = some (nearest, declared) ∧
      machine.store.field? object field.name = some slot ∧ slot.Declares nearest declared

private theorem Machine.Gives.initialized {start machine : Machine} {object : ObjectRef}
    {chain : List ClassRef}
    (gives : machine.Gives start.store object (declarationsOf object start.fieldUses)
      (start.store.declarations chain.reverse)) : start.Initialized machine object chain := by
  refine ⟨gives.noted, fun owner above field declared => ?_⟩
  obtain ⟨⟨nearest, last⟩, found⟩ :=
    Option.isSome_iff_exists.mp (Store.nearestField?_isSome above declared)
  obtain ⟨slot, held, declares⟩ := gives.slots field.name nearest last
    ((start.store.find?_reverse_declarations chain field.name).trans found)
  exact ⟨nearest, last, slot, found, held, declares⟩

namespace Run

/-! ### The making of an instance -/

/-- What is left to do for an object that has its fields: its constructor runs, if it has one. -/
def construct (setting : Setting) (runBody : List Statement → Run Completion) (ofClass : ClassRef)
    (arguments : List Value) (location : Location) (object : ObjectRef) : Run Value := do
  match ← inspect (·.method? ofClass constructorName) with
  | some method =>
    let constructor ← bindMethod method (.object object)
    let _ ← callFunction setting runBody constructor arguments location
    return .object object
  | none =>
    if arguments.isEmpty then return .object object
    else fail (.arityMismatch 0 arguments.length) location

variable {setting : Setting} {evaluate : Expr → Run Value}
  {runBody : List Statement → Run Completion} {ofClass : ClassRef} {arguments : List Value}
  {location : Location} {object : ObjectRef}

/-- A new object is given its fields before its constructor runs. -/
theorem instantiate_eq (machine : Machine) :
    instantiate setting evaluate runBody ofClass arguments location machine =
      (initializeFields evaluate (machine.store.newObject ofClass).1
        ((machine.store.newObject ofClass).2.lineage ofClass).reverse >>= fun _ =>
          construct setting runBody ofClass arguments location (machine.store.newObject ofClass).1)
        { machine with store := (machine.store.newObject ofClass).2 } := rfl

private theorem Growing.construct (bodies : ∀ body, Growing none (runBody body)) :
    Growing none (construct setting runBody ofClass arguments location object) := by
  refine bind (.inspect _) fun method => ?_
  split
  · exact bind (.bindMethod _ _) fun _ => bind (.callFunction bodies _ _ _) fun _ => .pure _
  · split
    · exact .pure _
    · exact Leads.fail _ _

/-- What is made is the object that was given its fields. -/
theorem eq_object_of_construct {machine after : Machine} {value : Value}
    (ended : construct setting runBody ofClass arguments location object machine =
      .ok value after) : value = .object object := by
  unfold construct at ended
  rw [inspect_bind] at ended
  cases found : machine.store.method? ofClass constructorName with
  | some method =>
      rw [found] at ended
      obtain ⟨_, _, _, called⟩ := bind_eq_ok.mp ended
      obtain ⟨_, _, _, answered⟩ := bind_eq_ok.mp called
      cases answered
      rfl
  | none =>
      rw [found] at ended
      dsimp only at ended
      split at ended
      · cases ended
        rfl
      · cases ended

variable {depth : Nat} {chain : List ClassRef} {machine : Machine}

/-- A new object is given the fields of some classes, the last one first. -/
def giveFields (setting : Setting) (depth : Nat) (ofClass : ClassRef) (chain : List ClassRef)
    (machine : Machine) : EStateM.Result RunStop Machine Unit :=
  initializeFields (routines setting depth).evaluate (machine.store.newObject ofClass).1
    chain.reverse { machine with store := (machine.store.newObject ofClass).2 }

/-- How an instance of a class is made that has a chain of classes. If it cannot be given its
fields there is no instance, and it has been given the first ones of them. If it can it has all of
them from then on, and it is the one that is made if its constructor does not stop. -/
structure Makes (setting : Setting) (depth : Nat) (ofClass : ClassRef) (chain : List ClassRef)
    (machine : Machine) (made : EStateM.Result RunStop Machine Value) : Prop where
  stopped : ∀ stop after, giveFields setting depth ofClass chain machine = .error stop after →
    made = .error stop after ∧
      ∃ begun, begun <+: machine.store.declarations chain.reverse ∧
        machine.Gave after (machine.store.newObject ofClass).1 begun
  given : ∀ after, giveFields setting depth ofClass chain machine = .ok () after →
    machine.Initialized after (machine.store.newObject ofClass).1 chain ∧
      machine.Initialized (machineAfter made) (machine.store.newObject ofClass).1 chain
  object : ∀ value after, made = .ok value after →
    value = .object (machine.store.newObject ofClass).1 ∧
      ∃ between, giveFields setting depth ofClass chain machine = .ok () between

private theorem endsGiving_giveFields
    (present : ∀ owner ∈ chain, (machine.store.class? owner).isSome) :
    EndsGiving machine.store (machine.store.newObject ofClass).1
      (declarationsOf (machine.store.newObject ofClass).1 machine.fieldUses) []
      (machine.store.declarations chain.reverse)
        (giveFields setting depth ofClass chain machine) := by
  refine .initializeFields ((lawful_growth setting).routines depth).evaluate chain.reverse
    (fun owner member => present owner (List.mem_reverse.mp member)) ?_
  exact ⟨.newObject _ _, by simp [Store.object?, Store.newObject], rfl,
    fun _ _ _ last => by cases last⟩

private theorem makes_instantiate (present : (machine.store.class? ofClass).isSome) :
    Makes setting depth ofClass (machine.store.lineage ofClass) machine
      (instantiate setting (routines setting depth).evaluate (routines setting depth).executeAll
        ofClass arguments location machine) := by
  have kept : machine.store.Grows none (machine.store.newObject ofClass).2 := .newObject _ _
  have ended : EndsGiving _ _ _ _ _ (giveFields setting depth ofClass _ machine) :=
    endsGiving_giveFields (Store.class?_lineage present)
  rw [instantiate_eq, kept.lineage present]
  refine ⟨fun stop after stopped => ⟨bind_of_error stopped, ?_⟩, fun after given => ?_,
    fun value after made => ?_⟩
  · rw [stopped] at ended
    obtain ⟨begun, begins, gives⟩ := ended
    exact ⟨begun, begins, gives.noted⟩
  · rw [given] at ended
    have gives : after.Gives machine.store _ _
        (machine.store.declarations (machine.store.lineage ofClass).reverse) := ended
    unfold giveFields at given
    rw [bind_of_ok given]
    refine ⟨gives.initialized, (gives.advance ?_).initialized⟩
    exact (Growing.construct ((lawful_growth setting).routines depth).executeAll).advances after
  · obtain ⟨_, between, given, constructed⟩ := bind_eq_ok.mp made
    exact ⟨eq_object_of_construct constructed, between, given⟩

end Run

/-- At every time of any number of runs of a program on the same globals, and of one more, a class
builds only on a class that was made before it. So every class has one chain of classes that it
builds on, which never leads back. A search for a method from class to class comes to an end, with
the entry of the nearest class that has one. An instance is given the fields of each class of the
chain once, the root first, and has the nearest declaration of each when it has been given them
all. -/
theorem class_chains_well_founded {program : Program} {resolutions : Resolutions}
    {globals : ScopeRef} {first store : Store} (classless : first.classes = #[])
    (unmade : first.formerClasses = [])
    (successive : Successive program resolutions globals first store) (setting : Setting)
    (machine : Machine)
    (passed : machine.store.classes ∈ (Run.machineAfter (Run.interpret setting program
      (.start store globals))).store.tables) :
    machine.store.Ascending ∧
    ∀ ref, (machine.store.class? ref).isSome → ∃ chain,
      (∀ other, machine.store.Ancestry ref other ↔ other = chain) ∧
      (chain.Pairwise fun nearer farther => farther.index < nearer.index) ∧
      (∀ name answer,
        machine.store.Searches name ref answer ↔ answer = machine.store.method? ref name) ∧
      (∀ name method, machine.store.method? ref name = some method ↔
        ∃ nearer owner farther, chain = nearer ++ owner :: farther ∧
          machine.store.ownMethod? name owner = some method ∧
          ∀ other ∈ nearer, machine.store.ownMethod? name other = none) ∧
      ∀ depth arguments location, Run.Makes setting depth ref chain machine
        (Run.instantiate setting (Run.routines setting depth).evaluate
          (Run.routines setting depth).executeAll ref arguments location machine) := by
  have whole : ∀ state ∈ first.classHistory, state.Ascending := by
    intro state member ref object superclass found
    cases (Store.class?_of_classless classless unmade member ref).symm.trans found
  have ascending : machine.store.Ascending :=
    Store.Ascending.lasting.classes (Store.Ascending.lasting.interpret
      (Store.Ascending.lasting.successive whole successive) _ (List.mem_map_of_mem passed)) rfl
  refine ⟨ascending, fun ref present => ?_⟩
  have ancestry := (ascending.ancestry_iff present _).mpr rfl
  exact ⟨machine.store.lineage ref, ascending.ancestry_iff present, ancestry.older ascending,
    ascending.searches_iff present, fun name method => List.findSome?_eq_some_iff,
    fun depth arguments location => Run.makes_instantiate present⟩

/-- `class A { var x = true; fun m() { return nil; } }`, `class B extends A { var x = nil; }` and
`class A extends B {}`, each on a line -/
def reboundSample : Program :=
  [.classDecl ⟨"A", none, [⟨"x", .everyone, false, some (.literal (.bool true) ⟨1, 19⟩), ⟨1, 11⟩⟩],
      [⟨"m", .method, [], [.returning (some (.literal .nil ⟨1, 42⟩)) ⟨1, 35⟩], false, ⟨1, 25⟩⟩],
      false, ⟨1, 1⟩⟩,
    .classDecl ⟨"B", some ⟨0, "A", ⟨2, 17⟩⟩,
      [⟨"x", .everyone, false, some (.literal .nil ⟨2, 29⟩), ⟨2, 21⟩⟩], [], false, ⟨2, 1⟩⟩,
    .classDecl ⟨"A", some ⟨1, "B", ⟨3, 17⟩⟩, [], [], false, ⟨3, 1⟩⟩]

/-- What a run of the sample leaves of each class: on which it builds, and whether it has an `m` of
its own. An instance of the last one can be made. -/
private theorem classes_reboundSample :
    ∃ analysis machine, Resolve.program reboundSample .start = .ok () analysis ∧
      Run.machineAfter (Run.interpret (.bare analysis.resolutions) reboundSample
        (.start .bare ⟨0⟩)) = machine ∧
      [⟨0⟩, ⟨1⟩, ⟨2⟩].map (fun ref => ((machine.store.class? ref).map (·.superclass),
          (machine.store.ownMethod? "m" ref).isSome)) =
        [(some none, true), (some (some ⟨0⟩), false), (some (some ⟨1⟩), false)] ∧
      (Run.outcome (Run.instantiate (.bare analysis.resolutions)
        (Run.routines (.bare analysis.resolutions) 1).evaluate
        (Run.routines (.bare analysis.resolutions) 1).executeAll ⟨2⟩ [] ⟨4, 2⟩ machine)).isOk :=
  ⟨_, _, rfl, rfl, by decide +kernel, by decide +kernel⟩

/-- The second `A` builds on `B`, and `B` still builds on the first one. -/
theorem class_chains_well_founded_reboundSample :
    ∃ analysis machine, Resolve.program reboundSample .start = .ok () analysis ∧
      Run.machineAfter (Run.interpret (.bare analysis.resolutions) reboundSample
        (.start .bare ⟨0⟩)) = machine ∧
      machine.store.Ancestry ⟨2⟩ [⟨2⟩, ⟨1⟩, ⟨0⟩] ∧
      (∃ method, machine.store.ownMethod? "m" ⟨0⟩ = some method ∧
        ∀ answer, machine.store.Searches "m" ⟨2⟩ answer ↔ answer = some method) ∧
      ∃ object after, Run.instantiate (.bare analysis.resolutions)
          (Run.routines (.bare analysis.resolutions) 1).evaluate
          (Run.routines (.bare analysis.resolutions) 1).executeAll ⟨2⟩ [] ⟨4, 2⟩ machine =
            .ok (.object object) after ∧
        machine.Initialized after object [⟨2⟩, ⟨1⟩, ⟨0⟩] := by
  obtain ⟨analysis, machine, accepted, ran, shown, instantiates⟩ := classes_reboundSample
  simp only [List.map_cons, List.map_nil, List.cons.injEq, Prod.mk.injEq, Option.map_eq_some_iff,
    Option.isSome_iff_exists, Option.isSome_eq_false_iff, Option.isNone_iff_eq_none,
    and_true] at shown
  obtain ⟨⟨⟨first, held, root⟩, method, own⟩, ⟨⟨second, heldSecond, builds⟩, without⟩,
    ⟨third, heldThird, buildsThird⟩, withoutThird⟩ := shown
  obtain ⟨_, chains⟩ := class_chains_well_founded rfl rfl
    (.start : Successive reboundSample analysis.resolutions ⟨0⟩ .bare .bare)
    (.bare analysis.resolutions) machine (ran ▸ List.mem_cons_self ..)
  obtain ⟨chain, only, _, search, nearest, makes⟩ := chains ⟨2⟩ (by simp [heldThird])
  have ancestry : machine.store.Ancestry ⟨2⟩ [⟨2⟩, ⟨1⟩, ⟨0⟩] :=
    .inherits heldThird buildsThird (.inherits heldSecond builds (.root held root))
  obtain rfl := (only _).mp ancestry
  have found : machine.store.method? ⟨2⟩ "m" = some method :=
    (nearest "m" method).mpr ⟨[⟨2⟩, ⟨1⟩], ⟨0⟩, [], rfl, own, by simp [without, withoutThird]⟩
  refine ⟨analysis, machine, accepted, ran, ancestry,
    ⟨method, own, fun answer => found ▸ search "m" answer⟩, ?_⟩
  have made := makes 1 [] ⟨4, 2⟩
  cases ended : Run.instantiate (.bare analysis.resolutions)
      (Run.routines (.bare analysis.resolutions) 1).evaluate
      (Run.routines (.bare analysis.resolutions) 1).executeAll ⟨2⟩ [] ⟨4, 2⟩ machine with
  | error stop after =>
      rw [ended] at instantiates
      cases instantiates
  | ok value after =>
      rw [ended] at made
      obtain ⟨rfl, between, given⟩ := made.object value after rfl
      exact ⟨_, after, rfl, (made.given between given).2⟩

end Scriptlet
