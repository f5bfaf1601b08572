import Scriptlet.Proofs.OwnerMirror
import Scriptlet.Proofs.Resolution.ReceiverDistance
import Scriptlet.Proofs.Run.Served

/-!
# Receivers and superclasses are those of the text

A method, a constructor, an extension or the initialisers of a class run in a scope that holds
their receiver. In a program that declares no name like it, such a receiver is the value of the
innermost scope of this kind, however deep in functions and blocks it is named. Code of a class
that builds on another one finds the superclass in the scope just outside: the one its class
got when it was declared, whatever class the receiver is of (`receivers_as_written`). The
receiver is the object that the method was read from or whose field is initialised, and in code
of a class always an object of this class.
-/

namespace Scriptlet

variable {program : Program} {analysis : Analysis} {done : Unit} {globals : ScopeRef}
  {first store : Store} {id : NodeId} {name : String} {location : Location}

namespace Run

variable {setting : Setting} {machine : Machine}

private theorem outcome_lookup {value : Value}
    (found : valueOf? setting ⟨id, name, machine.env⟩ machine.store = some value) :
    outcome (lookup setting id name location machine) = .ok value := by
  have noted : noteUse id name machine = .ok ⟨id, name, machine.env⟩
      { machine with uses := ⟨id, name, machine.env⟩ :: machine.uses } := rfl
  rw [lookup, bind_of_ok noted, inspect_bind, found]
  rfl

/-- A method that was looked up, bound to a receiver. -/
def bindFound (found? : Option MethodObject) (receiver : Value) (name : String)
    (location : Location) : Run Value :=
  match found? with
  | some found => boundMethod found receiver
  | none => fail (.undefinedProperty name) location

/-- A method of the superclass is looked up in the superclass and bound to the receiver. -/
theorem superMethod_eq {distance : Nat} {superclass : ClassRef} {receiver : Value}
    (recorded : setting.resolutions.distance? id = some (distance + 1))
    (built : machine.store.valueAt? machine.env (distance + 1) "super" =
      some (.classValue superclass))
    (received : machine.store.valueAt? machine.env distance "this" = some receiver)
    (method : String) (location : Location) :
    superMethod setting id method location machine =
      bindFound (machine.store.method? superclass method) receiver method location
        { machine with uses := ⟨id, "super", machine.env⟩ :: machine.uses } := by
  have noted : noteUse id "super" machine = .ok ⟨id, "super", machine.env⟩
      { machine with uses := ⟨id, "super", machine.env⟩ :: machine.uses } := rfl
  rw [superMethod, bind_of_ok noted, get_bind, recorded]
  cases found : machine.store.method? superclass method with
  | none => simp only [built, received, found, bindFound]
  | some method => simp only [built, received, found, bindFound]

/-- A property that is no field is a method of the class of the object, bound to the object. -/
theorem objectProperty_eq {ref : ObjectRef} (missing : machine.store.field? ref name = none)
    (location : Location) :
    objectProperty ref name location machine =
      bindFound ((machine.store.object? ref).bind fun object =>
        machine.store.method? object.ofClass name) (.object ref) name location machine := by
  rw [objectProperty, get_bind, missing]
  rfl

/-- A method that gets its receiver is bound to it for good. -/
theorem binds_boundMethod {method : MethodObject} {receiver : Value} {store : Store}
    (isSealed : method.receiver.isSealed = true)
    (lasts : (machineAfter (boundMethod method receiver machine)).store.Lasts store) :
    ∃ value, outcome (boundMethod method receiver machine) = .ok value ∧
      store.Binds method receiver value := by
  have function : (machineAfter (boundMethod method receiver machine)).store.function?
      ⟨machine.store.functions.size⟩ =
        some ⟨method.decl, ⟨machine.store.scopes.size⟩, method.owner⟩ :=
    Array.getElem?_push_size
  have scope : (machineAfter (boundMethod method receiver machine)).store.scope?
      ⟨machine.store.scopes.size⟩ =
        some ⟨[("this", ⟨receiver, true⟩)], some method.closure, method.receiver⟩ :=
    Array.getElem?_push_size
  obtain ⟨later, found, _, _, fixed⟩ := lasts.scopes _ _ scope
  rw [fixed isSealed] at found
  exact ⟨_, rfl, _, _, rfl, lasts.functions _ _ function, found⟩

end Run

/-- A method of a class as it was when the evaluation of an expression began. -/
def Evaluation.method? (evaluation : Evaluation) (ref : ClassRef) (name : String) :
    Option MethodObject :=
  ({ Store.empty with classes := evaluation.classes } : Store).method? ref name

/-- An evaluation has bound a method to a receiver, or there was no method of the name. -/
def Evaluation.BindsMethod (evaluation : Evaluation) (store : Store)
    (found? : Option MethodObject) (receiver : Value) (name : String) (location : Location) :
    Prop :=
  match found? with
  | some found => ∃ value, evaluation.outcome = .ok value ∧ store.Binds found receiver value
  | none => evaluation.outcome = .error (.fault ⟨.undefinedProperty name, location⟩)

variable {setting : Setting} {evaluation : Evaluation} {start : Machine} {depth : Nat}
  {tags : List ScopeTag}

/-- An evaluation began inside of the innermost receiver along the chain of its scopes. -/
theorem Evaluation.Begins.receives (begins : evaluation.Begins setting globals store start depth)
    (chain : store.Chain globals evaluation.env tags) {distance : Nat} {tag : ScopeTag}
    (innermost : InnermostReceiver tags distance tag) :
    ∃ scope receiver, start.store.Receives start.env distance scope receiver ∧ scope.tag = tag ∧
      store.Receives evaluation.env distance scope receiver := by
  obtain ⟨others, before, _⟩ := begins.houses
  have later := begins.begun.chain before
  rw [begins.env] at later
  rw [← chain.unique later] at innermost
  obtain ⟨scope, receiver, receives, same⟩ := before.receives begins.tidy innermost
  exact ⟨scope, receiver, receives, same, begins.env ▸ receives.last before begins.begun⟩

/-- A receiver that is evaluated in the scopes it is written in. -/
theorem Evaluation.Begins.outcome_thisRef
    (begins : evaluation.Begins setting globals store start depth)
    (chain : store.Chain globals evaluation.env tags)
    (expr : evaluation.expr = .thisRef id location)
    {distance : Nat} {tag : ScopeTag} (innermost : InnermostReceiver tags distance tag)
    (recorded : setting.resolutions.distance? id = some distance) :
    ∃ scope receiver, store.Receives evaluation.env distance scope receiver ∧
      evaluation.outcome = .ok receiver := by
  obtain ⟨scope, receiver, receives, _, after⟩ := begins.receives chain innermost
  refine ⟨scope, receiver, after, ?_⟩
  rw [← begins.outcome, expr]
  refine Run.outcome_lookup ?_
  rw [Run.valueOf?, recorded]
  exact receives.valueAt?

/-- An expression that ends as a method is bound to its receiver. -/
private theorem Evaluation.Begins.bindsMethod
    (begins : evaluation.Begins setting globals store start depth)
    {found? : Option MethodObject} {receiver : Value} {machine : Machine}
    (isSealed : ∀ found, found? = some found → found.receiver.isSealed = true)
    (stepped : Run.evaluateStep setting (Run.routines setting depth) evaluation.expr start =
      Run.bindFound found? receiver name location machine) :
    evaluation.BindsMethod store found? receiver name location := by
  have ended := begins.ended
  have outcome := begins.outcome
  rw [stepped] at ended outcome
  cases found? with
  | some found =>
      obtain ⟨value, bound, binds⟩ := Run.binds_boundMethod (isSealed found rfl) ended
      exact ⟨value, outcome.symm.trans bound, binds⟩
  | none => exact outcome.symm

/-- A method that is read from an object. -/
theorem Evaluation.Begins.outcome_get
    (begins : evaluation.Begins setting globals store start depth) {target : Expr}
    (expr : evaluation.expr = .get target name location) {ref : ObjectRef} {later : Machine}
    (accessed : Run.accessTarget (Run.routines setting depth).evaluate evaluation.expr start =
      .ok (.object ref) later) (missing : later.store.field? ref name = none) :
    evaluation.BindsMethod store ((later.store.object? ref).bind fun object =>
      later.store.method? object.ofClass name) (.object ref) name location := by
  obtain ⟨_, tidy, _⟩ := begins.reached _ _ accessed
  refine begins.bindsMethod (fun found looked => ?_) (?_ : _ = Run.bindFound _ _ _ _ later)
  · obtain ⟨object, _, inherited⟩ := Option.bind_eq_some_iff.mp looked
    exact (tidy.method? inherited).isSealed
  · rw [expr] at accessed ⊢
    rw [← Run.objectProperty_eq missing]
    exact bind_of_ok accessed

/-- A method of the superclass that is evaluated in the scopes it is written in. -/
theorem Evaluation.Begins.outcome_superRef
    (begins : evaluation.Begins setting globals store start depth)
    (chain : store.Chain globals evaluation.env tags) {method : String}
    (expr : evaluation.expr = .superRef id method location) {distance : Nat} {decl : ClassDecl}
    (innermost : InnermostReceiver tags distance (.thisOf decl))
    (derived : decl.superclass.isSome = true)
    (recorded : setting.resolutions.distance? id = some (distance + 1)) :
    ∃ scope receiver superclass, store.Receives evaluation.env distance scope receiver ∧
      store.Captures scope superclass ∧ evaluation.BindsMethod store
        (evaluation.method? superclass method) receiver method location := by
  obtain ⟨scope, receiver, receives, tag, after⟩ := begins.receives chain innermost
  obtain ⟨ref, _, found⟩ := receives.reached
  obtain ⟨superclass, captures⟩ := begins.tidy.captures found tag derived
  have known : evaluation.method? superclass method = start.store.method? superclass method :=
    Store.method?_congr begins.classes.symm superclass method
  refine ⟨scope, receiver, superclass, after, captures.last begins.begun, ?_⟩
  rw [known]
  have stepped := Run.superMethod_eq recorded (captures.valueAt? receives) receives.valueAt?
    method location
  change Run.evaluateStep setting (Run.routines setting depth)
    (.superRef id method location) start = _ at stepped
  rw [← expr] at stepped
  exact begins.bindsMethod (fun found looked => (begins.tidy.method? looked).isSealed) stepped

/-- A receiver that is reached in a store where all receivers are objects is one of them. -/
private theorem Store.Receives.serves {env : ScopeRef} {distance : Nat} {scope : Scope}
    {receiver : Value}
    (receives : store.Receives env distance scope receiver) (serving : store.Serving) :
    ∃ object, receiver = .object object ∧ store.Serves scope object := by
  obtain ⟨ref, _, found⟩ := receives.reached
  obtain ⟨object, serves⟩ := serving ref scope found receives.tag
  have same := receives.bindings.symm.trans serves.bindings
  simp only [List.cons.injEq, Prod.mk.injEq, Binding.mk.injEq, and_true, true_and] at same
  exact ⟨object, same, serves⟩

/-- In every run of an accepted program, a receiver is that of the innermost scope of a receiver
around the code that names it, and a method of the superclass is looked up in the superclass of
the class around the code, and bound to that receiver. The scopes are those of the constructs
the code is written in. The receiver is an object, of the class around the code if there is one:
a method that is read from an object is bound to the object, and an initialiser of a field has
the object that gets the field as its receiver. The run may be any of successive runs on the same
globals. -/
theorem receivers_as_written (accepted : Resolve.program program .start = .ok done analysis)
    (numbered : program.Numbered) (spares : program.SparesReceivers) (blank : first.Blank globals)
    (successive : Successive program analysis.resolutions globals first store)
    (resolved : setting.resolutions = analysis.resolutions) {machine : Machine}
    (ended : Run.machineAfter (Run.interpret setting program (.start store globals)) = machine) :
    (∀ evaluation ∈ machine.evaluations,
      (∃ visit ∈ analysis.walk, visit.expr = evaluation.expr ∧
        visit.Mirrors machine.store globals evaluation.env) ∧
      (∀ id location, evaluation.expr = .thisRef id location → ∃ distance scope object,
        machine.store.Receives evaluation.env distance scope (.object object) ∧
          machine.store.Serves scope object ∧ evaluation.outcome = .ok (.object object)) ∧
      (∀ id method location, evaluation.expr = .superRef id method location →
        ∃ distance scope object superclass,
          machine.store.Receives evaluation.env distance scope (.object object) ∧
          machine.store.Serves scope object ∧ machine.store.Captures scope superclass ∧
          evaluation.BindsMethod machine.store (evaluation.method? superclass method)
            (.object object) method location) ∧
      ∀ target name location, evaluation.expr = .get target name location → ∃ start depth,
        evaluation.Begins setting globals machine.store start depth ∧
        ∀ ref later, Run.accessTarget (Run.routines setting depth).evaluate evaluation.expr
            start = .ok (.object ref) later → later.store.field? ref name = none →
          evaluation.BindsMethod machine.store ((later.store.object? ref).bind fun object =>
            later.store.method? object.ofClass name) (.object ref) name location) ∧
    ∀ use ∈ machine.fieldUses, use.kind = .declared →
      machine.store.HasReceiver use.env use.object := by
  subst ended
  have tidy := tidy_run blank successive setting
  have serving : (Run.machineAfter (Run.interpret setting program
      (.start store globals))).store.Serving :=
    serving_run accepted numbered spares blank successive resolved
  refine ⟨fun evaluation member => ?_, fun use member => (tidy.fieldUses use member).receiver⟩
  have placed := (Course.sound_of_successive blank.fresh successive setting).evaluations evaluation
    member
  obtain ⟨start, depth, begins⟩ := tidy.evaluations evaluation member
  obtain ⟨scopes, stands, fits⟩ := placed
  have chain := fits.chain
  rw [LexicalScope.map_tag_defer] at chain
  refine ⟨mirrors_of_places accepted ⟨scopes, stands, fits⟩, ?_, ?_, ?_⟩
  · intro id location expr
    obtain ⟨distance, tag, innermost, recorded⟩ :=
      distance_of_thisRef accepted numbered spares (expr ▸ stands)
    obtain ⟨scope, receiver, receives, outcome⟩ :=
      begins.outcome_thisRef chain expr innermost (resolved ▸ recorded)
    obtain ⟨object, rfl, serves⟩ := receives.serves serving
    exact ⟨distance, scope, object, receives, serves, outcome⟩
  · intro id method location expr
    obtain ⟨distance, decl, innermost, derived, recorded⟩ :=
      distance_of_superRef accepted numbered spares (expr ▸ stands)
    obtain ⟨scope, receiver, superclass, receives, captures, binds⟩ :=
      begins.outcome_superRef chain expr innermost derived (resolved ▸ recorded)
    obtain ⟨object, rfl, serves⟩ := receives.serves serving
    exact ⟨distance, scope, object, superclass, receives, serves, captures, binds⟩
  · intro target name location expr
    exact ⟨start, depth, begins, fun ref later accessed missing =>
      begins.outcome_get expr accessed missing⟩

/-- ```
class A { fun m() { return this; } }
class B extends A { fun m() { fun f() { return super.m(); } return f(); } }
B().m();
``` -/
def superSample : Program :=
  [.classDecl ⟨"A", none, [],
      [⟨"m", .method, [], [.returning (some (.thisRef 0 ⟨1, 28⟩)) ⟨1, 21⟩], false, ⟨1, 15⟩⟩],
      false, ⟨1, 7⟩⟩,
    .classDecl ⟨"B", some ⟨1, "A", ⟨2, 17⟩⟩, [],
      [⟨"m", .method, [],
        [.function ⟨"f", .function, [],
            [.returning (some (.call (.superRef 2 "m" ⟨2, 48⟩) [] ⟨2, 55⟩)) ⟨2, 41⟩], false,
              ⟨2, 35⟩⟩,
          .returning (some (.call (.var 3 "f" ⟨2, 68⟩) [] ⟨2, 69⟩)) ⟨2, 61⟩], false, ⟨2, 25⟩⟩],
      false, ⟨2, 7⟩⟩,
    .expression (.call (.get (.call (.var 4 "B" ⟨3, 1⟩) [] ⟨3, 2⟩) "m" ⟨3, 5⟩) [] ⟨3, 6⟩) ⟨3, 1⟩]

/-- The class of the object that an expression has named as its receiver. -/
def Evaluation.receiverClass? (evaluation : Evaluation) (store : Store) : Option ClassRef :=
  match evaluation.expr, evaluation.outcome with
  | .thisRef _ _, .ok (.object ref) => (store.object? ref).map (·.ofClass)
  | _, _ => none

/-- The second of two runs evaluates `super.m` in the function and then `this` in the method of
`A`, which is an object of the second class `B`, the last of the four classes made. -/
theorem receivers_as_written_superSample :
    ∃ analysis machine, Resolve.program superSample .start = .ok () analysis ∧
      Machine.afterTwo superSample analysis.resolutions = machine ∧
      machine.evaluations.map
        (fun evaluation => evaluation.expr matches .thisRef _ _ | .superRef _ _ _) =
          [false, false, false, true, true, false, false, false, false] ∧
      machine.evaluations.filterMap (·.receiverClass? machine.store) = [⟨3⟩] ∧
      (machine.store.class? ⟨3⟩).map (·.decl.name) = some "B" ∧
      (∀ evaluation ∈ machine.evaluations,
        (∃ visit ∈ analysis.walk, visit.expr = evaluation.expr ∧
          visit.Mirrors machine.store ⟨0⟩ evaluation.env) ∧
        (∀ id location, evaluation.expr = .thisRef id location → ∃ distance scope object,
          machine.store.Receives evaluation.env distance scope (.object object) ∧
            machine.store.Serves scope object ∧ evaluation.outcome = .ok (.object object)) ∧
        (∀ id method location, evaluation.expr = .superRef id method location →
          ∃ distance scope object superclass,
            machine.store.Receives evaluation.env distance scope (.object object) ∧
            machine.store.Serves scope object ∧ machine.store.Captures scope superclass ∧
            evaluation.BindsMethod machine.store (evaluation.method? superclass method)
              (.object object) method location) ∧
        ∀ target name location, evaluation.expr = .get target name location → ∃ start depth,
          evaluation.Begins (.bare analysis.resolutions) ⟨0⟩ machine.store start depth ∧
          ∀ ref later, Run.accessTarget (Run.routines (.bare analysis.resolutions)
              depth).evaluate evaluation.expr start = .ok (.object ref) later →
            later.store.field? ref name = none →
            evaluation.BindsMethod machine.store ((later.store.object? ref).bind fun object =>
              later.store.method? object.ofClass name) (.object ref) name location) ∧
      ∀ use ∈ machine.fieldUses, use.kind = .declared →
        machine.store.HasReceiver use.env use.object :=
  ⟨_, _, rfl, rfl, by decide +kernel, by decide +kernel, by decide +kernel,
    receivers_as_written rfl (by decide) (by decide) Store.blank_bare (.once superSample _) rfl rfl⟩

end Scriptlet
