import Scriptlet.Proofs.OwnerMirror
import Scriptlet.Proofs.Resolution.Foreseeing

/-!
# Refused accesses to fields

An access to a field is refused if the field that it is known to mean is private to another class,
or final and initialised when it is assigned to. A run of the program as it would be recorded
without this check then stops at the access with the same fault (`Refusal.Raises`), if it gets there
and finds the field that was meant. What is known of the class of an object goes by names and by the
order of the text, so a run may also find another field, or another class behind the name of the
class (`Refusal.Misses`).
-/

namespace Scriptlet

/-- The access to a field that is refused, as an expression of the text. -/
def Refusal.IsAt (refusal : Refusal) : Expr → Prop
  | .get object name location => refusal.isAssignment = false ∧ refusal.object = object ∧
    refusal.name = name ∧ refusal.location = location
  | .set object name _ location => refusal.isAssignment = true ∧ refusal.object = object ∧
    refusal.name = name ∧ refusal.location = location
  | _ => False

/-- The fault of a run at an access that is refused. A final field that is private as well may be
out of reach for a class that was made from the same declaration once more. -/
def Refusal.Raises (refusal : Refusal) (fault : RuntimeFault) : Prop :=
  match refusal.fault with
  | .privateAccess _ name => fault = .privateAccess name
  | .finalFieldReassignment name => fault = .finalFieldReassignment name ∨
    refusal.field.visibility = .ownClass ∧ fault = .privateAccess name
  | _ => False

/-- What an access finds that is refused for another field than this. -/
inductive Refusal.Misses (refusal : Refusal) (store : Store) : Value → Prop where
  | noObject {target : Value} : (∀ ref, target ≠ .object ref) → refusal.Misses store target
  | noField {ref : ObjectRef} : store.field? ref refusal.name = none →
      refusal.Misses store (.object ref)
  | unowned {ref : ObjectRef} {slot : FieldSlot} : store.field? ref refusal.name = some slot →
      slot.visibility = .everyone → slot.isFinal = false → refusal.Misses store (.object ref)
  | otherClass {ref : ObjectRef} {slot : FieldSlot} {object : ClassObject} :
      store.field? ref refusal.name = some slot → store.class? slot.owner = some object →
      object.decl ≠ refusal.owner.decl → refusal.Misses store (.object ref)
  | otherMember {ref : ObjectRef} {slot : FieldSlot} {field : FieldDecl} :
      store.field? ref refusal.name = some slot → field ∈ refusal.owner.decl.fields →
      field.name = refusal.name → slot.visibility = field.visibility →
      slot.isFinal = field.isFinal →
      ⟨field.visibility, field.isFinal, field.initial.isSome⟩ ≠ refusal.field →
      refusal.Misses store (.object ref)
  /-- Only the numbers tell the declaration around the access from that of the field. -/
  | twin {ref : ObjectRef} : refusal.current.map (·.own.decl) = some refusal.owner.decl →
      Resolve.isInside refusal.current refusal.owner = false → refusal.Misses store (.object ref)

namespace Run

variable {setting : Setting} {machine : Machine} {inner : Routines} {expr : Expr} {target : Value}
  {later : Machine}

/-- What an access does once it has come to its property. -/
inductive Accesses (name : String) (location : Location) (target : Value) (later : Machine) :
    Bool → EStateM.Result RunStop Machine Value → Prop where
  | get : Accesses name location target later false (property target name location later)
  | set (value : Value) : Accesses name location target later true
      ((setProperty target name value location >>= fun _ => return value) later)

/-- An access that has come to its property goes on with it. -/
theorem accesses_of_accessTarget {refusal : Refusal} (isAt : refusal.IsAt expr)
    (reached : accessTarget inner.evaluate expr machine = .ok target later) :
    Accesses refusal.name refusal.location target later refusal.isAssignment
      (evaluateStep setting inner expr machine) := by
  cases expr with
  | get object name location =>
      obtain ⟨reads, _, rfl, rfl⟩ := isAt
      have stepped :
          evaluateStep setting inner (.get object refusal.name refusal.location) machine =
          property target refusal.name refusal.location later := bind_of_ok reached
      rw [stepped, reads]
      exact .get
  | set object name value location =>
      obtain ⟨writes, _, rfl, rfl⟩ := isAt
      obtain ⟨first, middle, evaluated, rest⟩ := bind_eq_ok.mp reached
      obtain ⟨second, last, assigned, same⟩ := bind_eq_ok.mp rest
      cases same
      have stepped : evaluateStep setting inner
          (.set object refusal.name value refusal.location) machine =
          (setProperty target refusal.name second refusal.location >>= fun _ => return second)
            later := (bind_of_ok evaluated).trans (bind_of_ok assigned)
      rw [stepped, writes]
      exact .set second
  | _ => exact isAt.elim

variable {ref : ObjectRef} {slot : FieldSlot} {name : String} {location : Location}
  {isAssignment : Bool} {result : EStateM.Result RunStop Machine Value}

/-- A field that not everyone may use is out of reach for code of another class. -/
theorem checkAccess_eq_error (ownClass : slot.visibility = .ownClass)
    (outside : machine.owner ≠ some slot.owner) :
    checkAccess slot name location machine =
      .error (.fault ⟨.privateAccess name, location⟩) machine := by
  have checked : checkAccess slot name location machine =
      (if slot.visibility = .ownClass && machine.owner != some slot.owner then
        fail (.privateAccess name) location else pure () : Run Unit) machine := rfl
  rw [checked, if_pos (by simp [ownClass, outside])]
  rfl

/-- A field that may be used is within reach. -/
theorem checkAccess_eq_ok
    (within : ¬(slot.visibility = .ownClass ∧ machine.owner ≠ some slot.owner)) :
    checkAccess slot name location machine = .ok () machine := by
  have checked : checkAccess slot name location machine =
      (if slot.visibility = .ownClass && machine.owner != some slot.owner then
        fail (.privateAccess name) location else pure () : Run Unit) machine := rfl
  rw [checked, if_neg (by simpa using within)]
  rfl

private theorem setProperty_eq (found : machine.store.field? ref name = some slot) (value : Value) :
    setProperty (.object ref) name value location machine =
      (checkAccess slot name location >>= fun _ =>
        if slot.isFinal && slot.assigned then fail (.finalFieldReassignment name) location
        else writeField ref name { slot with value := value, assigned := true } .assigned)
        machine := by
  have held : ∃ object, machine.store.object? ref = some object ∧
      object.fields.find? name = some slot := by
    unfold Store.field? at found
    split at found
    · exact ⟨_, ‹_›, found⟩
    · cases found
  obtain ⟨object, known, listed⟩ := held
  rw [setProperty, inspect_bind, known]
  dsimp only
  unfold setField
  rw [listed]

private theorem property_eq (found : machine.store.field? ref name = some slot) :
    property (.object ref) name location machine =
      (checkAccess slot name location >>= fun _ =>
        noteField ref name slot .read >>= fun _ => return slot.value) machine := by
  rw [property, objectProperty, get_bind, found]

/-- A field that is out of reach is neither read nor set. -/
theorem Accesses.outcome_private
    (accesses : Accesses name location (.object ref) later isAssignment result)
    (found : later.store.field? ref name = some slot) (ownClass : slot.visibility = .ownClass)
    (outside : later.owner ≠ some slot.owner) :
    outcome result = .error (.fault ⟨.privateAccess name, location⟩) := by
  have stopped : checkAccess slot name location later =
      .error (.fault ⟨.privateAccess name, location⟩) later := checkAccess_eq_error ownClass outside
  cases accesses with
  | get => rw [property_eq found, bind_of_error stopped]; rfl
  | set value =>
      rw [bind_of_error ((setProperty_eq found value).trans (bind_of_error stopped))]
      rfl

/-- A final field that has its value is not set once more. -/
theorem Accesses.outcome_final
    (accesses : Accesses name location (.object ref) later true result)
    (found : later.store.field? ref name = some slot) (final : slot.isFinal = true)
    (assigned : slot.assigned = true)
    (within : ¬(slot.visibility = .ownClass ∧ later.owner ≠ some slot.owner)) :
    outcome result = .error (.fault ⟨.finalFieldReassignment name, location⟩) := by
  have passed : checkAccess slot name location later = .ok () later := checkAccess_eq_ok within
  cases accesses with
  | set value =>
      have stopped : setProperty (.object ref) name value location later =
          .error (.fault ⟨.finalFieldReassignment name, location⟩) later := by
        rw [setProperty_eq found value, bind_of_ok passed, final, assigned]
        rfl
      rw [bind_of_error stopped]
      rfl

end Run

/-- What is known of a field when it is refused: it is private to another class, or it is final and
has an initial value, and is assigned to. -/
theorem Refusal.Posted.cases {refusal : Refusal} (posted : refusal.Posted) :
    (refusal.field.visibility = .ownClass ∧
      Resolve.isInside refusal.current refusal.owner = false ∧
      refusal.fault = .privateAccess refusal.owner.name refusal.name) ∨
    refusal.isAssignment = true ∧ refusal.field.isFinal = true ∧
      refusal.field.initialized = true ∧ refusal.fault = .finalFieldReassignment refusal.name := by
  have fault := posted.fault
  unfold Resolve.fieldFault? at fault
  split at fault
  · rename_i outside
    simp only [Bool.and_eq_true, decide_eq_true_eq, Bool.not_eq_true'] at outside
    exact .inl ⟨outside.1, outside.2, (Option.some.inj fault).symm⟩
  · split at fault
    · rename_i final
      simp only [Bool.and_eq_true] at final
      refine .inr ⟨final.1.1, final.1.2, final.2, ?_⟩
      exact (Option.some.inj fault).symm
    · cases fault

/-- An access that was refused stops a run with the same fault, if it finds the field that was
meant. -/
theorem Refusal.Posted.misses_or_raises {refusal : Refusal} (posted : refusal.Posted)
    {machine : Machine} {globals : ScopeRef} (tidy : machine.store.Tidy globals)
    (owns : machine.store.Owns machine.owner (refusal.current.map (·.own.decl))) {target : Value}
    {result : EStateM.Result RunStop Machine Value}
    (accesses : Run.Accesses refusal.name refusal.location target machine refusal.isAssignment
      result) :
    refusal.Misses machine.store target ∨ ∃ cause, refusal.Raises cause ∧
      Run.outcome result = .error (.fault ⟨cause, refusal.location⟩) := by
  by_cases isObject : ∃ ref, target = .object ref
  case neg => exact .inl (.noObject fun ref same => isObject ⟨ref, same⟩)
  obtain ⟨ref, rfl⟩ := isObject
  cases found : machine.store.field? ref refusal.name with
  | none => exact .inl (.noField found)
  | some slot =>
      rcases tidy.fields ref refusal.name slot found with ⟨everyone, changeable⟩ |
        ⟨object, field, made, member, named, visibility, final, assigned⟩
      · exact .inl (.unowned found everyone changeable)
      by_cases sameClass : object.decl = refusal.owner.decl
      case neg => exact .inl (.otherClass found made sameClass)
      by_cases sameField : ⟨field.visibility, field.isFinal, field.initial.isSome⟩ = refusal.field
      case neg =>
        exact .inl (.otherMember found (sameClass ▸ member) named visibility final sameField)
      have visible : slot.visibility = refusal.field.visibility := by rw [visibility, ← sameField]
      rcases posted.cases with ⟨ownClass, outside, caused⟩ | ⟨assigns, isFinal, initialized, caused⟩
      · by_cases owned : machine.owner = some slot.owner
        · refine .inl (.twin ?_ outside)
          rw [owned] at owns
          rw [owns.eq_of_class? made, sameClass]
        · refine .inr ⟨.privateAccess refusal.name, ?_, ?_⟩
          · rw [Raises, caused]
          · exact accesses.outcome_private found (visible.trans ownClass) owned
      · rw [assigns] at accesses
        by_cases reach : slot.visibility = .ownClass ∧ machine.owner ≠ some slot.owner
        · refine .inr ⟨.privateAccess refusal.name, ?_, ?_⟩
          · rw [Raises, caused]
            exact .inr ⟨visible.symm.trans reach.1, rfl⟩
          · exact accesses.outcome_private found reach.1 reach.2
        · have fixed : slot.isFinal = true := by
            rw [final, ← isFinal, ← sameField]
          have given : slot.assigned = true := by
            apply assigned
            rw [← initialized, ← sameField]
          refine .inr ⟨.finalFieldReassignment refusal.name, ?_, ?_⟩
          · rw [Raises, caused]
            exact .inl rfl
          · exact accesses.outcome_final found fixed given reach

/-- An expression is evaluated where an access to a field is refused. -/
def Refusal.Mirrors (refusal : Refusal) (store : Store) (globals env : ScopeRef) : Prop :=
  store.Chain globals env (refusal.scopes.map (·.tag))

variable {program : Program} {analysis final : Analysis} {done : Unit} {globals : ScopeRef}
  {first store : Store} {fault : Located ResolveFault}

/-- The access for which a program is refused is among those that are noted if fields are not
checked. Whenever a run then comes to an access that is noted, in the scopes it was refused in, it
stops there with the fault the access was refused for, or the access finds another field than the
one that was meant. The run may be any of successive runs on the same globals. -/
theorem fieldRefusal_cases (rejected : Resolve.program program .start = .error fault final)
    (passed : Resolve.program program .startUnchecked = .ok done analysis)
    (blank : first.Blank globals)
    (successive : Successive program analysis.resolutions globals first store)
    (setting : Setting) {machine : Machine}
    (ended : Run.machineAfter (Run.interpret setting program (.start store globals)) = machine) :
    (∃ refusal ∈ analysis.refusals, refusal.fault = fault.cause ∧
      refusal.location = fault.location) ∧
    ∀ refusal ∈ analysis.refusals, ∀ evaluation ∈ machine.evaluations,
      refusal.IsAt evaluation.expr → refusal.Mirrors machine.store globals evaluation.env →
      ∃ start depth, evaluation.Begins setting globals machine.store start depth ∧
        ∀ target later,
          Run.accessTarget (Run.routines setting depth).evaluate evaluation.expr start =
            .ok target later →
          refusal.Misses later.store target ∨ ∃ cause, refusal.Raises cause ∧
            evaluation.outcome = .error (.fault ⟨cause, refusal.location⟩) := by
  subst ended
  refine ⟨Resolve.refuses_of_rejected rejected passed, fun refusal refused evaluation member isAt
    mirrors => ?_⟩
  obtain ⟨start, depth, begins⟩ := (tidy_run blank successive setting).evaluations evaluation member
  refine ⟨start, depth, begins, fun target later comes => ?_⟩
  have posted := (posted_of_program passed Analysis.at_startUnchecked).refusals refusal refused
  obtain ⟨owners, tidy, lasts⟩ := begins.reached target later comes
  obtain ⟨tags, chain, owns⟩ := begins.houses
  have same : tags = refusal.scopes.map (·.tag) := by
    have after := begins.begun.chain chain
    rw [begins.env] at after
    exact (after.unique mirrors).symm
  have owner : later.owner = start.owner := by
    unfold Machine.owner
    rw [owners]
  rw [← begins.outcome]
  refine posted.misses_or_raises tidy ?_ (Run.accesses_of_accessTarget isAt comes)
  rw [owner, posted.current, ← same]
  exact lasts.owns owns

/-- `class A { private var x = true; } var a = A(); a.x;` -/
def outsiderSample : Program :=
  [.classDecl ⟨"A", none, [⟨"x", .ownClass, false, some (.literal (.bool true) ⟨1, 27⟩), ⟨1, 19⟩⟩],
      [], false, ⟨1, 1⟩⟩,
    .varDecl "a" (some (.call (.var 0 "A" ⟨1, 43⟩) [] ⟨1, 44⟩)) false ⟨1, 35⟩,
    .expression (.get (.var 1 "a" ⟨1, 48⟩) "x" ⟨1, 50⟩) ⟨1, 48⟩]

/-- The access is refused, and a run that does not check it first stops there with the same
fault. -/
theorem fieldRefusal_cases_outsiderSample :
    ∃ fault final analysis, Resolve.program outsiderSample .start = .error fault final ∧
      Resolve.program outsiderSample .startUnchecked = .ok () analysis ∧
      fault.location = ⟨1, 50⟩ ∧
      Run.fault? (Run.interpret (.bare analysis.resolutions) outsiderSample (.start .bare ⟨0⟩)) =
        some ⟨.privateAccess "x", ⟨1, 50⟩⟩ ∧
      (∃ refusal ∈ analysis.refusals, refusal.fault = fault.cause ∧
        refusal.location = fault.location) ∧
      ∀ refusal ∈ analysis.refusals, ∀ evaluation ∈ (Run.machineAfter (Run.interpret
          (.bare analysis.resolutions) outsiderSample (.start .bare ⟨0⟩))).evaluations,
        refusal.IsAt evaluation.expr → refusal.Mirrors (Run.machineAfter (Run.interpret
          (.bare analysis.resolutions) outsiderSample (.start .bare ⟨0⟩))).store
            ⟨0⟩ evaluation.env →
        ∃ start depth, evaluation.Begins (.bare analysis.resolutions) ⟨0⟩ (Run.machineAfter
            (Run.interpret (.bare analysis.resolutions) outsiderSample (.start .bare ⟨0⟩))).store
            start depth ∧
          ∀ target later,
            Run.accessTarget (Run.routines (.bare analysis.resolutions) depth).evaluate
              evaluation.expr start = .ok target later →
            refusal.Misses later.store target ∨ ∃ cause, refusal.Raises cause ∧
              evaluation.outcome = .error (.fault ⟨cause, refusal.location⟩) := by
  have analysed : ∃ fault final analysis,
      Resolve.program outsiderSample .start = .error fault final ∧
      Resolve.program outsiderSample .startUnchecked = .ok () analysis ∧
      fault.location = ⟨1, 50⟩ ∧
      Run.fault? (Run.interpret (.bare analysis.resolutions) outsiderSample (.start .bare ⟨0⟩)) =
        some ⟨.privateAccess "x", ⟨1, 50⟩⟩ :=
    ⟨_, _, _, rfl, rfl, rfl, by decide +kernel⟩
  obtain ⟨fault, final, analysis, rejected, passed, place, stopped⟩ := analysed
  exact ⟨fault, final, analysis, rejected, passed, place, stopped,
    fieldRefusal_cases rejected passed Store.blank_bare .start (.bare analysis.resolutions) rfl⟩

/-- ```
class A { private var x = true; }
class B { var x = true; }
var a = A(); fun f() { return a.x; } a = B(); f();
``` -/
def exchangedSample : Program :=
  [.classDecl ⟨"A", none, [⟨"x", .ownClass, false, some (.literal (.bool true) ⟨1, 27⟩), ⟨1, 19⟩⟩],
      [], false, ⟨1, 7⟩⟩,
    .classDecl ⟨"B", none, [⟨"x", .everyone, false, some (.literal (.bool true) ⟨2, 19⟩), ⟨2, 11⟩⟩],
      [], false, ⟨2, 7⟩⟩,
    .varDecl "a" (some (.call (.var 0 "A" ⟨3, 9⟩) [] ⟨3, 10⟩)) false ⟨3, 1⟩,
    .function ⟨"f", .function, [],
      [.returning (some (.get (.var 1 "a" ⟨3, 31⟩) "x" ⟨3, 33⟩)) ⟨3, 24⟩], false, ⟨3, 18⟩⟩,
    .expression (.assign 2 "a" (.call (.var 3 "B" ⟨3, 42⟩) [] ⟨3, 43⟩) ⟨3, 38⟩) ⟨3, 38⟩,
    .expression (.call (.var 4 "f" ⟨3, 47⟩) [] ⟨3, 48⟩) ⟨3, 47⟩]

-- When `f` is analysed `a` holds an instance of `A`, and when it is called one of `B`.
example : ∃ fault final analysis, Resolve.program exchangedSample .start = .error fault final ∧
    fault.cause = .privateAccess "A" "x" ∧ fault.location = ⟨3, 33⟩ ∧
    Resolve.program exchangedSample .startUnchecked = .ok () analysis ∧
    Run.fault? (Run.interpret (.bare analysis.resolutions) exchangedSample (.start .bare ⟨0⟩)) =
      none :=
  ⟨_, _, _, rfl, rfl, rfl, rfl, by decide +kernel⟩

end Scriptlet
