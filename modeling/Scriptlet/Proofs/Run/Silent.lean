import Mathlib.Logic.Relation
import Scriptlet.Proofs.Run.Leading
import Scriptlet.Proofs.Run.Primitive

/-!
# Silent steps

Most operations of a run print nothing, test nothing and call nothing, and it makes no difference to
them what was tested before (`Run.Blind`). What they do to the classes of a store is one of three
things, of which the one that makes a class and the one that adds a method keep off final classes
(`Store.Reclasses`).
-/

namespace Scriptlet

/-- A class there is that is not final, if any. -/
def Store.Heritable (store : Store) (superclass : Option ClassRef) : Prop :=
  ∀ ref, superclass = some ref →
    ∃ parent, store.class? ref = some parent ∧ parent.decl.isFinal = false

/-- What an operation does to the classes of a store: nothing, or it makes one that builds on
no final class and has the methods of its declaration, or it adds a method to one that is not
final. -/
inductive Store.Reclasses (store later : Store) : Prop where
  | same (tables : later.tables = store.tables)
  | declares {object : ClassObject} (heritable : store.Heritable object.superclass)
      (methods : object.methods =
        Run.classMethods object.decl ⟨store.classes.size⟩ object.closure)
      (tables : later.tables = (store.newClass object).2.tables)
  | extended {ref : ClassRef} {object : ClassObject} {name : String} {method : MethodObject}
      (found : store.class? ref = some object) (changeable : object.decl.isFinal = false)
      (tables : later.tables = (store.addMethod ref name method).tables)

/-- Classes change only as operations may change them, one after the other. -/
def reclassing : Evolution :=
  .ofRelation (fun machine later => Relation.ReflTransGen Store.Reclasses machine.store later.store)
    (fun _ => .refl) .trans

/-- A machine that has printed and tested nothing more, and stands as deep in calls. -/
structure Machine.Quiet (machine later : Machine) : Prop where
  callDepth : later.callDepth = machine.callDepth
  output : later.output = machine.output
  tests : later.tests = machine.tests

namespace Run

variable {α β : Type}

/-- The end of a step, with other outcomes of tests. -/
def withTests (tests : Array TestOutcome) :
    EStateM.Result RunStop Machine α → EStateM.Result RunStop Machine α
  | .ok value later => .ok value { later with tests := tests }
  | .error stop later => .error stop { later with tests := tests }

/-- A step that prints, tests and calls nothing, and that goes the same way whatever was tested
before. -/
structure Blind (step : Run α) : Prop where
  blind : ∀ machine tests,
    step { machine with tests := tests } = withTests tests (step machine)
  quiet : ∀ machine : Machine, machine.Quiet (machineAfter (step machine))
  passes : ∀ machine name location later,
    step machine ≠ .error (.fault ⟨.testFailed name, location⟩) later

/-- A blind step that changes classes as operations may. -/
structure Silent (step : Run α) : Prop extends Blind step where
  classes : Leads reclassing (fun _ => True) step fun _ _ => True

/-! ### Composition -/

namespace Blind

variable {step : Run α} {next : α → Run β}

private theorem bind (first : Blind step) (rest : ∀ value, Blind (next value)) :
    Blind (step >>= next) where
  blind machine tests := by
    have same := first.blind machine tests
    cases ended : step machine with
    | ok value middle =>
        rw [ended] at same
        rw [bind_of_ok ended, bind_of_ok same]
        exact (rest value).blind middle tests
    | error stop middle =>
        rw [ended] at same
        rw [bind_of_error ended, bind_of_error same]
        rfl
  quiet machine := by
    have before := first.quiet machine
    cases ended : step machine with
    | ok value middle =>
        rw [ended] at before
        rw [bind_of_ok ended]
        have after := (rest value).quiet middle
        exact ⟨after.callDepth.trans before.callDepth, after.output.trans before.output,
          after.tests.trans before.tests⟩
    | error stop middle =>
        rw [ended] at before
        rw [bind_of_error ended]
        exact before
  passes machine name location later := by
    cases ended : step machine with
    | ok value middle =>
        rw [bind_of_ok ended]
        exact (rest value).passes middle name location later
    | error stop middle =>
        rw [bind_of_error ended]
        intro failed
        cases failed
        exact first.passes machine name location later ended

/-- What is done after a look at the machine that does not see what was tested. -/
theorem reading {next : Machine → Run α} (rest : ∀ machine, Blind (next machine))
    (unseen : ∀ machine tests, next { machine with tests := tests } = next machine) :
    Blind (get >>= next) where
  blind machine tests := by
    rw [get_bind, get_bind, unseen]
    exact (rest machine).blind machine tests
  quiet machine := (rest machine).quiet machine
  passes machine := (rest machine).passes machine

/-- A step that always ends well. -/
theorem of_ok {value : Machine → α} {after : Machine → Machine}
    (steps : ∀ machine, step machine = .ok (value machine) (after machine))
    (unseen : ∀ machine tests, value { machine with tests := tests } = value machine ∧
      after { machine with tests := tests } = { after machine with tests := tests })
    (quiet : ∀ machine : Machine, machine.Quiet (after machine)) : Blind step where
  blind machine tests := by
    obtain ⟨sameValue, sameAfter⟩ := unseen machine tests
    rw [steps, steps, sameValue, sameAfter]
    rfl
  quiet machine := by
    rw [steps]
    exact quiet machine
  passes machine name location later := by
    rw [steps]
    exact nofun

/-- Making something in the store is blind. -/
protected theorem create (make : Store → α × Store) : Blind (Run.create make) :=
  .of_ok (fun _ => rfl) (fun _ _ => ⟨rfl, rfl⟩) fun _ => ⟨rfl, rfl, rfl⟩

/-- Changing the store is blind. -/
protected theorem change (update : Store → Store) : Blind (Run.change update) :=
  .of_ok (fun _ => rfl) (fun _ _ => ⟨rfl, rfl⟩) fun _ => ⟨rfl, rfl, rfl⟩

end Blind

namespace Silent

variable {setting : Setting} {step : Run α} {next : α → Run β}

private theorem bind (first : Silent step) (rest : ∀ value, Silent (next value)) :
    Silent (step >>= next) :=
  ⟨first.toBlind.bind fun value => (rest value).toBlind,
    first.classes.bind fun value => (rest value).classes⟩

/-- A step that looks at all of the machine but its outcomes of tests is silent, if what comes next
is. -/
theorem reading {next : Machine → Run α} (rest : ∀ machine, Silent (next machine))
    (unseen : ∀ machine tests, next { machine with tests := tests } = next machine) :
    Silent (get >>= next) :=
  ⟨.reading (fun machine => (rest machine).toBlind) unseen,
    fun machine holds => (rest machine).classes machine holds⟩

/-- A step that always ends well and leaves the classes as they are. -/
theorem of_ok {value : Machine → α} {after : Machine → Machine}
    (steps : ∀ machine, step machine = .ok (value machine) (after machine))
    (unseen : ∀ machine tests, value { machine with tests := tests } = value machine ∧
      after { machine with tests := tests } = { after machine with tests := tests })
    (quiet : ∀ machine : Machine, machine.Quiet (after machine))
    (tables : ∀ machine, (after machine).store.tables = machine.store.tables) : Silent step := by
  refine ⟨.of_ok steps unseen quiet, fun machine _ => ?_⟩
  rw [steps]
  exact ⟨.single (.same (tables machine)), trivial⟩

/-- Giving a value is silent. -/
protected theorem pure (value : α) : Silent (pure value) :=
  .of_ok (fun _ => rfl) (fun _ _ => ⟨rfl, rfl⟩) (fun _ => ⟨rfl, rfl, rfl⟩) fun _ => rfl

/-- A step that always stops, and not because of a test. -/
protected theorem throw {stop : RunStop} (other : ∀ name location,
    stop ≠ .fault ⟨.testFailed name, location⟩) : Silent (throw stop : Run α) where
  blind _ _ := rfl
  quiet _ := ⟨rfl, rfl, rfl⟩
  passes machine name location later := by
    intro failed
    cases failed
    exact other name location rfl
  classes _ _ := .refl

/-- A fault other than a failed test is silent. -/
protected theorem fail {fault : RuntimeFault} (location : Location)
    (other : ∀ name, fault ≠ .testFailed name) : Silent (Run.fail fault location : Run α) := by
  refine Silent.throw fun name place same => ?_
  cases same
  exact other name rfl

/-- Stopping for the depth is silent. -/
protected theorem exhausted : Silent (Run.exhausted : Run α) :=
  Silent.throw fun _ _ => nofun

/-- A step that never ends is silent. -/
protected theorem endless : Silent (Run.endless : Run α) :=
  Silent.throw fun _ _ => nofun

/-- Looking at the store is silent. -/
protected theorem inspect (look : Store → α) : Silent (Run.inspect look) :=
  .of_ok (fun _ => rfl) (fun _ _ => ⟨rfl, rfl⟩) (fun _ => ⟨rfl, rfl, rfl⟩) fun _ => rfl

/-- Giving a result, or failing with a fault about operands, is silent. -/
protected theorem orFail {result : Except RuntimeFault α} (location : Location)
    (operand : ∀ fault, result = .error fault → fault.isOperand = true) :
    Silent (Run.orFail result location) := by
  cases result with
  | ok value => exact .pure value
  | error fault =>
      refine .fail location fun name same => ?_
      subst same
      cases operand _ rfl

/-! ### Operations -/

/-- Something new in the store that is no class. -/
protected theorem create {make : Store → α × Store}
    (tables : ∀ store, (make store).2.tables = store.tables) : Silent (Run.create make) :=
  .of_ok (fun _ => rfl) (fun _ _ => ⟨rfl, rfl⟩) (fun _ => ⟨rfl, rfl, rfl⟩) fun _ => tables _

/-- A change of the store that leaves the classes as they are. -/
protected theorem change {update : Store → Store}
    (tables : ∀ store, (update store).tables = store.tables) : Silent (Run.change update) :=
  .of_ok (fun _ => rfl) (fun _ _ => ⟨rfl, rfl⟩) (fun _ => ⟨rfl, rfl, rfl⟩) fun _ => tables _

/-- Making a scope is silent. -/
protected theorem newScope (enclosing : Option ScopeRef) (tag : ScopeTag)
    (bindings : Table Binding) : Silent (Run.create (·.newScope enclosing tag bindings)) :=
  .create fun _ => rfl

/-- Making an array is silent. -/
protected theorem newArray (elements : Array Value) : Silent (Run.create (·.newArray elements)) :=
  .create fun _ => rfl

/-- Making a function is silent. -/
protected theorem newFunction (function : FunctionObject) :
    Silent (Run.create (·.newFunction function)) :=
  .create fun _ => rfl

/-- Making an object is silent. -/
protected theorem newObject (ofClass : ClassRef) : Silent (Run.create (·.newObject ofClass)) :=
  .create fun _ => rfl

/-- Noting the use of a name is silent. -/
protected theorem noteUse (id : NodeId) (name : String) : Silent (Run.noteUse id name) :=
  .of_ok (fun _ => rfl) (fun _ _ => ⟨rfl, rfl⟩) (fun _ => ⟨rfl, rfl, rfl⟩) fun _ => rfl

/-- Binding a name is silent. -/
protected theorem define (name : String) (value : Value) (isFinal : Bool) :
    Silent (Run.define name value isFinal) :=
  .of_ok (fun _ => rfl) (fun _ _ => ⟨rfl, rfl⟩) (fun _ => ⟨rfl, rfl, rfl⟩) fun _ => rfl

/-- Noting the use of a field is silent. -/
protected theorem noteField (object : ObjectRef) (name : String) (slot : FieldSlot)
    (kind : FieldUseKind) : Silent (Run.noteField object name slot kind) :=
  .of_ok (fun _ => rfl) (fun _ _ => ⟨rfl, rfl⟩) (fun _ => ⟨rfl, rfl, rfl⟩) fun _ => rfl

/-- Noting that an initialiser runs is silent. -/
protected theorem noteInitializing : Silent Run.noteInitializing :=
  .of_ok (fun _ => rfl) (fun _ _ => ⟨rfl, rfl⟩) (fun _ => ⟨rfl, rfl, rfl⟩) fun _ => rfl

/-- Looking up a name is silent. -/
protected theorem lookup (id : NodeId) (name : String) (location : Location) :
    Silent (Run.lookup setting id name location) := by
  refine bind (.noteUse id name) fun use => bind (.inspect _) fun found => ?_
  split
  · exact .pure _
  · exact .fail _ nofun

/-- Assigning to a name is silent. -/
protected theorem assign (id : NodeId) (name : String) (value : Value) (location : Location) :
    Silent (Run.assign setting id name value location) := by
  refine bind (.noteUse id name) fun use => bind (.inspect _) fun target => ?_
  split
  · exact .change fun _ => rfl
  · refine .fail _ fun _ same => ?_
    unfold assignFault at same
    split at same <;> cases same

/-- Checking whether a field may be used is silent. -/
protected theorem checkAccess (slot : FieldSlot) (name : String) (location : Location) :
    Silent (Run.checkAccess slot name location) := by
  refine reading (fun machine => ?_) fun _ _ => rfl
  split
  · exact .fail _ nofun
  · exact .pure _

/-- Setting a field is silent. -/
protected theorem writeField (object : ObjectRef) (name : String) (slot : FieldSlot)
    (kind : FieldUseKind) : Silent (Run.writeField object name slot kind) :=
  bind (.change fun _ => rfl) fun _ => .noteField _ _ _ _

/-- Binding a method to its receiver is silent. -/
protected theorem bindMethod (method : MethodObject) (receiver : Value) :
    Silent (Run.bindMethod method receiver) :=
  bind (.newScope _ _ _) fun _ => .pure _

/-- Making a function of a method and its receiver is silent. -/
protected theorem boundMethod (method : MethodObject) (receiver : Value) :
    Silent (Run.boundMethod method receiver) :=
  bind (.bindMethod method receiver) fun _ => bind (.newFunction _) fun _ => .pure _

/-- Reading a property is silent. -/
protected theorem property (target : Value) (name : String) (location : Location) :
    Silent (Run.property target name location) := by
  unfold Run.property
  split
  · refine reading (fun machine => ?_) fun _ _ => rfl
    dsimp only
    split
    · exact bind (.checkAccess _ _ _) fun _ => bind (.noteField _ _ _ _) fun _ => .pure _
    · split
      · exact .boundMethod _ _
      · exact .fail _ nofun
  · refine bind (.inspect _) fun native => ?_
    split
    · split
      · exact .pure _
      · exact .fail _ nofun
    · exact .fail _ nofun
  · split
    · exact bind (.inspect _) fun _ => .pure _
    · exact .fail _ nofun
  · split
    · exact .pure _
    · exact .fail _ nofun
  · exact .fail _ nofun

/-- Setting a property is silent. -/
protected theorem setProperty (target : Value) (name : String) (value : Value)
    (location : Location) : Silent (Run.setProperty target name value location) := by
  unfold Run.setProperty
  split
  · refine bind (.inspect _) fun object => ?_
    split
    · unfold Run.setField
      split
      · refine bind (.checkAccess _ _ _) fun _ => ?_
        split
        · exact .fail _ nofun
        · exact .writeField _ _ _ _
      · exact .writeField _ _ _ _
    · exact .fail _ nofun
  · exact .fail _ nofun

/-- Setting an element of an array is silent. -/
protected theorem setElement (target index value : Value) (location : Location) :
    Silent (Run.setElement target index value location) := by
  refine reading (fun machine => ?_) fun _ _ => rfl
  exact bind (.orFail _ fun _ => Value.isOperand_of_elementPlace) fun _ => .change fun _ => rfl

/-- Counting the rounds of a loop is silent. -/
protected theorem roundsOf (count : Value) (location : Location) :
    Silent (Run.roundsOf count location) := by
  unfold Run.roundsOf
  split
  · exact .pure _
  · exact .fail _ nofun

/-- Looking for a module is silent. -/
protected theorem moduleNamed (name : String) (location : Location) :
    Silent (Run.moduleNamed setting name location) := by
  unfold Run.moduleNamed
  split
  · refine bind (.inspect _) fun native => ?_
    split
    · exact .pure _
    · exact .fail _ nofun
  · exact .fail _ nofun

/-- Calling a native function is silent, as such a function prints and tests nothing. -/
protected theorem callNative (binding : NativeBinding) (arguments : List Value)
    (location : Location) : Silent (Run.callNative setting binding arguments location) := by
  unfold Run.callNative
  extract_lets fits
  split
  · exact .fail _ nofun
  · refine bind (.moduleNamed _ _) fun found => ?_
    dsimp only
    split
    · rename_i fault _
      refine .fail _ fun _ same => ?_
      cases fault <;> cases same
    · refine bind (.create fun store => (store.code_invoke _ _ _ _).2) fun answer => ?_
      split
      · exact .pure _
      · exact .fail _ nofun

/-- What a call makes of the end of its body is silent. -/
protected theorem callResult (function : FunctionObject) (completion : Completion)
    (location : Location) : Silent (Run.callResult function completion location) := by
  have answered (value : Value) : Silent (do
      if function.decl.kind = .constructor then
        return ((← Run.inspect (·.valueIn? function.closure "this"))).getD .nil
      else return value : Run Value) := by
    split
    · exact bind (.inspect _) fun _ => .pure _
    · exact .pure _
  cases completion with
  | normal => exact answered _
  | returning value => exact answered value
  | breaking => exact .fail _ nofun
  | continuing => exact .fail _ nofun

/-- Looking for a method of the superclass is silent. -/
protected theorem superMethod (id : NodeId) (method : String) (location : Location) :
    Silent (Run.superMethod setting id method location) := by
  refine bind (.noteUse id "super") fun use => reading (fun machine => ?_) fun _ _ => rfl
  dsimp only
  split
  · split
    · split
      · exact .boundMethod _ _
      · exact .fail _ nofun
    · exact .fail _ nofun
  · exact .fail _ nofun

/-! ### Declarations -/

/-- The declaration of a function is silent. -/
protected theorem declareFunction (decl : FunctionDecl) : Silent (Run.declareFunction decl) :=
  reading (fun _ => bind (.newFunction _) fun _ => .define _ _ _) fun _ _ => rfl

/-- The declaration of a native function is silent. -/
protected theorem declareNative (moduleName name : String) (arity : Nat) (location : Location) :
    Silent (Run.declareNative setting moduleName name arity location) := by
  refine bind (.moduleNamed _ _) fun found => ?_
  dsimp only
  split
  · exact .define _ _ _
  · exact .fail _ nofun

/-- The declaration of a module is silent. -/
protected theorem declareModule (name : String) (location : Location) :
    Silent (Run.declareModule setting name location) :=
  bind (.moduleNamed _ _) fun _ => .define _ _ _

/-- Looking for a superclass is silent. -/
protected theorem superclassOf (className : String) (reference : SuperclassRef) :
    Silent (Run.superclassOf setting className reference) := by
  refine bind (.lookup _ _ _) fun value => ?_
  split
  · refine bind (.inspect _) fun object => ?_
    split
    · split
      · exact .fail _ nofun
      · exact .pure _
    · exact .fail _ nofun
  · exact .fail _ nofun

/-- Looking for the superclass of a declaration is silent. -/
protected theorem declaredSuperclass (decl : ClassDecl) :
    Silent (Run.declaredSuperclass setting decl) := by
  unfold Run.declaredSuperclass
  split
  · exact bind (.superclassOf _ _) fun _ => .pure _
  · exact .pure _

/-- Making the scope that a class closes over is silent. -/
protected theorem classClosure (decl : ClassDecl) (superclass : Option ClassRef) :
    Silent (Run.classClosure decl superclass) := by
  refine reading (fun machine => ?_) fun _ _ => rfl
  dsimp only
  split
  · exact .newScope _ _ _
  · exact .pure _

/-- What a class builds on is not final. -/
theorem heritable_declaredSuperclass (decl : ClassDecl) :
    Leads reclassing (fun _ => True) (Run.declaredSuperclass setting decl)
      fun superclass machine => machine.store.Heritable superclass := by
  unfold Run.declaredSuperclass
  split
  · refine .through (fun ref machine => machine.store.Heritable (some ref)) ?_
      fun ref => .pure fun _ heritable => heritable
    refine Leads.bind (Silent.lookup _ _ _).classes fun value => ?_
    split
    · refine Leads.bind (.inspect _) fun object => ?_
      split
      · split
        · exact .fail _ _
        · rename_i parent open_
          refine .pure fun machine found ref same => ?_
          cases same
          exact ⟨parent, found.1.symm, eq_false_of_ne_true open_⟩
      · exact .fail _ _
    · exact .fail _ _
  · exact .pure fun _ _ => nofun

/-- A class is declared on top of one that is not final, with the methods listed. -/
protected theorem declareClass (decl : ClassDecl) : Silent (Run.declareClass setting decl) := by
  refine ⟨(Silent.declaredSuperclass decl).toBlind.bind fun superclass =>
    (Silent.classClosure decl superclass).toBlind.bind fun closure =>
      (Silent.inspect _).toBlind.bind fun owner => (Blind.create _).bind fun ref =>
        (Silent.define _ _ _).toBlind, ?_⟩
  refine (heritable_declaredSuperclass decl).bind fun superclass =>
    .through (fun _ machine => machine.store.Heritable superclass) ?_ fun closure => ?_
  · intro machine heritable
    cases superclass with
    | some ref => exact ⟨.single (.same rfl), heritable⟩
    | none => exact ⟨.refl, heritable⟩
  · intro machine heritable
    exact ⟨.single (.declares heritable rfl rfl), trivial⟩

/-- An extension adds to a class that is not final. -/
protected theorem declareExtension (id : NodeId) (className : String) (decl : FunctionDecl)
    (location : Location) :
    Silent (Run.declareExtension setting id className decl location) := by
  have classes : Leads reclassing (fun _ => True)
      (Run.declareExtension setting id className decl location) fun _ _ => True := by
    refine Leads.bind (Silent.lookup _ _ _).classes fun value => ?_
    split
    · refine Leads.bind (.inspect _) fun object => ?_
      split
      · split
        · exact .fail _ _
        · rename_i open_
          intro machine found
          exact ⟨.single (.extended found.1.symm (eq_false_of_ne_true open_) rfl), trivial⟩
      · exact .fail _ _
    · exact .fail _ _
  refine ⟨(Silent.lookup _ _ _).toBlind.bind fun value => ?_, classes⟩
  split
  · refine (Silent.inspect _).toBlind.bind fun object => ?_
    split
    · split
      · exact Silent.toBlind (.fail _ nofun)
      · exact .reading (fun _ => .change _) fun _ _ => rfl
    · exact Silent.toBlind (.fail _ nofun)
  · exact Silent.toBlind (.fail _ nofun)

end Silent

end Run

end Scriptlet
