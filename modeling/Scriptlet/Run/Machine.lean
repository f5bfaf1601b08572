import Scriptlet.Resolution.Basic
import Scriptlet.Value.Operation

/-!
# The machine

A run changes a machine: the store, the scope it stands in, the classes whose code is active, how
deep calls and initialisers nest, the names and fields used and the expressions evaluated so far,
and what was printed and tested. What does not change during a run is its setting. What a run has
done stays done when it stops with a fault.
-/

namespace Scriptlet

/-- What a host can set. -/
structure Options where
  maxCallDepth : Nat
  permitAmbiguous : Bool
  deriving DecidableEq, Repr

/-- A thousand nested calls, and no ambiguous native call. -/
def Options.standard : Options := ⟨1000, false⟩

/-- What stays the same during a run. -/
structure Setting where
  resolutions : Resolutions
  modules : Table ModuleRef
  globals : ScopeRef
  options : Options

/-- The outcome of a test. -/
structure TestOutcome where
  name : String
  passed : Bool
  deriving DecidableEq, Repr

/-- A name that was used: by which node, and in which scope. -/
structure Use where
  id : NodeId
  name : String
  env : ScopeRef

/-- How a field was used. -/
inductive FieldUseKind where
  | read
  | assigned
  | declared
  deriving DecidableEq, Repr

/-- A field of an object that was used: how, with the slot the use left, in which scope, and
as code of which class. -/
structure FieldUse where
  object : ObjectRef
  name : String
  slot : FieldSlot
  kind : FieldUseKind
  env : ScopeRef
  owner : Option ClassRef

/-- Why a run stopped: a fault, the bound on its depth, or the bound on the rounds of a
loop. -/
inductive RunStop where
  | fault (fault : Located RuntimeFault)
  | exhausted
  | endless

/-- An expression that was evaluated: where it began, as code of which classes, how deep
in calls, what the classes were then, and how it ended. -/
structure Evaluation where
  expr : Expr
  env : ScopeRef
  owners : List (Option ClassRef)
  callDepth : Nat
  classes : Array ClassObject
  outcome : Except RunStop Value

/-- The state of a run. The owner of the innermost active code comes first, and so do the
latest of the names used, of the fields used and of the expressions evaluated. How deep
field initialisers nested is noted at its highest. -/
structure Machine where
  store : Store
  env : ScopeRef
  owners : List (Option ClassRef)
  callDepth : Nat
  initDepth : Nat
  uses : List Use
  fieldUses : List FieldUse
  evaluations : List Evaluation
  output : Array String
  tests : Array TestOutcome

/-- A step of a run. -/
abbrev Run := EStateM RunStop Machine

/-- How a statement ends. -/
inductive Completion where
  | normal
  | breaking
  | continuing
  | returning (value : Value)

/-- The jump a statement ended with. -/
def Completion.jump? : Completion → Option Jump
  | .normal => none
  | .breaking => some .breaking
  | .continuing => some .continuing
  | .returning _ => some .returning

namespace Machine

/-- The machine before a run. -/
def start (store : Store) (globals : ScopeRef) : Machine where
  store := store
  env := globals
  owners := []
  callDepth := 0
  initDepth := 0
  uses := []
  fieldUses := []
  evaluations := []
  output := #[]
  tests := #[]

/-- The class whose code is running. -/
def owner (machine : Machine) : Option ClassRef :=
  match machine.owners with
  | owner :: _ => owner
  | [] => none

/-- Notes an expression that was evaluated. -/
def note (machine : Machine) (evaluation : Evaluation) : Machine :=
  { machine with evaluations := evaluation :: machine.evaluations }

end Machine

/-- The class whose code an evaluated expression is. -/
def Evaluation.owner (evaluation : Evaluation) : Option ClassRef :=
  match evaluation.owners with
  | owner :: _ => owner
  | [] => none

namespace Run

/-- Stops with a fault. -/
def fail {α : Type} (fault : RuntimeFault) (location : Location) : Run α :=
  throw (.fault ⟨fault, location⟩)

/-- Stops because the bound on the depth is reached. -/
def exhausted {α : Type} : Run α :=
  throw .exhausted

/-- Stops because the bound on the rounds of a loop is reached. -/
def endless {α : Type} : Run α :=
  throw .endless

/-- Stops with the fault of an operation, at a location. -/
@[inline] def orFail {α : Type} (result : Except RuntimeFault α) (location : Location) :
    Run α :=
  match result with
  | .ok value => pure value
  | .error fault => fail fault location

/-- Looks at the store. -/
@[inline] def inspect {α : Type} (look : Store → α) : Run α :=
  return look (← get).store

/-- Changes the store. -/
@[inline] def change (update : Store → Store) : Run Unit :=
  modify fun machine => { machine with store := update machine.store }

/-- Makes something new in the store. -/
@[inline] def create {α : Type} (make : Store → α × Store) : Run α :=
  modifyGet fun machine =>
    let ⟨store, env, owners, callDepth, initDepth, uses, fieldUses, evaluations, output, tests⟩ :=
      machine
    let (ref, store) := make store
    (ref,
      ⟨store, env, owners, callDepth, initDepth, uses, fieldUses, evaluations, output, tests⟩)

/-- Runs a step in another scope and comes back on every path. -/
@[inline] def inScope {α : Type} (scope : ScopeRef) (step : Run α) : Run α :=
  fun machine =>
    let env := machine.env
    match step { machine with env := scope } with
    | .ok result machine => .ok result { machine with env := env }
    | .error stop machine => .error stop { machine with env := env }

/-- Runs a step as code of a class, or of none. -/
@[inline] def asOwner {α : Type} (owner : Option ClassRef) (step : Run α) : Run α :=
  fun machine =>
    match step { machine with owners := owner :: machine.owners } with
    | .ok result machine => .ok result { machine with owners := machine.owners.tail }
    | .error stop machine => .error stop { machine with owners := machine.owners.tail }

/-- Runs a step one call deeper. -/
@[inline] def inCall {α : Type} (step : Run α) : Run α :=
  fun machine =>
    match step { machine with callDepth := machine.callDepth + 1 } with
    | .ok result machine => .ok result { machine with callDepth := machine.callDepth - 1 }
    | .error stop machine => .error stop { machine with callDepth := machine.callDepth - 1 }

/-- Evaluates an expression and notes how it ended, on every path. -/
def noting (expr : Expr) (step : Run Value) : Run Value :=
  fun machine =>
    let env := machine.env
    let owners := machine.owners
    let callDepth := machine.callDepth
    let classes := machine.store.classes
    match step machine with
    | .ok value machine =>
      .ok value (machine.note ⟨expr, env, owners, callDepth, classes, .ok value⟩)
    | .error stop machine =>
      .error stop (machine.note ⟨expr, env, owners, callDepth, classes, .error stop⟩)

/-- Runs a step in a new scope inside of another one. -/
def within {α : Type} (enclosing : ScopeRef) (tag : ScopeTag) (bindings : Table Binding)
    (step : Run α) : Run α := do
  let scope ← create (·.newScope (some enclosing) tag bindings)
  inScope scope step

/-- Binds a name in the current scope. -/
def define (name : String) (value : Value) (isFinal : Bool) : Run Unit :=
  modify fun machine =>
    { machine with store := machine.store.define machine.env name value isFinal }

/-- Values of some expressions, from left to right. -/
def valuesOf (evaluate : Expr → Run Value) : List Expr → Run (List Value)
  | [] => return []
  | expr :: rest => do
    let value ← evaluate expr
    let values ← valuesOf evaluate rest
    return value :: values

/-- The value of an expression that may be left out. -/
def valueOrNil (evaluate : Expr → Run Value) : Option Expr → Run Value
  | some expr => evaluate expr
  | none => return .nil

/-- How many rounds a loop without a count may take. -/
def roundBound : Nat := Nat.pow 2 60

/-- Repeats a step until it ends the loop. -/
def untilDone (step : Run (Option Completion)) : Nat → Run Completion
  | 0 => endless
  | bound + 1 => do
    match ← step with
    | some completion => return completion
    | none => untilDone step bound

/-- Repeats a step a number of times, or until it ends the loop. -/
def times (step : Run (Option Completion)) : Nat → Run Completion
  | 0 => return .normal
  | count + 1 => do
    match ← step with
    | some completion => return completion
    | none => times step count

/-- What a loop makes of the end of its body: a break ends the loop, a return goes
on outwards. -/
def afterBody : Completion → Option Completion
  | .breaking => some .normal
  | .returning value => some (.returning value)
  | .normal | .continuing => none

end Run

end Scriptlet
