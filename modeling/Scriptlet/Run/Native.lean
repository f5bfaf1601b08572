import Scriptlet.Run.Machine

/-!
# Calls of native functions

A native function is found by the names of its module and its own. The overload
that fits the arguments best is counted and performed.
-/

namespace Scriptlet

namespace Store

/-- Performs an action of the host on arguments. The action has been called
`calls` times, this time included. -/
def perform (store : Store) (action : HostAction) (calls : Nat) (arguments : List Value) :
    Except String (Value × Store) :=
  match action, arguments with
  | .joinTexts, _ => .ok (.string ("|".intercalate (arguments.map store.text)), store)
  | .joinTypes, _ => .ok (.string (",".intercalate (arguments.map (·.type.name))), store)
  | .collect, _ =>
    let (ref, store) := store.newArray arguments.toArray
    .ok (.array ref, store)
  | .countCalls, _ => .ok (.number (Number.ofLength calls), store)
  | .append, .array ref :: value :: _ => .ok (.nil, store.pushElement ref value)
  | .append, _ => .ok (.nil, store)
  | .answer value, _ => .ok (value, store)
  | .argument index, _ =>
    match arguments[index]? with
    | some value => .ok (value, store)
    | none => .error "no such argument"
  | .field name, .object ref :: _ =>
    match store.field? ref name with
    | some slot => .ok (slot.value, store)
    | none => .error "no such field"
  | .field _, _ => .error "no such field"
  | .fail message, _ => .error message

/-- Counts a call of an overload. -/
def countCall (store : Store) (ref : ModuleRef) (name : String) (place : Nat) : Store :=
  { store with modules := store.modules.modify ref.index (·.countCall name place) }

/-- Counts a call of the overload at a place and performs it. The count stays also
when the overload fails. -/
def invoke (store : Store) (ref : ModuleRef) (name : String) (place : Nat)
    (arguments : List Value) : Except String Value × Store :=
  let store := store.countCall ref name place
  match (store.module? ref).bind (·.overload? name place) with
  | some overload =>
    match store.perform overload.action overload.calls arguments with
    | .ok (value, store) => (.ok value, store)
    | .error message => (.error message, store)
  | none => (.error "", store)

end Store

/-- The fault of a native call that finds no overload. -/
def OverloadFault.runtimeFault (moduleName name : String) : OverloadFault → RuntimeFault
  | unknownFunction => .unknownNativeFunction moduleName name
  | noMatch => .noMatchingOverload moduleName name
  | ambiguous candidates => .ambiguousOverload moduleName name candidates

namespace Run

/-- The registered module of a name. -/
def moduleNamed (setting : Setting) (name : String) (location : Location) :
    Run (ModuleRef × NativeModule) := do
  match setting.modules.find? name with
  | some ref =>
    match ← inspect (·.module? ref) with
    | some native => return (ref, native)
    | none => fail (.unknownModule name) location
  | none => fail (.unknownModule name) location

/-- Calls a native function. -/
def callNative (setting : Setting) (binding : NativeBinding) (arguments : List Value)
    (location : Location) : Run Value := do
  let fits :=
    match binding.arity with
    | some arity => arity = arguments.length
    | none => true
  if !fits then
    fail (.arityMismatch (binding.arity.getD 0) arguments.length) location
  else
    let (ref, native) ← moduleNamed setting binding.moduleName location
    match native.select binding.name arguments setting.options.permitAmbiguous with
    | .error fault => fail (fault.runtimeFault binding.moduleName binding.name) location
    | .ok selection =>
      match ← create (·.invoke ref binding.name selection.place arguments) with
      | .ok value => return value
      | .error message =>
        fail (.nativeFailure binding.moduleName binding.name message) location

/-- Declares a native function with the number of its arguments. -/
def declareNative (setting : Setting) (moduleName name : String) (arity : Nat)
    (location : Location) : Run Unit := do
  let (_, native) ← moduleNamed setting moduleName location
  if native.hasFunction name then
    define name (.native ⟨moduleName, name, some arity⟩) false
  else fail (.unknownNativeFunction moduleName name) location

/-- Declares a native module under its registered name. -/
def declareModule (setting : Setting) (name : String) (location : Location) : Run Unit := do
  let (ref, _) ← moduleNamed setting name location
  define name (.moduleValue ref) false

end Run

end Scriptlet
