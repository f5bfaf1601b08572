import Scriptlet.Run.Machine

/-!
# Properties

Objects have fields and methods, native modules have functions, arrays and strings
have a length. A method read from an object remembers the object.
-/

namespace Scriptlet.Run

/-- The name of the property that counts elements and characters. -/
def lengthName : String := "length"

/-- The function a method is once it has its receiver, in a scope of its own around
its closure. -/
def bindMethod (method : MethodObject) (receiver : Value) : Run FunctionObject := do
  let scope ← create
    (·.newScope (some method.closure) method.receiver [("this", ⟨receiver, true⟩)])
  return ⟨method.decl, scope, method.owner⟩

/-- The value of a method that has its receiver. -/
def boundMethod (method : MethodObject) (receiver : Value) : Run Value := do
  let function ← bindMethod method receiver
  return .function (← create (·.newFunction function))

/-- Refuses access to a private field from outside of the class that owns it. -/
def checkAccess (slot : FieldSlot) (name : String) (location : Location) : Run Unit := do
  if slot.visibility = .ownClass && (← get).owner != some slot.owner then
    fail (.privateAccess name) location

/-- Notes that a field of an object is used, and what the use leaves. -/
def noteField (object : ObjectRef) (name : String) (slot : FieldSlot) (kind : FieldUseKind) :
    Run Unit :=
  modify fun machine =>
    { machine with
      fieldUses := ⟨object, name, slot, kind, machine.env, machine.owner⟩ :: machine.fieldUses }

/-- Sets a field of an object and notes that it does. -/
def writeField (object : ObjectRef) (name : String) (slot : FieldSlot) (kind : FieldUseKind) :
    Run Unit := do
  change (·.putField object name slot)
  noteField object name slot kind

/-- A property of an object: a field, or else a method of its class. -/
def objectProperty (ref : ObjectRef) (name : String) (location : Location) : Run Value := do
  let store := (← get).store
  match store.field? ref name with
  | some slot =>
    checkAccess slot name location
    noteField ref name slot .read
    return slot.value
  | none =>
    match (store.object? ref).bind fun object => store.method? object.ofClass name with
    | some method => boundMethod method (.object ref)
    | none => fail (.undefinedProperty name) location

/-- A function of a native module, by name. -/
def moduleProperty (ref : ModuleRef) (name : String) (location : Location) : Run Value := do
  match ← inspect (·.module? ref) with
  | some native =>
    if native.hasFunction name then return .native ⟨native.name, name, none⟩
    else fail (.unknownNativeFunction native.name name) location
  | none => fail (.undefinedProperty name) location

/-- A property of a value. -/
def property (target : Value) (name : String) (location : Location) : Run Value := do
  match target with
  | .object ref => objectProperty ref name location
  | .moduleValue ref => moduleProperty ref name location
  | .array ref =>
    if name = lengthName then
      return .number (Number.ofLength (← inspect (·.elements ref)).size)
    else fail (.propertyOnNonObject name target.type) location
  | .string value =>
    if name = lengthName then return .number (Number.ofLength value.length)
    else fail (.propertyOnNonObject name target.type) location
  | _ => fail (.propertyOnNonObject name target.type) location

/-- Sets a field of an object. A final field takes one value; a new name becomes a
field that everyone may use. -/
def setField (ref : ObjectRef) (object : Instance) (name : String) (value : Value)
    (location : Location) : Run Unit := do
  match object.fields.find? name with
  | some slot =>
    checkAccess slot name location
    if slot.isFinal && slot.assigned then fail (.finalFieldReassignment name) location
    else writeField ref name { slot with value := value, assigned := true } .assigned
  | none => writeField ref name ⟨value, .everyone, false, true, object.ofClass⟩ .assigned

/-- Sets a property of a value. -/
def setProperty (target : Value) (name : String) (value : Value) (location : Location) :
    Run Unit := do
  match target with
  | .object ref =>
    match ← inspect (·.object? ref) with
    | some object => setField ref object name value location
    | none => fail (.undefinedProperty name) location
  | _ => fail (.propertyOnNonObject name target.type) location

end Scriptlet.Run
