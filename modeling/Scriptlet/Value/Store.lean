import Scriptlet.Tree.Statement
import Scriptlet.Value.Native

/-!
# The store

Arrays, scopes, functions, classes, objects and native modules live in a store.
Nothing is ever removed, so a reference stays good, and a new thing has a larger
number than everything made before it.
-/

namespace Scriptlet

/-- A bound name. -/
structure Binding where
  value : Value
  isFinal : Bool

/-- A scope: its own names, and the scope around it. -/
structure Scope where
  bindings : Table Binding
  enclosing : Option ScopeRef
  tag : ScopeTag

/-- Why a name cannot be assigned to. -/
inductive BindingFault where
  | undefined
  | final
  deriving DecidableEq, Repr

/-- A declared function with the scope it closes over and the class whose private
fields it may touch. -/
structure FunctionObject where
  decl : FunctionDecl
  closure : ScopeRef
  owner : Option ClassRef

/-- A method waits for its receiver, which will be bound in a scope with this tag
around its closure. -/
structure MethodObject where
  decl : FunctionDecl
  closure : ScopeRef
  owner : Option ClassRef
  receiver : ScopeTag

/-- A class made from its declaration. -/
structure ClassObject where
  decl : ClassDecl
  superclass : Option ClassRef
  methods : Table MethodObject
  closure : ScopeRef

/-- A field of an object. -/
structure FieldSlot where
  value : Value
  visibility : Visibility
  isFinal : Bool
  assigned : Bool
  owner : ClassRef

/-- An instance of a class. -/
structure Instance where
  ofClass : ClassRef
  fields : Table FieldSlot

/-- Everything values refer to, and what the classes were before each change of them, the
latest first. -/
structure Store where
  arrays : Array (Array Value)
  scopes : Array Scope
  functions : Array FunctionObject
  classes : Array ClassObject
  formerClasses : List (Array ClassObject)
  objects : Array Instance
  modules : Array NativeModule

namespace Store

/-- The store that holds nothing. -/
def empty : Store := ⟨#[], #[], #[], #[], [], #[], #[]⟩

/-! ### Arrays -/

/-- Makes an array. -/
def newArray (store : Store) (elements : Array Value) : ArrayRef × Store :=
  (⟨store.arrays.size⟩, { store with arrays := store.arrays.push elements })

/-- The elements of an array. -/
def elements (store : Store) (ref : ArrayRef) : Array Value :=
  (store.arrays[ref.index]?).getD #[]

/-- Sets an element of an array. -/
def setElement (store : Store) (ref : ArrayRef) (index : Nat) (value : Value) : Store :=
  { store with arrays := store.arrays.modify ref.index (·.setIfInBounds index value) }

/-- Adds an element to the end of an array. -/
def pushElement (store : Store) (ref : ArrayRef) (value : Value) : Store :=
  { store with arrays := store.arrays.modify ref.index (·.push value) }

/-! ### Scopes -/

/-- Makes a scope. -/
def newScope (store : Store) (enclosing : Option ScopeRef) (tag : ScopeTag)
    (bindings : Table Binding) : ScopeRef × Store :=
  (⟨store.scopes.size⟩, { store with scopes := store.scopes.push ⟨bindings, enclosing, tag⟩ })

/-- The scope behind a reference. -/
def scope? (store : Store) (ref : ScopeRef) : Option Scope :=
  store.scopes[ref.index]?

/-- The names of one scope. -/
def bindingsOf (store : Store) (ref : ScopeRef) : Table Binding :=
  match store.scope? ref with
  | some scope => scope.bindings
  | none => []

/-- Binds a name in a scope, whatever it was bound to. -/
def define (store : Store) (ref : ScopeRef) (name : String) (value : Value) (isFinal : Bool) :
    Store :=
  { store with
    scopes := store.scopes.modify ref.index fun scope =>
      { scope with bindings := scope.bindings.put name ⟨value, isFinal⟩ } }

/-- The scope a number of steps out. -/
def ancestor? (store : Store) (ref : ScopeRef) : Nat → Option ScopeRef
  | 0 => some ref
  | distance + 1 =>
    match store.scope? ref with
    | some scope =>
      match scope.enclosing with
      | some enclosing => store.ancestor? enclosing distance
      | none => none
    | none => none

/-- The value of a name in exactly one scope. -/
def valueIn? (store : Store) (ref : ScopeRef) (name : String) : Option Value :=
  match (store.bindingsOf ref).find? name with
  | some binding => some binding.value
  | none => none

/-- The value of a name in the scope a number of steps out. -/
def valueAt? (store : Store) (ref : ScopeRef) (distance : Nat) (name : String) :
    Option Value :=
  match store.ancestor? ref distance with
  | some scope => store.valueIn? scope name
  | none => none

/-- Refuses an assignment to a name that one scope does not bind, or binds for
good. -/
def checkAssign (store : Store) (ref : ScopeRef) (name : String) : Except BindingFault Unit :=
  match (store.bindingsOf ref).find? name with
  | some binding => if binding.isFinal then .error .final else .ok ()
  | none => .error .undefined

/-- The scope a number of steps out, if a name there may be assigned to. -/
def assignTargetAt (store : Store) (ref : ScopeRef) (distance : Nat) (name : String) :
    Except BindingFault ScopeRef :=
  match store.ancestor? ref distance with
  | some scope => (store.checkAssign scope name).map fun _ => scope
  | none => .error .undefined

/-- Assigns to a name of the scope a number of steps out. -/
def assignAt (store : Store) (ref : ScopeRef) (distance : Nat) (name : String)
    (value : Value) : Except BindingFault Store :=
  (store.assignTargetAt ref distance name).map fun scope => store.define scope name value false

/-- The scope around another one. A scope is made after the one around it, which
bounds the walk outwards. -/
def enclosing? (store : Store) (ref : ScopeRef) : Option ScopeRef :=
  match store.scope? ref with
  | some scope => scope.enclosing.filter fun enclosing => enclosing.index < ref.index
  | none => none

/-- A scope is made after the one around it. -/
theorem enclosing?_index_lt {store : Store} {ref enclosing : ScopeRef}
    (outward : store.enclosing? ref = some enclosing) : enclosing.index < ref.index := by
  unfold enclosing? at outward
  split at outward
  · simpa using (Option.filter_eq_some_iff.1 outward).2
  · simp at outward

/-- The nearest scope that binds a name, from a scope outwards. -/
def binder? (store : Store) (ref : ScopeRef) (name : String) : Option ScopeRef :=
  if (store.bindingsOf ref).contains name then some ref
  else
    match _outward : store.enclosing? ref with
    | some enclosing => store.binder? enclosing name
    | none => none
termination_by ref.index
decreasing_by exact enclosing?_index_lt _outward

/-- The value of a name, from a scope outwards. -/
def value? (store : Store) (ref : ScopeRef) (name : String) : Option Value :=
  match store.binder? ref name with
  | some scope => store.valueIn? scope name
  | none => none

/-- The nearest scope that binds a name, from a scope outwards, if the name may be
assigned to. -/
def assignTarget (store : Store) (ref : ScopeRef) (name : String) :
    Except BindingFault ScopeRef :=
  match store.binder? ref name with
  | some scope => (store.checkAssign scope name).map fun _ => scope
  | none => .error .undefined

/-- Assigns to the nearest binding of a name, from a scope outwards. -/
def assign (store : Store) (ref : ScopeRef) (name : String) (value : Value) :
    Except BindingFault Store :=
  (store.assignTarget ref name).map fun scope => store.define scope name value false

/-! ### Functions and classes -/

/-- Makes a function. -/
def newFunction (store : Store) (function : FunctionObject) : FunctionRef × Store :=
  (⟨store.functions.size⟩, { store with functions := store.functions.push function })

/-- The function behind a reference. -/
def function? (store : Store) (ref : FunctionRef) : Option FunctionObject :=
  store.functions[ref.index]?

/-- Makes a class. -/
def newClass (store : Store) (object : ClassObject) : ClassRef × Store :=
  (⟨store.classes.size⟩,
    { store with
      classes := store.classes.push object
      formerClasses := store.classes :: store.formerClasses })

/-- The class behind a reference. -/
def class? (store : Store) (ref : ClassRef) : Option ClassObject :=
  store.classes[ref.index]?

/-- The class a class builds on. It was made before, which bounds the walk
upwards. -/
def superclass? (store : Store) (ref : ClassRef) : Option ClassRef :=
  match store.class? ref with
  | some object => object.superclass.filter fun superclass => superclass.index < ref.index
  | none => none

/-- A class is made after the one it builds on. -/
theorem superclass?_index_lt {store : Store} {ref superclass : ClassRef}
    (upward : store.superclass? ref = some superclass) : superclass.index < ref.index := by
  unfold superclass? at upward
  split at upward
  · simpa using (Option.filter_eq_some_iff.1 upward).2
  · simp at upward

/-- A class and the classes it builds on, nearest first. -/
def lineage (store : Store) (ref : ClassRef) : List ClassRef :=
  ref ::
    match _upward : store.superclass? ref with
    | some superclass => store.lineage superclass
    | none => []
termination_by ref.index
decreasing_by exact superclass?_index_lt _upward

/-- The method in a class's own table. -/
def ownMethod? (store : Store) (name : String) (ref : ClassRef) : Option MethodObject :=
  match store.class? ref with
  | some object => object.methods.find? name
  | none => none

/-- The method of a class: the entry of the nearest class that has the name. -/
def method? (store : Store) (ref : ClassRef) (name : String) : Option MethodObject :=
  (store.lineage ref).findSome? (store.ownMethod? name)

/-- A method of a class stands in the table of some class. -/
theorem exists_of_method? {store : Store} {ref : ClassRef} {name : String} {method : MethodObject}
    (found : store.method? ref name = some method) :
    ∃ owner object, store.class? owner = some object ∧ object.methods.find? name = some method := by
  obtain ⟨owner, _, own⟩ := List.exists_of_findSome?_eq_some found
  unfold ownMethod? at own
  split at own
  · rename_i object held
    exact ⟨owner, object, held, own⟩
  · cases own

/-- Sets a method in a class's own table. -/
def addMethod (store : Store) (ref : ClassRef) (name : String) (method : MethodObject) : Store :=
  { store with
    classes := store.classes.modify ref.index fun object =>
      { object with methods := object.methods.put name method }
    formerClasses := store.classes :: store.formerClasses }

/-- The name of a class. -/
def className (store : Store) (ref : ClassRef) : String :=
  match store.class? ref with
  | some object => object.decl.name
  | none => ""

/-! ### Objects -/

/-- Makes an object without fields. -/
def newObject (store : Store) (ofClass : ClassRef) : ObjectRef × Store :=
  (⟨store.objects.size⟩, { store with objects := store.objects.push ⟨ofClass, []⟩ })

/-- The object behind a reference. -/
def object? (store : Store) (ref : ObjectRef) : Option Instance :=
  store.objects[ref.index]?

/-- A field of an object. -/
def field? (store : Store) (ref : ObjectRef) (name : String) : Option FieldSlot :=
  match store.object? ref with
  | some object => object.fields.find? name
  | none => none

/-- Sets a field of an object. -/
def putField (store : Store) (ref : ObjectRef) (name : String) (slot : FieldSlot) : Store :=
  { store with
    objects := store.objects.modify ref.index fun object =>
      { object with fields := object.fields.put name slot } }

/-! ### Native modules -/

/-- Takes in a native module. -/
def newModule (store : Store) (native : NativeModule) : ModuleRef × Store :=
  (⟨store.modules.size⟩, { store with modules := store.modules.push native })

/-- The native module behind a reference. -/
def module? (store : Store) (ref : ModuleRef) : Option NativeModule :=
  store.modules[ref.index]?

end Store

end Scriptlet
