import Scriptlet.Run.Name
import Scriptlet.Run.Native
import Scriptlet.Run.Property

/-!
# Calls, classes and instances

A call runs the body of a function in a new scope around its closure, as code of
the class that owns the function. Making an instance runs the field initialisers
of the whole lineage, root first, and then the constructor.
-/

namespace Scriptlet.Run

/-- The parameters of a function bound to its arguments. -/
def bindParams (params : List Parameter) (arguments : List Value) : Table Binding :=
  (params.zip arguments).foldl
    (fun bindings (param, argument) => bindings.put param.name ⟨argument, false⟩) []

/-- What a call answers for the end of the body. -/
def callResult (function : FunctionObject) (completion : Completion) (location : Location) :
    Run Value := do
  let result (value : Value) : Run Value := do
    if function.decl.kind = .constructor then
      return ((← inspect (·.valueIn? function.closure "this"))).getD .nil
    else return value
  match completion with
  | .normal => result .nil
  | .returning value => result value
  | .breaking => fail (.illegalControlFlow .breaking) location
  | .continuing => fail (.illegalControlFlow .continuing) location

/-- Calls a function: as many arguments as parameters, and not deeper than the
limit. -/
def callFunction (setting : Setting) (runBody : List Statement → Run Completion)
    (function : FunctionObject) (arguments : List Value) (location : Location) : Run Value := do
  let arity := function.decl.params.length
  if arguments.length ≠ arity then
    fail (.arityMismatch arity arguments.length) location
  else if setting.options.maxCallDepth ≤ (← get).callDepth then
    fail (.callDepthExceeded setting.options.maxCallDepth) location
  else
    let completion ← asOwner function.owner <| inCall <|
      within function.closure (.body function.decl) (bindParams function.decl.params arguments)
        (runBody function.decl.body)
    callResult function completion location

/-- Declares a function in the current scope, as code of the current class. -/
def declareFunction (decl : FunctionDecl) : Run Unit := do
  let machine ← get
  let ref ← create (·.newFunction ⟨decl, machine.env, machine.owner⟩)
  define decl.name (.function ref) decl.isFinal

/-- The class a class declaration builds on. -/
def superclassOf (setting : Setting) (className : String) (reference : SuperclassRef) :
    Run ClassRef := do
  match ← lookup setting reference.id reference.name reference.location with
  | .classValue ref =>
    match ← inspect (·.class? ref) with
    | some superclass =>
      if superclass.decl.isFinal then
        fail (.finalInheritance className superclass.decl.name) reference.location
      else return ref
    | none => fail (.superclassNotClass reference.name) reference.location
  | _ => fail (.superclassNotClass reference.name) reference.location

/-- The methods of a class. Of two methods of one name the later counts. -/
def classMethods (decl : ClassDecl) (owner : ClassRef) (closure : ScopeRef) :
    Table MethodObject :=
  decl.methods.foldl
    (fun table method => table.put method.name ⟨method, closure, some owner, .thisOf decl⟩) []

/-- The class a class declaration builds on, if it names one. -/
def declaredSuperclass (setting : Setting) (decl : ClassDecl) : Run (Option ClassRef) := do
  match decl.superclass with
  | some reference => return some (← superclassOf setting decl.name reference)
  | none => return none

/-- The scope the code of a class closes over: one that holds the superclass, if there
is one. -/
def classClosure (decl : ClassDecl) (superclass : Option ClassRef) : Run ScopeRef := do
  let env := (← get).env
  match superclass with
  | some ref =>
    create (·.newScope (some env) (.superOf decl) [("super", ⟨.classValue ref, true⟩)])
  | none => return env

/-- Declares a class. -/
def declareClass (setting : Setting) (decl : ClassDecl) : Run Unit := do
  let superclass ← declaredSuperclass setting decl
  let closure ← classClosure decl superclass
  let owner ← inspect fun store => (⟨store.classes.size⟩ : ClassRef)
  let ref ← create (·.newClass ⟨decl, superclass, classMethods decl owner closure, closure⟩)
  define decl.name (.classValue ref) decl.isFinal

/-- Adds a method to a class that is not final. The method is not code of the
class. -/
def declareExtension (setting : Setting) (id : NodeId) (className : String)
    (decl : FunctionDecl) (location : Location) : Run Unit := do
  match ← lookup setting id className location with
  | .classValue ref =>
    match ← inspect (·.class? ref) with
    | some object =>
      if object.decl.isFinal then fail (.finalExtension className) location
      else
        let env := (← get).env
        change (·.addMethod ref decl.name ⟨decl, env, none, .extensionThis id decl⟩)
    | none => fail (.notAClass className) location
  | _ => fail (.notAClass className) location

/-- A method of the superclass, bound to the current receiver. The receiver's scope
stands just inside the superclass's. -/
def superMethod (setting : Setting) (id : NodeId) (method : String) (location : Location) :
    Run Value := do
  let use ← noteUse id "super"
  let store := (← get).store
  match setting.resolutions.distance? id with
  | some (distance + 1) =>
    match store.valueAt? use.env (distance + 1) "super", store.valueAt? use.env distance "this" with
    | some (.classValue superclass), some receiver =>
      match store.method? superclass method with
      | some found => boundMethod found receiver
      | none => fail (.undefinedProperty method) location
    | _, _ => fail (.undefinedVariable "super") location
  | _ => fail (.undefinedVariable "super") location

/-- Gives an object the fields of one class, in the order of their declaration. -/
def initializeDeclared (evaluate : Expr → Run Value) (object : ObjectRef) (owner : ClassRef) :
    List FieldDecl → Run Unit
  | [] => return ()
  | field :: rest => do
    let value ← valueOrNil evaluate field.initial
    writeField object field.name
      ⟨value, field.visibility, field.isFinal, field.initial.isSome, owner⟩ .declared
    initializeDeclared evaluate object owner rest

/-- Notes how deep field initialisers nest: active code that is no call is one. -/
def noteInitializing : Run Unit :=
  modify fun machine =>
    { machine with
      initDepth := max machine.initDepth (machine.owners.length - machine.callDepth) }

/-- Gives an object the fields a class declares. Initial values are code of the class
and see the object as their receiver. -/
def initializeOwn (evaluate : Expr → Run Value) (object : ObjectRef) (owner : ClassRef) :
    Run Unit := do
  match ← inspect (·.class? owner) with
  | some { decl, closure, .. } =>
    if decl.fields.isEmpty then return ()
    else
      asOwner (some owner) do
        noteInitializing
        within closure (.thisOf decl) [("this", ⟨.object object, true⟩)]
          (initializeDeclared evaluate object owner decl.fields)
  | none => return ()

/-- Gives an object the fields of some classes. -/
def initializeFields (evaluate : Expr → Run Value) (object : ObjectRef) :
    List ClassRef → Run Unit
  | [] => return ()
  | owner :: rest => do
    initializeOwn evaluate object owner
    initializeFields evaluate object rest

/-- Makes an instance of a class. -/
def instantiate (setting : Setting) (evaluate : Expr → Run Value)
    (runBody : List Statement → Run Completion) (ofClass : ClassRef) (arguments : List Value)
    (location : Location) : Run Value := do
  let object ← create (·.newObject ofClass)
  initializeFields evaluate object (← inspect (·.lineage ofClass)).reverse
  match ← inspect (·.method? ofClass constructorName) with
  | some method =>
    let constructor ← bindMethod method (.object object)
    let _ ← callFunction setting runBody constructor arguments location
    return .object object
  | none =>
    if arguments.isEmpty then return .object object
    else fail (.arityMismatch 0 arguments.length) location

/-- Calls a value. -/
def call (setting : Setting) (evaluate : Expr → Run Value)
    (runBody : List Statement → Run Completion) (callee : Value) (arguments : List Value)
    (location : Location) : Run Value := do
  match callee with
  | .function ref =>
    match ← inspect (·.function? ref) with
    | some function => callFunction setting runBody function arguments location
    | none => fail (.notCallable callee.type) location
  | .classValue ref => instantiate setting evaluate runBody ref arguments location
  | .native binding => callNative setting binding arguments location
  | _ => fail (.notCallable callee.type) location

end Scriptlet.Run
