import Scriptlet.Resolution.Expression

/-!
# Static analysis of statements

A program that passes has its names resolved; `resolve` gives the recorded
distances or the first fault.
-/

namespace Scriptlet.Resolve

/-- Declares the parameters of a function. -/
def parameters : List Parameter → Resolve Unit
  | [] => return ()
  | ⟨name, location⟩ :: rest => do
    declare name .parameterKind false location
    define name
    parameters rest

/-- Refuses a jump out of a loop where there is none. -/
def checkInLoop (jump : Jump) (location : Location) : Resolve Unit := do
  if (← get).loopDepth = 0 then fail (.illegalControlFlow jump) location

/-- Refuses a return outside of functions and tests, and a value returned from a
constructor. -/
def checkReturn (hasValue : Bool) (location : Location) : Resolve Unit := do
  match (← get).body with
  | .none => fail (.illegalControlFlow .returning) location
  | .constructor => if hasValue then fail .returnFromConstructor location
  | _ => return ()

/-- Refuses a method that a known superclass marks final. -/
def checkOverride (facts : ClassFacts) (className : String) (method : FunctionDecl) :
    Resolve Unit := do
  if facts.hasFinalMethod method.name then
    fail (.finalOverride className method.name) method.location

/-- Refuses the methods that a known superclass marks final. -/
def checkOverrides (facts : ClassFacts) (className : String) : List FunctionDecl → Resolve Unit
  | [] => return ()
  | method :: rest => do
    checkOverride facts className method
    checkOverrides facts className rest

/-- What is known of the class a class declaration builds on. -/
def superclass (className : String) (reference : SuperclassRef) :
    Resolve (Option ClassFacts) := do
  if reference.name = className then fail (.selfInheritance className) reference.location
  else
    checkDeclared reference.name reference.location
    resolveName reference.id reference.name
    let facts := (← get).classOf? reference.name
    match facts with
    | some known =>
      if known.own.isFinal then
        fail (.finalInheritance className reference.name) reference.location
      else return facts
    | none => return none

/-- What is known of the class a class declaration builds on, if it names one. -/
def declaredSuperclass (decl : ClassDecl) : Resolve (Option ClassFacts) :=
  match decl.superclass with
  | some reference => superclass decl.name reference
  | none => return none

/-- Refuses methods that the class a class declaration builds on marks final, as far as
it is known. -/
def checkInherited (decl : ClassDecl) : Option ClassFacts → Resolve Unit
  | some facts => checkOverrides facts decl.name decl.methods
  | none => return ()

/-- Declares a class and returns its facts. -/
def classHead (decl : ClassDecl) : Resolve ClassFacts := do
  declare decl.name .classKind decl.isFinal decl.location
  define decl.name
  let known ← declaredSuperclass decl
  checkInherited decl known
  let number := (← get).nextClass
  modify fun analysis => { analysis with nextClass := number + 1 }
  let facts := ClassFacts.ofDecl decl number known
  adjust decl.name ({ · with classFacts := some facts })
  return facts

/-- Analyses a class body in the scopes a run gives it: one for the superclass, if
there is one, and one for the receiver. -/
def classScopes (decl : ClassDecl) (step : Resolve Unit) : Resolve Unit :=
  let receiver := inScope (.thisOf decl) do
    declareImplicit "this"
    step
  if decl.superclass.isSome then
    inScope (.superOf decl) do
      declareImplicit "super"
      receiver
  else receiver

/-- The class a method is added to from outside. -/
def extensionHead (id : NodeId) (className : String) (method : FunctionDecl)
    (location : Location) : Resolve Unit := do
  checkDeclared className location
  resolveName id className
  match (← get).classOf? className with
  | some facts =>
    if facts.own.isFinal then fail (.finalExtension className) location
    else checkOverride facts className method
  | none => return ()

/-- A value that may be left out. -/
def optional : Option Expr → Resolve Unit
  | some value => expression value
  | none => return ()

/-- The initial values of fields. -/
def fieldInitials : List FieldDecl → Resolve Unit
  | [] => return ()
  | field :: rest => do
    optional field.initial
    fieldInitials rest

/-- The body a method is. -/
def methodContext : FunctionKind → BodyContext
  | .constructor => .constructor
  | _ => .method

/-- A variable declaration. The name is declared before its initial value is
analysed and has its value after that. -/
def varDecl (name : String) (initial : Option Expr) (isFinal : Bool) (location : Location) :
    Resolve Unit := do
  declare name .varKind isFinal location
  match initial with
  | some value =>
    expression value
    let instanceOf := constructed? (← get) value
    adjust name ({ · with defined := true, instanceOf := instanceOf })
  | none => adjust name ({ · with defined := true, instanceOf := none })

mutual

/-- Analyses a statement. -/
def statement : Statement → Resolve Unit
  | .expression expr _ | .print expr _ => expression expr
  | .varDecl name initial isFinal location => varDecl name initial isFinal location
  | .block body location => inScope (.block body location) do
    hoist body
    statements body
  | .ifElse condition thenBranch none _ => do
    expression condition
    statement thenBranch
  | .ifElse condition thenBranch (some elseBranch) _ => do
    expression condition
    statement thenBranch
    statement elseBranch
  | .whileLoop condition body _ | .doWhile body condition _ | .repeatLoop condition body _ => do
    expression condition
    inLoop (statement body)
  | .function decl => do
    declare decl.name .funKind decl.isFinal decl.location
    define decl.name
    function .function decl
  | .classDecl decl => classDecl decl
  | .returning value location => do
    checkReturn value.isSome location
    optional value
  | .breaking location => checkInLoop .breaking location
  | .continuing location => checkInLoop .continuing location
  | .test _ body location => inBody .test <| inScope (.test body location) do
    hoist body
    statements body
  | .moduleDecl name location => do
    declare name .moduleKind false location
    define name
  | .nativeFunction _ name _ location => do
    declare name .funKind false location
    define name
  | .extension id className method location => do
    extensionHead id className method location
    inClass .root none <| inScope (.extensionThis id method) do
      declareImplicit "this"
      function .method method

/-- Analyses statements in order. -/
def statements : List Statement → Resolve Unit
  | [] => return ()
  | first :: rest => do
    statement first
    statements rest

/-- Analyses the body of a function in a scope that holds its parameters. -/
def function (context : BodyContext) : FunctionDecl → Resolve Unit
  | ⟨name, kind, params, body, isFinal, location⟩ =>
    inBody context <| deferred <|
      inScope (.body ⟨name, kind, params, body, isFinal, location⟩) do
        hoist body
        parameters params
        statements body

/-- Analyses methods in order. -/
def methods : List FunctionDecl → Resolve Unit
  | [] => return ()
  | first :: rest => do
    function (methodContext first.kind) first
    methods rest

/-- Analyses a class: its fields, then its methods. -/
def classDecl : ClassDecl → Resolve Unit
  | ⟨name, superclass, fields, classMethods, isFinal, location⟩ => do
    let decl : ClassDecl := ⟨name, superclass, fields, classMethods, isFinal, location⟩
    let facts ← classHead decl
    inClass (if superclass.isSome then .derived else .root) (some facts) <| deferred <|
      classScopes decl do
        fieldInitials fields
        methods classMethods

end

/-- Analyses a whole program. -/
def program (source : Program) : Resolve Unit := do
  hoist source
  statements source

end Scriptlet.Resolve

namespace Scriptlet

/-- The recorded distances of a program, or its first fault. -/
def resolve (program : Program) : Except (Located ResolveFault) Resolutions :=
  match Resolve.program program Analysis.start with
  | .ok _ analysis => .ok analysis.resolutions
  | .error fault _ => .error fault

end Scriptlet
