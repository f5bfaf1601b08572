import Scriptlet.Resolution.Analysis

/-!
# Static analysis of expressions
-/

namespace Scriptlet.Resolve

/-- The class a variable initialised with this expression holds an instance of, as
far as it is known. -/
def constructed? (analysis : Analysis) : Expr → Option ClassFacts
  | .call (.var _ name _) _ _ => analysis.classOf? name
  | _ => none

/-- The class an expression is known to give an instance of. -/
def instanceClass? (analysis : Analysis) : Expr → Option ClassFacts
  | .thisRef _ _ => analysis.current
  | .var _ name _ =>
    match analysis.lookup name with
    | some (_, declared) => declared.instanceOf
    | none => none
  | _ => none

/-- Whether code of this class stands inside the body of a class. -/
def isInside (current : Option ClassFacts) (layer : ClassLayer) : Bool :=
  match current with
  | some facts => facts.own.number == layer.number
  | none => false

/-- Why code of this class may not use a field: it is known to be private to another class,
or to be final and initialised when it is assigned to. -/
def fieldFault? (current : Option ClassFacts) (owner : ClassLayer) (field : FieldFacts)
    (name : String) (isAssignment : Bool) : Option ResolveFault :=
  if field.visibility = .ownClass && !isInside current owner then
    some (.privateAccess owner.name name)
  else if isAssignment && field.isFinal && field.initialized then
    some (.finalFieldReassignment name)
  else none

/-- Notes an access to a field that is refused. -/
def noteRefusal (object : Expr) (name : String) (location : Location) (isAssignment : Bool)
    (owner : ClassLayer) (field : FieldFacts) (fault : ResolveFault) : Resolve Unit :=
  modify fun analysis =>
    { analysis with
      refusals := ⟨object, name, location, isAssignment, owner, field, fault, analysis.scopes,
        analysis.current⟩ :: analysis.refusals }

/-- Refuses an access to a field by what is known of the class of the object. -/
def checkField (object : Expr) (name : String) (location : Location) (isAssignment : Bool) :
    Resolve Unit := do
  let analysis ← get
  match (instanceClass? analysis object).bind (·.field? name) with
  | none => return ()
  | some (owner, field) =>
    match fieldFault? analysis.current owner field name isAssignment with
    | none => return ()
    | some fault =>
      if analysis.checksFields then fail fault location
      else noteRefusal object name location isAssignment owner field fault

/-- The kind of the final declaration an assignment to this name would change. -/
def finalTarget? (analysis : Analysis) (name : String) : Option DeclarationKind :=
  match analysis.lookup name with
  | some (distance, declared) =>
    if declared.isFinal then some declared.kind
    else
      match distance with
      | some _ => none
      | none => (analysis.laterFinalGlobal? name).map (·.kind)
  | none => (analysis.laterFinalGlobal? name).map (·.kind)

/-- A name that is read. -/
def readName (id : NodeId) (name : String) (location : Location) : Resolve Unit := do
  let analysis ← get
  match analysis.scopes, analysis.innermost? name with
  | _ :: _ :: _, some ⟨false, _, _, _, _⟩ => fail (.readInOwnInitializer name) location
  | _, _ =>
    checkDeclared name location
    resolveName id name

/-- A name that is assigned to, after the value. What it held an instance of is no
longer known. -/
def assignName (id : NodeId) (name : String) (location : Location) : Resolve Unit := do
  checkDeclared name location
  match finalTarget? (← get) name with
  | some kind => fail (.finalReassignment kind name) location
  | none =>
    resolveName id name
    modify fun analysis =>
      { analysis with scopes := Analysis.forgetInstanceIn name analysis.scopes }

mutual

/-- Analyses an expression, in the order of its text except that what is stored
comes first. -/
def expression (expr : Expr) : Resolve Unit := do
  noteExpr expr
  match expr with
  | .literal _ _ => return ()
  | .array elements _ => expressions elements
  | .var id name location => readName id name location
  | .assign id name value location => do
    expression value
    assignName id name location
  | .binary _ left right _ | .logical _ left right _ | .bitwise _ left right _
  | .elvis left right _ | .getIndex left right _ => do
    expression left
    expression right
  | .unary _ operand _ | .grouping operand _ => expression operand
  | .prefixCall id name operand _ => do
    resolveName id name
    expression operand
  | .infixCall id name left right _ => do
    resolveName id name
    expression left
    expression right
  | .ternary condition thenBranch elseBranch _ => do
    expression condition
    expression thenBranch
    expression elseBranch
  | .call callee arguments _ => do
    expression callee
    expressions arguments
  | .get object name location => do
    expression object
    checkField object name location false
  | .set object name value location => do
    expression value
    expression object
    checkField object name location true
  | .setIndex array index value _ => do
    expression array
    expression index
    expression value
  | .thisRef id location => do
    if (← get).classContext = .none then fail .thisOutsideClass location
    else resolveName id "this"
  | .superRef id _ location => do
    if (← get).classContext = .derived then resolveName id "super"
    else fail .superOutsideSubclass location

/-- Analyses expressions from left to right. -/
def expressions : List Expr → Resolve Unit
  | [] => return ()
  | first :: rest => do
    expression first
    expressions rest

end

end Scriptlet.Resolve
