import Scriptlet.Resolution.Basic
import Scriptlet.Resolution.ClassFacts
import Scriptlet.Resolution.Fault

/-!
# The state of the static analysis

The analysis walks a program once, in the order of its text, with a stack of
scopes. It stops at the first fault; the stack is put back on every path.
-/

namespace Scriptlet

/-- A name declared so far. -/
structure Declared where
  defined : Bool
  isFinal : Bool
  kind : DeclarationKind
  classFacts : Option ClassFacts
  instanceOf : Option ClassFacts

/-- A name that a list of statements will declare. -/
structure Hoisted where
  kind : DeclarationKind
  isFinal : Bool
  deriving DecidableEq, Repr

/-- A scope of the program text: the names declared so far, the names its
statements declare anywhere, how many functions it is inside of, and the construct
that opens it. -/
structure StaticScope where
  names : Table Declared
  upcoming : Table Hoisted
  level : Nat
  tag : ScopeTag

/-- Changes what is known of a name that a scope declares. -/
def StaticScope.adjust (scope : StaticScope) (name : String) (change : Declared → Declared) :
    StaticScope :=
  match scope.names.find? name with
  | some declared => { scope with names := scope.names.put name (change declared) }
  | none => scope

/-- A name that was looked up: by which node, and in which scopes. -/
structure Visit where
  id : NodeId
  name : String
  scopes : List StaticScope

/-- An access to a field that is refused: of which object, by what is known of which field
of which class, and why. -/
structure Refusal where
  object : Expr
  name : String
  location : Location
  isAssignment : Bool
  owner : ClassLayer
  field : FieldFacts
  fault : ResolveFault
  scopes : List StaticScope
  current : Option ClassFacts

/-- The kind of body a statement stands in. -/
inductive BodyContext where
  | none | function | method | constructor | test
  deriving DecidableEq, Repr

/-- The kind of class an expression stands in. -/
inductive ClassContext where
  | none | root | derived
  deriving DecidableEq, Repr

/-- An expression that was analysed: in which scopes, and as code of which class and of what
kind of class. -/
structure ExprVisit where
  expr : Expr
  scopes : List StaticScope
  current : Option ClassFacts
  context : ClassContext

/-- The state of the analysis. The innermost scope comes first, the globals last; of the
names looked up and the expressions analysed so far the latest comes first. Accesses to
fields that are refused are noted where they are not checked. -/
structure Analysis where
  scopes : List StaticScope
  resolutions : Resolutions
  visits : List Visit
  walk : List ExprVisit
  checksFields : Bool
  refusals : List Refusal
  body : BodyContext
  classContext : ClassContext
  current : Option ClassFacts
  loopDepth : Nat
  functionDepth : Nat
  nextClass : Nat

/-- A step of the analysis. -/
abbrev Resolve := EStateM (Located ResolveFault) Analysis

namespace Analysis

/-- The state before a program. -/
def start : Analysis where
  scopes := [⟨[], [], 0, .globals⟩]
  resolutions := .empty
  visits := []
  walk := []
  checksFields := true
  refusals := []
  body := .none
  classContext := .none
  current := none
  loopDepth := 0
  functionDepth := 0
  nextClass := 0

/-- The state before a program whose accesses to fields are not checked. -/
def startUnchecked : Analysis :=
  { start with checksFields := false }

/-- Opens a scope. -/
def openScope (analysis : Analysis) (tag : ScopeTag) : Analysis :=
  { analysis with scopes := ⟨[], [], analysis.functionDepth, tag⟩ :: analysis.scopes }

/-- Closes the innermost scope. -/
def closeScope (analysis : Analysis) : Analysis :=
  { analysis with scopes := analysis.scopes.tail }

/-- Changes the innermost scope. -/
def modifyInnermost (analysis : Analysis) (change : StaticScope → StaticScope) : Analysis :=
  { analysis with
    scopes :=
      match analysis.scopes with
      | innermost :: outer => change innermost :: outer
      | [] => [] }

/-- The declaration of a name in the innermost scope. -/
def innermost? (analysis : Analysis) (name : String) : Option Declared :=
  match analysis.scopes with
  | innermost :: _ => innermost.names.find? name
  | [] => none

/-- The nearest declaration of a name, with the number of scopes out to it unless
it is a global. -/
def lookupFrom (name : String) (distance : Nat) :
    List StaticScope → Option (Option Nat × Declared)
  | [] => none
  | scope :: outer =>
    match scope.names.find? name with
    | some declared => some (if outer.isEmpty then none else some distance, declared)
    | none => lookupFrom name (distance + 1) outer

/-- The nearest declaration of a name. -/
def lookup (analysis : Analysis) (name : String) : Option (Option Nat × Declared) :=
  lookupFrom name 0 analysis.scopes

/-- The recorded distances with that of a name a node mentions, if the name is local. -/
def resolutionsWith (analysis : Analysis) (id : NodeId) (name : String) : Resolutions :=
  match analysis.lookup name with
  | some (some distance, _) => analysis.resolutions.record id distance
  | _ => analysis.resolutions

/-- What is known of the class a name stands for. -/
def classOf? (analysis : Analysis) (name : String) : Option ClassFacts :=
  match analysis.lookup name with
  | some (_, declared) => declared.classFacts
  | none => none

/-- Forgets what class the nearest variable of a name holds an instance of. -/
def forgetInstanceIn (name : String) : List StaticScope → List StaticScope
  | [] => []
  | scope :: outer =>
    match scope.names.find? name with
    | some declared =>
      { scope with names := scope.names.put name { declared with instanceOf := none } } :: outer
    | none => scope :: forgetInstanceIn name outer

/-- Whether a name is used before its declaration: going outwards, a scope of the
same function that will declare it comes before one that has. -/
def usedEarlyIn (name : String) (level : Nat) : List StaticScope → Bool
  | [] => false
  | scope :: outer =>
    if scope.names.contains name then false
    else if scope.level = level && scope.upcoming.contains name then true
    else usedEarlyIn name level outer

/-- The final global of this name that the program declares, as seen from inside a
function. -/
def laterFinalGlobal? (analysis : Analysis) (name : String) : Option Hoisted :=
  if analysis.functionDepth = 0 then none
  else
    match analysis.scopes.getLast? with
    | some globals => (globals.upcoming.find? name).filter (·.isFinal)
    | none => none

end Analysis

/-- The name a statement declares in its own scope. -/
def Statement.declares? : Statement → Option (String × Hoisted)
  | .varDecl name _ isFinal _ => some (name, ⟨.varKind, isFinal⟩)
  | .function decl => some (decl.name, ⟨.funKind, decl.isFinal⟩)
  | .classDecl decl => some (decl.name, ⟨.classKind, decl.isFinal⟩)
  | .moduleDecl name _ => some (name, ⟨.moduleKind, false⟩)
  | .nativeFunction _ name _ _ => some (name, ⟨.funKind, false⟩)
  | _ => none

/-- Adds a coming declaration: the first of a name counts, unless a later one is
final. -/
def addHoisted (upcoming : Table Hoisted) (name : String) (hoisted : Hoisted) : Table Hoisted :=
  match upcoming.find? name with
  | none => upcoming.put name hoisted
  | some known => if hoisted.isFinal && !known.isFinal then upcoming.put name hoisted else upcoming

namespace Resolve

/-- Stops with a fault. -/
def fail {α : Type} (fault : ResolveFault) (location : Location) : Resolve α :=
  throw ⟨fault, location⟩

/-- Runs a step between a change of the state and its undoing, on every path. -/
@[inline] def between {α : Type} (enter leave : Analysis → Analysis) (step : Resolve α) :
    Resolve α :=
  fun analysis =>
    match step (enter analysis) with
    | .ok result analysis => .ok result (leave analysis)
    | .error fault analysis => .error fault (leave analysis)

/-- Runs a step in a scope of its own. -/
def inScope {α : Type} (tag : ScopeTag) (step : Resolve α) : Resolve α :=
  between (·.openScope tag) Analysis.closeScope step

/-- Runs a step in a body: jumps out of loops around the body are not seen. -/
def inBody {α : Type} (context : BodyContext) (step : Resolve α) : Resolve α := do
  let { body, loopDepth, .. } ← get
  between ({ · with body := context, loopDepth := 0 })
    ({ · with body := body, loopDepth := loopDepth }) step

/-- Runs a step in a loop. -/
def inLoop {α : Type} (step : Resolve α) : Resolve α :=
  between (fun analysis => { analysis with loopDepth := analysis.loopDepth + 1 })
    (fun analysis => { analysis with loopDepth := analysis.loopDepth - 1 }) step

/-- Runs a step that a run reaches only later, through a call. -/
def deferred {α : Type} (step : Resolve α) : Resolve α :=
  between (fun analysis => { analysis with functionDepth := analysis.functionDepth + 1 })
    (fun analysis => { analysis with functionDepth := analysis.functionDepth - 1 }) step

/-- Runs a step inside a class. -/
def inClass {α : Type} (context : ClassContext) (facts : Option ClassFacts)
    (step : Resolve α) : Resolve α := do
  let { classContext, current, .. } ← get
  between ({ · with classContext := context, current := facts })
    ({ · with classContext := classContext, current := current }) step

/-- Notes the names some statements declare in the innermost scope. -/
def hoist (statements : List Statement) : Resolve Unit :=
  modify (·.modifyInnermost fun scope =>
    { scope with
      upcoming := (statements.filterMap Statement.declares?).foldl
        (fun upcoming (name, hoisted) => addHoisted upcoming name hoisted) scope.upcoming })

/-- Declares a name in the innermost scope. A final declaration there stays. -/
def declare (name : String) (kind : DeclarationKind) (isFinal : Bool) (location : Location) :
    Resolve Unit := do
  match (← get).innermost? name with
  | some ⟨_, true, existing, _, _⟩ => fail (.finalRedeclaration existing name) location
  | _ =>
    modify (·.modifyInnermost fun scope =>
      { scope with names := scope.names.put name ⟨false, isFinal, kind, none, none⟩ })

/-- Changes the declaration of a name in the innermost scope. -/
def adjust (name : String) (change : Declared → Declared) : Resolve Unit :=
  modify (·.modifyInnermost (·.adjust name change))

/-- Marks a declared name as having its value. -/
def define (name : String) : Resolve Unit :=
  adjust name ({ · with defined := true })

/-- Declares a name that is not written in the program. -/
def declareImplicit (name : String) : Resolve Unit :=
  modify (·.modifyInnermost fun scope =>
    { scope with names := scope.names.put name ⟨true, true, .varKind, none, none⟩ })

/-- Refuses a name that the same function declares only later. -/
def checkDeclared (name : String) (location : Location) : Resolve Unit := do
  let analysis ← get
  if Analysis.usedEarlyIn name analysis.functionDepth analysis.scopes then
    fail (.useBeforeDeclaration name) location

/-- Notes that an expression is analysed. -/
def noteExpr (expr : Expr) : Resolve Unit :=
  modify fun analysis =>
    { analysis with
      walk := ⟨expr, analysis.scopes, analysis.current, analysis.classContext⟩ :: analysis.walk }

/-- Looks up a name for a node and records how many scopes out it lives, if it is
local. -/
def resolveName (id : NodeId) (name : String) : Resolve Unit :=
  modify fun analysis =>
    { analysis with
      visits := ⟨id, name, analysis.scopes⟩ :: analysis.visits
      resolutions := analysis.resolutionsWith id name }

end Resolve

end Scriptlet
