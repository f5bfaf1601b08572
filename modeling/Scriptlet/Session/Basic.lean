import Scriptlet.Grammar.Program
import Scriptlet.Resolution.Statement
import Scriptlet.Run.Evaluate
import Scriptlet.Session.Fault
import Scriptlet.Token.Piece

/-!
# Sessions

A session holds one script with everything a host set up for it, and what its
phases have produced so far. Hooks of the host run before and after each phase.
-/

namespace Scriptlet

/-- A value the host hands over. An array is made anew each time it is handed
over. -/
inductive HostValue where
  | literal (value : Literal)
  | array (elements : List HostValue)

mutual

/-- Takes a value of the host into the store. -/
def Store.take (store : Store) : HostValue → Value × Store
  | .literal value => (.ofLiteral value, store)
  | .array elements =>
    let (values, store) := store.takeAll elements
    let (ref, store) := store.newArray values.toArray
    (.array ref, store)

/-- Takes values of the host into the store, in order. -/
def Store.takeAll (store : Store) : List HostValue → List Value × Store
  | [] => ([], store)
  | first :: rest =>
    let (value, store) := store.take first
    let (values, store) := store.takeAll rest
    (value :: values, store)

end

/-- When a hook runs. -/
inductive Timing where
  | before | after
  deriving DecidableEq, Repr

/-- What a hook may look at. -/
structure View where
  tokens : Array Token
  comments : Array Comment
  statements : Program
  resolved : Bool
  diagnostics : List String
  output : Array String
  tests : Array TestOutcome
  store : Store
  globals : Table Binding
  log : Array String

/-- What a hook does. -/
inductive HookAction where
  /-- Adds a text to the log. -/
  | log (text : String)
  /-- Logs how much the session holds. -/
  | observe
  /-- Logs the text of a global. -/
  | showGlobal (name : String)
  /-- Binds a global. -/
  | define (name : String) (value : HostValue)
  /-- Fails. -/
  | fail (phase : Phase) (message : String)
  /-- Fails as a run does that meets an unknown name. -/
  | raise (name : String)
  /-- Removes the last statement. -/
  | dropLast
  /-- Removes the first statement. -/
  | dropFirst
  /-- Turns the order of the statements around. -/
  | reverse
  /-- Adds a statement that prints a value. -/
  | appendPrint (value : Literal)
  /-- Adds a statement that prints a variable. -/
  | appendPrintVar (name : String)
  /-- Adds a break statement. -/
  | appendBreak
  /-- Adds a line to the output. -/
  | addOutput (text : String)
  /-- Binds a global to a value there is. -/
  | bind (name : String) (value : Value)
  /-- Changes the statements. -/
  | edit (change : Program → Program)
  /-- Replaces what was printed and tested. -/
  | report (output : Array String) (tests : Array TestOutcome)
  /-- Fails with a fault. -/
  | abort (fault : ScriptFault)
  /-- Decides by what there is what to do. -/
  | depending (choose : View → List HookAction)

/-- A hook of the host. -/
structure Hook where
  phase : Phase
  timing : Timing
  actions : List HookAction

/-- The source of a script with everything that decides how it is read and run. -/
structure Setup where
  source : String
  registry : Registry
  grammar : Grammar
  options : Options

/-- What the phases of a script run one after the other: hooks, and the phases
themselves. -/
inductive Item where
  | hook (hook : Hook)
  | phase (phase : Phase)

/-- An item that was run, and the fault it ended with. -/
structure Event where
  item : Item
  fault : Option ScriptFault

/-- A script and the state of its host. The events are what has run so far. -/
structure Session where
  setup : Setup
  modules : Table ModuleRef
  hooks : List Hook
  resolutions : Option Resolutions
  tokens : Array Token
  comments : Array Comment
  statements : Program
  resolved : Bool
  diagnostics : List String
  output : Array String
  tests : Array TestOutcome
  store : Store
  globals : ScopeRef
  nextId : NodeId
  log : Array String
  events : List Event

/-- A step of a session. What was done stays done when it fails. -/
abbrev SessionM := EStateM ScriptFault Session

namespace Session

/-- A session before its first phase. -/
def start (setup : Setup) : Session :=
  let (globals, store) := Store.empty.newScope none .globals []
  { setup := setup
    modules := []
    hooks := []
    resolutions := none
    tokens := #[]
    comments := #[]
    statements := []
    resolved := false
    diagnostics := []
    output := #[]
    tests := #[]
    store := store
    globals := globals
    nextId := 0
    log := #[]
    events := [] }

/-- The session of a source, read by the language's own tables. -/
def ofSource (source : String) : Session :=
  start ⟨source, .standard, .standard, .standard⟩

/-- The value of a global. -/
def global? (session : Session) (name : String) : Option Value :=
  session.store.value? session.globals name

/-- The globals. -/
def globalBindings (session : Session) : Table Binding :=
  session.store.bindingsOf session.globals

/-- Binds a global to a value. -/
def bindValue (session : Session) (name : String) (value : Value) : Session :=
  { session with store := session.store.define session.globals name value false }

/-- Binds a global to a value of the host. -/
def bindGlobal (session : Session) (name : String) (value : HostValue) (isFinal : Bool) :
    Session :=
  let (value, store) := session.store.take value
  { session with store := store.define session.globals name value isFinal }

/-- Registers a native module. A module of the same name is replaced; values that
refer to it keep it. -/
def registerModule (session : Session) (native : NativeModule) : Session :=
  let (ref, store) := session.store.newModule native
  { session with store := store, modules := session.modules.put native.name ref }

/-- Adds a hook behind those there are. -/
def addHook (session : Session) (hook : Hook) : Session :=
  { session with hooks := session.hooks ++ [hook] }

/-- How much a session holds, as one line. -/
def summary (session : Session) : String :=
  "tokens=" ++ toString session.tokens.size ++
    " comments=" ++ toString session.comments.size ++
    " statements=" ++ toString session.statements.length ++
    " resolved=" ++ (if session.resolved then "true" else "false") ++
    " globals=" ++ toString session.globalBindings.length ++
    " output=" ++ toString session.output.size ++
    " tests=" ++ toString session.tests.size ++
    " diagnostics=" ++ toString session.diagnostics.length

/-- Adds a text to the log. -/
def logText (session : Session) (text : String) : Session :=
  { session with log := session.log.push text }

/-- Changes the statements while they are not resolved yet; later the log says that
they stay. -/
def editStatements (session : Session) (edit : Program → Program) : Session :=
  if session.resolved then session.logText "immutable"
  else { session with statements := edit session.statements }

/-- What a hook may look at in a session. -/
def view (session : Session) : View :=
  { tokens := session.tokens
    comments := session.comments
    statements := session.statements
    resolved := session.resolved
    diagnostics := session.diagnostics
    output := session.output
    tests := session.tests
    store := session.store
    globals := session.globalBindings
    log := session.log }

mutual

/-- Performs an action of a hook. -/
def perform : HookAction → SessionM Unit
  | .log text => modify (·.logText text)
  | .observe => modify fun session => session.logText session.summary
  | .showGlobal name =>
    modify fun session =>
      session.logText <|
        match session.global? name with
        | some value => session.store.text value
        | none => "undefined"
  | .define name value => modify (·.bindGlobal name value false)
  | .fail phase message => throw (.hook phase message)
  | .raise name => throw (.runtime ⟨.undefinedVariable name, .start⟩)
  | .dropLast => modify (·.editStatements List.dropLast)
  | .dropFirst => modify (·.editStatements List.tail)
  | .reverse => modify (·.editStatements List.reverse)
  | .appendPrint value =>
    modify (·.editStatements (· ++ [Statement.print (.literal value .start) .start]))
  | .appendPrintVar name =>
    modify fun session =>
      let id := session.nextId
      { session with nextId := id + 1 }.editStatements
        (· ++ [Statement.print (.var id name .start) .start])
  | .appendBreak => modify (·.editStatements (· ++ [Statement.breaking .start]))
  | .addOutput text =>
    modify fun session => { session with output := session.output.push text }
  | .bind name value => modify (·.bindValue name value)
  | .edit change => modify (·.editStatements change)
  | .report output tests => modify fun session => { session with output := output, tests := tests }
  | .abort fault => throw fault
  | .depending choose => fun session => performAll (choose session.view) session
termination_by structural action => action

/-- Performs actions in order, up to the first that fails. -/
def performAll : List HookAction → SessionM Unit
  | [] => return ()
  | action :: rest => do
    perform action
    performAll rest
termination_by structural actions => actions

end

/-- Notes how an item ends. -/
def noting {α : Type} (item : Item) (step : SessionM α) : SessionM α :=
  fun session =>
    match step session with
    | .ok result session => .ok result { session with events := session.events ++ [⟨item, none⟩] }
    | .error fault session =>
      .error fault { session with events := session.events ++ [⟨item, some fault⟩] }

/-- Runs hooks in order. -/
def runHooks : List Hook → SessionM Unit
  | [] => return ()
  | hook :: rest => do
    noting (.hook hook) (performAll hook.actions)
    runHooks rest

/-- The hooks of a phase, in the order they were added. -/
def slot (session : Session) (phase : Phase) (timing : Timing) : List Hook :=
  session.hooks.filter fun hook => hook.phase = phase && hook.timing = timing

/-- Runs the hooks of a phase. -/
def hooksAt (phase : Phase) (timing : Timing) : SessionM Unit := do
  runHooks ((← get).slot phase timing)

/-- Runs a step between the hooks of its phase. -/
def inPhase {α : Type} (phase : Phase) (step : SessionM α) : SessionM α := do
  hooksAt phase .before
  let result ← noting (.phase phase) step
  hooksAt phase .after
  return result

/-- Reads the source into tokens. -/
def tokenize : SessionM Unit := do
  let { registry, source, .. } := (← get).setup
  match scan registry source with
  | .ok scanned =>
    modify fun session =>
      { session with tokens := scanned.tokens, comments := scanned.comments }
  | .error faults => throw (.lex faults)

/-- Parses the tokens into statements. -/
def parseTokens : SessionM Unit := do
  let session ← get
  match Grammar.parse session.setup.grammar session.tokens.toList 0 with
  | .ok (program, nextId) =>
    modify fun session => { session with statements := program, nextId := nextId }
  | .error faults => throw (.parse faults)

/-- Analyses the statements. From here on they stay as they are. -/
def resolveStatements : SessionM Resolutions := do
  match Scriptlet.resolve (← get).statements with
  | .ok resolutions =>
    modify fun session => { session with resolved := true }
    return resolutions
  | .error fault => throw (.resolve fault)

/-- The phases before a run. -/
def frontEnd : SessionM Resolutions := do
  inPhase .tokenizing tokenize
  inPhase .parsing parseTokens
  inPhase .resolving resolveStatements

/-- Sets the diagnostics by how a step ends: none on success, and those of the
fault otherwise. -/
def diagnosing {α : Type} (step : SessionM α) : SessionM α :=
  fun session =>
    match step session with
    | .ok result session => .ok result { session with diagnostics := [] }
    | .error fault session =>
      .error fault { session with diagnostics := fault.render session.setup.source }

/-- Takes a script through the phases before a run, unless that has been done. -/
def resolve : SessionM Unit := do
  match (← get).resolutions with
  | some _ => return ()
  | none => diagnosing do
    let resolutions ← frontEnd
    modify fun session => { session with resolutions := some resolutions }

/-- Runs the statements. What was printed and tested is kept whether or not the run
ends well. -/
def interpret (resolutions : Resolutions) : SessionM Unit :=
  fun session =>
    let setting : Setting :=
      ⟨resolutions, session.modules, session.globals, session.setup.options⟩
    let statements := session.statements
    let machine := Machine.start session.store session.globals
    let session := { session with store := .empty }
    let keep (machine : Machine) : Session :=
      { session with store := machine.store, output := machine.output, tests := machine.tests }
    match Run.interpret setting statements machine with
    | .ok _ machine => .ok () (keep machine)
    | .error (.fault fault) machine => .error (.runtime fault) (keep machine)
    | .error _ machine => .error .unfinished (keep machine)

/-- Runs a script, through all its phases. -/
def evaluate : SessionM Unit := do
  resolve
  match (← get).resolutions with
  | some resolutions => diagnosing (inPhase .interpreting (interpret resolutions))
  | none => return ()

end Session

end Scriptlet
