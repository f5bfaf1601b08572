import Scriptlet.Proofs.SessionProtocol

/-!
# Processes

A process holds several scripts (`Process`). The numbers of nodes and of classes are drawn from two
counters that all of its scripts share, so a call on one script draws the numbers that earlier
calls, on whatever script, have left (`Process.session`).
-/

namespace Scriptlet

/-- What stands in a store at the number of a class of another script. -/
def ClassObject.elsewhere : ClassObject := ⟨⟨"", none, [], [], false, .start⟩, none, [], ⟨0⟩⟩

/-- Leaves out numbers of classes, up to the one that the next class is to get. -/
def Store.reserve (store : Store) (next : Nat) : Store :=
  { store with
    classes := store.classes ++ Array.replicate (next - store.classes.size) .elsewhere }

/-- The next number of a node after a parse, whether or not the parse goes well. -/
def Grammar.nodesAfter (grammar : Grammar) (tokens : List Token) (nextId : NodeId) : NodeId :=
  match parseStatements grammar (Cursor.ofTokens tokens nextId) with
  | .ok _ cursor => cursor.nextId
  | .error _ cursor => cursor.nextId

private theorem Grammar.nodesAfter_of_parse {grammar : Grammar} {tokens : List Token}
    {nextId next : NodeId} {program : Program}
    (parsed : grammar.parse tokens nextId = .ok (program, next)) :
    grammar.nodesAfter tokens nextId = next := by
  unfold Grammar.parse finish at parsed
  unfold nodesAfter
  cases ended : parseStatements grammar (Cursor.ofTokens tokens nextId) with
  | ok statements cursor =>
    rw [ended] at parsed
    dsimp only at parsed ⊢
    split at parsed <;> cases parsed
    rfl
  | error stop cursor =>
    rw [ended] at parsed
    cases stop <;> cases parsed

/-- What a host gets to see after a call: how the call ended, what was printed, tested and found
faulty, what hooks logged, and the texts of the globals. -/
structure Report where
  fault : Option ScriptFault
  output : Array String
  tests : Array TestOutcome
  diagnostics : List String
  log : Array String
  globals : Table String

namespace Session

/-- Parses the tokens into statements whose nodes are numbered from the next number on. Numbers
that were given to nodes are not given again, also when the parse fails. -/
def parseTokensOnward : SessionM Unit := do
  let session ← get
  let tokens := session.tokens.toList
  modify fun session =>
    { session with nextId := session.setup.grammar.nodesAfter tokens session.nextId }
  match Grammar.parse session.setup.grammar tokens session.nextId with
  | .ok (program, _) => modify fun session => { session with statements := program }
  | .error faults => throw (.parse faults)

/-- A parse that goes well numbers its nodes from the next number on. -/
theorem parseTokensOnward_of_ok {session : Session} {program : Program} {next : NodeId}
    (parsed : Grammar.parse session.setup.grammar session.tokens.toList session.nextId =
      .ok (program, next)) :
    parseTokensOnward session =
      .ok () { session with statements := program, nextId := next } := by
  have next : session.setup.grammar.nodesAfter session.tokens.toList session.nextId = next :=
    Grammar.nodesAfter_of_parse parsed
  unfold parseTokensOnward
  rw [get_bind, parsed, ← next]
  rfl

/-- A parse that fails has given out numbers all the same. -/
theorem parseTokensOnward_of_error {session : Session} {faults : List (Located ParseFault)}
    (refused : Grammar.parse session.setup.grammar session.tokens.toList session.nextId =
      .error faults) :
    ∃ next, parseTokensOnward session = .error (.parse faults) { session with nextId := next } := by
  unfold parseTokensOnward
  rw [get_bind, refused]
  exact ⟨_, rfl⟩

/-- The phases before a run, of which one parses. -/
def frontEndBy (parsing : SessionM Unit) : SessionM Resolutions := do
  inPhase .tokenizing tokenize
  inPhase .parsing parsing
  inPhase .resolving resolveStatements

/-- Takes a script through the phases before a run, unless that has been done. -/
def resolveBy (parsing : SessionM Unit) : SessionM Unit := do
  match (← get).resolutions with
  | some _ => return ()
  | none => diagnosing do
    let resolutions ← frontEndBy parsing
    modify fun session => { session with resolutions := some resolutions }

/-- Runs a script, through all its phases. -/
def evaluateBy (parsing : SessionM Unit) : SessionM Unit := do
  resolveBy parsing
  match (← get).resolutions with
  | some resolutions => diagnosing (inPhase .interpreting (interpret resolutions))
  | none => return ()

/-- The texts of the globals. -/
def globalTexts (session : Session) : Table String :=
  session.globalBindings.map fun entry => (entry.1, session.store.text entry.2.value)

/-- What a host gets to see of a session after a call. -/
def report (session : Session) (fault : Option ScriptFault) : Report :=
  ⟨fault, session.output, session.tests, session.diagnostics, session.log, session.globalTexts⟩

/-- What a host gets to see after a step. -/
def reportAfter (session : Session) (step : SessionM Unit) : Report :=
  (session.leftBy step).report (session.faultOf step)

/-- What a host gets to see of calls on a script that is alone in its process. -/
def reports (session : Session) : List HostCall → List Report
  | [] => []
  | call :: rest => session.reportAfter call.perform :: (session.after call).reports rest

/-- A session whose next node and next class get the numbers that counters give out. -/
def numberedFrom (session : Session) (nextNode : NodeId) (nextClass : Nat) : Session :=
  { session with nextId := nextNode, store := session.store.reserve nextClass }

end Session

/-- What a call does, by the way it parses. -/
def HostCall.performBy (parsing : SessionM Unit) : HostCall → SessionM Unit
  | .resolve => Session.resolveBy parsing
  | .evaluate => Session.evaluateBy parsing
  | call => call.perform

/-- With the parser that numbers the nodes of each parse from the first number on, a call does what
it does in a process of its own. -/
theorem HostCall.performBy_parseTokens (call : HostCall) :
    call.performBy Session.parseTokens = call.perform := by
  cases call <;> rfl

/-- Scripts of one process, with its counters. -/
structure Process (ι : Type) where
  scripts : ι → Session
  nextNode : NodeId
  nextClass : Nat

namespace Process

variable {ι : Type}

/-- Scripts to which nothing has been done, with counters that may have been used before. -/
def start (setups : ι → Setup) (nextNode : NodeId) (nextClass : Nat) : Process ι :=
  ⟨fun script => .start (setups script), nextNode, nextClass⟩

/-- The session a call on a script starts from: it goes on with the numbers of the counters. -/
def session (process : Process ι) (script : ι) : Session :=
  (process.scripts script).numberedFrom process.nextNode process.nextClass

/-- What a host gets to see of a call on one of the scripts. -/
def report (process : Process ι) (script : ι) (call : HostCall) : Report :=
  (process.session script).reportAfter (call.performBy Session.parseTokensOnward)

variable [DecidableEq ι]

/-- The process after a call on one of the scripts. -/
def after (process : Process ι) (script : ι) (call : HostCall) : Process ι :=
  let later := (process.session script).leftBy (call.performBy Session.parseTokensOnward)
  { scripts := fun other => if other = script then later else process.scripts other
    nextNode := later.nextId
    nextClass := later.store.classes.size }

/-- What a host gets to see of calls on the scripts, each with the script it was made on. -/
def reports (process : Process ι) : List (ι × HostCall) → List (ι × Report)
  | [] => []
  | (script, call) :: rest =>
    (script, process.report script call) :: (process.after script call).reports rest

end Process

end Scriptlet
