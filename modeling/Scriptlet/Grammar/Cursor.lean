import Scriptlet.Grammar.Fault

/-!
# The cursor a parse moves

A cursor stands between the tokens already passed and those to come. Tokens past
the end read as an end marker that is nowhere, and an end marker is never passed.
Parsers keep what they have done to the cursor also when they fail.
-/

namespace Scriptlet

/-- The state of a parse: the tokens passed (the last one first), the tokens to
come, the faults reported so far, the declared operator names, and the next free
node number. -/
structure Cursor where
  passed : List Token
  rest : List Token
  faults : Array (Located ParseFault)
  prefixNames : List String
  infixNames : List String
  nextId : NodeId

/-- Why a parser stopped: a fault, or the bound on its depth. -/
inductive ParseStop where
  | fault (fault : Located ParseFault)
  | exhausted

/-- A parser of `α`s. -/
abbrev Parse := EStateM ParseStop Cursor

/-- How a token is called in messages. -/
def Token.found (token : Token) : String :=
  if token.kind == .endOfInput then "end of input" else token.lexeme

namespace Cursor

/-- A cursor before the first of some tokens. -/
def ofTokens (tokens : List Token) (nextId : NodeId) : Cursor where
  passed := []
  rest := tokens
  faults := #[]
  prefixNames := []
  infixNames := []
  nextId := nextId

/-- The token that is read where there is none. -/
def missing : Token := Token.mk .endOfInput "" none .nowhere

/-- The current token. -/
def peek (cursor : Cursor) : Token :=
  match cursor.rest with
  | token :: _ => token
  | [] => missing

/-- The token after the current one. -/
def peekNext (cursor : Cursor) : Token :=
  match cursor.rest with
  | _ :: token :: _ => token
  | _ => missing

/-- The token passed last. -/
def previous (cursor : Cursor) : Token :=
  match cursor.passed with
  | token :: _ => token
  | [] => missing

/-- Whether the current token is an end marker. -/
def atEnd (cursor : Cursor) : Bool :=
  cursor.peek.kind == .endOfInput

/-- Whether the current token has the given kind. -/
def isAt (cursor : Cursor) (kind : TokenKind) : Bool :=
  cursor.peek.kind == kind

/-- Whether the token after the current one has the given kind. -/
def nextIs (cursor : Cursor) (kind : TokenKind) : Bool :=
  cursor.peekNext.kind == kind

/-- The cursor behind the current token; before an end marker it stays. -/
def advance (cursor : Cursor) : Cursor :=
  match cursor.rest with
  | token :: rest =>
    if token.kind == .endOfInput then cursor
    else { cursor with passed := token :: cursor.passed, rest := rest }
  | [] => cursor

/-- Moves over tokens until one that begins a statement, or until behind a
semicolon, or to the end. -/
def resumeFrom (passed : List Token) : List Token → List Token × List Token
  | [] => (passed, [])
  | token :: rest =>
    let behindSemicolon :=
      match passed with
      | last :: _ => last.kind == .semicolon
      | [] => false
    if token.kind == .endOfInput || behindSemicolon || token.kind.startsStatement then
      (passed, token :: rest)
    else resumeFrom (token :: passed) rest

/-- The cursor where parsing takes up again after a fault: past the current
token, then at the next likely beginning of a statement. -/
def synchronize (cursor : Cursor) : Cursor :=
  let cursor := cursor.advance
  let (passed, rest) := resumeFrom cursor.passed cursor.rest
  { cursor with passed := passed, rest := rest }

/-- The fault of finding the current token where something else is expected. -/
def expected (cursor : Cursor) (what : String) : Located ParseFault :=
  ⟨.expectedToken what cursor.peek.found, cursor.peek.location⟩

end Cursor

namespace Parse

/-- The current token. -/
@[inline] def peek : Parse Token := return (← get).peek

/-- Whether the current token has the given kind. -/
@[inline] def check (kind : TokenKind) : Parse Bool := return (← get).isAt kind

/-- Passes the current token and returns it. -/
def advance : Parse Token := do
  let cursor ← get
  set cursor.advance
  return cursor.peek

/-- Passes the current token if it has one of the given kinds. -/
def accept (kinds : List TokenKind) : Parse Bool := do
  if kinds.contains (← peek).kind then
    let _ ← advance
    return true
  else return false

/-- Stops with a fault. -/
def fail {α : Type} (fault : Located ParseFault) : Parse α :=
  throw (.fault fault)

/-- Stops because the bound on the depth is reached. -/
def exhausted {α : Type} : Parse α :=
  throw .exhausted

/-- Records a fault and goes on. -/
def report (fault : Located ParseFault) : Parse Unit :=
  modify fun cursor => { cursor with faults := cursor.faults.push fault }

/-- Passes a token of the given kind and returns it. -/
def consume (kind : TokenKind) (what : String) : Parse Token := do
  if ← check kind then advance else fail ((← get).expected what)

/-- Passes a name. -/
def consumeName (what : String) : Parse Token :=
  consume .identifier what

/-- Passes the name of a member, which may be the reserved word for
constructors. -/
def consumeMember (what : String) : Parse Token := do
  if ← check (.word .constructorWord) then advance else consumeName what

/-- A node number not used before. -/
def fresh : Parse NodeId := do
  let cursor ← get
  set { cursor with nextId := cursor.nextId + 1 }
  return cursor.nextId

/-- Declares the name of an operator written before its operand. -/
def declarePrefix (name : String) : Parse Unit :=
  modify fun cursor => { cursor with prefixNames := name :: cursor.prefixNames }

/-- Declares the name of an operator written between its operands. -/
def declareInfix (name : String) : Parse Unit :=
  modify fun cursor => { cursor with infixNames := name :: cursor.infixNames }

/-- Moves the cursor back to where another one stands; reports, names and numbers
stay. -/
def rewind (start : Cursor) : Parse Unit :=
  modify fun cursor => { cursor with passed := start.passed, rest := start.rest }

/-- The answer of the first alternative that gives one. An alternative that
declines leaves the cursor where it was. -/
def firstOf {α β : Type} (choose : α → Parse (Option β)) : List α → Parse (Option β)
  | [] => return none
  | alternative :: others => do
    let start ← get
    match ← choose alternative with
    | some result => return some result
    | none =>
      rewind start
      firstOf choose others

/-- Runs a parser; a fault becomes an answer, and what the parser did to the
cursor stays. -/
def attempt {α : Type} (parser : Parse α) : Parse (Except (Located ParseFault) α) :=
  fun cursor =>
    match parser cursor with
    | .ok result cursor => .ok (.ok result) cursor
    | .error (.fault fault) cursor => .ok (.error fault) cursor
    | .error .exhausted cursor => .error .exhausted cursor

end Parse

end Scriptlet
