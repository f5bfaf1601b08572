import Scriptlet.Grammar.Statement

/-!
# Parsing programs

A parse nests no deeper than a fixed multiple of the number of tokens to come, so
a bound computed from them is never reached.
-/

namespace Scriptlet.Grammar

/-- How deep the parsers may nest on the tokens that are left: each token is passed
after at most one walk down the levels of the expression grammar. -/
def depthBound (cursor : Cursor) : Nat :=
  32 * (cursor.rest.length + 2)

/-- Parses an expression at the given level. -/
def parseLevel (grammar : Grammar) (level : Level) : Parse Expr := do
  expressionAt grammar (depthBound (← get)) level

/-- Parses an expression. -/
def parseExpression (grammar : Grammar) : Parse Expr :=
  parseLevel grammar .assignment

/-- Parses a statement. -/
def parseStatement (grammar : Grammar) : Parse Statement := do
  statementAt grammar (depthBound (← get))

/-- Parses the statements of a block and its closing brace. -/
def parseBlockBody (grammar : Grammar) : Parse (List Statement) := do
  blockBody (partsAt grammar (depthBound (← get)))

/-- Parses statements to the end of the input. -/
def parseStatements (grammar : Grammar) : Parse (List Statement) := do
  let bound := depthBound (← get)
  statementsUntil (statementAt grammar bound) .endOfInput bound

/-- What is left of a parse: the statements with the next free node number, or the
faults. -/
def finish (grammar : Grammar) (cursor : Cursor) :
    Except (List (Located ParseFault)) (Program × NodeId) :=
  match parseStatements grammar cursor with
  | .ok program cursor =>
    if cursor.faults.isEmpty then .ok (program, cursor.nextId) else .error cursor.faults.toList
  | .error (.fault fault) cursor => .error (cursor.faults.toList ++ [fault])
  | .error .exhausted cursor => .error cursor.faults.toList

/-- Parses a token stream. Node numbers are given out from `nextId` on. -/
def parse (grammar : Grammar) (tokens : List Token) (nextId : NodeId) :
    Except (List (Located ParseFault)) (Program × NodeId) :=
  finish grammar (Cursor.ofTokens tokens nextId)

end Scriptlet.Grammar
