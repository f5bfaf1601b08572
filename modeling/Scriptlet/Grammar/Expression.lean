import Scriptlet.Grammar.Cursor
import Scriptlet.Grammar.Rule

/-!
# Parsing expressions

Expressions are parsed level by level, from assignment down to primaries. Each
production is written against the parsers of its parts; `expressionAt` ties them
together, with a bound on how deep they nest.
-/

namespace Scriptlet.Grammar

/-- The levels of the expression grammar, from the loosest to the tightest. -/
inductive Level where
  | assignment | elvis | ternary | shift | or | xor | and | equality | prefixCall
  | relational | additive | multiplicative | infixCall | unary | call | primary
  deriving DecidableEq, Repr

namespace Level

/-- The name of a level. -/
def name : Level → String
  | assignment => "assignment"
  | elvis => "elvis"
  | ternary => "ternary"
  | shift => "shift"
  | or => "or"
  | xor => "xor"
  | and => "and"
  | equality => "equality"
  | prefixCall => "prefix"
  | relational => "relational"
  | additive => "additive"
  | multiplicative => "multiplicative"
  | infixCall => "infix"
  | unary => "unary"
  | call => "call"
  | primary => "primary"

/-- Every level. -/
def all : List Level :=
  [assignment, elvis, ternary, shift, or, xor, and, equality, prefixCall, relational, additive,
    multiplicative, infixCall, unary, call, primary]

/-- The next tighter level. -/
def tighter : Level → Level
  | assignment => elvis
  | elvis => ternary
  | ternary => shift
  | shift => or
  | or => xor
  | xor => and
  | and => equality
  | equality => prefixCall
  | prefixCall => relational
  | relational => additive
  | additive => multiplicative
  | multiplicative => infixCall
  | infixCall => unary
  | unary => call
  | call => primary
  | primary => primary

/-- What an operator token makes of its two operands, at the levels whose
operators group to the left. -/
def combine? : Level → TokenKind → Option (Expr → Expr → Location → Expr)
  | elvis, .elvis => some .elvis
  | shift, .shiftLeft => some (.bitwise .shiftLeft)
  | shift, .shiftRight => some (.bitwise .shiftRight)
  | shift, .unsignedShiftRight => some (.bitwise .unsignedShiftRight)
  | or, .or => some (.logical .or)
  | or, .pipe => some (.bitwise .or)
  | xor, .caret => some (.bitwise .xor)
  | and, .and => some (.logical .and)
  | and, .ampersand => some (.bitwise .and)
  | equality, .equalEqual => some (.binary .equal)
  | equality, .bangEqual => some (.binary .notEqual)
  | relational, .less => some (.binary .less)
  | relational, .lessEqual => some (.binary .lessEqual)
  | relational, .greater => some (.binary .greater)
  | relational, .greaterEqual => some (.binary .greaterEqual)
  | additive, .plus => some (.binary .add)
  | additive, .minus => some (.binary .sub)
  | multiplicative, .star => some (.binary .mul)
  | multiplicative, .slash => some (.binary .div)
  | multiplicative, .percent => some (.binary .mod)
  | _, _ => none

end Level

open Parse

/-- How many arguments a call and how many parameters a declaration may have. -/
def argumentLimit : Nat := 8

/-- Whether a token of this kind can begin an operand. -/
def startsOperand : TokenKind → Bool
  | .number | .string | .char | .identifier | .leftParen | .leftBracket | .bang | .minus
  | .tilde => true
  | .word .trueWord | .word .falseWord | .word .nilWord | .word .thisWord
  | .word .superWord => true
  | _ => false

/-- The operator a token stands for before an operand. -/
def unaryOp? : TokenKind → Option UnaryOp
  | .bang => some .not
  | .minus => some .negate
  | .tilde => some .complement
  | _ => none

/-- Operands of one level joined by its operators, grouped to the left. -/
def chain (level : Level) (operand : Parse Expr) : Nat → Expr → Parse Expr
  | 0, _ => exhausted
  | bound + 1, left => do
    match level.combine? (← peek).kind with
    | none => return left
    | some combine =>
      let operator ← advance
      let right ← operand
      chain level operand bound (combine left right operator.location)

/-- Operands joined by declared operator names, grouped to the left. -/
def infixChain (operand : Parse Expr) : Nat → Expr → Parse Expr
  | 0, _ => exhausted
  | bound + 1, left => do
    let cursor ← get
    let token := cursor.peek
    if token.kind == .identifier && cursor.infixNames.contains token.lexeme then
      let _ ← advance
      let right ← operand
      let id ← fresh
      infixChain operand bound (.infixCall id token.lexeme left right token.location)
    else return left

/-- Further expressions of a list after `count` of them, each behind a comma. -/
def listItems (expression : Parse Expr) (limited : Bool) : Nat → Nat → Parse (List Expr)
  | 0, _ => exhausted
  | bound + 1, count => do
    if limited && count == argumentLimit then
      report ⟨.tooManyArguments argumentLimit, (← peek).location⟩
    let item ← expression
    if ← accept [.comma] then
      return item :: (← listItems expression limited bound (count + 1))
    else return [item]

/-- A list of expressions up to a closing token. Only lists in parentheses are
limited in length; a longer one is reported once and kept. -/
def expressionList (expression : Parse Expr) (bound : Nat) (closing : TokenKind)
    (what : String) : Parse (List Expr) := do
  let items ←
    if ← check closing then pure []
    else listItems expression (closing == .rightParen) bound 0
  let _ ← consume closing what
  return items

/-- Calls, member accesses and index accesses that follow a primary. -/
def suffixes (expression : Parse Expr) : Nat → Expr → Parse Expr
  | 0, _ => exhausted
  | bound + 1, expr => do
    match (← peek).kind with
    | .leftParen =>
      let paren ← advance
      let arguments ← expressionList expression bound .rightParen "')' after arguments"
      suffixes expression bound (.call expr arguments paren.location)
    | .dot =>
      let _ ← advance
      let name ← consumeMember "property name after '.'"
      suffixes expression bound (.get expr name.lexeme name.location)
    | .leftBracket =>
      let bracket ← advance
      let index ← expression
      let _ ← consume .rightBracket "']' after index"
      suffixes expression bound (.getIndex expr index bracket.location)
    | _ => return expr

/-- What an assignment stores to. Only names, members and elements can be stored
to; the fault is reported and the left side kept. -/
def assignTo (target value : Expr) (equals : Location) : Parse Expr := do
  match target with
  | .var _ name location => return .assign (← fresh) name value location
  | .get object name location => return .set object name value location
  | .getIndex array index location => return .setIndex array index value location
  | other =>
    report ⟨.invalidAssignmentTarget, equals⟩
    return other

/-- Passes a number of tokens. -/
def skip : Nat → Parse Unit
  | 0 => return ()
  | steps + 1 => do
    let _ ← advance
    skip steps

/-- A primary expression by a rule of the host. -/
def hostPrimary (expression : Parse Expr) (rule : PrimaryRule) : Parse (Option Expr) := do
  let token ← peek
  match rule with
  | .decline steps =>
    skip steps
    return none
  | .refuse trigger =>
    if token.kind == trigger then fail ((← get).expected "something else") else return none
  | .literal trigger value =>
    if token.kind == trigger then
      let _ ← advance
      return some (.literal value token.location)
    else return none
  | .group trigger =>
    if token.kind == trigger then
      let _ ← advance
      return some (.grouping (← expression) token.location)
    else return none
  | .reference trigger name =>
    if token.kind == trigger then
      let _ ← advance
      return some (.var (← fresh) name token.location)
    else return none

/-- A primary expression. The rules of the host are tried where no built-in one
begins. -/
def primary (grammar : Grammar) (expression : Parse Expr) (bound : Nat) : Parse Expr := do
  let token ← peek
  let location := token.location
  match token.kind with
  | .number | .string | .char | .word .trueWord | .word .falseWord | .word .nilWord =>
    let _ ← advance
    return .literal (token.literal.getD .nil) location
  | .identifier =>
    let _ ← advance
    return .var (← fresh) token.lexeme location
  | .word .thisWord =>
    let _ ← advance
    return .thisRef (← fresh) location
  | .word .superWord =>
    let _ ← advance
    let _ ← consume .dot "'.' after 'super'"
    let method ← consumeMember "superclass method name"
    return .superRef (← fresh) method.lexeme location
  | .leftParen =>
    let _ ← advance
    let inner ← expression
    let _ ← consume .rightParen "')' after expression"
    return .grouping inner location
  | .leftBracket =>
    let _ ← advance
    return .array (← expressionList expression bound .rightBracket "']' after array elements")
      location
  | _ =>
    match ← firstOf (hostPrimary expression) grammar.primaries with
    | some expr => return expr
    | none => fail ⟨.expectedExpression token.found, location⟩

/-- The expression of a level, from the parsers of all levels. -/
def production (grammar : Grammar) (parser : Level → Parse Expr) (bound : Nat) :
    Level → Parse Expr
  | .assignment => do
    let target ← parser .elvis
    if ← check .equal then
      let equals ← advance
      let value ← parser .assignment
      assignTo target value equals.location
    else return target
  | .ternary => do
    let condition ← parser .shift
    if ← check .question then
      let mark ← advance
      let thenBranch ← parser .elvis
      let _ ← consume .colon "':' in conditional expression"
      let elseBranch ← parser .ternary
      return .ternary condition thenBranch elseBranch mark.location
    else return condition
  | .prefixCall => do
    let cursor ← get
    let token := cursor.peek
    let next := cursor.peekNext.kind
    if token.kind == .identifier && cursor.prefixNames.contains token.lexeme
        && next != .leftParen && startsOperand next then
      let _ ← advance
      let operand ← parser .prefixCall
      return .prefixCall (← fresh) token.lexeme operand token.location
    else parser .relational
  | .infixCall => do
    let left ← parser .unary
    infixChain (parser .unary) bound left
  | .unary => do
    match unaryOp? (← peek).kind with
    | some op =>
      let operator ← advance
      let operand ← parser .unary
      return .unary op operand operator.location
    | none => parser .call
  | .call => do
    let callee ← parser .primary
    suffixes (parser .assignment) bound callee
  | .primary => primary grammar (parser .assignment) bound
  | level => do
    let left ← parser level.tighter
    chain level (parser level.tighter) bound left

/-- The parser of a level that nests at most `bound` deep. -/
def expressionAt (grammar : Grammar) : Nat → Level → Parse Expr
  | 0, _ => exhausted
  | bound + 1, level => production grammar (expressionAt grammar bound) bound level

end Scriptlet.Grammar
