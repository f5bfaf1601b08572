import Scriptlet.Grammar.Expression

/-!
# Parsing statements and declarations

The statement productions are written against a parser of expressions and a
parser of smaller statements. A fault inside a block is recorded and parsing takes
up again at the next statement, so one pass reports several faults.
-/

namespace Scriptlet.Grammar

open Parse

/-- The parsers of the parts of a statement, and a bound on repetitions. -/
structure Parts where
  expression : Parse Expr
  statement : Parse Statement
  bound : Nat

/-- A statement, or nothing when it has a fault: the fault is recorded and the
cursor moved to where the next statement may begin. -/
def recovering (statement : Parse Statement) : Parse (Option Statement) := do
  match ← attempt statement with
  | .ok result => return some result
  | .error fault =>
    report fault
    modify Cursor.synchronize
    return none

/-- Statements up to one of the closing tokens or the end of the input. -/
def statementsUntil (statement : Parse Statement) (closing : TokenKind) :
    Nat → Parse (List Statement)
  | 0 => exhausted
  | bound + 1 => do
    let cursor ← get
    if cursor.isAt closing || cursor.atEnd then return []
    else
      match ← recovering statement with
      | some first => return first :: (← statementsUntil statement closing bound)
      | none => statementsUntil statement closing bound

/-- The statements of a block and its closing brace. -/
def blockBody (parts : Parts) : Parse (List Statement) := do
  let body ← statementsUntil parts.statement .rightBrace parts.bound
  let _ ← consume .rightBrace "'\x7d' after block"
  return body

/-- A block with its braces. -/
def bracedBody (parts : Parts) (what : String) : Parse (List Statement) := do
  let _ ← consume .leftBrace what
  blockBody parts

/-- Further parameters after `count` of them. -/
def parameterItems : Nat → Nat → Parse (List Parameter)
  | 0, _ => exhausted
  | bound + 1, count => do
    if count == argumentLimit then
      report ⟨.tooManyParameters argumentLimit, (← peek).location⟩
    let name ← consumeName "parameter name"
    let parameter : Parameter := ⟨name.lexeme, name.location⟩
    if ← accept [.comma] then return parameter :: (← parameterItems bound (count + 1))
    else return [parameter]

/-- The parameters of a declaration, in parentheses. -/
def parameters (bound : Nat) : Parse (List Parameter) := do
  let _ ← consume .leftParen "'(' before parameters"
  let params ← if ← check .rightParen then pure [] else parameterItems bound 0
  let _ ← consume .rightParen "')' after parameters"
  return params

/-- An expression in parentheses after a word. -/
def parenthesized (parts : Parts) (before after : String) : Parse Expr := do
  let _ ← consume .leftParen before
  let expr ← parts.expression
  let _ ← consume .rightParen after
  return expr

/-- An initial value, if there is one. -/
def initialValue (parts : Parts) : Parse (Option Expr) := do
  if ← accept [.equal] then return some (← parts.expression) else return none

/-- `var name = value;`, maybe final. -/
def varDecl (parts : Parts) : Parse (Option Statement) := do
  let cursor ← get
  let isFinal := cursor.isAt (.word .finalWord) && cursor.nextIs (.word .varWord)
  if isFinal || cursor.isAt (.word .varWord) then
    skip (if isFinal then 2 else 1)
    let name ← consumeName "variable name"
    let initial ← initialValue parts
    let _ ← consume .semicolon "';' after variable declaration"
    return some (.varDecl name.lexeme initial isFinal cursor.peek.location)
  else return none

/-- How many parameters an operator function has. -/
def operatorArity? : FunctionKind → Option Nat
  | .prefixOperator => some 1
  | .infixOperator => some 2
  | _ => none

/-- Reports an operator function with the wrong number of parameters. -/
def checkOperatorArity (kind : FunctionKind) (found : Nat) (location : Location) :
    Parse Unit := do
  match operatorArity? kind with
  | some arity =>
    if found != arity then report ⟨.operatorArity kind arity found, location⟩
  | none => return ()

/-- A method that is added to a class from outside, after `fun Name.`. -/
def extensionMethod (parts : Parts) (className : Token) (isFinal : Bool)
    (location : Location) : Parse Statement := do
  let method ← consumeName "extension method name"
  let params ← parameters parts.bound
  let body ← bracedBody parts "'\x7b' before method body"
  let decl : FunctionDecl := ⟨method.lexeme, .method, params, body, isFinal, method.location⟩
  return .extension (← fresh) className.lexeme decl location

/-- The kind and finality of the function declaration that begins with two given
tokens. -/
def functionHead? : TokenKind → TokenKind → Option (FunctionKind × Bool)
  | .word .funWord, _ => some (.function, false)
  | .word .finalWord, .word .funWord => some (.function, true)
  | .word .prefixWord, .word .funWord => some (.prefixOperator, false)
  | .word .infixWord, .word .funWord => some (.infixOperator, false)
  | _, _ => none

/-- A function, an operator function or an extension method. The name of an
operator counts from its declaration on, its own body included. -/
def function (parts : Parts) : Parse (Option Statement) := do
  let cursor ← get
  match functionHead? cursor.peek.kind cursor.peekNext.kind with
  | none => return none
  | some (kind, isFinal) =>
    let location := cursor.peek.location
    skip (if cursor.isAt (.word .funWord) then 1 else 2)
    let name ← consumeName "function name"
    let extends? ← if kind = .function then accept [.dot] else pure false
    if extends? then
      return some (← extensionMethod parts name isFinal location)
    else
      match kind with
      | .prefixOperator => declarePrefix name.lexeme
      | .infixOperator => declareInfix name.lexeme
      | _ => pure ()
      let params ← parameters parts.bound
      checkOperatorArity kind params.length name.location
      let body ← bracedBody parts "'\x7b' before function body"
      return some (.function ⟨name.lexeme, kind, params, body, isFinal, location⟩)

/-- `native fun module.name(params);`. -/
def nativeFunction (parts : Parts) : Parse (Option Statement) := do
  if ← check (.word .nativeWord) then
    let word ← advance
    let _ ← consume (.word .funWord) "'fun' after 'native'"
    let moduleName ← consumeName "native module name"
    let _ ← consume .dot "'.' after native module name"
    let name ← consumeName "native function name"
    let params ← parameters parts.bound
    let _ ← consume .semicolon "';' after native function declaration"
    return some (.nativeFunction moduleName.lexeme name.lexeme params word.location)
  else return none

/-- A member of a class body. -/
inductive Member where
  | field (decl : FieldDecl)
  | method (decl : FunctionDecl)

/-- The visibility written before a member, if any. -/
def visibility? : Parse (Option Visibility) := do
  match (← peek).kind with
  | .word .publicWord =>
    let _ ← advance
    return some .everyone
  | .word .privateWord =>
    let _ ← advance
    return some .ownClass
  | _ => return none

/-- A field declaration, after `var`. -/
def field (parts : Parts) (visibility : Option Visibility) (isFinal : Bool) :
    Parse FieldDecl := do
  let name ← consumeName "field name"
  let initial ← initialValue parts
  let _ ← consume .semicolon "';' after field declaration"
  return ⟨name.lexeme, visibility.getD .everyone, isFinal, initial, name.location⟩

/-- A method declaration, after `fun`. -/
def method (parts : Parts) (isFinal : Bool) : Parse FunctionDecl := do
  let name ← consumeName "method name"
  let params ← parameters parts.bound
  let body ← bracedBody parts "'\x7b' before method body"
  return ⟨name.lexeme, .method, params, body, isFinal, name.location⟩

/-- A constructor declaration, at its word. -/
def constructor (parts : Parts) : Parse FunctionDecl := do
  let word ← advance
  let params ← parameters parts.bound
  let body ← bracedBody parts "'\x7b' before constructor body"
  return ⟨constructorName, .constructor, params, body, false, word.location⟩

/-- A field, method or constructor. Methods have no written visibility. -/
def member (parts : Parts) : Parse Member := do
  if ← check (.word .constructorWord) then return .method (← constructor parts)
  else
    let visibility ← visibility?
    let isFinal ← accept [.word .finalWord]
    let isMethod ← if visibility.isNone then accept [.word .funWord] else pure false
    if isMethod then return .method (← method parts isFinal)
    else if ← accept [.word .varWord] then
      return .field (← field parts visibility isFinal)
    else
      let token ← peek
      fail ⟨.invalidClassMember token.found, token.location⟩

/-- The members of a class body. -/
def members (parts : Parts) : Nat → Parse (List Member)
  | 0 => exhausted
  | bound + 1 => do
    let cursor ← get
    if cursor.isAt .rightBrace || cursor.atEnd then return []
    else
      let first ← member parts
      return first :: (← members parts bound)

/-- The fields among some members. -/
def fieldsOf : List Member → List FieldDecl
  | [] => []
  | .field decl :: rest => decl :: fieldsOf rest
  | .method _ :: rest => fieldsOf rest

/-- The methods among some members. -/
def methodsOf : List Member → List FunctionDecl
  | [] => []
  | .method decl :: rest => decl :: methodsOf rest
  | .field _ :: rest => methodsOf rest

/-- The class a class builds on, if one is named. -/
def superclass? : Parse (Option SuperclassRef) := do
  if ← accept [.word .extendsWord] then
    let name ← consumeName "superclass name"
    return some ⟨← fresh, name.lexeme, name.location⟩
  else return none

/-- A class, maybe final. -/
def classDecl (parts : Parts) : Parse (Option Statement) := do
  let cursor ← get
  let isFinal := cursor.isAt (.word .finalWord) && cursor.nextIs (.word .classWord)
  if isFinal || cursor.isAt (.word .classWord) then
    skip (if isFinal then 2 else 1)
    let name ← consumeName "class name"
    let superclass ← superclass?
    let _ ← consume .leftBrace "'\x7b' before class body"
    let members ← members parts parts.bound
    let _ ← consume .rightBrace "'\x7d' after class body"
    return some (.classDecl
      ⟨name.lexeme, superclass, fieldsOf members, methodsOf members, isFinal,
        cursor.peek.location⟩)
  else return none

/-- A statement that begins with a reserved word: its rest is parsed from the
place of the word on. -/
def afterWord (word : Keyword) (rest : Location → Parse Statement) :
    Parse (Option Statement) := do
  if ← check (.word word) then
    let token ← advance
    return some (← rest token.location)
  else return none

/-- `if (condition) statement else statement`. -/
def ifElse (parts : Parts) (location : Location) : Parse Statement := do
  let condition ← parenthesized parts "'(' after 'if'" "')' after if condition"
  let thenBranch ← parts.statement
  let elseBranch ←
    if ← accept [.word .elseWord] then some <$> parts.statement else pure none
  return .ifElse condition thenBranch elseBranch location

/-- `while (condition) statement`. -/
def whileLoop (parts : Parts) (location : Location) : Parse Statement := do
  let condition ← parenthesized parts "'(' after 'while'" "')' after while condition"
  return .whileLoop condition (← parts.statement) location

/-- `do statement while (condition);`. -/
def doWhile (parts : Parts) (location : Location) : Parse Statement := do
  let body ← parts.statement
  let _ ← consume (.word .whileWord) "'while' after do body"
  let condition ← parenthesized parts "'(' after 'while'" "')' after while condition"
  let _ ← consume .semicolon "';' after do-while"
  return .doWhile body condition location

/-- `repeat (count) statement`. -/
def repeatLoop (parts : Parts) (location : Location) : Parse Statement := do
  let count ← parenthesized parts "'(' after 'repeat'" "')' after repeat count"
  return .repeatLoop count (← parts.statement) location

/-- `return value;`. -/
def returning (parts : Parts) (location : Location) : Parse Statement := do
  let value ← if ← check .semicolon then pure none else some <$> parts.expression
  let _ ← consume .semicolon "';' after return value"
  return .returning value location

/-- `print value;`. -/
def print (parts : Parts) (what : String) (location : Location) : Parse Statement := do
  let expr ← parts.expression
  let _ ← consume .semicolon what
  return .print expr location

/-- The name a string token gives to a test. -/
def testName (label : Token) : String :=
  match label.literal with
  | some (.string text) => text
  | _ => label.lexeme

/-- `test ("name") { ... }`. -/
def test (parts : Parts) (location : Location) : Parse Statement := do
  let _ ← consume .leftParen "'(' after 'test'"
  let label ← consume .string "test name"
  let _ ← consume .rightParen "')' after test name"
  let body ← bracedBody parts "'\x7b' before test body"
  return .test (testName label) body location

/-- `module name;`. -/
def moduleDecl (location : Location) : Parse Statement := do
  let name ← consumeName "module name"
  let _ ← consume .semicolon "';' after module name"
  return .moduleDecl name.lexeme location

/-- A statement of the language, or nothing if another one begins here. -/
def builtin (parts : Parts) : BuiltinRule → Parse (Option Statement)
  | .varDecl => varDecl parts
  | .function => function parts
  | .nativeFunction => nativeFunction parts
  | .classDecl => classDecl parts
  | .ifElse => afterWord .ifWord (ifElse parts)
  | .whileLoop => afterWord .whileWord (whileLoop parts)
  | .doWhile => afterWord .doWord (doWhile parts)
  | .repeatLoop => afterWord .repeatWord (repeatLoop parts)
  | .block => do
    if ← check .leftBrace then
      let brace ← advance
      return some (.block (← blockBody parts) brace.location)
    else return none
  | .returning => afterWord .returnWord (returning parts)
  | .breaking => afterWord .breakWord fun location => do
    let _ ← consume .semicolon "';' after 'break'"
    return .breaking location
  | .continuing => afterWord .continueWord fun location => do
    let _ ← consume .semicolon "';' after 'continue'"
    return .continuing location
  | .print => afterWord .printWord (print parts "';' after value")
  | .test => afterWord .testWord (test parts)
  | .moduleDecl => afterWord .moduleWord moduleDecl

/-- A statement by one rule, or nothing if the rule does not apply. -/
def byRule (parts : Parts) (rule : StatementRule) : Parse (Option Statement) := do
  let cursor ← get
  let location := cursor.peek.location
  match rule with
  | .builtin rule => builtin parts rule
  | .decline steps =>
    skip steps
    return none
  | .print trigger =>
    if cursor.isAt trigger then
      let _ ← advance
      return some (← print parts "';' after custom print" location)
    else return none
  | .send trigger =>
    if cursor.nextIs trigger then
      skip 2
      let name ← consumeName "target name"
      let _ ← consume .semicolon "';' after send"
      let value := Expr.literal (cursor.peek.literal.getD .nil) location
      return some (.varDecl name.lexeme (some value) false location)
    else return none
  | .block trigger =>
    if cursor.isAt trigger then
      let _ ← advance
      return some (.block (← bracedBody parts "'\x7b' after custom block") location)
    else return none
  | .refuse trigger =>
    if cursor.isAt trigger then fail (cursor.expected "something else") else return none

/-- An expression as a statement. -/
def expressionStatement (parts : Parts) : Parse Statement := do
  let location := (← peek).location
  let expr ← parts.expression
  let _ ← consume .semicolon "';' after expression"
  return .expression expr location

/-- A statement by the first rule that applies, or else an expression
statement. -/
def statement (grammar : Grammar) (parts : Parts) : Parse Statement := do
  match ← firstOf (byRule parts) grammar.statements with
  | some result => return result
  | none => expressionStatement parts

/-- The statement parser that nests at most `bound` deep. -/
def statementAt (grammar : Grammar) : Nat → Parse Statement
  | 0 => exhausted
  | bound + 1 =>
    statement grammar
      ⟨expressionAt grammar bound .assignment, statementAt grammar bound, bound⟩

/-- The parsers of the parts of a statement, nesting at most `bound` deep. -/
def partsAt (grammar : Grammar) (bound : Nat) : Parts :=
  ⟨expressionAt grammar bound .assignment, statementAt grammar bound, bound⟩

end Scriptlet.Grammar
