import Scriptlet.Run.Call

/-!
# Running programs

Expressions are evaluated and statements executed with a bound on how deep they
nest; `interpret` runs a program with a bound no run on a real machine reaches.
-/

namespace Scriptlet.Run

/-- Records the outcome of a test and stops if it failed. -/
def recordTest (name : String) (passed : Bool) (location : Location) : Run Completion := do
  modify fun machine => { machine with tests := machine.tests.push ⟨name, passed⟩ }
  if passed then return .normal else fail (.testFailed name) location

/-- What a test makes of the end of its body: a value that is returned decides it,
and otherwise it passes. -/
def testResult (name : String) (completion : Completion) (location : Location) :
    Run Completion := do
  match completion with
  | .normal => recordTest name true location
  | .returning value => recordTest name value.isTruthy location
  | .breaking => fail (.illegalControlFlow .breaking) location
  | .continuing => fail (.illegalControlFlow .continuing) location

/-- Prints the text of a value. -/
def print (value : Value) : Run Unit :=
  modify fun machine =>
    let line := machine.store.text value
    { machine with output := machine.output.push line }

/-- The number of rounds of a counted loop. -/
def roundsOf (count : Value) (location : Location) : Run Nat := do
  match count with
  | .number value => return Number.repeatCount value
  | other => fail (.typeMismatch (.repeatCount other.type)) location

/-- Assigns to an element of an array. -/
def setElement (target index value : Value) (location : Location) : Run Unit := do
  let (ref, place) ← orFail (← inspect (Value.elementPlace · target index)) location
  change (·.setElement ref place value)

/-- The routines of a run, for one of them to call. -/
structure Routines where
  evaluate : Expr → Run Value
  execute : Statement → Run Completion
  executeAll : List Statement → Run Completion

/-- Evaluates an expression, with routines for what is inside of it and for what it
calls. -/
def evaluateStep (setting : Setting) (inner : Routines) : Expr → Run Value
  | .literal value _ => return .ofLiteral value
  | .array elements _ => do
    let values ← valuesOf inner.evaluate elements
    return .array (← create (·.newArray values.toArray))
  | .var id name location => lookup setting id name location
  | .assign id name value location => do
    let value ← inner.evaluate value
    assign setting id name value location
    return value
  | .binary op left right location => do
    let left ← inner.evaluate left
    let right ← inner.evaluate right
    orFail (← inspect (Value.binary · op left right)) location
  | .logical op left right _ => do
    let left ← inner.evaluate left
    if left.isTruthy == (op == .or) then return .bool left.isTruthy
    else return .bool (← inner.evaluate right).isTruthy
  | .bitwise op left right location => do
    let left ← inner.evaluate left
    let right ← inner.evaluate right
    orFail (Value.bitwise op left right) location
  | .unary op operand location => do
    orFail (Value.unary op (← inner.evaluate operand)) location
  | .prefixCall id name operand location => do
    let callee ← lookup setting id name location
    let operand ← inner.evaluate operand
    call setting inner.evaluate inner.executeAll callee [operand] location
  | .infixCall id name left right location => do
    let callee ← lookup setting id name location
    let left ← inner.evaluate left
    let right ← inner.evaluate right
    call setting inner.evaluate inner.executeAll callee [left, right] location
  | .ternary condition thenBranch elseBranch _ => do
    if (← inner.evaluate condition).isTruthy then inner.evaluate thenBranch
    else inner.evaluate elseBranch
  | .elvis value fallback _ => do
    let value ← inner.evaluate value
    if value.isTruthy then return value else inner.evaluate fallback
  | .call callee arguments location => do
    let callee ← inner.evaluate callee
    let arguments ← valuesOf inner.evaluate arguments
    call setting inner.evaluate inner.executeAll callee arguments location
  | .get object name location => do
    property (← inner.evaluate object) name location
  | .set object name value location => do
    let object ← inner.evaluate object
    let value ← inner.evaluate value
    setProperty object name value location
    return value
  | .getIndex array index location => do
    let array ← inner.evaluate array
    let index ← inner.evaluate index
    orFail (← inspect (Value.elementAt · array index)) location
  | .setIndex array index value location => do
    let array ← inner.evaluate array
    let index ← inner.evaluate index
    let value ← inner.evaluate value
    setElement array index value location
    return value
  | .grouping grouped _ => inner.evaluate grouped
  | .thisRef id location => lookup setting id "this" location
  | .superRef id method location => superMethod setting id method location

/-- Executes a statement, with routines for what is inside of it. -/
def executeStep (setting : Setting) (inner : Routines) : Statement → Run Completion
  | .expression expr _ => do
    let _ ← inner.evaluate expr
    return .normal
  | .varDecl name initial isFinal _ => do
    let value ← valueOrNil inner.evaluate initial
    define name value isFinal
    return .normal
  | .block body location => do
    within (← get).env (.block body location) [] (inner.executeAll body)
  | .ifElse condition thenBranch elseBranch _ => do
    if (← inner.evaluate condition).isTruthy then inner.execute thenBranch
    else
      match elseBranch with
      | some elseBranch => inner.execute elseBranch
      | none => return .normal
  | .whileLoop condition body _ =>
    untilDone (do
      if (← inner.evaluate condition).isTruthy then
        return afterBody (← inner.execute body)
      else return some .normal) roundBound
  | .doWhile body condition _ =>
    untilDone (do
      match afterBody (← inner.execute body) with
      | some completion => return some completion
      | none =>
        if (← inner.evaluate condition).isTruthy then return none
        else return some .normal) roundBound
  | .repeatLoop count body location => do
    let rounds ← roundsOf (← inner.evaluate count) location
    times (return afterBody (← inner.execute body)) rounds
  | .function decl => do
    declareFunction decl
    return .normal
  | .classDecl decl => do
    declareClass setting decl
    return .normal
  | .returning value _ => do
    return .returning (← valueOrNil inner.evaluate value)
  | .breaking _ => return .breaking
  | .continuing _ => return .continuing
  | .print expr _ => do
    print (← inner.evaluate expr)
    return .normal
  | .test name body location => do
    let completion ← within (← get).env (.test body location) [] (inner.executeAll body)
    testResult name completion location
  | .moduleDecl name location => do
    declareModule setting name location
    return .normal
  | .nativeFunction moduleName name params location => do
    declareNative setting moduleName name params.length location
    return .normal
  | .extension id className decl location => do
    declareExtension setting id className decl location
    return .normal

/-- Executes statements in order, up to the first that does not end normally. -/
def executeAllStep (inner : Routines) : List Statement → Run Completion
  | [] => return .normal
  | statement :: rest => do
    match ← inner.execute statement with
    | .normal => inner.executeAll rest
    | completion => return completion

mutual

/-- Evaluates an expression that nests at most so deep. -/
def evaluate (setting : Setting) : Nat → Expr → Run Value
  | 0, _ => exhausted
  | depth + 1, expr =>
    noting expr <| evaluateStep setting
      ⟨evaluate setting depth, execute setting depth, executeAll setting depth⟩ expr

/-- Executes a statement that nests at most so deep. -/
def execute (setting : Setting) : Nat → Statement → Run Completion
  | 0, _ => exhausted
  | depth + 1, statement =>
    executeStep setting
      ⟨evaluate setting depth, execute setting depth, executeAll setting depth⟩ statement

/-- Executes statements, of which there are at most so many and which nest at most
so deep. -/
def executeAll (setting : Setting) : Nat → List Statement → Run Completion
  | 0, _ => exhausted
  | depth + 1, statements =>
    executeAllStep
      ⟨evaluate setting depth, execute setting depth, executeAll setting depth⟩ statements

end

/-- The routines of a run that nests at most so deep. -/
def routines (setting : Setting) (depth : Nat) : Routines :=
  ⟨evaluate setting depth, execute setting depth, executeAll setting depth⟩

/-- How deep a run may nest. -/
def depthBound : Nat := Nat.pow 2 60

/-- Runs the statements of a program with a routine that executes one of them. A
jump out of a statement is a fault. -/
def interpretBy (execute : Statement → Run Completion) : Program → Run Unit
  | [] => return ()
  | statement :: rest => do
    match (← execute statement).jump? with
    | none => interpretBy execute rest
    | some jump => fail (.illegalControlFlow jump) statement.location

/-- Runs the statements of a program. -/
def interpret (setting : Setting) (program : Program) : Run Unit :=
  interpretBy (routines setting depthBound).execute program

/-- The machine a step leaves behind. -/
def machineAfter {α : Type} : EStateM.Result RunStop Machine α → Machine
  | .ok _ machine => machine
  | .error _ machine => machine

/-- Runs each statement of a program, going on after faults, and gives what each of
them leaves behind. -/
def executeEach (setting : Setting) (machine : Machine) :
    Program → List (EStateM.Result RunStop Machine Completion)
  | [] => []
  | statement :: rest =>
    let result := execute setting depthBound statement machine
    result :: executeEach setting (machineAfter result) rest

end Scriptlet.Run
