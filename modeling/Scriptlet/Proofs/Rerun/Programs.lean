import Scriptlet.Proofs.Rerun.Primitives

/-!
# Programs repeat

Expressions are evaluated and statements executed on top of what earlier runs left as they are
alone. So a run of a program that ends well ends well on top of any earlier runs, with the same
machine, moved (`Run.interpret_repeats`).
-/

namespace Scriptlet

/-- A completion that is moved is the same jump. -/
@[simp] theorem Completion.jump?_atop (past : Store) (completion : Completion) :
    (completion.atop past).jump? = completion.jump? := by
  cases completion <;> rfl

/-- A loop goes on after its body as it does, moved. -/
@[simp] theorem Run.afterBody_atop (past : Store) (completion : Completion) :
    afterBody (completion.atop past) = (afterBody completion).map (·.atop past) := by
  cases completion <;> rfl

/-- Routines of a run that repeat. -/
structure Run.Routines.Repeat (past : Store) (inner : Run.Routines) : Prop where
  evaluate : ∀ expr, Run.Repeats past (·.atop past) (inner.evaluate expr) (inner.evaluate expr)
  execute : ∀ statement, statement.isProper = true →
    Run.Repeats past (·.atop past) (inner.execute statement) (inner.execute statement)
  executeAll : ∀ statements, Statement.areProper statements = true →
    Run.Repeats past (·.atop past) (inner.executeAll statements) (inner.executeAll statements)

namespace Run

variable {past : Store} {setting : Setting} {inner : Routines}

namespace Repeats

/-! ### Expressions -/

/-- Setting an element of an array repeats. -/
protected theorem setElement (target index value : Value) (location : Location) :
    Repeats past id (Run.setElement target index value location)
      (Run.setElement (target.atop past) (index.atop past) (value.atop past) location) := by
  refine .look fun store _ => ?_
  rw [Value.elementPlace_atop]
  refine (Repeats.orFail rfl location).bind fun (ref, place) => ?_
  exact .change (fun _ proper => proper.of_eq rfl rfl rfl rfl)
    fun later _ => Store.setElement_atop later past ref place value

/-- Making an array repeats. -/
protected theorem newArray (values : List Value) :
    Repeats past (·.atop past) (Run.create (·.newArray values.toArray))
      (Run.create (·.newArray (values.map (·.atop past)).toArray)) := by
  refine .create (fun _ proper => proper.of_eq rfl rfl rfl rfl) fun store _ => ?_
  rw [← List.map_toArray]
  exact Store.newArray_atop store past values.toArray

/-- What comes after a test of a value. -/
protected theorem truthy {α β : Type} {moved : α → β} (value : Value) {whenTrue whenFalse : Run α}
    {whenTrueAgain whenFalseAgain : Run β} (yes : Repeats past moved whenTrue whenTrueAgain)
    (no : Repeats past moved whenFalse whenFalseAgain) :
    Repeats past moved (if value.isTruthy then whenTrue else whenFalse)
      (if (value.atop past).isTruthy then whenTrueAgain else whenFalseAgain) := by
  rw [Value.isTruthy_atop]
  split
  · exact yes
  · exact no

/-- An expression is evaluated as it is alone if what is inside of it is. -/
protected theorem evaluateStep (earlier : past.Rooted) (outermost : setting.globals = ⟨0⟩)
    (isolated : setting.modules = []) (repeats : inner.Repeat past) (expr : Expr) :
    Repeats past (·.atop past) (Run.evaluateStep setting inner expr)
      (Run.evaluateStep setting inner expr) := by
  have called (callee : Value) (arguments : List Value) (location : Location) :=
    Repeats.call earlier isolated repeats.evaluate repeats.executeAll callee arguments location
  cases expr with
  | literal value location =>
      have made : Repeats past (·.atop past) (pure (Value.ofLiteral value)) _ := .pure _
      rwa [Value.atop_ofLiteral] at made
  | array elements location =>
      exact (Repeats.valuesOf repeats.evaluate elements).bind fun values =>
        (Repeats.newArray values).bind fun ref => .pure (Value.array ref)
  | var id name location => exact .lookup earlier outermost id name location
  | assign id name value location =>
      exact (repeats.evaluate value).bind fun value =>
        (Repeats.assign earlier outermost id name value location).andThen (.pure value)
  | binary op left right location =>
      refine (repeats.evaluate left).bind fun left => (repeats.evaluate right).bind fun right =>
        .look fun store _ => ?_
      exact .orFail (Value.binary_atop store past left right op) location
  | logical op left right location =>
      refine (repeats.evaluate left).bind fun left => ?_
      rw [Value.isTruthy_atop]
      split
      · exact .pure (Value.bool _)
      · refine (repeats.evaluate right).bind fun right => ?_
        rw [Value.isTruthy_atop]
        exact .pure (Value.bool _)
  | bitwise op left right location =>
      exact (repeats.evaluate left).bind fun left => (repeats.evaluate right).bind fun right =>
        .orFail (Value.bitwise_atop past left right op) location
  | unary op operand location =>
      exact (repeats.evaluate operand).bind fun operand =>
        .orFail (Value.unary_atop past op operand) location
  | prefixCall id name operand location =>
      exact (Repeats.lookup earlier outermost id name location).bind fun callee =>
        (repeats.evaluate operand).bind fun operand => called callee [operand] location
  | infixCall id name left right location =>
      exact (Repeats.lookup earlier outermost id name location).bind fun callee =>
        (repeats.evaluate left).bind fun left => (repeats.evaluate right).bind fun right =>
          called callee [left, right] location
  | ternary condition thenBranch elseBranch location =>
      exact (repeats.evaluate condition).bind fun condition =>
        .truthy condition (repeats.evaluate thenBranch) (repeats.evaluate elseBranch)
  | elvis value fallback location =>
      exact (repeats.evaluate value).bind fun value =>
        .truthy value (.pure value) (repeats.evaluate fallback)
  | call callee arguments location =>
      exact (repeats.evaluate callee).bind fun callee =>
        (Repeats.valuesOf repeats.evaluate arguments).bind fun arguments =>
          called callee arguments location
  | get object name location =>
      exact (repeats.evaluate object).bind fun object => .property object name location
  | set object name value location =>
      exact (repeats.evaluate object).bind fun object => (repeats.evaluate value).bind fun value =>
        (Repeats.setProperty object name value location).andThen (.pure value)
  | getIndex array index location =>
      refine (repeats.evaluate array).bind fun array => (repeats.evaluate index).bind fun index =>
        .look fun store _ => ?_
      exact .orFail (Value.elementAt_atop store past array index) location
  | setIndex array index value location =>
      exact (repeats.evaluate array).bind fun array => (repeats.evaluate index).bind fun index =>
        (repeats.evaluate value).bind fun value =>
          (Repeats.setElement array index value location).andThen (.pure value)
  | grouping grouped location => exact repeats.evaluate grouped
  | thisRef id location => exact .lookup earlier outermost id "this" location
  | superRef id method location => exact .superMethod earlier id method location

/-! ### Statements -/

/-- Recording the outcome of a test repeats. -/
protected theorem recordTest (name : String) (passed : Bool) (location : Location) :
    Repeats past (·.atop past) (Run.recordTest name passed location)
      (Run.recordTest name passed location) := by
  have recorded : Repeats past id
      (modify fun machine => { machine with tests := machine.tests.push ⟨name, passed⟩ })
      (modify fun machine => { machine with tests := machine.tests.push ⟨name, passed⟩ }) :=
    .modify (fun _ => rfl) fun _ => rfl
  refine recorded.andThen ?_
  cases passed with
  | true => exact .pure Completion.normal
  | false => exact .fail _ _ _

/-- What a test makes of the end of its body repeats. -/
protected theorem testResult (name : String) (completion : Completion) (location : Location) :
    Repeats past (·.atop past) (Run.testResult name completion location)
      (Run.testResult name (completion.atop past) location) := by
  cases completion with
  | normal => exact .recordTest name true location
  | returning value =>
      change Repeats past _ (Run.recordTest name value.isTruthy location)
        (Run.recordTest name (value.atop past).isTruthy location)
      rw [Value.isTruthy_atop]
      exact .recordTest name value.isTruthy location
  | breaking => exact .fail _ _ _
  | continuing => exact .fail _ _ _

/-- A value that is moved prints the same line. -/
protected theorem print (value : Value) :
    Repeats past id (Run.print value) (Run.print (value.atop past)) := by
  refine .modify (fun _ => rfl) fun machine => ?_
  change _ = { machine.atop past with
    output := machine.output.push ((machine.store.atop past).text (value.atop past)) }
  rw [Store.text_atop]
  rfl

/-- Counting the rounds of a loop repeats. -/
protected theorem roundsOf (count : Value) (location : Location) :
    Repeats past id (Run.roundsOf count location) (Run.roundsOf (count.atop past) location) := by
  cases count with
  | number value => exact .pure (Number.repeatCount value)
  | _ => exact .fail _ _ _

/-- A step in a new scope inside of the current one. -/
protected theorem inside {step : Run Completion} (repeats : Repeats past (·.atop past) step step)
    (tag : ScopeTag) :
    Repeats past (·.atop past)
      (MonadState.get >>= fun machine : Machine => within machine.env tag [] step)
      (MonadState.get >>= fun machine : Machine => within machine.env tag [] step) :=
  .get fun machine _ => repeats.within machine.env tag []

/-- A round of a loop that runs its body. -/
protected theorem afterBody {step : Run Completion}
    (repeats : Repeats past (·.atop past) step step) :
    Repeats past (Option.map (·.atop past)) (do return Run.afterBody (← step))
      (do return Run.afterBody (← step)) := by
  refine repeats.bind fun completion => ?_
  rw [afterBody_atop]
  exact .pure (Run.afterBody completion)

/-- A statement is executed as it is alone if what is inside of it is. -/
protected theorem executeStep (earlier : past.Rooted) (outermost : setting.globals = ⟨0⟩)
    (isolated : setting.modules = []) (repeats : inner.Repeat past) (statement : Statement)
    (proper : statement.isProper = true) :
    Repeats past (·.atop past) (Run.executeStep setting inner statement)
      (Run.executeStep setting inner statement) := by
  have ends : Repeats past (·.atop past) (pure Completion.normal) (pure Completion.normal) :=
    .pure Completion.normal
  have decided (completion : Completion) :
      Repeats past (Option.map (·.atop past)) (pure (some completion))
        (pure (some (completion.atop past))) := .pure (some completion)
  cases statement with
  | expression expr location => exact (repeats.evaluate expr).andThen ends
  | varDecl name initial isFinal location =>
      exact (Repeats.valueOrNil repeats.evaluate initial).bind fun value =>
        (Repeats.define earlier name value isFinal).andThen ends
  | block body location =>
      exact (repeats.executeAll body proper).inside (.block body location)
  | ifElse condition thenBranch elseBranch location =>
      refine (repeats.evaluate condition).bind fun condition => ?_
      cases elseBranch with
      | none => exact .truthy condition (repeats.execute thenBranch proper) ends
      | some elseBranch =>
          rw [Statement.isProper, Bool.and_eq_true] at proper
          exact .truthy condition (repeats.execute thenBranch proper.1)
            (repeats.execute elseBranch proper.2)
  | whileLoop condition body location =>
      refine .untilDone ((repeats.evaluate condition).bind fun condition => ?_) roundBound
      exact .truthy condition (repeats.execute body proper).afterBody (decided .normal)
  | doWhile body condition location =>
      refine .untilDone ((repeats.execute body proper).bind fun completion => ?_) roundBound
      rw [afterBody_atop]
      cases Run.afterBody completion with
      | some completion => exact decided completion
      | none =>
          exact (repeats.evaluate condition).bind fun condition =>
            .truthy condition (.pure none) (decided .normal)
  | repeatLoop count body location =>
      exact (repeats.evaluate count).bind fun count => (Repeats.roundsOf count location).bind
        fun rounds => .times (repeats.execute body proper).afterBody rounds
  | function decl =>
      rw [Statement.isProper, Bool.and_eq_true, FunctionDecl.isProper_eq] at proper
      have plain : decl.kind ≠ .constructor := by simpa using proper.1
      exact (Repeats.declareFunction earlier plain proper.2).andThen ends
  | classDecl decl => exact (Repeats.declareClass earlier outermost proper).andThen ends
  | returning value location =>
      exact (Repeats.valueOrNil repeats.evaluate value).bind fun value =>
        .pure (Completion.returning value)
  | breaking location => exact .pure Completion.breaking
  | continuing location => exact .pure Completion.continuing
  | print expr location =>
      exact (repeats.evaluate expr).bind fun value => (Repeats.print value).andThen ends
  | test name body location =>
      exact ((repeats.executeAll body proper).inside (.test body location)).bind fun completion =>
        .testResult name completion location
  | moduleDecl name location =>
      rw [Run.executeStep, declareModule, moduleNamed isolated]
      exact .fail _ _ _
  | nativeFunction moduleName name params location =>
      rw [Run.executeStep, declareNative, moduleNamed isolated]
      exact .fail _ _ _
  | extension id className decl location =>
      rw [Statement.isProper, FunctionDecl.isProper_eq] at proper
      exact (Repeats.declareExtension earlier outermost id className proper location).andThen ends

/-- Executing statements in order repeats if the routines inside of them do. -/
protected theorem executeAllStep (repeats : inner.Repeat past) (statements : List Statement)
    (proper : Statement.areProper statements = true) :
    Repeats past (·.atop past) (Run.executeAllStep inner statements)
      (Run.executeAllStep inner statements) := by
  cases statements with
  | nil => exact .pure Completion.normal
  | cons statement rest =>
      rw [Statement.areProper, Bool.and_eq_true] at proper
      refine (repeats.execute statement proper.1).bind fun completion => ?_
      cases completion with
      | normal => exact repeats.executeAll rest proper.2
      | returning value => exact .pure (Completion.returning value)
      | breaking => exact .pure Completion.breaking
      | continuing => exact .pure Completion.continuing

end Repeats

/-! ### Runs -/

/-- However deep a run may nest, its routines repeat. -/
theorem routines_repeat (earlier : past.Rooted) (outermost : setting.globals = ⟨0⟩)
    (isolated : setting.modules = []) (depth : Nat) : (routines setting depth).Repeat past := by
  induction depth with
  | zero =>
      exact ⟨fun _ => .exhausted _, fun _ _ => .exhausted _, fun _ _ => .exhausted _⟩
  | succ depth ih =>
      exact ⟨fun expr => (Repeats.evaluateStep earlier outermost isolated ih expr).noting expr,
        Repeats.executeStep earlier outermost isolated ih, Repeats.executeAllStep ih⟩

private theorem interpretBy_repeats {execute : Statement → Run Completion}
    (repeats : ∀ statement, statement.isProper = true →
      Repeats past (·.atop past) (execute statement) (execute statement))
    (program : Program) (proper : Statement.areProper program = true) :
    Repeats past id (interpretBy execute program) (interpretBy execute program) := by
  induction program with
  | nil => exact .pure ()
  | cons statement rest ih =>
      rw [Statement.areProper, Bool.and_eq_true] at proper
      refine (repeats statement proper.1).bind fun completion => ?_
      rw [Completion.jump?_atop]
      cases completion.jump? with
      | none => exact ih proper.2
      | some jump => exact .fail _ _ _

/-- A run of a program that ends well ends well on top of what earlier runs left. -/
theorem interpret_repeats (earlier : past.Rooted) (outermost : setting.globals = ⟨0⟩)
    (isolated : setting.modules = []) {program : Program}
    (proper : Statement.areProper program = true) :
    Repeats past id (interpret setting program) (interpret setting program) :=
  interpretBy_repeats (routines_repeat earlier outermost isolated depthBound).execute program proper

end Run

end Scriptlet
