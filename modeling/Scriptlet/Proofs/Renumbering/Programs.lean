import Scriptlet.Proofs.Renumbering.Calling
import Scriptlet.Run.Evaluate

/-!
# Runs with other numbers

The run of a program whose nodes and classes have other numbers goes as that of the program
(`Run.interpret_mirrored`): it prints the same lines, tests find the same, and it ends with the same
fault or well.
-/

namespace Scriptlet

/-- The routines of a run with other numbers do what those of the run do. -/
structure Run.Routines.Mirror (numbers : Renumbering) (bound : Nat) (inner image : Run.Routines) :
    Prop where
  evaluate : ∀ expr, Run.Mirrored numbers bound (Value.renumber numbers)
    (image.evaluate (expr.renumber numbers.onNode)) (inner.evaluate expr)
  execute : ∀ statement, Run.Mirrored numbers bound (Completion.renumber numbers)
    (image.execute (statement.renumber numbers.onNode)) (inner.execute statement)
  executeAll : ∀ statements, Run.Mirrored numbers bound (Completion.renumber numbers)
    (image.executeAll (Statement.renumberAll numbers.onNode statements))
    (inner.executeAll statements)

namespace Run

variable {numbers : Renumbering} {bound : Nat} {setting settingTwin : Setting}
  {inner image : Routines}

private theorem afterBody_renumber (completion : Completion) :
    afterBody (completion.renumber numbers) =
      (afterBody completion).map (Completion.renumber numbers) := by
  cases completion <;> rfl

namespace Mirrored

/-! ### Expressions -/

/-- Setting an element of an array goes the same with other numbers. -/
protected theorem setElement (target index value : Value) (location : Location) :
    Mirrored numbers bound id
      (Run.setElement (target.renumber numbers) (index.renumber numbers) (value.renumber numbers)
        location)
      (Run.setElement target index value location) := by
  refine .look fun store twin met => ?_
  rw [Value.elementPlace_move met.moved]
  refine (Mirrored.orFail rfl location).bind fun found => ?_
  exact .change (fun _ _ met => met.setElement found.1 found.2 value) (fun _ => rfl)
    (fun _ => rfl) fun _ => rfl

/-- Making an array goes the same with other numbers. -/
protected theorem newArray (values : List Value) :
    Mirrored numbers bound id
      (Run.create (·.newArray (values.map (Value.renumber numbers)).toArray))
      (Run.create (·.newArray values.toArray)) := by
  rw [← List.map_toArray]
  exact .create (fun _ _ met => congrArg ArrayRef.mk met.arrays_size)
    (fun _ _ met => met.newArray values.toArray) (fun _ => rfl) (fun _ => rfl) fun _ => rfl

/-- What comes after a test of a value. -/
protected theorem truthy {α β : Type} {move : α → β} (value : Value) {yes no : Run α}
    {yesImage noImage : Run β} (holds : Mirrored numbers bound move yesImage yes)
    (fails : Mirrored numbers bound move noImage no) :
    Mirrored numbers bound move (if (value.renumber numbers).isTruthy then yesImage else noImage)
      (if value.isTruthy then yes else no) := by
  rw [Value.isTruthy_move]
  exact .ite holds fails

/-- An expression is evaluated as it is with other numbers if what is inside of it is. -/
protected theorem evaluateStep (same : setting.Twin numbers.onNode settingTwin)
    (mirror : inner.Mirror numbers bound image) (expr : Expr) :
    Mirrored numbers bound (Value.renumber numbers)
      (Run.evaluateStep settingTwin image (expr.renumber numbers.onNode))
      (Run.evaluateStep setting inner expr) := by
  have called (callee : Value) (arguments : List Value) (location : Location) :=
    Mirrored.call same mirror.evaluate mirror.executeAll callee arguments location
  cases expr with
  | literal value location =>
      have made : Mirrored numbers bound (Value.renumber numbers) (pure _)
        (pure (Value.ofLiteral value)) := .pure _
      rwa [show (Value.ofLiteral value).renumber numbers = .ofLiteral value from
        Value.move_ofLiteral _ value] at made
  | array elements location =>
      exact (Mirrored.valuesOf mirror.evaluate elements).bind fun values =>
        (Mirrored.newArray values).bind fun ref => .pure (Value.array ref)
  | var node name location => exact .lookup same node name location
  | assign node name value location =>
      exact (mirror.evaluate value).bind fun value =>
        (Mirrored.assign same node name value location).andThen (.pure value)
  | binary op left right location =>
      refine (mirror.evaluate left).bind fun left => (mirror.evaluate right).bind fun right =>
        .look fun store twin met => ?_
      exact .orFail (Value.binary_move left right met.moved Renumbering.moving_apart op) location
  | logical op left right location =>
      refine (mirror.evaluate left).bind fun left => ?_
      rw [Value.isTruthy_move]
      refine .ite (.pure (Value.bool _)) ((mirror.evaluate right).bind fun right => ?_)
      rw [Value.isTruthy_move]
      exact .pure (Value.bool _)
  | bitwise op left right location =>
      exact (mirror.evaluate left).bind fun left => (mirror.evaluate right).bind fun right =>
        .orFail (Value.bitwise_move numbers.moving left right op) location
  | unary op operand location =>
      exact (mirror.evaluate operand).bind fun operand =>
        .orFail (Value.unary_move numbers.moving op operand) location
  | prefixCall node name operand location =>
      exact (Mirrored.lookup same node name location).bind fun callee =>
        (mirror.evaluate operand).bind fun operand => called callee [operand] location
  | infixCall node name left right location =>
      exact (Mirrored.lookup same node name location).bind fun callee =>
        (mirror.evaluate left).bind fun left => (mirror.evaluate right).bind fun right =>
          called callee [left, right] location
  | ternary condition thenBranch elseBranch location =>
      exact (mirror.evaluate condition).bind fun condition =>
        .truthy condition (mirror.evaluate thenBranch) (mirror.evaluate elseBranch)
  | elvis value fallback location =>
      exact (mirror.evaluate value).bind fun value =>
        .truthy value (.pure value) (mirror.evaluate fallback)
  | call callee arguments location =>
      exact (mirror.evaluate callee).bind fun callee =>
        (Mirrored.valuesOf mirror.evaluate arguments).bind fun arguments =>
          called callee arguments location
  | get object name location =>
      exact (mirror.evaluate object).bind fun object => .property object name location
  | set object name value location =>
      exact (mirror.evaluate object).bind fun object => (mirror.evaluate value).bind fun value =>
        (Mirrored.setProperty object name value location).andThen (.pure value)
  | getIndex array index location =>
      refine (mirror.evaluate array).bind fun array => (mirror.evaluate index).bind fun index =>
        .look fun store twin met => ?_
      exact .orFail (Value.elementAt_move met.moved array index) location
  | setIndex array index value location =>
      exact (mirror.evaluate array).bind fun array => (mirror.evaluate index).bind fun index =>
        (mirror.evaluate value).bind fun value =>
          (Mirrored.setElement array index value location).andThen (.pure value)
  | grouping grouped location => exact mirror.evaluate grouped
  | thisRef node location => exact .lookup same node "this" location
  | superRef node method location => exact .superMethod same node method location

/-! ### Statements -/

/-- The outcome of a test is recorded the same. -/
protected theorem recordTest (name : String) (passed : Bool) (location : Location) :
    Mirrored numbers bound (Completion.renumber numbers) (Run.recordTest name passed location)
      (Run.recordTest name passed location) := by
  have recorded : Mirrored numbers bound id
      (modify fun machine => { machine with tests := machine.tests.push ⟨name, passed⟩ })
      (modify fun machine => { machine with tests := machine.tests.push ⟨name, passed⟩ }) :=
    .modify (fun _ => rfl) fun _ _ met => { met with
      tests := congrArg (Array.push · _) met.tests }
  exact recorded.andThen (.ite (.pure Completion.normal) (.fail _ _))

/-- What a test makes of the end of its body is the same with other numbers. -/
protected theorem testResult (name : String) (completion : Completion) (location : Location) :
    Mirrored numbers bound (Completion.renumber numbers)
      (Run.testResult name (completion.renumber numbers) location)
      (Run.testResult name completion location) := by
  cases completion with
  | normal => exact .recordTest name true location
  | returning value =>
      change Mirrored numbers bound _
        (Run.recordTest name (value.renumber numbers).isTruthy location) _
      rw [Value.isTruthy_move]
      exact .recordTest name value.isTruthy location
  | breaking => exact .fail _ _
  | continuing => exact .fail _ _

/-- A value prints the same line with other numbers. -/
protected theorem print (value : Value) :
    Mirrored numbers bound id (Run.print (value.renumber numbers)) (Run.print value) := by
  refine .modify (fun _ => rfl) fun machine twin met => ?_
  refine { met with output := ?_ }
  dsimp only
  rw [met.output, met.store.moved.text Renumbering.moving_apart]

/-- A loop has as many rounds with other numbers. -/
protected theorem roundsOf (count : Value) (location : Location) :
    Mirrored numbers bound id (Run.roundsOf (count.renumber numbers) location)
      (Run.roundsOf count location) := by
  cases count with
  | number value => exact .pure (Number.repeatCount value)
  | _ => exact .fail _ _

/-- A step in a new scope inside of the current one. -/
protected theorem inside {step image : Run Completion}
    (mirrors : Mirrored numbers bound (Completion.renumber numbers) image step) (tag : ScopeTag) :
    Mirrored numbers bound (Completion.renumber numbers)
      (get >>= fun machine : Machine =>
        within machine.env (tag.renumber numbers.onNode) [] image)
      (get >>= fun machine : Machine => within machine.env tag [] step) :=
  .see fun machine twin near => by
    rw [near.env]
    exact mirrors.within machine.env tag []

/-- A round of a loop that runs its body. -/
protected theorem afterBody {step image : Run Completion}
    (mirrors : Mirrored numbers bound (Completion.renumber numbers) image step) :
    Mirrored numbers bound (Option.map (Completion.renumber numbers))
      (do return Run.afterBody (← image)) (do return Run.afterBody (← step)) := by
  refine mirrors.bind fun completion => ?_
  rw [afterBody_renumber]
  exact .pure (Run.afterBody completion)

/-- A statement is executed as it is with other numbers if what is inside of it is. -/
protected theorem executeStep (same : setting.Twin numbers.onNode settingTwin)
    (mirror : inner.Mirror numbers bound image) (statement : Statement) :
    Mirrored numbers bound (Completion.renumber numbers)
      (Run.executeStep settingTwin image (statement.renumber numbers.onNode))
      (Run.executeStep setting inner statement) := by
  have ends : Mirrored numbers bound (Completion.renumber numbers) (pure Completion.normal)
      (pure Completion.normal) := .pure Completion.normal
  have decided (completion : Completion) :
      Mirrored numbers bound (Option.map (Completion.renumber numbers))
        (pure (some (completion.renumber numbers))) (pure (some completion)) :=
    .pure (some completion)
  cases statement with
  | expression expr location => exact (mirror.evaluate expr).andThen ends
  | varDecl name initial isFinal location =>
      exact (Mirrored.valueOrNil mirror.evaluate initial).bind fun value =>
        (Mirrored.define name value isFinal).andThen ends
  | block body location => exact (mirror.executeAll body).inside (.block body location)
  | ifElse condition thenBranch elseBranch location =>
      cases elseBranch with
      | none =>
          exact (mirror.evaluate condition).bind fun condition =>
            .truthy condition (mirror.execute thenBranch) ends
      | some elseBranch =>
          exact (mirror.evaluate condition).bind fun condition =>
            .truthy condition (mirror.execute thenBranch) (mirror.execute elseBranch)
  | whileLoop condition body location =>
      refine .untilDone ((mirror.evaluate condition).bind fun condition => ?_) roundBound
      exact .truthy condition (mirror.execute body).afterBody (decided .normal)
  | doWhile body condition location =>
      refine .untilDone ((mirror.execute body).bind fun completion => ?_) roundBound
      rw [afterBody_renumber]
      cases Run.afterBody completion with
      | some completion => exact decided completion
      | none =>
          exact (mirror.evaluate condition).bind fun condition =>
            .truthy condition (.pure none) (decided .normal)
  | repeatLoop count body location =>
      exact (mirror.evaluate count).bind fun count => (Mirrored.roundsOf count location).bind
        fun rounds => .times (mirror.execute body).afterBody rounds
  | function decl => exact (Mirrored.declareFunction decl).andThen ends
  | classDecl decl => exact (Mirrored.declareClass same decl).andThen ends
  | returning value location =>
      exact (Mirrored.valueOrNil mirror.evaluate value).bind fun value =>
        .pure (Completion.returning value)
  | breaking location => exact .pure Completion.breaking
  | continuing location => exact .pure Completion.continuing
  | print expr location =>
      exact (mirror.evaluate expr).bind fun value => (Mirrored.print value).andThen ends
  | test name body location =>
      exact ((mirror.executeAll body).inside (.test body location)).bind fun completion =>
        .testResult name completion location
  | moduleDecl name location => exact (Mirrored.declareModule same name location).andThen ends
  | nativeFunction moduleName name params location =>
      have declared : Mirrored numbers bound id
          (Run.declareNative settingTwin moduleName name (params.map (Parameter.relabel id)).length
            location)
          (Run.declareNative setting moduleName name params.length location) := by
        rw [List.length_map]
        exact .declareNative same moduleName name params.length location
      exact declared.andThen ends
  | extension node className decl location =>
      exact (Mirrored.declareExtension same node className decl location).andThen ends

/-- Executing statements in order goes the same with other numbers, if the routines inside of them
do. -/
protected theorem executeAllStep (mirror : inner.Mirror numbers bound image)
    (statements : List Statement) :
    Mirrored numbers bound (Completion.renumber numbers)
      (Run.executeAllStep image (Statement.renumberAll numbers.onNode statements))
      (Run.executeAllStep inner statements) := by
  cases statements with
  | nil => exact .pure Completion.normal
  | cons statement rest =>
      refine (mirror.execute statement).bind fun completion => ?_
      cases completion with
      | normal => exact mirror.executeAll rest
      | returning value => exact .pure (Completion.returning value)
      | breaking => exact .pure Completion.breaking
      | continuing => exact .pure Completion.continuing

end Mirrored

/-! ### Runs -/

/-- However deep a run may nest, its routines do the same with other numbers. -/
theorem routines_mirror (same : setting.Twin numbers.onNode settingTwin) (depth : Nat) :
    (routines setting depth).Mirror numbers bound (routines settingTwin depth) := by
  induction depth with
  | zero => exact ⟨fun _ => .throw _, fun _ => .throw _, fun _ => .throw _⟩
  | succ depth ih =>
      exact ⟨fun expr => (Mirrored.evaluateStep same ih expr).noting expr _,
        Mirrored.executeStep same ih, Mirrored.executeAllStep ih⟩

private theorem interpretBy_mirrored {execute executeImage : Statement → Run Completion}
    (mirrors : ∀ statement, Mirrored numbers bound (Completion.renumber numbers)
      (executeImage (statement.renumber numbers.onNode)) (execute statement))
    (program : Program) :
    Mirrored numbers bound id
      (interpretBy executeImage (Statement.renumberAll numbers.onNode program))
      (interpretBy execute program) := by
  induction program with
  | nil => exact .pure ()
  | cons statement rest ih =>
      refine (mirrors statement).bind fun completion => ?_
      have jump : (completion.renumber numbers).jump? = completion.jump? := by
        cases completion <;> rfl
      rw [jump]
      cases completion.jump? with
      | none => exact ih
      | some jump =>
          dsimp only
          rw [statement.location_renumber]
          exact .fail _ _

/-- The run of a program goes as that of the program with other numbers. -/
theorem interpret_mirrored (same : setting.Twin numbers.onNode settingTwin) (program : Program) :
    Mirrored numbers bound id
      (interpret settingTwin (Statement.renumberAll numbers.onNode program))
      (interpret setting program) :=
  interpretBy_mirrored (routines_mirror same depthBound).execute program

end Run

end Scriptlet
