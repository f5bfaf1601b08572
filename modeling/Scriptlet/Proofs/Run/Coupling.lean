import Scriptlet.Proofs.Run.Silent

/-!
# Coupled runs

A run and a changed one, in which routines of every depth have been replaced
(`Run.changedRoutines`), stay related if a relation between their steps holds of silent steps and is
kept by whatever composes steps. The laws of such a relation say so, each about one way to compose
(`Coupling.Lawful`); what follows is one induction over the depth for all of them
(`Coupling.Lawful.routines`).
-/

namespace Scriptlet

namespace Run

variable {α : Type}

/-- A step that is taken if calls do not nest too deep for one more. -/
def ifRoom (setting : Setting) (location : Location) (step : Run α) : Run α := do
  if setting.options.maxCallDepth ≤ (← get).callDepth then
    fail (.callDepthExceeded setting.options.maxCallDepth) location
  else step

/-- Where there is room for one more call, the step is taken. -/
theorem ifRoom_of_lt {setting : Setting} {location : Location} {step : Run α} {machine : Machine}
    (room : machine.callDepth < setting.options.maxCallDepth) :
    ifRoom setting location step machine = step machine := by
  unfold ifRoom
  rw [get_bind, if_neg (Nat.not_le_of_lt room)]

/-- Where calls nest as deep as they may, the step fails and changes nothing. -/
theorem ifRoom_of_le {setting : Setting} {location : Location} {step : Run α} {machine : Machine}
    (full : setting.options.maxCallDepth ≤ machine.callDepth) :
    ifRoom setting location step machine =
      .error (.fault ⟨.callDepthExceeded setting.options.maxCallDepth, location⟩) machine := by
  unfold ifRoom
  rw [get_bind, if_pos full]
  rfl

/-- A call, with the check for room next to the step it is about. -/
theorem callFunction_eq (setting : Setting) (runBody : List Statement → Run Completion)
    (function : FunctionObject) (arguments : List Value) (location : Location) :
    callFunction setting runBody function arguments location =
      if arguments.length ≠ function.decl.params.length then
        fail (.arityMismatch function.decl.params.length arguments.length) location
      else (do
        let completion ← asOwner function.owner <| ifRoom setting location <| inCall <|
          within function.closure (.body function.decl)
            (bindParams function.decl.params arguments) (runBody function.decl.body)
        callResult function completion location) := by
  unfold callFunction
  extract_lets arity
  split
  · rfl
  funext machine
  -- Whose code runs makes no difference to how deep calls nest.
  let entered := { machine with owners := function.owner :: machine.owners }
  rw [get_bind]
  by_cases full : setting.options.maxCallDepth ≤ machine.callDepth
  · have stops (step : Run Completion) := (ifRoom_of_le full :
      ifRoom setting location step entered = .error _ entered)
    rw [if_pos full]
    refine (bind_of_error ?_).symm
    unfold asOwner
    rw [stops]
    rfl
  · have enters (step : Run Completion) := (ifRoom_of_lt (Nat.lt_of_not_le full) :
      ifRoom setting location step entered = step entered)
    rw [if_neg full]
    change EStateM.bind _ _ machine = EStateM.bind _ _ machine
    unfold EStateM.bind asOwner
    rw [enters]

namespace Routines

/-- The routines that have these for what is inside of their code. -/
def outward (setting : Setting) (inner : Routines) : Routines where
  evaluate expr := noting expr (evaluateStep setting inner expr)
  execute := executeStep setting inner
  executeAll := executeAllStep inner

/-- Routines that put a stamp on every test they execute. -/
def stamped (stamp : String → Run Completion → Run Completion) (routines : Routines) :
    Routines where
  evaluate := routines.evaluate
  execute
    | .test name body location => stamp name (routines.execute (.test name body location))
    | statement => routines.execute statement
  executeAll := routines.executeAll

/-- A stamp that does nothing leaves the routines as they are. -/
theorem stamped_self (routines : Routines) : routines.stamped (fun _ step => step) = routines := by
  obtain ⟨evaluate, execute, executeAll⟩ := routines
  unfold stamped
  congr
  funext statement
  cases statement <;> rfl

end Routines

/-- The routines of a run that nests at most so deep and in which those of every depth are
changed. -/
def changedRoutines (setting : Setting) (change : Routines → Routines) : Nat → Routines
  | 0 => change (routines setting 0)
  | depth + 1 => change ((changedRoutines setting change depth).outward setting)

/-- Without a change the routines are those of the run. -/
theorem changedRoutines_id (setting : Setting) (depth : Nat) :
    changedRoutines setting id depth = routines setting depth := by
  induction depth with
  | zero => rfl
  | succ depth ih =>
      rw [changedRoutines, ih]
      rfl

end Run

/-- A relation between the steps of a run and those in their place in a changed run. -/
structure Coupling where
  relates : {α : Type} → Run α → Run α → Prop

/-- Routines that are related, piece of code by piece of code. -/
structure Coupling.Couples (coupling : Coupling) (inner twin : Run.Routines) : Prop where
  evaluate : ∀ expr, coupling.relates (inner.evaluate expr) (twin.evaluate expr)
  execute : ∀ statement, coupling.relates (inner.execute statement) (twin.execute statement)
  executeAll : ∀ statements,
    coupling.relates (inner.executeAll statements) (twin.executeAll statements)

/-- What a relation between steps must obey, if the changed run puts a stamp on tests. -/
structure Coupling.Lawful (coupling : Coupling) (setting : Setting)
    (stamp : String → Run Completion → Run Completion) : Prop where
  silent : ∀ {α : Type} {step : Run α}, step.Silent → coupling.relates step step
  bind : ∀ {α β : Type} {step twin : Run α} {next nextTwin : α → Run β},
    coupling.relates step twin → (∀ value, coupling.relates (next value) (nextTwin value)) →
      coupling.relates (step >>= next) (twin >>= nextTwin)
  here : ∀ {α : Type} {next nextTwin : ScopeRef → Run α},
    (∀ scope, coupling.relates (next scope) (nextTwin scope)) →
      coupling.relates (get >>= fun machine => next machine.env)
        (get >>= fun machine => nextTwin machine.env)
  inScope : ∀ {α : Type} (scope : ScopeRef) {step twin : Run α}, coupling.relates step twin →
    coupling.relates (Run.inScope scope step) (Run.inScope scope twin)
  asOwner : ∀ {α : Type} (owner : Option ClassRef) {step twin : Run α},
    coupling.relates step twin → coupling.relates (Run.asOwner owner step) (Run.asOwner owner twin)
  inCall : ∀ {α : Type} (location : Location) {step twin : Run α}, coupling.relates step twin →
    coupling.relates (Run.ifRoom setting location (Run.inCall step))
      (Run.ifRoom setting location (Run.inCall twin))
  noting : ∀ (expr : Expr) {step twin : Run Value}, coupling.relates step twin →
    coupling.relates (Run.noting expr step) (Run.noting expr twin)
  print : ∀ value, coupling.relates (Run.print value) (Run.print value)
  test : ∀ (name : String) (location : Location) {body twin : Run Completion},
    coupling.relates body twin →
      coupling.relates (body >>= fun completion => Run.testResult name completion location)
        (stamp name (twin >>= fun completion => Run.testResult name completion location))
  exhausted : ∀ name, coupling.relates Run.exhausted (stamp name Run.exhausted)

namespace Coupling.Lawful

open Run

variable {α : Type} {coupling : Coupling} {setting : Setting}
  {stamp : String → Run Completion → Run Completion} {inner twin : Routines}

private theorem pure (lawful : coupling.Lawful setting stamp) (value : α) :
    coupling.relates (pure value) (pure value) :=
  lawful.silent (.pure value)

private theorem within (lawful : coupling.Lawful setting stamp) (enclosing : ScopeRef)
    (tag : ScopeTag)
    (bindings : Table Binding) {step twin : Run α} (related : coupling.relates step twin) :
    coupling.relates (Run.within enclosing tag bindings step)
      (Run.within enclosing tag bindings twin) :=
  lawful.bind (lawful.silent (.newScope _ _ _)) fun scope => lawful.inScope scope related

private theorem ite (condition : Prop) [Decidable condition]
    {first second firstTwin secondTwin : Run α}
    (yes : coupling.relates first firstTwin) (no : coupling.relates second secondTwin) :
    coupling.relates (if condition then first else second)
      (if condition then firstTwin else secondTwin) := by
  split
  · exact yes
  · exact no

private theorem valueOrNil (lawful : coupling.Lawful setting stamp)
    (couples : coupling.Couples inner twin) (expr : Option Expr) :
    coupling.relates (Run.valueOrNil inner.evaluate expr) (Run.valueOrNil twin.evaluate expr) := by
  cases expr with
  | some expr => exact couples.evaluate expr
  | none => exact lawful.pure _

private theorem valuesOf (lawful : coupling.Lawful setting stamp)
    (couples : coupling.Couples inner twin) (exprs : List Expr) :
    coupling.relates (Run.valuesOf inner.evaluate exprs) (Run.valuesOf twin.evaluate exprs) := by
  induction exprs with
  | nil => exact lawful.pure _
  | cons expr rest ih =>
      exact lawful.bind (couples.evaluate expr) fun _ => lawful.bind ih fun _ => lawful.pure _

/-! ### Calls -/

private theorem callFunction (lawful : coupling.Lawful setting stamp)
    (couples : coupling.Couples inner twin) (function : FunctionObject) (arguments : List Value)
    (location : Location) :
    coupling.relates (Run.callFunction setting inner.executeAll function arguments location)
      (Run.callFunction setting twin.executeAll function arguments location) := by
  rw [callFunction_eq, callFunction_eq]
  refine ite _ (lawful.silent (.fail _ nofun)) (lawful.bind (lawful.asOwner _ ?_) fun completion =>
    lawful.silent (.callResult function completion location))
  exact lawful.inCall location (lawful.within _ _ _ (couples.executeAll _))

private theorem initializeDeclared (lawful : coupling.Lawful setting stamp)
    (couples : coupling.Couples inner twin) (object : ObjectRef) (owner : ClassRef)
    (fields : List FieldDecl) :
    coupling.relates (Run.initializeDeclared inner.evaluate object owner fields)
      (Run.initializeDeclared twin.evaluate object owner fields) := by
  induction fields with
  | nil => exact lawful.pure _
  | cons field rest ih =>
      exact lawful.bind (lawful.valueOrNil couples _) fun _ =>
        lawful.bind (lawful.silent (.writeField _ _ _ _)) fun _ => ih

private theorem initializeFields (lawful : coupling.Lawful setting stamp)
    (couples : coupling.Couples inner twin) (object : ObjectRef) (classes : List ClassRef) :
    coupling.relates (Run.initializeFields inner.evaluate object classes)
      (Run.initializeFields twin.evaluate object classes) := by
  induction classes with
  | nil => exact lawful.pure _
  | cons owner rest ih =>
      refine lawful.bind (lawful.bind (lawful.silent (.inspect _)) fun found => ?_) fun _ => ih
      split
      · refine ite _ (lawful.pure _) (lawful.asOwner _ ?_)
        exact lawful.bind (lawful.silent .noteInitializing) fun _ =>
          lawful.within _ _ _ (lawful.initializeDeclared couples _ _ _)
      · exact lawful.pure _

private theorem instantiate (lawful : coupling.Lawful setting stamp)
    (couples : coupling.Couples inner twin) (ofClass : ClassRef) (arguments : List Value)
    (location : Location) :
    coupling.relates
      (Run.instantiate setting inner.evaluate inner.executeAll ofClass arguments location)
      (Run.instantiate setting twin.evaluate twin.executeAll ofClass arguments location) := by
  refine lawful.bind (lawful.silent (.newObject _)) fun object =>
    lawful.bind (lawful.silent (.inspect _)) fun lineage =>
      lawful.bind (lawful.initializeFields couples _ _) fun _ =>
        lawful.bind (lawful.silent (.inspect _)) fun constructor => ?_
  split
  · exact lawful.bind (lawful.silent (.bindMethod _ _)) fun _ =>
      lawful.bind (lawful.callFunction couples _ _ _) fun _ => lawful.pure _
  · exact ite _ (lawful.pure _) (lawful.silent (.fail _ nofun))

private theorem call (lawful : coupling.Lawful setting stamp)
    (couples : coupling.Couples inner twin)
    (callee : Value) (arguments : List Value) (location : Location) :
    coupling.relates
      (Run.call setting inner.evaluate inner.executeAll callee arguments location)
      (Run.call setting twin.evaluate twin.executeAll callee arguments location) := by
  unfold Run.call
  split
  · refine lawful.bind (lawful.silent (.inspect _)) fun found => ?_
    split
    · exact lawful.callFunction couples _ _ _
    · exact lawful.silent (.fail _ nofun)
  · exact lawful.instantiate couples _ _ _
  · exact lawful.silent (.callNative _ _ _)
  · exact lawful.silent (.fail _ nofun)

/-! ### Expressions and statements -/

private theorem evaluateStep (lawful : coupling.Lawful setting stamp)
    (couples : coupling.Couples inner twin) (expr : Expr) :
    coupling.relates (Run.evaluateStep setting inner expr)
      (Run.evaluateStep setting twin expr) := by
  have inside := couples.evaluate
  cases expr with
  | literal value location => exact lawful.pure _
  | array elements location =>
      exact lawful.bind (lawful.valuesOf couples elements) fun _ =>
        lawful.bind (lawful.silent (.newArray _)) fun _ => lawful.pure _
  | var id name location => exact lawful.silent (.lookup id name location)
  | assign id name value location =>
      exact lawful.bind (inside value) fun _ =>
        lawful.bind (lawful.silent (.assign _ _ _ _)) fun _ => lawful.pure _
  | binary op left right location =>
      refine lawful.bind (inside left) fun _ => lawful.bind (inside right) fun _ =>
        lawful.silent (.reading (fun machine => ?_) fun _ _ => rfl)
      exact .orFail _ fun _ => Value.isOperand_of_binary
  | logical op left right location =>
      exact lawful.bind (inside left) fun _ => ite _ (lawful.pure _)
        (lawful.bind (inside right) fun _ => lawful.pure _)
  | bitwise op left right location =>
      exact lawful.bind (inside left) fun _ => lawful.bind (inside right) fun _ =>
        lawful.silent (.orFail _ fun _ => Value.isOperand_of_bitwise)
  | unary op operand location =>
      exact lawful.bind (inside operand) fun _ =>
        lawful.silent (.orFail _ fun _ => Value.isOperand_of_unary)
  | prefixCall id name operand location =>
      exact lawful.bind (lawful.silent (.lookup _ _ _)) fun _ =>
        lawful.bind (inside operand) fun _ => lawful.call couples _ _ _
  | infixCall id name left right location =>
      exact lawful.bind (lawful.silent (.lookup _ _ _)) fun _ =>
        lawful.bind (inside left) fun _ => lawful.bind (inside right) fun _ =>
          lawful.call couples _ _ _
  | ternary condition thenBranch elseBranch location =>
      exact lawful.bind (inside condition) fun _ => ite _ (inside thenBranch) (inside elseBranch)
  | elvis value fallback location =>
      exact lawful.bind (inside value) fun _ => ite _ (lawful.pure _) (inside fallback)
  | call callee arguments location =>
      exact lawful.bind (inside callee) fun _ =>
        lawful.bind (lawful.valuesOf couples arguments) fun _ => lawful.call couples _ _ _
  | get object name location =>
      exact lawful.bind (inside object) fun _ => lawful.silent (.property _ _ _)
  | set object name value location =>
      exact lawful.bind (inside object) fun _ => lawful.bind (inside value) fun _ =>
        lawful.bind (lawful.silent (.setProperty _ _ _ _)) fun _ => lawful.pure _
  | getIndex array index location =>
      refine lawful.bind (inside array) fun _ => lawful.bind (inside index) fun _ =>
        lawful.silent (.reading (fun machine => ?_) fun _ _ => rfl)
      exact .orFail _ fun _ => Value.isOperand_of_elementAt
  | setIndex array index value location =>
      exact lawful.bind (inside array) fun _ => lawful.bind (inside index) fun _ =>
        lawful.bind (inside value) fun _ =>
          lawful.bind (lawful.silent (.setElement _ _ _ _)) fun _ => lawful.pure _
  | grouping grouped location => exact inside grouped
  | thisRef id location => exact lawful.silent (.lookup id "this" location)
  | superRef id method location => exact lawful.silent (.superMethod id method location)

private theorem untilDone (lawful : coupling.Lawful setting stamp)
    {round roundTwin : Run (Option Completion)} (related : coupling.relates round roundTwin)
    (bound : Nat) :
    coupling.relates (Run.untilDone round bound) (Run.untilDone roundTwin bound) := by
  induction bound with
  | zero => exact lawful.silent .endless
  | succ bound ih =>
      refine lawful.bind related fun done => ?_
      cases done with
      | some completion => exact lawful.pure completion
      | none => exact ih

private theorem times (lawful : coupling.Lawful setting stamp)
    {round roundTwin : Run (Option Completion)} (related : coupling.relates round roundTwin)
    (count : Nat) :
    coupling.relates (Run.times round count) (Run.times roundTwin count) := by
  induction count with
  | zero => exact lawful.pure Completion.normal
  | succ count ih =>
      refine lawful.bind related fun done => ?_
      cases done with
      | some completion => exact lawful.pure completion
      | none => exact ih

/-- Statements are related where the changed run puts its stamp on tests. -/
theorem executeStep (lawful : coupling.Lawful setting stamp)
    (couples : coupling.Couples inner twin) (statement : Statement) :
    coupling.relates ((inner.outward setting).execute statement)
      (((twin.outward setting).stamped stamp).execute statement) := by
  have inside := couples.evaluate
  have body := couples.execute
  cases statement with
  | expression expr location => exact lawful.bind (inside expr) fun _ => lawful.pure _
  | varDecl name initial isFinal location =>
      exact lawful.bind (lawful.valueOrNil couples initial) fun _ =>
        lawful.bind (lawful.silent (.define _ _ _)) fun _ => lawful.pure _
  | block statements location =>
      exact lawful.here fun env =>
        lawful.within env (.block statements location) [] (couples.executeAll statements)
  | ifElse condition thenBranch elseBranch location =>
      refine lawful.bind (inside condition) fun _ => ite _ (body thenBranch) ?_
      cases elseBranch with
      | some elseBranch => exact body elseBranch
      | none => exact lawful.pure _
  | whileLoop condition loopBody location =>
      exact lawful.untilDone (lawful.bind (inside condition) fun _ =>
        ite _ (lawful.bind (body loopBody) fun _ => lawful.pure _) (lawful.pure _)) _
  | doWhile loopBody condition location =>
      refine lawful.untilDone (lawful.bind (body loopBody) fun completion => ?_) _
      split
      · exact lawful.pure _
      · exact lawful.bind (inside condition) fun _ => ite _ (lawful.pure _) (lawful.pure _)
  | repeatLoop count loopBody location =>
      exact lawful.bind (inside count) fun _ => lawful.bind (lawful.silent (.roundsOf _ _)) fun _ =>
        lawful.times (lawful.bind (body loopBody) fun _ => lawful.pure _) _
  | function decl =>
      exact lawful.bind (lawful.silent (.declareFunction decl)) fun _ => lawful.pure _
  | classDecl decl =>
      exact lawful.bind (lawful.silent (.declareClass decl)) fun _ => lawful.pure _
  | returning result location =>
      exact lawful.bind (lawful.valueOrNil couples result) fun _ => lawful.pure _
  | breaking location => exact lawful.pure _
  | continuing location => exact lawful.pure _
  | print expr location =>
      exact lawful.bind (inside expr) fun _ => lawful.bind (lawful.print _) fun _ => lawful.pure _
  | test name statements location =>
      exact lawful.test name location
        (lawful.here fun env =>
          lawful.within env (.test statements location) [] (couples.executeAll statements))
  | moduleDecl name location =>
      exact lawful.bind (lawful.silent (.declareModule _ _)) fun _ => lawful.pure _
  | nativeFunction moduleName name params location =>
      exact lawful.bind (lawful.silent (.declareNative _ _ _ _)) fun _ => lawful.pure _
  | extension id className decl location =>
      exact lawful.bind (lawful.silent (.declareExtension _ _ _ _)) fun _ => lawful.pure _

private theorem executeAllStep (lawful : coupling.Lawful setting stamp)
    (couples : coupling.Couples inner twin) (statements : List Statement) :
    coupling.relates (Run.executeAllStep inner statements)
      (Run.executeAllStep twin statements) := by
  cases statements with
  | nil => exact lawful.pure _
  | cons statement rest =>
      refine lawful.bind (couples.execute statement) fun completion => ?_
      split
      · exact couples.executeAll rest
      · exact lawful.pure _

private theorem outward (lawful : coupling.Lawful setting stamp)
    (couples : coupling.Couples inner twin) :
    coupling.Couples (inner.outward setting) ((twin.outward setting).stamped stamp) :=
  ⟨fun expr => lawful.noting expr (lawful.evaluateStep couples expr), lawful.executeStep couples,
    lawful.executeAllStep couples⟩

/-- A run is related to a changed one if the change keeps routines related that put their stamp
on tests. -/
theorem routines (lawful : coupling.Lawful setting stamp) {change : Routines → Routines}
    (changes : ∀ {inner twin}, coupling.Couples inner (twin.stamped stamp) →
      coupling.Couples inner (change twin)) (depth : Nat) :
    coupling.Couples (Run.routines setting depth) (changedRoutines setting change depth) := by
  induction depth with
  | zero =>
      refine changes ⟨fun _ => lawful.silent .exhausted, fun statement => ?_,
        fun _ => lawful.silent .exhausted⟩
      cases statement with
      | test name body location => exact lawful.exhausted name
      | _ => exact lawful.silent .exhausted
  | succ depth ih => exact changes (lawful.outward ih)

/-- What is related statement by statement is related for whole programs. -/
theorem interpretBy (lawful : coupling.Lawful setting stamp)
    (couples : coupling.Couples inner twin) (program : Program) :
    coupling.relates (Run.interpretBy inner.execute program)
      (Run.interpretBy twin.execute program) := by
  induction program with
  | nil => exact lawful.pure _
  | cons statement rest ih =>
      refine lawful.bind (couples.execute statement) fun completion => ?_
      split
      · exact ih
      · exact lawful.silent (.fail _ nofun)

end Coupling.Lawful

end Scriptlet
