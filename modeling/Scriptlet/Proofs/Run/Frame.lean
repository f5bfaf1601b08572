import Scriptlet.Proofs.Run.Leaving

/-!
# Runs come back to where they started

Evaluating an expression changes no scope there was before, and executing a
statement changes at most the scope it stands in, where it binds no other names than
`Statement.binds` lists. This holds of every machine and every outcome.
-/

namespace Scriptlet

namespace Store

/-- An action of the host makes at most an array. -/
theorem scopes_perform {store after : Store} {action : HostAction} {calls : Nat}
    {arguments : List Value} {value : Value}
    (performed : store.perform action calls arguments = .ok (value, after)) :
    after.scopes = store.scopes := by
  unfold perform at performed
  split at performed <;> try cases performed
  all_goals try rfl
  all_goals
    split at performed <;> cases performed
    rfl

/-- A native function has no hold on scopes. -/
theorem scopes_invoke (store : Store) (ref : ModuleRef) (name : String) (place : Nat)
    (arguments : List Value) : (store.invoke ref name place arguments).2.scopes = store.scopes := by
  unfold invoke
  simp only
  split
  · split
    · rename_i performed
      exact (scopes_perform performed : _ = (store.countCall ref name place).scopes)
    · rfl
  · rfl

/-- A name that may be assigned to is bound, and not for good. -/
theorem mark_of_checkAssign {store : Store} {ref : ScopeRef} {name : String}
    (allowed : store.checkAssign ref name = .ok ()) {scope : Scope}
    (found : store.scope? ref = some scope) : scope.mark name = some false := by
  unfold checkAssign bindingsOf at allowed
  rw [found] at allowed
  simp only at allowed
  cases bound : scope.bindings.find? name with
  | none => simp [bound] at allowed
  | some binding =>
      have changeable : binding.isFinal = false := by
        cases fixed : binding.isFinal with
        | false => rfl
        | true => simp [bound, fixed] at allowed
      simp [Scope.mark, bound, changeable]

private theorem eq_of_map_eq_ok {check : Except BindingFault Unit} {scope target : ScopeRef}
    (allowed : check.map (fun _ => scope) = .ok target) : check = .ok () ∧ scope = target := by
  cases check with
  | ok done =>
      cases allowed
      exact ⟨rfl, rfl⟩
  | error fault => cases allowed

private theorem checkAssign_of_assignTargetAt {store : Store} {ref target : ScopeRef}
    {distance : Nat}
    {name : String} (allowed : store.assignTargetAt ref distance name = .ok target) :
    store.checkAssign target name = .ok () := by
  unfold assignTargetAt at allowed
  split at allowed
  · obtain ⟨checked, rfl⟩ := eq_of_map_eq_ok allowed
    exact checked
  · cases allowed

private theorem checkAssign_of_assignTarget {store : Store} {ref target : ScopeRef} {name : String}
    (allowed : store.assignTarget ref name = .ok target) :
    store.checkAssign target name = .ok () := by
  unfold assignTarget at allowed
  split at allowed
  · obtain ⟨checked, rfl⟩ := eq_of_map_eq_ok allowed
    exact checked
  · cases allowed

end Store

namespace Run

variable {setting : Setting}

/-- The scope that an assignment is made in binds the name, and not for good. -/
theorem checkAssign_of_assignTarget {use : Use} {store : Store} {target : ScopeRef}
    (allowed : assignTarget setting use store = .ok target) :
    store.checkAssign target use.name = .ok () := by
  unfold assignTarget at allowed
  split at allowed
  · exact Store.checkAssign_of_assignTargetAt allowed
  · exact Store.checkAssign_of_assignTarget allowed

/-- A machine that has noted that a node uses a name. -/
def afterUse (id : NodeId) (name : String) (machine : Machine) : Machine :=
  { machine with uses := ⟨id, name, machine.env⟩ :: machine.uses }

/-- What an assignment does, by the scope it changes. -/
theorem assign_eq (id : NodeId) (name : String) (value : Value) (location : Location)
    (machine : Machine) :
    assign setting id name value location machine =
      match assignTarget setting ⟨id, name, machine.env⟩ machine.store with
      | .ok target =>
        .ok () { afterUse id name machine with
          store := machine.store.define target name value false }
      | .error fault =>
        .error (.fault ⟨assignFault name fault, location⟩) (afterUse id name machine) := by
  change (match assignTarget setting ⟨id, name, machine.env⟩ machine.store with
    | .ok scope => change (·.define scope name value false)
    | .error fault => fail (assignFault name fault) location : Run Unit)
      (afterUse id name machine) = _
  cases assignTarget setting ⟨id, name, machine.env⟩ machine.store <;> rfl

namespace Leaves

variable {changes : List (String × Bool)}

/-- Noting the use of a name changes no scope. -/
protected theorem noteUse (id : NodeId) (name : String) :
    Leaves changes (Run.noteUse id name) :=
  fun _ => ⟨rfl, rfl, rfl, .refl _⟩

/-- Looking up a name changes no scope. -/
protected theorem lookup (id : NodeId) (name : String) (location : Location) :
    Leaves changes (Run.lookup setting id name location) := by
  refine bind (.noteUse id name) fun use => bind (.inspect _) fun found => ?_
  split
  · exact .pure _
  · exact .fail _ _

/-- An assignment to a name that is not bound for good leaves it so. -/
protected theorem assign (id : NodeId) (name : String) (value : Value) (location : Location) :
    Leaves changes (Run.assign setting id name value location) := by
  intro machine
  rw [assign_eq]
  cases targeted : assignTarget setting ⟨id, name, machine.env⟩ machine.store with
  | ok target =>
      refine ⟨rfl, rfl, rfl, .define machine.store target name value false (.inr ?_)⟩
      intro scope found
      exact Store.mark_of_checkAssign (checkAssign_of_assignTarget targeted) found
  | error fault => exact ⟨rfl, rfl, rfl, .refl _⟩

/-- Binding a method makes a scope and changes none there was. -/
protected theorem bindMethod (method : MethodObject) (receiver : Value) :
    Leaves changes (Run.bindMethod method receiver) :=
  bind (create fun _ store => .newScope store _ _ _) fun _ => .pure _

/-- Making a function changes no scope. -/
protected theorem newFunction (function : FunctionObject) :
    Leaves changes (Run.create (·.newFunction function)) :=
  create fun _ _ => .of_scopes_eq rfl

/-- Making a class changes no scope. -/
protected theorem newClass (object : ClassObject) :
    Leaves changes (Run.create (·.newClass object)) :=
  create fun _ _ => .of_scopes_eq rfl

/-- Noting the use of a field changes no scope. -/
protected theorem noteField (object : ObjectRef) (name : String) (slot : FieldSlot)
    (kind : FieldUseKind) : Leaves changes (Run.noteField object name slot kind) :=
  fun _ => ⟨rfl, rfl, rfl, .refl _⟩

/-- Setting a field changes no scope. -/
protected theorem writeField (object : ObjectRef) (name : String) (slot : FieldSlot)
    (kind : FieldUseKind) : Leaves changes (Run.writeField object name slot kind) :=
  bind (change fun _ _ => .of_scopes_eq rfl) fun _ => .noteField _ _ _ _

/-- Making a function of a method and its receiver changes no scope there was. -/
protected theorem boundMethod (method : MethodObject) (receiver : Value) :
    Leaves changes (Run.boundMethod method receiver) :=
  bind (.bindMethod method receiver) fun function =>
    bind (.newFunction function) fun _ => .pure _

/-- Checking whether a field may be used changes no scope. -/
protected theorem checkAccess (slot : FieldSlot) (name : String) (location : Location) :
    Leaves changes (Run.checkAccess slot name location) := by
  refine bind .get fun machine => ?_
  split
  · exact .fail _ _
  · exact .pure _

/-- Reading a property changes no scope there was. -/
protected theorem property (target : Value) (name : String) (location : Location) :
    Leaves changes (Run.property target name location) := by
  unfold Run.property
  split
  · refine bind .get fun machine => ?_
    dsimp only
    split
    · exact bind (.checkAccess _ _ _) fun _ => bind (.noteField _ _ _ _) fun _ => .pure _
    · split
      · exact .boundMethod _ _
      · exact .fail _ _
  · refine bind (.inspect _) fun native => ?_
    split
    · split
      · exact .pure _
      · exact .fail _ _
    · exact .fail _ _
  · split
    · exact bind (.inspect _) fun _ => .pure _
    · exact .fail _ _
  · split
    · exact .pure _
    · exact .fail _ _
  · exact .fail _ _

/-- Setting a property changes no scope. -/
protected theorem setProperty (target : Value) (name : String) (value : Value)
    (location : Location) : Leaves changes (Run.setProperty target name value location) := by
  unfold Run.setProperty
  split
  · refine bind (.inspect _) fun object => ?_
    split
    · unfold Run.setField
      split
      · refine bind (.checkAccess _ _ _) fun _ => ?_
        split
        · exact .fail _ _
        · exact .writeField _ _ _ _
      · exact .writeField _ _ _ _
    · exact .fail _ _
  · exact .fail _ _

/-- Looking for a module changes no scope. -/
protected theorem moduleNamed (name : String) (location : Location) :
    Leaves changes (Run.moduleNamed setting name location) := by
  unfold Run.moduleNamed
  split
  · refine bind (.inspect _) fun native => ?_
    split
    · exact .pure _
    · exact .fail _ _
  · exact .fail _ _

/-- Calling a native function changes no scope. -/
protected theorem callNative (binding : NativeBinding) (arguments : List Value)
    (location : Location) : Leaves changes (Run.callNative setting binding arguments location) := by
  unfold Run.callNative
  extract_lets fits
  split
  · exact .fail _ _
  · refine bind (.moduleNamed _ _) fun found => ?_
    dsimp only
    split
    · exact .fail _ _
    · refine bind (create fun _ store => .of_scopes_eq (store.scopes_invoke _ _ _ _))
        fun answer => ?_
      split
      · exact .pure _
      · exact .fail _ _

/-- Evaluating an initial value changes what the evaluation of expressions changes. -/
protected theorem valueOrNil {evaluate : Expr → Run Value}
    (exprs : ∀ expr, Leaves changes (evaluate expr)) (expr : Option Expr) :
    Leaves changes (Run.valueOrNil evaluate expr) := by
  cases expr with
  | some expr => exact exprs expr
  | none => exact .pure _

/-- What a call makes of the end of its body changes no scope. -/
protected theorem callResult (function : FunctionObject) (completion : Completion)
    (location : Location) : Leaves changes (Run.callResult function completion location) := by
  have answered (value : Value) : Leaves changes (do
      if function.decl.kind = .constructor then
        return ((← Run.inspect (·.valueIn? function.closure "this"))).getD .nil
      else return value : Run Value) := by
    split
    · exact bind (.inspect _) fun _ => .pure _
    · exact .pure _
  cases completion with
  | normal => exact answered _
  | returning value => exact answered value
  | breaking => exact .fail _ _
  | continuing => exact .fail _ _

/-- A call changes scopes of its own only, whatever its body does. -/
protected theorem callFunction {runBody : List Statement → Run Completion}
    (bodies : ∀ body, ∃ changes, Leaves changes (runBody body)) (function : FunctionObject)
    (arguments : List Value) (location : Location) :
    Leaves changes (Run.callFunction setting runBody function arguments location) := by
  unfold Run.callFunction
  extract_lets arity
  split
  · exact .fail _ _
  · refine bind .get fun machine => ?_
    split
    · exact .fail _ _
    · obtain ⟨bodyChanges, body⟩ := bodies function.decl.body
      refine bind (.asOwner _ (.inCall (.quiet (within _ _ _ body)))) fun completion => ?_
      exact .callResult function completion location

/-- Looking for a method of the superclass changes no scope there was. -/
protected theorem superMethod (id : NodeId) (method : String) (location : Location) :
    Leaves changes (Run.superMethod setting id method location) := by
  refine bind (.noteUse id "super") fun use => bind .get fun machine => ?_
  dsimp only
  split
  · split
    · split
      · exact .boundMethod _ _
      · exact .fail _ _
    · exact .fail _ _
  · exact .fail _ _

/-- The declaration of a function binds its name. -/
protected theorem declareFunction (decl : FunctionDecl) :
    Leaves [(decl.name, decl.isFinal)] (Run.declareFunction decl) :=
  bind .get fun _ => bind (.newFunction _) fun _ => .define _ _ _

/-- Looking for a superclass changes no scope. -/
protected theorem superclassOf (className : String) (reference : SuperclassRef) :
    Leaves changes (Run.superclassOf setting className reference) := by
  refine bind (.lookup _ _ _) fun value => ?_
  split
  · refine bind (.inspect _) fun object => ?_
    split
    · split
      · exact .fail _ _
      · exact .pure _
    · exact .fail _ _
  · exact .fail _ _

/-- Looking for the superclass of a declaration changes no scope. -/
protected theorem declaredSuperclass (decl : ClassDecl) :
    Leaves changes (Run.declaredSuperclass setting decl) := by
  unfold Run.declaredSuperclass
  split
  · exact bind (.superclassOf _ _) fun _ => .pure _
  · exact .pure _

/-- Making the scope that a class closes over changes no scope there was. -/
protected theorem classClosure (decl : ClassDecl) (superclass : Option ClassRef) :
    Leaves changes (Run.classClosure decl superclass) := by
  refine bind .get fun machine => ?_
  dsimp only
  split
  · exact create fun _ store => .newScope store _ _ _
  · exact .pure _

/-- The declaration of a class binds its name. -/
protected theorem declareClass (decl : ClassDecl) :
    Leaves [(decl.name, decl.isFinal)] (Run.declareClass setting decl) :=
  bind (.declaredSuperclass decl) fun superclass => bind (.classClosure decl superclass) fun _ =>
    bind (.inspect _) fun _ => bind (.newClass _) fun _ => .define _ _ _

/-- An extension of a class changes no scope. -/
protected theorem declareExtension (id : NodeId) (className : String) (decl : FunctionDecl)
    (location : Location) :
    Leaves changes (Run.declareExtension setting id className decl location) := by
  refine bind (.lookup _ _ _) fun value => ?_
  split
  · refine bind (.inspect _) fun object => ?_
    split
    · split
      · exact .fail _ _
      · exact bind .get fun _ => change fun _ _ => .of_scopes_eq rfl
    · exact .fail _ _
  · exact .fail _ _

/-- The declaration of a native function binds its name. -/
protected theorem declareNative (moduleName name : String) (arity : Nat) (location : Location) :
    Leaves [(name, false)] (Run.declareNative setting moduleName name arity location) := by
  refine bind (.moduleNamed _ _) fun found => ?_
  dsimp only
  split
  · exact .define _ _ _
  · exact .fail _ _

/-- The declaration of a module binds its name. -/
protected theorem declareModule (name : String) (location : Location) :
    Leaves [(name, false)] (Run.declareModule setting name location) :=
  bind (.moduleNamed _ _) fun _ => .define _ _ _

/-- Giving an object the fields of one class changes what the evaluation of initialisers changes. -/
protected theorem initializeDeclared {evaluate : Expr → Run Value}
    (exprs : ∀ expr, Leaves changes (evaluate expr)) (object : ObjectRef) (owner : ClassRef)
    (fields : List FieldDecl) :
    Leaves changes (Run.initializeDeclared evaluate object owner fields) := by
  induction fields with
  | nil => exact .pure _
  | cons field rest ih =>
      exact bind (.valueOrNil exprs _) fun value => bind (.writeField _ _ _ _) fun _ => ih

/-- Noting that an initialiser runs changes no scope. -/
protected theorem noteInitializing : Leaves changes Run.noteInitializing :=
  fun _ => ⟨rfl, rfl, rfl, .refl _⟩

/-- Giving an object the fields of its classes changes what the evaluation of initialisers changes.
-/
protected theorem initializeFields {evaluate : Expr → Run Value}
    (exprs : ∀ expr, Leaves changes (evaluate expr)) (object : ObjectRef)
    (classes : List ClassRef) :
    Leaves changes (Run.initializeFields evaluate object classes) := by
  induction classes with
  | nil => exact .pure _
  | cons owner rest ih =>
      refine bind (bind (.inspect _) fun found => ?_) fun _ => ih
      split
      · split
        · exact .pure _
        · exact .asOwner _ (bind .noteInitializing fun _ =>
            .quiet (within _ _ _ (.initializeDeclared exprs _ _ _)))
      · exact .pure _

/-- Making an instance changes what the evaluation of initialisers changes, whatever the constructor
does in its own scope. -/
protected theorem instantiate {evaluate : Expr → Run Value}
    {runBody : List Statement → Run Completion} (exprs : ∀ expr, Leaves changes (evaluate expr))
    (bodies : ∀ body, ∃ changes, Leaves changes (runBody body)) (ofClass : ClassRef)
    (arguments : List Value) (location : Location) :
    Leaves changes (Run.instantiate setting evaluate runBody ofClass arguments location) := by
  refine bind (create fun _ _ => .of_scopes_eq rfl) fun object => bind (.inspect _) fun classes =>
    bind (.initializeFields exprs _ _) fun _ => bind (.inspect _) fun method => ?_
  split
  · exact bind (.bindMethod _ _) fun _ => bind (.callFunction bodies _ _ _) fun _ => .pure _
  · split
    · exact .pure _
    · exact .fail _ _

/-- A call changes what the evaluation of expressions changes, whatever the body does in its own
scope. -/
protected theorem call {evaluate : Expr → Run Value} {runBody : List Statement → Run Completion}
    (exprs : ∀ expr, Leaves changes (evaluate expr))
    (bodies : ∀ body, ∃ changes, Leaves changes (runBody body)) (callee : Value)
    (arguments : List Value) (location : Location) :
    Leaves changes (Run.call setting evaluate runBody callee arguments location) := by
  unfold Run.call
  split
  · refine bind (.inspect _) fun function => ?_
    split
    · exact .callFunction bodies _ _ _
    · exact .fail _ _
  · exact .instantiate exprs bodies _ _ _
  · exact .callNative _ _ _
  · exact .fail _ _

/-- What a test makes of the end of its body changes no scope. -/
protected theorem testResult (name : String) (completion : Completion) (location : Location) :
    Leaves changes (Run.testResult name completion location) := by
  have recorded (passed : Bool) : Leaves changes (Run.recordTest name passed location) := by
    refine bind (fun machine => ⟨rfl, rfl, rfl, .refl _⟩) fun _ => ?_
    split
    · exact .pure _
    · exact .fail _ _
  cases completion with
  | normal => exact recorded true
  | returning value => exact recorded _
  | breaking => exact .fail _ _
  | continuing => exact .fail _ _

/-- Printing changes no scope. -/
protected theorem print (value : Value) : Leaves changes (Run.print value) :=
  fun _ => ⟨rfl, rfl, rfl, .refl _⟩

/-- Counting the rounds of a loop changes no scope. -/
protected theorem roundsOf (count : Value) (location : Location) :
    Leaves changes (Run.roundsOf count location) := by
  unfold Run.roundsOf
  split
  · exact .pure _
  · exact .fail _ _

/-- Setting an element of an array changes no scope. -/
protected theorem setElement (target index value : Value) (location : Location) :
    Leaves changes (Run.setElement target index value location) :=
  bind (.inspect _) fun _ => bind (.orFail _ _) fun _ => change fun _ _ => .of_scopes_eq rfl

end Leaves

/-- Routines that come back to where they started. -/
structure Routines.Framed (inner : Routines) : Prop where
  evaluate : ∀ expr, Leaves [] (inner.evaluate expr)
  execute : ∀ statement, Leaves statement.binds (inner.execute statement)
  executeAll : ∀ statements, Leaves (statements.flatMap Statement.binds)
    (inner.executeAll statements)

namespace Routines.Framed

variable {inner : Routines}

private theorem call (framed : inner.Framed) (callee : Value) (arguments : List Value)
    (location : Location) :
    Leaves [] (Run.call setting inner.evaluate inner.executeAll callee arguments location) :=
  .call framed.evaluate (fun body => ⟨_, framed.executeAll body⟩) callee arguments location

/-- An expression leaves the scopes there were as they were, if the routines inside of it come back.
-/
theorem evaluateStep (framed : inner.Framed) (expr : Expr) :
    Leaves [] (Run.evaluateStep setting inner expr) := by
  have inside := framed.evaluate
  cases expr with
  | literal value location => exact .pure _
  | array elements location =>
      exact .bind (.valuesOf inside elements) fun _ =>
        .bind (.create fun _ _ => .of_scopes_eq rfl) fun _ => .pure _
  | var id name location => exact .lookup id name location
  | assign id name value location =>
      exact .bind (inside value) fun _ => .bind (.assign _ _ _ _) fun _ => .pure _
  | binary op left right location =>
      exact .bind (inside left) fun _ => .bind (inside right) fun _ =>
        .bind (.inspect _) fun _ => .orFail _ _
  | logical op left right location =>
      refine .bind (inside left) fun value => ?_
      split
      · exact .pure _
      · exact .bind (inside right) fun _ => .pure _
  | bitwise op left right location =>
      exact .bind (inside left) fun _ => .bind (inside right) fun _ => .orFail _ _
  | unary op operand location => exact .bind (inside operand) fun _ => .orFail _ _
  | prefixCall id name operand location =>
      exact .bind (.lookup _ _ _) fun _ => .bind (inside operand) fun _ => framed.call _ _ _
  | infixCall id name left right location =>
      exact .bind (.lookup _ _ _) fun _ => .bind (inside left) fun _ =>
        .bind (inside right) fun _ => framed.call _ _ _
  | ternary condition thenBranch elseBranch location =>
      refine .bind (inside condition) fun value => ?_
      split
      · exact inside thenBranch
      · exact inside elseBranch
  | elvis value fallback location =>
      refine .bind (inside value) fun first => ?_
      split
      · exact .pure _
      · exact inside fallback
  | call callee arguments location =>
      exact .bind (inside callee) fun _ => .bind (.valuesOf inside arguments) fun _ =>
        framed.call _ _ _
  | get object name location => exact .bind (inside object) fun _ => .property _ _ _
  | set object name value location =>
      exact .bind (inside object) fun _ => .bind (inside value) fun _ =>
        .bind (.setProperty _ _ _ _) fun _ => .pure _
  | getIndex array index location =>
      exact .bind (inside array) fun _ => .bind (inside index) fun _ =>
        .bind (.inspect _) fun _ => .orFail _ _
  | setIndex array index value location =>
      exact .bind (inside array) fun _ => .bind (inside index) fun _ =>
        .bind (inside value) fun _ => .bind (.setElement _ _ _ _) fun _ => .pure _
  | grouping grouped location => exact inside grouped
  | thisRef id location => exact .lookup id "this" location
  | superRef id method location => exact .superMethod id method location

/-- One round of a loop that tests its condition first. -/
theorem whileRound (framed : inner.Framed) (condition : Expr) (body : Statement) :
    Leaves body.binds (do
      if (← inner.evaluate condition).isTruthy then
        return afterBody (← inner.execute body)
      else return some .normal : Run (Option Completion)) := by
  refine .bind (framed.evaluate condition).quiet fun value => ?_
  split
  · exact .bind (framed.execute body) fun _ => .pure _
  · exact .pure _

/-- One round of a loop that tests its condition last. -/
theorem doRound (framed : inner.Framed) (condition : Expr) (body : Statement) :
    Leaves body.binds (do
      match afterBody (← inner.execute body) with
      | some completion => return some completion
      | none =>
        if (← inner.evaluate condition).isTruthy then return none
        else return some .normal : Run (Option Completion)) := by
  refine .bind (framed.execute body) fun completion => ?_
  split
  · exact .pure _
  · refine .bind (framed.evaluate condition).quiet fun value => ?_
    split
    · exact .pure _
    · exact .pure _

/-- A statement binds at most the names it lists in the scope it stands in, if the routines inside
of it come back. -/
theorem executeStep (framed : inner.Framed) (statement : Statement) :
    Leaves statement.binds (Run.executeStep setting inner statement) := by
  have inside := framed.evaluate
  cases statement with
  | expression expr location => exact .bind (inside expr).quiet fun _ => .pure _
  | varDecl name initial isFinal location =>
      exact .bind (Leaves.valueOrNil inside initial).quiet fun _ =>
        .bind (.define name _ isFinal) fun _ => .pure _
  | block body location => exact .bind .get fun _ => .within _ _ _ (framed.executeAll body)
  | ifElse condition thenBranch elseBranch location =>
      refine .bind (inside condition).quiet fun value => ?_
      split
      · refine (framed.execute thenBranch).mono ?_
        cases elseBranch <;> simp [Statement.binds]
      · split
        · refine (framed.execute _).mono ?_
          simp [Statement.binds]
        · exact .pure _
  | whileLoop condition body location => exact .untilDone (framed.whileRound condition body) _
  | doWhile body condition location => exact .untilDone (framed.doRound condition body) _
  | repeatLoop count body location =>
      exact .bind (inside count).quiet fun _ => .bind (.roundsOf _ _) fun _ =>
        .times (.bind (framed.execute body) fun _ => .pure _) _
  | function decl => exact .bind (.declareFunction decl) fun _ => .pure _
  | classDecl decl => exact .bind (.declareClass decl) fun _ => .pure _
  | returning value location => exact .bind (Leaves.valueOrNil inside value) fun _ => .pure _
  | breaking location => exact .pure _
  | continuing location => exact .pure _
  | print expr location =>
      exact .bind (inside expr) fun _ => .bind (.print _) fun _ => .pure _
  | test name body location =>
      exact .bind .get fun _ => .bind (.within _ _ _ (framed.executeAll body)) fun _ =>
        .testResult _ _ _
  | moduleDecl name location => exact .bind (.declareModule name location) fun _ => .pure _
  | nativeFunction moduleName name params location =>
      exact .bind (.declareNative _ name _ _) fun _ => .pure _
  | extension id className decl location =>
      exact .bind (.declareExtension _ _ _ _) fun _ => .pure _

private theorem executeAllStep (framed : inner.Framed) (statements : List Statement) :
    Leaves (statements.flatMap Statement.binds) (Run.executeAllStep inner statements) := by
  cases statements with
  | nil => exact .pure _
  | cons statement rest =>
      refine .bind ((framed.execute statement).mono (by simp)) fun completion => ?_
      split
      · exact (framed.executeAll rest).mono (by simp)
      · exact .pure _

end Routines.Framed

/-- The routines of every depth come back to where they started. -/
theorem framed_routines (setting : Setting) (depth : Nat) : (routines setting depth).Framed := by
  induction depth with
  | zero => exact ⟨fun _ => .exhausted, fun _ => .exhausted, fun _ => .exhausted⟩
  | succ depth ih =>
      exact ⟨fun expr => .noting expr (ih.evaluateStep expr), ih.executeStep, ih.executeAllStep⟩

/-- Running a program changes at most the scope it stands in. -/
theorem leaves_interpret (setting : Setting) (program : Program) :
    Leaves (program.flatMap Statement.binds) (interpret setting program) := by
  have framed := framed_routines setting depthBound
  unfold interpret
  induction program with
  | nil => exact .pure _
  | cons statement rest ih =>
      refine .bind ((framed.execute statement).mono (by simp)) fun completion => ?_
      split
      · exact ih.mono (by simp)
      · exact .fail _ _

end Run

end Scriptlet
