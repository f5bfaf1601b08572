import Scriptlet.Proofs.Resolution.StatementWalk

/-!
# The context of the analysis

Whatever code is analysed, and whether or not it passes (`Resolve.Balanced`), the analysis ends in
the context it began in (`Analysis.Balances`). The innermost scope may have learned names. Of the
scopes around it no more has changed than that variables are no longer known to hold an instance of
a class (`StaticScope.Fades`).
-/

namespace Scriptlet

/-- A later state of a scope in which nothing was declared: of some names it may be forgotten what
they hold an instance of. -/
structure StaticScope.Fades (scope later : StaticScope) : Prop where
  upcoming : later.upcoming = scope.upcoming
  level : later.level = scope.level
  tag : later.tag = scope.tag
  names : ∀ name, later.names.find? name = scope.names.find? name ∨
    later.names.find? name = (scope.names.find? name).map ({ · with instanceOf := none })

namespace StaticScope.Fades

private theorem refl (scope : StaticScope) : scope.Fades scope :=
  ⟨rfl, rfl, rfl, fun _ => .inl rfl⟩

private theorem trans {first second third : StaticScope} (left : first.Fades second)
    (right : second.Fades third) : first.Fades third := by
  refine ⟨right.upcoming.trans left.upcoming, right.level.trans left.level,
    right.tag.trans left.tag, fun name => ?_⟩
  rcases right.names name with same | forgotten
  · rw [same]
    exact left.names name
  · rw [forgotten]
    rcases left.names name with same | already
    · rw [same]
      exact .inr rfl
    · rw [already, Option.map_map]
      exact .inr rfl

private theorem forall₂_refl (scopes : List StaticScope) :
    scopes.Forall₂ StaticScope.Fades scopes :=
  List.forall₂_same.mpr fun scope _ => .refl scope

private theorem map_upcoming {before after : List StaticScope}
    (fades : before.Forall₂ StaticScope.Fades after) :
    after.map (fun scope => (scope.level, scope.upcoming)) =
      before.map fun scope => (scope.level, scope.upcoming) := by
  induction fades with
  | nil => rfl
  | cons head _ ih => rw [List.map_cons, List.map_cons, head.level, head.upcoming, ih]

private theorem forall₂_trans {first second third : List StaticScope}
    (left : first.Forall₂ StaticScope.Fades second)
    (right : second.Forall₂ StaticScope.Fades third) : first.Forall₂ StaticScope.Fades third := by
  induction left generalizing third with
  | nil => exact right
  | cons head _ ih =>
      cases right with
      | cons next rest => exact .cons (head.trans next) (ih rest)

end StaticScope.Fades

/-- Two states of an analysis in the same context: as many scopes that are to declare the same
names, around the innermost one nothing declared, and the same body, class and depths. -/
structure Analysis.Balances (before after : Analysis) : Prop where
  length : after.scopes.length = before.scopes.length
  upcoming : after.scopes.map (fun scope => (scope.level, scope.upcoming)) =
    before.scopes.map fun scope => (scope.level, scope.upcoming)
  outer : before.scopes.tail.Forall₂ StaticScope.Fades after.scopes.tail
  body : after.body = before.body
  classContext : after.classContext = before.classContext
  current : after.current = before.current
  loopDepth : after.loopDepth = before.loopDepth
  functionDepth : after.functionDepth = before.functionDepth

namespace Analysis.Balances

variable {before after : Analysis}

private theorem refl (analysis : Analysis) : analysis.Balances analysis :=
  ⟨rfl, rfl, StaticScope.Fades.forall₂_refl _, rfl, rfl, rfl, rfl, rfl⟩

private theorem trans {last : Analysis} (left : before.Balances after)
    (right : after.Balances last) :
    before.Balances last where
  length := right.length.trans left.length
  upcoming := right.upcoming.trans left.upcoming
  outer := StaticScope.Fades.forall₂_trans left.outer right.outer
  body := right.body.trans left.body
  classContext := right.classContext.trans left.classContext
  current := right.current.trans left.current
  loopDepth := right.loopDepth.trans left.loopDepth
  functionDepth := right.functionDepth.trans left.functionDepth

/-- Names of the innermost scope may change. -/
theorem modifyInnermost (analysis : Analysis) (change : StaticScope → StaticScope)
    (level : ∀ scope, (change scope).level = scope.level)
    (upcoming : ∀ scope, (change scope).upcoming = scope.upcoming) :
    analysis.Balances (analysis.modifyInnermost change) := by
  cases held : analysis.scopes with
  | nil =>
      exact ⟨by simp [Analysis.modifyInnermost, held], by simp [Analysis.modifyInnermost, held],
      by simp [Analysis.modifyInnermost, held], rfl, rfl, rfl, rfl, rfl⟩
  | cons innermost outer =>
      refine ⟨?_, ?_, ?_, rfl, rfl, rfl, rfl, rfl⟩
      · simp [Analysis.modifyInnermost, held]
      · simp [Analysis.modifyInnermost, held, level, upcoming]
      · simpa [Analysis.modifyInnermost, held] using StaticScope.Fades.forall₂_refl outer

/-- A scope that was opened in some context is closed in the same context. -/
theorem closeScope {inside : Analysis} {scope : StaticScope}
    (balances : { before with scopes := scope :: before.scopes }.Balances inside) :
    before.Balances inside.closeScope where
  length := by simp [Analysis.closeScope, balances.length]
  upcoming := by
    have same := congrArg List.tail balances.upcoming
    rwa [← List.map_tail] at same
  outer := by
    have beyond := List.forall₂_drop 1 balances.outer
    rwa [List.drop_one, List.drop_one] at beyond
  body := balances.body
  classContext := balances.classContext
  current := balances.current
  loopDepth := balances.loopDepth
  functionDepth := balances.functionDepth

end Analysis.Balances

namespace Resolve

/-- The state in which a step of the analysis ends, whether or not it passes. -/
def analysisAfter {α : Type} :
    EStateM.Result (Located ResolveFault) Analysis α → Analysis
  | .ok _ analysis => analysis
  | .error _ analysis => analysis

/-- The step ends in the context it begins in, whether or not it passes. -/
def Balanced {α : Type} (step : Resolve α) : Prop :=
  ∀ analysis : Analysis, analysis.Balances (analysisAfter (step analysis))

namespace Balanced

variable {α β : Type} {step : Resolve α}

/-- Giving a value ends in the context it begins in. -/
protected theorem pure (value : α) : Balanced (pure value : Resolve α) := .refl

/-- A fault ends in the context it begins in. -/
protected theorem fail (fault : ResolveFault) (location : Location) :
    Balanced (Resolve.fail fault location : Resolve α) := .refl

private theorem bind {next : α → Resolve β} (first : Balanced step)
    (rest : ∀ value, Balanced (next value)) : Balanced (step >>= next) := by
  intro analysis
  have balances := first analysis
  cases ended : step analysis with
  | ok value middle =>
      rw [ended] at balances
      rw [bind_of_ok ended]
      exact balances.trans (rest value middle)
  | error fault middle =>
      rw [ended] at balances
      rw [bind_of_error ended]
      exact balances

/-- A look at the state changes nothing. -/
theorem look {next : Analysis → Resolve β} (rest : ∀ analysis, Balanced (next analysis)) :
    Balanced (get >>= next) :=
  fun analysis => rest analysis analysis

/-- A step with its context changed and changed back. -/
theorem between {enter leave : Analysis → Analysis} (inside : Balanced step)
    {analysis : Analysis} (back : ∀ later, (enter analysis).Balances later →
      analysis.Balances (leave later)) :
    analysis.Balances (analysisAfter (Resolve.between enter leave step analysis)) := by
  have balances := back _ (inside (enter analysis))
  unfold Resolve.between
  cases ended : step (enter analysis) <;> rwa [ended] at balances

/-- A step in a scope of its own is balanced if it is balanced inside. -/
protected theorem inScope (tag : ScopeTag) (inside : Balanced step) :
    Balanced (Resolve.inScope tag step) :=
  fun _ => inside.between fun _ => .closeScope

/-- What statements declare is noted for the scope that is opened for them only. -/
theorem inScopeHoist (tag : ScopeTag) (body : List Statement) {next : Unit → Resolve α}
    (inside : Balanced (next ())) : Balanced (Resolve.inScope tag (hoist body >>= next)) := by
  intro analysis
  have balances := (inside (analysis.enter tag body)).closeScope
  unfold Resolve.inScope Resolve.between
  rw [bind_of_ok (hoist_enter tag body)]
  cases ended : next () (analysis.enter tag body) <;> rwa [ended] at balances

/-- A step in a body is balanced if it is balanced inside. -/
protected theorem inBody (context : BodyContext) (inside : Balanced step) :
    Balanced (Resolve.inBody context step) := by
  intro analysis
  have entered : Resolve.inBody context step analysis =
      Resolve.between ({ · with body := context, loopDepth := 0 })
        ({ · with body := analysis.body, loopDepth := analysis.loopDepth }) step analysis := rfl
  rw [entered]
  exact inside.between fun _ balances => { balances with body := rfl, loopDepth := rfl }

/-- A step in a loop is balanced if it is balanced inside. -/
protected theorem inLoop (inside : Balanced step) : Balanced (Resolve.inLoop step) :=
  fun _ => inside.between fun _ balances =>
    { balances with loopDepth := congrArg (· - 1) balances.loopDepth }

/-- A step that is deferred is balanced if it is balanced inside. -/
protected theorem deferred (inside : Balanced step) : Balanced (Resolve.deferred step) :=
  fun _ => inside.between fun _ balances =>
    { balances with functionDepth := congrArg (· - 1) balances.functionDepth }

/-- A step in a class is balanced if it is balanced inside. -/
protected theorem inClass (context : ClassContext) (facts : Option ClassFacts)
    (inside : Balanced step) : Balanced (Resolve.inClass context facts step) := by
  intro analysis
  have entered : Resolve.inClass context facts step analysis =
      Resolve.between ({ · with classContext := context, current := facts })
        ({ · with classContext := analysis.classContext, current := analysis.current }) step
          analysis := rfl
  rw [entered]
  exact inside.between fun _ balances => { balances with classContext := rfl, current := rfl }

/-! ### Names and checks -/

/-- A step that always passes and leaves the context alone. -/
theorem of_ok {value : Analysis → α} {after : Analysis → Analysis}
    (steps : ∀ analysis, step analysis = .ok (value analysis) (after analysis))
    (balances : ∀ analysis : Analysis, analysis.Balances (after analysis)) : Balanced step := by
  intro analysis
  rw [steps]
  exact balances analysis

/-- Noting an expression is balanced. -/
protected theorem noteExpr (expr : Expr) : Balanced (Resolve.noteExpr expr) :=
  .of_ok (fun _ => rfl) fun analysis => { Analysis.Balances.refl analysis with }

/-- Noting a refused access is balanced. -/
protected theorem noteRefusal (object : Expr) (name : String) (location : Location)
    (isAssignment : Bool) (owner : ClassLayer) (field : FieldFacts) (fault : ResolveFault) :
    Balanced (Resolve.noteRefusal object name location isAssignment owner field fault) :=
  .of_ok (fun _ => rfl) fun analysis => { Analysis.Balances.refl analysis with }

/-- Resolving a name is balanced. -/
protected theorem resolveName (id : NodeId) (name : String) :
    Balanced (Resolve.resolveName id name) :=
  .of_ok (fun _ => rfl) fun analysis => { Analysis.Balances.refl analysis with }

/-- A change of names of the innermost scope. -/
theorem naming {change : StaticScope → StaticScope}
    (level : ∀ scope, (change scope).level = scope.level)
    (upcoming : ∀ scope, (change scope).upcoming = scope.upcoming) :
    Balanced (modify (·.modifyInnermost change)) :=
  .of_ok (fun _ => rfl) fun analysis => .modifyInnermost analysis change level upcoming

/-- Changing what is known of a name is balanced, as the name is of the innermost scope. -/
protected theorem adjust (name : String) (change : Declared → Declared) :
    Balanced (Resolve.adjust name change) := by
  refine naming (fun scope => ?_) fun scope => ?_ <;>
  · unfold StaticScope.adjust
    split <;> rfl

/-- Declaring a name that a construct binds by itself is balanced. -/
protected theorem declareImplicit (name : String) : Balanced (Resolve.declareImplicit name) :=
  naming (fun _ => rfl) fun _ => rfl

/-- A declaration is balanced, also where the name is refused. -/
protected theorem declare (name : String) (kind : DeclarationKind) (isFinal : Bool)
    (location : Location) : Balanced (Resolve.declare name kind isFinal location) := by
  refine look fun analysis => ?_
  split
  · exact .fail _ _
  · exact naming (fun _ => rfl) fun _ => rfl

/-- A name that is declared and gets its value at once. -/
theorem introduce {name : String} {kind : DeclarationKind} {isFinal : Bool} {location : Location}
    {next : Unit → Resolve α} (rest : Balanced (next ())) :
    Balanced (Resolve.declare name kind isFinal location >>= fun _ => define name >>= next) :=
  bind (.declare _ _ _ _) fun _ => bind (.adjust _ _) fun _ => rest

/-- A variable that is assigned to fades in whatever scope it lives. -/
private theorem forall₂_fades_forgetInstanceIn (name : String) (scopes : List StaticScope) :
    scopes.Forall₂ StaticScope.Fades (Analysis.forgetInstanceIn name scopes) := by
  induction scopes with
  | nil => exact .nil
  | cons scope outer ih =>
      unfold Analysis.forgetInstanceIn
      split
      · rename_i declared found
        refine .cons ⟨rfl, rfl, rfl, fun query => ?_⟩ (StaticScope.Fades.forall₂_refl outer)
        by_cases hit : name = query
        · subst hit
          exact .inr (by simp [found])
        · exact .inl (Table.find?_put_of_ne _ _ hit)
      · exact .cons (.refl scope) ih

/-- Forgetting what a variable holds an instance of is balanced. -/
protected theorem forgetInstance (name : String) :
    Balanced (modify fun analysis : Analysis =>
      { analysis with scopes := Analysis.forgetInstanceIn name analysis.scopes }) := by
  refine .of_ok (fun _ => rfl) fun analysis => ?_
  have fades := forall₂_fades_forgetInstanceIn name analysis.scopes
  have beyond := List.forall₂_drop 1 fades
  rw [List.drop_one, List.drop_one] at beyond
  exact ⟨fades.length_eq.symm, StaticScope.Fades.map_upcoming fades, beyond, rfl, rfl, rfl, rfl,
    rfl⟩

/-- Checking that a name is declared is balanced. -/
protected theorem checkDeclared (name : String) (location : Location) :
    Balanced (Resolve.checkDeclared name location) := by
  refine look fun analysis => ?_
  split
  · exact .fail _ _
  · exact .pure _

/-- Reading a name is balanced. -/
protected theorem readName (id : NodeId) (name : String) (location : Location) :
    Balanced (Resolve.readName id name location) := by
  refine look fun analysis => ?_
  split
  · exact .fail _ _
  · exact bind (.checkDeclared _ _) fun _ => .resolveName _ _

/-- Assigning to a name is balanced. -/
protected theorem assignName (id : NodeId) (name : String) (location : Location) :
    Balanced (Resolve.assignName id name location) := by
  refine bind (.checkDeclared _ _) fun _ => look fun analysis => ?_
  split
  · exact .fail _ _
  · exact bind (.resolveName _ _) fun _ => .forgetInstance name

/-- Checking the access to a field is balanced. -/
protected theorem checkField (object : Expr) (name : String) (location : Location)
    (isAssignment : Bool) : Balanced (Resolve.checkField object name location isAssignment) := by
  refine look fun analysis => ?_
  split
  · exact .pure _
  · split
    · exact .pure _
    · split
      · exact .fail _ _
      · exact .noteRefusal _ _ _ _ _ _ _

/-! ### Expressions -/

mutual

/-- The analysis of an expression is balanced. -/
protected theorem expression : (expr : Expr) → Balanced (Resolve.expression expr)
  | .literal _ _ => bind (.noteExpr _) fun _ => .pure _
  | .array elements _ => bind (.noteExpr _) fun _ => .expressions elements
  | .var id name location => bind (.noteExpr _) fun _ => .readName id name location
  | .assign id name value location =>
    bind (.noteExpr _) fun _ => bind (.expression value) fun _ => .assignName id name location
  | .binary _ left right _ | .logical _ left right _ | .bitwise _ left right _
  | .elvis left right _ | .getIndex left right _ =>
    bind (.noteExpr _) fun _ => bind (.expression left) fun _ => .expression right
  | .unary _ operand _ | .grouping operand _ => bind (.noteExpr _) fun _ => .expression operand
  | .prefixCall id name operand _ =>
    bind (.noteExpr _) fun _ => bind (.resolveName id name) fun _ => .expression operand
  | .infixCall id name left right _ =>
    bind (.noteExpr _) fun _ => bind (.resolveName id name) fun _ =>
      bind (.expression left) fun _ => .expression right
  | .ternary condition thenBranch elseBranch _ =>
    bind (.noteExpr _) fun _ => bind (.expression condition) fun _ =>
      bind (.expression thenBranch) fun _ => .expression elseBranch
  | .call callee arguments _ =>
    bind (.noteExpr _) fun _ => bind (.expression callee) fun _ => .expressions arguments
  | .get object name location =>
    bind (.noteExpr _) fun _ => bind (.expression object) fun _ =>
      .checkField object name location false
  | .set object name value location =>
    bind (.noteExpr _) fun _ => bind (.expression value) fun _ =>
      bind (.expression object) fun _ => .checkField object name location true
  | .setIndex target index value _ =>
    bind (.noteExpr _) fun _ => bind (.expression target) fun _ =>
      bind (.expression index) fun _ => .expression value
  | .thisRef id _ => by
    refine bind (.noteExpr _) fun _ => look fun analysis => ?_
    split
    · exact .fail _ _
    · exact .resolveName id "this"
  | .superRef id _ _ => by
    refine bind (.noteExpr _) fun _ => look fun analysis => ?_
    split
    · exact .resolveName id "super"
    · exact .fail _ _

/-- The analysis of expressions in order is balanced. -/
protected theorem expressions : (exprs : List Expr) → Balanced (Resolve.expressions exprs)
  | [] => .pure _
  | first :: rest => bind (.expression first) fun _ => .expressions rest

end

/-! ### Statements -/

/-- The analysis of an initial value is balanced. -/
protected theorem optional (initial : Option Expr) : Balanced (Resolve.optional initial) := by
  cases initial with
  | some value => exact .expression value
  | none => exact .pure _

/-- The analysis of a variable is balanced. -/
protected theorem varDecl (name : String) (initial : Option Expr) (isFinal : Bool)
    (location : Location) : Balanced (Resolve.varDecl name initial isFinal location) := by
  refine bind (.declare _ _ _ _) fun _ => ?_
  cases initial with
  | some value =>
      exact bind (.expression value) fun _ => look fun analysis => .adjust _ _
  | none => exact .adjust _ _

/-- The analysis of parameters is balanced. -/
protected theorem parameters (params : List Parameter) :
    Balanced (Resolve.parameters params) := by
  induction params with
  | nil => exact .pure _
  | cons param rest ih => exact introduce ih

/-- Checking a jump out of a loop is balanced. -/
protected theorem checkInLoop (jump : Jump) (location : Location) :
    Balanced (Resolve.checkInLoop jump location) := by
  refine look fun analysis => ?_
  split
  · exact .fail _ _
  · exact .pure _

/-- Checking a return is balanced. -/
protected theorem checkReturn (hasValue : Bool) (location : Location) :
    Balanced (Resolve.checkReturn hasValue location) := by
  refine look fun analysis => ?_
  split
  · exact .fail _ _
  · split
    · exact .fail _ _
    · exact .pure _
  · exact .pure _

/-- Checking an override is balanced. -/
protected theorem checkOverride (facts : ClassFacts) (className : String)
    (method : FunctionDecl) : Balanced (Resolve.checkOverride facts className method) := by
  unfold Resolve.checkOverride
  split
  · exact .fail _ _
  · exact .pure _

/-- Checking a class against its superclass is balanced. -/
protected theorem checkInherited (decl : ClassDecl) (known : Option ClassFacts) :
    Balanced (Resolve.checkInherited decl known) := by
  cases known with
  | none => exact .pure _
  | some facts =>
      unfold Resolve.checkInherited
      induction decl.methods with
      | nil => exact .pure _
      | cons method rest ih => exact bind (.checkOverride _ _ _) fun _ => ih

/-- The analysis of a superclass is balanced. -/
protected theorem superclass (className : String) (reference : SuperclassRef) :
    Balanced (Resolve.superclass className reference) := by
  unfold Resolve.superclass
  split
  · exact .fail _ _
  · refine bind (.checkDeclared _ _) fun _ => bind (.resolveName _ _) fun _ => look fun _ => ?_
    dsimp only
    split
    · split
      · exact .fail _ _
      · exact .pure _
    · exact .pure _

/-- The analysis of the superclass of a declaration is balanced. -/
protected theorem declaredSuperclass (decl : ClassDecl) :
    Balanced (Resolve.declaredSuperclass decl) := by
  unfold Resolve.declaredSuperclass
  split
  · exact .superclass _ _
  · exact .pure _

/-- The analysis of the head of a class is balanced. -/
protected theorem classHead (decl : ClassDecl) : Balanced (Resolve.classHead decl) := by
  have counted (number : Nat) : Balanced (modify fun analysis : Analysis =>
      { analysis with nextClass := number }) :=
    .of_ok (fun _ => rfl) fun analysis => { Analysis.Balances.refl analysis with }
  refine introduce (bind (.declaredSuperclass decl) fun known =>
    bind (.checkInherited decl known) fun _ => look fun analysis => ?_)
  exact bind (counted _) fun _ => bind (.adjust _ _) fun _ => .pure _

/-- The scopes of a class are closed again, whether or not what is inside of them passes. -/
protected theorem classScopes (decl : ClassDecl) {step : Resolve Unit} (inside : Balanced step) :
    Balanced (Resolve.classScopes decl step) := by
  have receiver : Balanced (Resolve.inScope (.thisOf decl) (do
      declareImplicit "this"
      step)) := .inScope _ (bind (.declareImplicit _) fun _ => inside)
  unfold Resolve.classScopes
  dsimp only
  split
  · exact .inScope _ (bind (.declareImplicit _) fun _ => receiver)
  · exact receiver

/-- The analysis of the head of an extension is balanced. -/
protected theorem extensionHead (id : NodeId) (className : String) (method : FunctionDecl)
    (location : Location) : Balanced (Resolve.extensionHead id className method location) := by
  refine bind (.checkDeclared _ _) fun _ => bind (.resolveName _ _) fun _ => look fun _ => ?_
  split
  · split
    · exact .fail _ _
    · exact .checkOverride _ _ _
  · exact .pure _

/-- The analysis of initial values of fields is balanced. -/
protected theorem fieldInitials (fields : List FieldDecl) :
    Balanced (Resolve.fieldInitials fields) := by
  induction fields with
  | nil => exact .pure _
  | cons field rest ih => exact bind (.optional field.initial) fun _ => ih

mutual

/-- The analysis of a statement is balanced. -/
protected theorem statement : (statement : Statement) → Balanced (Resolve.statement statement)
  | .expression expr _ | .print expr _ => .expression expr
  | .varDecl name initial isFinal location => .varDecl name initial isFinal location
  | .block body _ => .inScopeHoist _ _ (.statements body)
  | .ifElse condition thenBranch none _ =>
    bind (.expression condition) fun _ => .statement thenBranch
  | .ifElse condition thenBranch (some elseBranch) _ =>
    bind (.expression condition) fun _ => bind (.statement thenBranch) fun _ =>
      .statement elseBranch
  | .whileLoop condition body _ | .doWhile body condition _ | .repeatLoop condition body _ =>
    bind (.expression condition) fun _ => .inLoop (.statement body)
  | .function decl => introduce (.function .function decl)
  | .classDecl decl => .classDecl decl
  | .returning value location =>
    bind (.checkReturn value.isSome location) fun _ => .optional value
  | .breaking location => .checkInLoop .breaking location
  | .continuing location => .checkInLoop .continuing location
  | .test _ body _ => .inBody _ (.inScopeHoist _ _ (.statements body))
  | .moduleDecl _ _ | .nativeFunction _ _ _ _ => bind (.declare _ _ _ _) fun _ => .adjust _ _
  | .extension id className method location =>
    bind (.extensionHead id className method location) fun _ => .inClass _ _ <| .inScope _ <|
      bind (.declareImplicit _) fun _ => .function .method method

/-- The analysis of statements in order is balanced. -/
protected theorem statements :
    (statements : List Statement) → Balanced (Resolve.statements statements)
  | [] => .pure _
  | first :: rest => bind (.statement first) fun _ => .statements rest

/-- The analysis of a function is balanced. -/
protected theorem function (context : BodyContext) :
    (decl : FunctionDecl) → Balanced (Resolve.function context decl)
  | ⟨_, _, params, body, _, _⟩ =>
    .inBody _ <| .deferred <| .inScopeHoist _ _ <|
      bind (.parameters params) fun _ => .statements body

/-- The analysis of methods is balanced. -/
protected theorem methods :
    (methods : List FunctionDecl) → Balanced (Resolve.methods methods)
  | [] => .pure _
  | first :: rest => bind (.function _ first) fun _ => .methods rest

/-- The analysis of a class is balanced. -/
protected theorem classDecl : (decl : ClassDecl) → Balanced (Resolve.classDecl decl)
  | ⟨name, superclass, fields, methods, isFinal, location⟩ =>
    bind (.classHead ⟨name, superclass, fields, methods, isFinal, location⟩) fun _ =>
      .inClass _ _ <| .deferred <| .classScopes _ <|
        bind (.fieldInitials fields) fun _ => .methods methods

end

end Balanced

end Resolve

open Resolve (analysisAfter) in
/-- From every state, and so from every one that an analysis comes to, the analysis of an
expression, of a statement (an extension is one), of a function and of a class ends in the context
it began in, whether or not it passes: there are as many scopes, with the names that their
statements will declare, in the same body, class, loops and functions; and in the scopes around the
innermost one nothing has changed but that of some variables it is no longer known what they
hold. -/
theorem context_balanced (analysis : Analysis) :
    (∀ expr, analysis.Balances (analysisAfter (Resolve.expression expr analysis))) ∧
    (∀ statement, analysis.Balances (analysisAfter (Resolve.statement statement analysis))) ∧
    (∀ context decl, analysis.Balances (analysisAfter (Resolve.function context decl analysis))) ∧
    (∀ decl, analysis.Balances (analysisAfter (Resolve.classDecl decl analysis))) :=
  ⟨fun expr => Resolve.Balanced.expression expr analysis,
    fun statement => Resolve.Balanced.statement statement analysis,
    fun context decl => Resolve.Balanced.function context decl analysis,
    fun decl => Resolve.Balanced.classDecl decl analysis⟩

end Scriptlet
