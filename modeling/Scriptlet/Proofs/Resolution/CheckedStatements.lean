import Scriptlet.Proofs.Resolution.Checking
import Scriptlet.Proofs.Resolution.StatementWalk

/-!
# Statements checked by the analysis

The analysis enters the names that the statements of a list declare before it looks at any of them,
and each name once more when it comes to the declaration. So what its scopes have at a reference is
what stands before the reference, except that the condition of a loop comes before the body
(`Resolve.Checks.program`).
-/

namespace Scriptlet

variable {depth : Nat} {scopes later : List NameScope}

private theorem entering_nil (scopes : List NameScope) : entering [] scopes = scopes := by
  cases scopes <;> rfl

private theorem contains_addHoisted {upcoming : Table Hoisted} {key name : String}
    {hoisted : Hoisted} :
    (addHoisted upcoming key hoisted).contains name = true ↔
      name = key ∨ upcoming.contains name = true := by
  unfold addHoisted
  split
  · exact Table.contains_put_iff
  · rename_i known found
    have present : upcoming.contains key = true := Option.isSome_iff_exists.mpr ⟨known, found⟩
    split
    · exact Table.contains_put_iff
    · constructor
      · exact .inr
      · rintro (rfl | listed)
        · exact present
        · exact listed

/-- The coming names of a scope are those its statements declare, and those it had. -/
theorem contains_hoisted (entries : List (String × Hoisted)) {name : String} :
    ∀ {upcoming : Table Hoisted},
      (entries.foldl (fun upcoming entry => addHoisted upcoming entry.1 entry.2)
        upcoming).contains name = true ↔
        name ∈ entries.map Prod.fst ∨ upcoming.contains name = true := by
  induction entries with
  | nil => simp
  | cons entry rest ih =>
    intro upcoming
    rw [List.foldl_cons, ih, contains_addHoisted, List.map_cons, List.mem_cons]
    tauto

namespace Analysis.StandsIn

variable {analysis : Analysis}

/-- A change of the innermost scope. -/
theorem modifyInnermost {scope next : NameScope} {change : StaticScope → StaticScope}
    (stands : analysis.StandsIn depth (scope :: scopes))
    (becomes : ∀ static, scope.Agrees static → next.Agrees (change static)) :
    (analysis.modifyInnermost change).StandsIn depth (next :: scopes) := by
  refine ⟨stands.depth, ?_⟩
  have agree := stands.scopes
  unfold Analysis.modifyInnermost
  dsimp only
  generalize analysis.scopes = statics at agree ⊢
  cases agree with
  | cons agrees rest => exact .cons (becomes _ agrees) rest

/-- Something else that is said of the innermost scope. -/
theorem retold {scope next : NameScope} (stands : analysis.StandsIn depth (scope :: scopes))
    (same : ∀ static, scope.Agrees static → next.Agrees static) :
    analysis.StandsIn depth (next :: scopes) := by
  refine ⟨stands.depth, ?_⟩
  have agree := stands.scopes
  generalize analysis.scopes = statics at agree ⊢
  cases agree with
  | cons agrees rest => exact .cons (same _ agrees) rest

/-- A change of the names of the innermost scope. -/
theorem enters {change : StaticScope → StaticScope} {names : List String}
    (stands : analysis.StandsIn depth scopes)
    (entered : ∀ static name, (change static).names.contains name = true ↔
      name ∈ names ∨ static.names.contains name = true)
    (upcoming : ∀ static, (change static).upcoming = static.upcoming)
    (level : ∀ static, (change static).level = static.level) :
    (analysis.modifyInnermost change).StandsIn depth (entering names scopes) := by
  cases scopes with
  | nil =>
    obtain ⟨deep, agree⟩ := stands
    refine ⟨deep, ?_⟩
    unfold Analysis.modifyInnermost
    rw [List.forall₂_nil_left_iff.mp agree]
    exact .nil
  | cons scope outer =>
    refine stands.modifyInnermost fun static agrees => ⟨fun name => ?_, ?_, ?_⟩
    · rw [entered, agrees.entered]
      exact List.mem_append.symm
    · rw [upcoming]
      exact agrees.listed
    · exact (level static).trans agrees.level

/-- A name that is put into the innermost scope. -/
theorem put (stands : analysis.StandsIn depth scopes) (name : String) (declared : Declared) :
    (analysis.modifyInnermost fun scope =>
      { scope with names := scope.names.put name declared }).StandsIn depth
        (entering [name] scopes) := by
  refine stands.enters (fun static other => ?_) (fun _ => rfl) fun _ => rfl
  rw [Table.contains_put_iff, List.mem_singleton]

/-- The order in which names are entered does not matter. -/
theorem append_entering {first second : List String}
    (stands : analysis.StandsIn depth (entering second (entering first scopes))) :
    analysis.StandsIn depth (entering (first ++ second) scopes) := by
  cases scopes with
  | nil => exact stands
  | cons scope outer =>
    refine stands.retold fun static agrees => ⟨fun name => ?_, agrees.listed, agrees.level⟩
    refine (agrees.entered name).trans ?_
    simp only [List.mem_append]
    tauto

/-- The analysis does not see what stands before a reference only in the text. -/
theorem passing_iff {names : List String} :
    analysis.StandsIn depth (passing names scopes) ↔ analysis.StandsIn depth scopes := by
  cases scopes with
  | nil => rfl
  | cons scope outer =>
    exact ⟨fun stands => stands.retold fun _ agrees =>
      ⟨agrees.entered, agrees.listed, agrees.level⟩,
      fun stands => stands.retold fun _ agrees => ⟨agrees.entered, agrees.listed, agrees.level⟩⟩

/-- A new scope has no names. -/
theorem openScope (stands : analysis.StandsIn depth scopes) (tag : ScopeTag) :
    (analysis.openScope tag).StandsIn depth (⟨[], [], [], depth⟩ :: scopes) := by
  refine ⟨stands.depth, .cons ⟨fun name => ?_, fun name => ?_, stands.depth⟩ stands.scopes⟩
  · simp [Table.contains, Table.find?]
  · simp [Table.contains, Table.find?]

private theorem closeScope {scope : NameScope}
    (stands : analysis.StandsIn depth (scope :: scopes)) :
    analysis.closeScope.StandsIn depth scopes := by
  refine ⟨stands.depth, ?_⟩
  have agree := stands.scopes
  unfold Analysis.closeScope
  dsimp only
  generalize analysis.scopes = statics at agree ⊢
  cases agree with
  | cons _ rest => exact rest

end Analysis.StandsIn

namespace Resolve

namespace Checks

variable {α : Type} {occurrences : List Occurrence} {step : Resolve α}

/-! ### Scopes and declarations -/

/-- A step in a scope of its own comes to the references that it comes to there. -/
protected theorem inScope {inside : NameScope} (tag : ScopeTag)
    (checks : Checks depth (⟨[], [], [], depth⟩ :: scopes) (inside :: scopes) occurrences step) :
    Checks depth scopes scopes occurrences (Resolve.inScope tag step) :=
  between (fun _ stands => stands.openScope tag) checks fun _ stands => stands.closeScope

/-- A step in a loop comes to the same references. -/
protected theorem inLoop (checks : Checks depth scopes later occurrences step) :
    Checks depth scopes later occurrences (Resolve.inLoop step) :=
  between (fun _ stands => ⟨stands.depth, stands.scopes⟩) checks
    fun _ stands => ⟨stands.depth, stands.scopes⟩

/-- A step in a body comes to the same references. -/
protected theorem inBody (context : BodyContext)
    (checks : Checks depth scopes later occurrences step) :
    Checks depth scopes later occurrences (Resolve.inBody context step) :=
  look fun _ _ => between (fun _ stands => ⟨stands.depth, stands.scopes⟩) checks
    fun _ stands => ⟨stands.depth, stands.scopes⟩

/-- A step in a class comes to the same references. -/
protected theorem inClass (context : ClassContext) (facts : Option ClassFacts)
    (checks : Checks depth scopes later occurrences step) :
    Checks depth scopes later occurrences (Resolve.inClass context facts step) :=
  look fun _ _ => between (fun _ stands => ⟨stands.depth, stands.scopes⟩) checks
    fun _ stands => ⟨stands.depth, stands.scopes⟩

/-- A step that is deferred comes to the same references, one function deeper. -/
protected theorem deferred (checks : Checks (depth + 1) scopes later occurrences step) :
    Checks depth scopes later occurrences (Resolve.deferred step) :=
  between (fun _ stands => ⟨congrArg (· + 1) stands.depth, stands.scopes⟩) checks
    fun _ stands => ⟨congrArg (· - 1) stands.depth, stands.scopes⟩

/-- The names that statements declare are announced, which comes to no references. -/
protected theorem hoist (statements : List Statement) {outer : List NameScope} :
    Checks depth (⟨[], [], [], depth⟩ :: outer) (⟨[], [], listedBy statements, depth⟩ :: outer) []
      (Resolve.hoist statements) := by
  refine modify fun before stands => stands.modifyInnermost fun static agrees => ?_
  refine ⟨agrees.entered, fun name => ?_, agrees.level⟩
  rw [contains_hoisted, agrees.listed]
  simp [listedBy]

/-- Changing what is known of a name comes to no references. -/
protected theorem adjust (name : String) (change : Declared → Declared) :
    Checks depth scopes scopes [] (Resolve.adjust name change) := by
  refine modify fun before stands => ?_
  have same (static : StaticScope) (other : String) :
      (static.adjust name change).names.contains other = true ↔
        other ∈ ([] : List String) ∨ static.names.contains other = true := by
    unfold StaticScope.adjust
    split
    · rename_i declared found
      rw [Table.contains_put_iff]
      constructor
      · rintro (rfl | known)
        · exact .inr (Option.isSome_iff_exists.mpr ⟨declared, found⟩)
        · exact .inr known
      · rintro (none | known)
        · cases none
        · exact .inr known
    · simp
  have upcoming (static : StaticScope) :
      (static.adjust name change).upcoming = static.upcoming := by
    unfold StaticScope.adjust
    split <;> rfl
  have level (static : StaticScope) : (static.adjust name change).level = static.level := by
    unfold StaticScope.adjust
    split <;> rfl
  have stays := stands.enters same upcoming level
  rwa [entering_nil] at stays

/-- A declaration enters its name and comes to no references. -/
protected theorem declare (name : String) (kind : DeclarationKind) (isFinal : Bool)
    (location : Location) :
    Checks depth scopes (entering [name] scopes) []
      (Resolve.declare name kind isFinal location) := by
  refine look fun analysis _ => ?_
  split
  · exact .fail (fun _ => by simp) _
  · exact modify fun _ stands => stands.put name _

/-- A name that a construct binds by itself is entered without a reference. -/
protected theorem declareImplicit (name : String) :
    Checks depth scopes (entering [name] scopes) [] (Resolve.declareImplicit name) :=
  modify fun _ stands => stands.put name _

/-- Taking a name as defined comes to no references. -/
protected theorem define (name : String) : Checks depth scopes scopes [] (Resolve.define name) :=
  .adjust name _

/-- A name that is declared and has its value at once. -/
theorem introduced (name : String) (kind : DeclarationKind) (isFinal : Bool)
    (location : Location) :
    Checks depth scopes (entering [name] scopes) []
      (Resolve.declare name kind isFinal location >>= fun _ => Resolve.define name) :=
  after (.declare name kind isFinal location) fun _ => .define name

/-- The parameters of a function are entered, and come to no references. -/
protected theorem parameters (params : List Parameter) :
    Checks depth scopes (entering (params.map (·.name)) scopes) [] (Resolve.parameters params) := by
  induction params generalizing scopes with
  | nil =>
    rw [List.map_nil, entering_nil]
    exact .pure ()
  | cons param rest ih =>
    change Checks depth scopes (entering ([param.name] ++ rest.map (·.name)) scopes) [] _
    refine weaken ?_ fun _ stands => Analysis.StandsIn.append_entering stands
    exact after (.declare param.name .parameterKind false param.location) fun _ =>
      after (.define param.name) fun _ => ih

/-! ### Classes and functions -/

/-- A superclass is a reference to its name. -/
protected theorem superclass (className : String) (reference : SuperclassRef) :
    Checks depth scopes scopes
      [⟨⟨.superclass, reference.name, reference.location⟩, scopes, depth⟩]
      (Resolve.superclass className reference) := by
  unfold Resolve.superclass
  split
  · exact .fail (fun _ => by simp) _
  · refine last (.checkDeclared ⟨.superclass, reference.name, reference.location⟩ rfl) fun _ =>
      after (.resolveName _ _) fun _ => look fun _ _ => ?_
    dsimp only
    split
    · split
      · exact .fail (fun _ => by simp) _
      · exact .pure _
    · exact .pure _

/-- The superclass of a declaration is a reference, if it names one. -/
protected theorem declaredSuperclass (decl : ClassDecl) :
    Checks depth scopes scopes
      (occurring depth scopes (decl.superclass.toList.map fun reference =>
        ⟨.superclass, reference.name, reference.location⟩))
      (Resolve.declaredSuperclass decl) := by
  unfold Resolve.declaredSuperclass
  cases decl.superclass with
  | some reference => exact .superclass decl.name reference
  | none => exact .pure _

/-- Checking an override comes to no references. -/
protected theorem checkOverride (facts : ClassFacts) (className : String)
    (method : FunctionDecl) :
    Checks depth scopes scopes [] (Resolve.checkOverride facts className method) := by
  unfold Resolve.checkOverride
  split
  · exact .fail (fun _ => by simp) _
  · exact .pure _

/-- Checking a class against its superclass comes to no references. -/
protected theorem checkInherited (decl : ClassDecl) (known : Option ClassFacts) :
    Checks depth scopes scopes [] (Resolve.checkInherited decl known) := by
  cases known with
  | none => exact .pure _
  | some facts =>
    have overrides (methods : List FunctionDecl) : Checks depth scopes scopes []
        (Resolve.checkOverrides facts decl.name methods) := by
      induction methods with
      | nil => exact .pure _
      | cons method rest ih => exact after (.checkOverride facts decl.name method) fun _ => ih
    exact overrides decl.methods

/-- A class has its name when its superclass is looked up. -/
protected theorem classHead (decl : ClassDecl) :
    Checks depth scopes (entering [decl.name] scopes)
      (occurring depth (entering [decl.name] scopes) (decl.superclass.toList.map fun reference =>
        ⟨.superclass, reference.name, reference.location⟩))
      (Resolve.classHead decl) := by
  refine after (.declare decl.name .classKind decl.isFinal decl.location) fun _ =>
    after (.define decl.name) fun _ => last (.declaredSuperclass decl) fun known =>
    after (.checkInherited decl known) fun _ => look fun analysis _ => ?_
  refine after (modify fun _ stands => ⟨stands.depth, stands.scopes⟩) fun _ =>
    after (.adjust _ _) fun _ => .pure _

/-- The inside of a class. -/
protected theorem classScopes (decl : ClassDecl) {inside : Resolve Unit}
    (checks : Checks depth (classNameScopes decl.superclass.isSome depth scopes)
      (classNameScopes decl.superclass.isSome depth scopes) occurrences inside) :
    Checks depth scopes scopes occurrences (Resolve.classScopes decl inside) := by
  unfold Resolve.classScopes
  unfold classNameScopes at checks
  dsimp only
  split
  · rename_i derived
    simp only [derived, if_true] at checks
    exact .inScope _ (after (.declareImplicit "super") fun _ =>
      .inScope _ (after (.declareImplicit "this") fun _ => checks))
  · rename_i root
    rw [if_neg root] at checks
    exact .inScope _ (after (.declareImplicit "this") fun _ => checks)

/-- The head of an extension is a reference to the class that it extends. -/
protected theorem extensionHead (id : NodeId) (className : String) (method : FunctionDecl)
    (location : Location) :
    Checks depth scopes scopes [⟨⟨.extended, className, location⟩, scopes, depth⟩]
      (Resolve.extensionHead id className method location) := by
  refine last (.checkDeclared ⟨.extended, className, location⟩ rfl) fun _ =>
    after (.resolveName _ _) fun _ => look fun _ _ => ?_
  split
  · split
    · exact .fail (fun _ => by simp) _
    · exact .checkOverride _ _ _
  · exact .pure _

/-- An initial value comes to the references in it. -/
protected theorem optional (initial : Option Expr) :
    Checks depth scopes scopes (occurring depth scopes (initialReferences initial))
      (Resolve.optional initial) := by
  cases initial with
  | some expr => exact Asks.expression expr
  | none => exact .pure _

/-- The initial values of fields come to the references in them, in order. -/
protected theorem fieldInitials (fields : List FieldDecl) :
    Asks depth scopes (fields.flatMap (initialReferences ·.initial))
      (Resolve.fieldInitials fields) := by
  induction fields with
  | nil => exact Checks.pure _
  | cons field rest ih => exact Asks.bind (Checks.optional field.initial) fun _ => ih

/-- A variable is declared before its initial value is looked at. -/
protected theorem varDecl (name : String) (initial : Option Expr) (isFinal : Bool)
    (location : Location) :
    Checks depth scopes (entering [name] scopes)
      (occurring depth (entering [name] scopes) (initialReferences initial))
      (Resolve.varDecl name initial isFinal location) := by
  refine after (.declare _ _ _ _) fun _ => ?_
  cases initial with
  | some expr => exact last (Asks.expression expr) fun _ => look fun _ _ => .adjust _ _
  | none => exact .adjust _ _

/-! ### Statements -/

/-- Statements in a scope of their own. -/
theorem inScopeHoist {inside : NameScope} {next : Unit → Resolve α} (tag : ScopeTag)
    (body : List Statement)
    (checks : Checks depth (⟨[], [], listedBy body, depth⟩ :: scopes) (inside :: scopes)
      occurrences (next ())) :
    Checks depth scopes scopes occurrences (Resolve.inScope tag (Resolve.hoist body >>= next)) :=
  .inScope tag (after (.hoist body) fun _ => checks)

/-- What stands before an expression only in the text does not matter. -/
theorem of_passing {names : List String}
    (checks : Checks depth (passing names scopes) (passing names scopes) occurrences step) :
    Checks depth scopes scopes occurrences step where
  passes before value after stands passed := by
    obtain ⟨inside, free⟩ :=
      checks.passes before value after (Analysis.StandsIn.passing_iff.mpr stands) passed
    exact ⟨Analysis.StandsIn.passing_iff.mp inside, free⟩
  stops before name location after stands stopped :=
    checks.stops before name location after (Analysis.StandsIn.passing_iff.mpr stands) stopped

mutual

/-- The analysis of a statement comes to its references, and leaves what it declares. -/
protected theorem statement {depth : Nat} {scopes : List NameScope} : (statement : Statement) →
    Checks depth scopes (entering statement.bound scopes) (statement.occurrences depth scopes)
      (Resolve.statement statement)
  | .expression expr _ | .print expr _ => by
    simp only [Statement.bound, Statement.binds, List.map_nil, entering_nil, Statement.occurrences]
    exact Asks.expression expr
  | .varDecl name initial isFinal location => by
    simp only [Statement.bound, Statement.binds, Statement.occurrences]
    exact .varDecl name initial isFinal location
  | .block body location => by
    simp only [Statement.bound, Statement.binds, List.map_nil, entering_nil, Statement.occurrences]
    exact inScopeHoist _ body (.statements body)
  | .ifElse condition thenBranch none _ => by
    simp only [Statement.bound, Statement.binds, Statement.occurrences]
    exact bind (Asks.expression condition) fun _ => .statement thenBranch
  | .ifElse condition thenBranch (some elseBranch) _ => by
    simp only [Statement.bound, Statement.binds, List.map_append, Statement.occurrences]
    refine bind (Asks.expression condition) fun _ => ?_
    refine weaken ?_ fun _ stands => Analysis.StandsIn.append_entering stands
    exact bind (.statement thenBranch) fun _ => .statement elseBranch
  | .whileLoop condition body _ | .repeatLoop condition body _ => by
    simp only [Statement.bound, Statement.binds, Statement.occurrences]
    exact bind (Asks.expression condition) fun _ => .inLoop (.statement body)
  | .doWhile body condition _ => by
    simp only [Statement.bound, Statement.binds, Statement.occurrences]
    exact bind (of_passing (Asks.expression condition)) fun _ => .inLoop (.statement body)
  | .function decl => by
    simp only [Statement.bound, Statement.binds, Statement.occurrences]
    exact after (.declare decl.name .funKind decl.isFinal decl.location) fun _ =>
      after (.define decl.name) fun _ => .function .function decl
  | .classDecl decl => by
    simp only [Statement.bound, Statement.binds, Statement.occurrences]
    exact .classDecl decl
  | .returning value location => by
    simp only [Statement.bound, Statement.binds, List.map_nil, entering_nil, Statement.occurrences]
    refine after (look fun analysis _ => ?_) fun _ => .optional value
    split
    · exact .fail (fun _ => by simp) _
    · split
      · exact .fail (fun _ => by simp) _
      · exact .pure _
    · exact .pure _
  | .breaking location | .continuing location => by
    simp only [Statement.bound, Statement.binds, List.map_nil, entering_nil, Statement.occurrences]
    refine look fun analysis _ => ?_
    split
    · exact .fail (fun _ => by simp) _
    · exact .pure _
  | .test _ body location => by
    simp only [Statement.bound, Statement.binds, List.map_nil, entering_nil, Statement.occurrences]
    exact .inBody _ (inScopeHoist _ body (.statements body))
  | .moduleDecl name location => by
    simp only [Statement.bound, Statement.binds, Statement.occurrences]
    exact introduced name .moduleKind false location
  | .nativeFunction _ name _ location => by
    simp only [Statement.bound, Statement.binds, Statement.occurrences]
    exact introduced name .funKind false location
  | .extension id className method location => by
    simp only [Statement.bound, Statement.binds, List.map_nil, entering_nil, Statement.occurrences]
    refine bind (.extensionHead id className method location) fun _ => .inClass _ _ ?_
    exact .inScope _ (after (.declareImplicit "this") fun _ => .function .method method)

/-- Statements in order enter the names they declare and come to the references in them, each in the
scopes that the statements before it have left. -/
protected theorem statements {depth : Nat} {scopes : List NameScope} :
    (statements : List Statement) →
    Checks depth scopes (entering (statements.flatMap Statement.bound) scopes)
      (Statement.occurrencesAll depth scopes statements) (Resolve.statements statements)
  | [] => by
    rw [List.flatMap_nil, entering_nil]
    exact .pure _
  | first :: rest => by
    rw [List.flatMap_cons, Statement.occurrencesAll]
    refine weaken ?_ fun _ stands => Analysis.StandsIn.append_entering stands
    exact bind (.statement first) fun _ => .statements rest

/-- The body of a function is checked as code of the function. -/
protected theorem function {depth : Nat} {scopes : List NameScope} (context : BodyContext) :
    (decl : FunctionDecl) →
    Checks depth scopes scopes (decl.occurrences depth scopes) (Resolve.function context decl)
  | ⟨name, kind, params, body, isFinal, location⟩ => by
    rw [FunctionDecl.occurrences]
    have named : Checks (depth + 1) (⟨[], [], listedBy body, depth + 1⟩ :: scopes)
        (⟨params.map (·.name), [], listedBy body, depth + 1⟩ :: scopes) []
        (Resolve.parameters params) := by
      have entered : Checks (depth + 1) (⟨[], [], listedBy body, depth + 1⟩ :: scopes) _ []
          (Resolve.parameters params) := .parameters params
      rwa [entering, List.append_nil] at entered
    exact .inBody _ (.deferred (inScopeHoist _ body (after named fun _ => .statements body)))

/-- The methods of a class come to the references in them and enter no names around the class. -/
protected theorem methods {depth : Nat} {scopes : List NameScope} : (methods : List FunctionDecl) →
    Checks depth scopes scopes (FunctionDecl.occurrencesAll depth scopes methods)
      (Resolve.methods methods)
  | [] => .pure _
  | first :: rest => bind (.function _ first) fun _ => .methods rest

/-- The inside of a class is checked as code that runs later. -/
protected theorem classDecl {depth : Nat} {scopes : List NameScope} : (decl : ClassDecl) →
    Checks depth scopes (entering [decl.name] scopes) (decl.occurrences depth scopes)
      (Resolve.classDecl decl)
  | ⟨name, superclass, fields, methods, isFinal, location⟩ => by
    rw [ClassDecl.occurrences]
    refine bind (.classHead _) fun facts => .inClass _ _ (.deferred (.classScopes _ ?_))
    exact bind (.fieldInitials fields) fun _ => .methods methods

end

/-- The analysis of a program comes to its references. -/
protected theorem program (source : Program) :
    ∃ later, Checks 0 [⟨[], [], [], 0⟩] later source.occurrences (Resolve.program source) :=
  ⟨_, after (.hoist source) fun _ => .statements source⟩

end Checks

end Resolve

end Scriptlet
