import Scriptlet.Proofs.Resolution.Walk

/-!
# The walk over statements

A declaration first enters its name without a value (`Analysis.declaring`) and gives it its value
when the declaration is done: for functions and classes at once, for a variable after its initial
value (`Resolve.Steps.statement`).
-/

namespace Scriptlet

/-- The names some statements declare in their own scope. -/
def hoistedOf (statements : List Statement) : Table Hoisted :=
  (statements.filterMap Statement.declares?).foldl
    (fun upcoming (name, hoisted) => addHoisted upcoming name hoisted) []

namespace Analysis

/-- How the innermost scope declares a name. -/
def flags (analysis : Analysis) (name : String) : Option (Bool × Bool) :=
  match analysis.scopes with
  | innermost :: _ => innermost.flags name
  | [] => none

/-- Without changes the innermost scope declares every name as before. -/
theorem Later.flags_eq {nodes : List NodeId} {before after : Analysis}
    (later : before.Later nodes [] after) (name : String) :
    after.flags name = before.flags name := by
  have scopes := later.scopes
  unfold Analysis.flags
  generalize before.scopes = earlier at scopes ⊢
  generalize after.scopes = reached at scopes ⊢
  cases scopes with
  | nil => rfl
  | cons becomes _ => exact becomes.flags_eq name

/-- The analysis in a new scope for some statements. -/
def enter (analysis : Analysis) (tag : ScopeTag) (body : List Statement) : Analysis :=
  { analysis with scopes := ⟨[], hoistedOf body, analysis.functionDepth, tag⟩ :: analysis.scopes }

/-- The analysis in a new scope for a name that is not written in the program. -/
def holding (analysis : Analysis) (tag : ScopeTag) (name : String) : Analysis :=
  { analysis with
    scopes :=
      ⟨[(name, ⟨true, true, .varKind, none, none⟩)], [], analysis.functionDepth, tag⟩ ::
        analysis.scopes }

/-- The analysis after a name was declared that has no value yet. -/
def declaring (analysis : Analysis) (name : String) (kind : DeclarationKind) (isFinal : Bool) :
    Analysis :=
  analysis.modifyInnermost fun scope =>
    { scope with names := scope.names.put name ⟨false, isFinal, kind, none, none⟩ }

end Analysis

namespace Resolve

variable {α : Type} {before after : Analysis} {value : α}

/-- Announcing the names of statements in a new scope is how the analysis enters their scope. -/
theorem hoist_enter (tag : ScopeTag) (body : List Statement) :
    hoist body (before.openScope tag) = .ok () (before.enter tag body) := rfl

/-- Statements in a scope of their own. -/
theorem inScope_hoist_eq_ok {tag : ScopeTag} {body : List Statement} {step : Unit → Resolve α} :
    inScope tag (hoist body >>= step) before = .ok value after ↔
      ∃ inside, step () (before.enter tag body) = .ok value inside ∧ after = inside.closeScope := by
  rw [inScope_eq_ok, bind_of_ok (hoist_enter tag body)]

/-- Code in a scope of its own that holds a name. -/
theorem inScope_implicit_eq_ok {tag : ScopeTag} {name : String} {step : Unit → Resolve α} :
    inScope tag (declareImplicit name >>= step) before = .ok value after ↔
      ∃ inside, step () (before.holding tag name) = .ok value inside ∧
        after = inside.closeScope := by
  have held : declareImplicit name (before.openScope tag) = .ok () (before.holding tag name) := rfl
  rw [inScope_eq_ok, bind_of_ok held]

/-- A declaration that passes is not one of a name that is final there. -/
theorem declare_eq_ok {name : String} {kind : DeclarationKind} {isFinal : Bool}
    {location : Location} {done : Unit}
    (passed : declare name kind isFinal location before = .ok done after) :
    after = before.declaring name kind isFinal ∧
      ∀ defined, before.flags name ≠ some (defined, true) := by
  obtain ⟨_, _, same, inspected⟩ := bind_eq_ok.mp passed
  cases same
  have flagged : before.flags name =
      (before.innermost? name).map fun declared => (declared.defined, declared.isFinal) := by
    unfold Analysis.flags Analysis.innermost?
    cases before.scopes <;> rfl
  cases found : before.innermost? name with
  | none =>
      rw [found] at inspected flagged
      cases inspected
      exact ⟨rfl, fun _ => by simp [flagged]⟩
  | some declared =>
      obtain ⟨defined, final, existing, facts, instanceOf⟩ := declared
      rw [found] at inspected flagged
      cases final <;> cases inspected
      exact ⟨rfl, fun _ => by simp [flagged]⟩

namespace Steps

variable {nodes : List NodeId} {changes : List (String × Bool)}

/-- A change of what is known of a declared name, but not of its declaration. -/
protected theorem adjust (name : String) {change : Declared → Declared}
    (defined : ∀ declared, (change declared).defined = declared.defined)
    (final : ∀ declared, (change declared).isFinal = declared.isFinal) :
    Steps [] changes (Resolve.adjust name change) := by
  intro before value after passed
  cases passed
  refine .of_scopes before ?_
  cases before.scopes with
  | nil => exact .nil
  | cons innermost outer =>
      refine .cons ?_ (ScopesLater.forall₂_refl outer)
      dsimp only [StaticScope.adjust]
      split
      · rename_i declared found
        exact .adjusted innermost found (defined declared) (final declared)
      · exact .refl innermost

end Steps

/-- A name that is declared and, after steps that declare nothing, gets its value. -/
theorem later_of_declaring {name : String} {kind : DeclarationKind} {isFinal : Bool}
    {nodes : List NodeId} {middle : Analysis} {change : Declared → Declared} {done : Unit}
    (later : (before.declaring name kind isFinal).Later nodes [] middle)
    (passed : adjust name change middle = .ok done after)
    (changeable : ∀ defined, before.flags name ≠ some (defined, true))
    (defined : ∀ declared, (change declared).defined = true)
    (final : ∀ declared, (change declared).isFinal = declared.isFinal) :
    before.Later nodes [(name, isFinal)] after ∧
      (before.scopes ≠ [] → after.flags name = some (true, isFinal)) := by
  cases passed
  have scopes := later.scopes
  unfold Analysis.declaring Analysis.modifyInnermost at scopes
  unfold Analysis.flags at changeable
  dsimp only at scopes
  have whole : ScopesLater [(name, isFinal)] before.scopes
      (middle.modifyInnermost (·.adjust name change)).scopes ∧
      (before.scopes ≠ [] → (middle.modifyInnermost (·.adjust name change)).flags name =
        some (true, isFinal)) := by
    unfold Analysis.flags Analysis.modifyInnermost StaticScope.adjust
    dsimp only
    generalize before.scopes = earlier at scopes changeable ⊢
    generalize middle.scopes = reached at scopes ⊢
    cases earlier with
    | nil =>
        cases scopes
        exact ⟨.nil, fun nonempty => absurd rfl nonempty⟩
    | cons innermost outer =>
        cases scopes with
        | @cons _ learned _ outerAfter becomes rest =>
            have entered := becomes.flags_eq name
            simp only [StaticScope.flags, Table.find?_put_self, Option.map_some] at entered
            obtain ⟨declared, found, shape⟩ := Option.map_eq_some_iff.mp entered
            obtain ⟨_, kept⟩ := Prod.mk.injEq .. ▸ shape
            simp only [found]
            have valued : StaticScope.flags { learned with
                names := learned.names.put name (change declared) } name =
                  some (true, isFinal) := by
              simp [StaticScope.flags, defined, final, kept]
            have others (query : String) (apart : name ≠ query) : StaticScope.flags { learned with
                names := learned.names.put name (change declared) } query =
                  innermost.flags query := by
              have same := becomes.flags_eq query
              simp only [StaticScope.flags, Table.find?_put_of_ne _ _ apart] at same ⊢
              exact same
            refine ⟨.cons ⟨becomes.tag, becomes.level, becomes.upcoming, fun query => ?_,
              fun query => ?_⟩ rest, fun _ => valued⟩
            · by_cases hit : name = query
              · subst hit
                exact .inr ⟨isFinal, List.mem_singleton.mpr rfl, valued⟩
              · exact .inl (others query hit)
            · rintro ⟨whether, fixed⟩
              by_cases hit : name = query
              · exact absurd (hit ▸ fixed) (changeable whether)
              · exact ⟨whether, (others query hit).trans fixed⟩
  exact ⟨later.relocate whole.1 later.body later.classContext later.current later.loopDepth
    later.functionDepth
    ⟨rfl, rfl, rfl⟩ ⟨rfl, rfl, rfl⟩, whole.2⟩

/-- A name that is declared and gets its value at once. -/
theorem introduced_eq_ok {name : String} {kind : DeclarationKind} {isFinal : Bool}
    {location : Location} {done : Unit}
    (passed : (declare name kind isFinal location >>= fun _ => define name) before =
      .ok done after) :
    before.Later [] [(name, isFinal)] after ∧
      (before.scopes ≠ [] → after.flags name = some (true, isFinal)) := by
  obtain ⟨_, declared, entered, defined⟩ := bind_eq_ok.mp passed
  obtain ⟨rfl, changeable⟩ := declare_eq_ok entered
  exact later_of_declaring (.refl _) defined changeable (fun _ => rfl) fun _ => rfl

/-- What comes after a name is declared and gets its value. -/
theorem introduce_eq_ok {name : String} {kind : DeclarationKind} {isFinal : Bool}
    {location : Location} {next : Unit → Resolve α}
    (passed : (declare name kind isFinal location >>= fun _ => define name >>= next) before =
      .ok value after) :
    ∃ middle, before.Later [] [(name, isFinal)] middle ∧
      (before.scopes ≠ [] → middle.flags name = some (true, isFinal)) ∧
      next () middle = .ok value after := by
  obtain ⟨_, declared, entered, rest⟩ := bind_eq_ok.mp passed
  obtain ⟨_, middle, defined, passedNext⟩ := bind_eq_ok.mp rest
  obtain ⟨later, flagged⟩ := introduced_eq_ok (bind_eq_ok.mpr ⟨_, _, entered, defined⟩)
  exact ⟨middle, later, flagged, passedNext⟩

/-- A variable gets its value after its initial value was analysed. -/
theorem varDecl_eq_ok {name : String} {initial : Option Expr} {isFinal : Bool}
    {location : Location} {done : Unit}
    (passed : varDecl name initial isFinal location before = .ok done after) :
    before.Later (initialNodes initial) [(name, isFinal)] after ∧
      (before.scopes ≠ [] → after.flags name = some (true, isFinal)) ∧
      (∀ defined, before.flags name ≠ some (defined, true)) ∧
      ∀ expr, initial = some expr → ∃ middle,
        expression expr (before.declaring name .varKind isFinal) = .ok () middle ∧
          middle.Precedes after := by
  obtain ⟨_, declared, entered, rest⟩ := bind_eq_ok.mp passed
  obtain ⟨rfl, changeable⟩ := declare_eq_ok entered
  cases initial with
  | none =>
      obtain ⟨later, flagged⟩ :=
        later_of_declaring (.refl _) rest changeable (fun _ => rfl) fun _ => rfl
      exact ⟨later, flagged, changeable, nofun⟩
  | some expr =>
      obtain ⟨_, middle, analysed, looked⟩ := bind_eq_ok.mp rest
      have adjusted : adjust name
          ({ · with defined := true, instanceOf := constructed? middle expr }) middle =
            .ok done after := looked
      obtain ⟨later, flagged⟩ := later_of_declaring (Steps.expression expr _ _ _ analysed)
        adjusted changeable (fun _ => rfl) fun _ => rfl
      refine ⟨later, flagged, changeable, fun other given => ?_⟩
      cases given
      cases adjusted
      exact ⟨middle, analysed, List.suffix_refl _, List.suffix_refl _⟩

namespace Steps

variable {nodes : List NodeId} {changes : List (String × Bool)}

private theorem introduce {name : String} {kind : DeclarationKind} {isFinal : Bool}
    {location : Location} {next : Unit → Resolve α} (member : (name, isFinal) ∈ changes)
    (rest : Steps nodes changes (next ())) :
    Steps nodes changes (declare name kind isFinal location >>= fun _ => define name >>= next) := by
  intro before value after passed
  obtain ⟨middle, later, _, passedNext⟩ := introduce_eq_ok passed
  have listed : [(name, isFinal)] ⊆ changes := by simpa using member
  exact (later.mono listed).trans (rest middle value after passedNext)

/-- A declaration of a name and nothing else. -/
theorem introduced (name : String) (kind : DeclarationKind) (location : Location) :
    Steps [] [(name, false)] (do
      declare name kind false location
      define name) :=
  fun _ _ _ passed => (introduced_eq_ok passed).1

/-- The parameters of a function are declared, each of them not for good. -/
protected theorem parameters (params : List Parameter) :
    Steps [] (params.map fun param => (param.name, false)) (Resolve.parameters params) := by
  induction params with
  | nil => exact .pure _
  | cons param rest ih =>
      exact introduce (List.mem_cons_self ..) (ih.mono (List.subset_cons_self _ _))

/-- A name that a construct binds by itself is declared for good. -/
protected theorem declareImplicit (name : String) :
    Steps [] [(name, true)] (Resolve.declareImplicit name) := by
  intro before value after passed
  cases passed
  refine .of_scopes before ?_
  cases before.scopes with
  | nil => exact .nil
  | cons innermost outer =>
      refine .cons ⟨rfl, rfl, rfl, fun query => ?_, fun query fixed => ?_⟩
        (ScopesLater.forall₂_refl outer)
      · by_cases hit : name = query
        · subst hit
          exact .inr ⟨true, List.mem_singleton.mpr rfl, by simp [StaticScope.flags]⟩
        · exact .inl (by simp [StaticScope.flags, Table.find?_put_of_ne _ _ hit])
      · by_cases hit : name = query
        · subst hit
          exact ⟨true, by simp [StaticScope.flags]⟩
        · obtain ⟨whether, known⟩ := fixed
          refine ⟨whether, ?_⟩
          rw [← known]
          simp [StaticScope.flags, Table.find?_put_of_ne _ _ hit]

/-- What statements declare in a scope of their own is forgotten with it. -/
theorem inScopeHoist (tag : ScopeTag) (body : List Statement) {step : Unit → Resolve α}
    (steps : Steps nodes changes (step ())) :
    Steps nodes [] (Resolve.inScope tag (hoist body >>= step)) := by
  intro before value after passed
  obtain ⟨inside, stepped, rfl⟩ := inScope_hoist_eq_ok.mp passed
  have later := steps _ _ _ stepped
  refine later.relocate ?_ later.body later.classContext later.current later.loopDepth
    later.functionDepth
    ⟨rfl, rfl, rfl⟩ ⟨rfl, rfl, rfl⟩
  have scopes := later.scopes
  unfold Analysis.enter at scopes
  unfold Analysis.closeScope
  dsimp only at scopes ⊢
  generalize inside.scopes = nested at scopes ⊢
  cases scopes with
  | cons _ outer => exact .of_forall₂ outer

/-- Checking a jump out of a loop visits nothing. -/
protected theorem checkInLoop (jump : Jump) (location : Location) :
    Steps [] changes (Resolve.checkInLoop jump location) := by
  refine look fun analysis => ?_
  split
  · exact .fail _ _
  · exact .pure _

/-- Checking a return visits nothing. -/
protected theorem checkReturn (hasValue : Bool) (location : Location) :
    Steps [] changes (Resolve.checkReturn hasValue location) := by
  refine look fun analysis => ?_
  split
  · exact .fail _ _
  · split
    · exact .fail _ _
    · exact .pure _
  · exact .pure _

/-- Checking an override visits nothing. -/
protected theorem checkOverride (facts : ClassFacts) (className : String) (method : FunctionDecl) :
    Steps [] changes (Resolve.checkOverride facts className method) := by
  unfold Resolve.checkOverride
  split
  · exact .fail _ _
  · exact .pure _

/-- Checking overrides visits nothing. -/
protected theorem checkOverrides (facts : ClassFacts) (className : String)
    (methods : List FunctionDecl) :
    Steps [] changes (Resolve.checkOverrides facts className methods) := by
  induction methods with
  | nil => exact .pure _
  | cons method rest ih => exact after (.checkOverride facts className method) fun _ => ih

/-- A superclass is visited by the node that names it. -/
protected theorem superclass (className : String) (reference : SuperclassRef) :
    Steps [reference.id] changes (Resolve.superclass className reference) := by
  unfold Resolve.superclass
  split
  · exact .fail _ _
  · refine after (.checkDeclared _ _) fun _ => bind (.resolveName _ _) fun _ => look fun _ => ?_
    dsimp only
    split
    · split
      · exact .fail _ _
      · exact .pure _
    · exact .pure _

/-- An extension visits the class that it extends. -/
protected theorem extensionHead (id : NodeId) (className : String) (method : FunctionDecl)
    (location : Location) :
    Steps [id] changes (Resolve.extensionHead id className method location) := by
  refine after (.checkDeclared _ _) fun _ => bind (.resolveName _ _) fun _ => look fun _ => ?_
  split
  · split
    · exact .fail _ _
    · exact .checkOverride _ _ _
  · exact .pure _

/-- An initial value visits its nodes. -/
protected theorem optional (initial : Option Expr) :
    Steps (initialNodes initial) [] (Resolve.optional initial) := by
  cases initial with
  | some expr => exact .expression expr
  | none => exact .pure _

/-- The initial values of fields visit their nodes, in order. -/
protected theorem fieldInitials (fields : List FieldDecl) :
    Steps (fields.flatMap (initialNodes ·.initial)) [] (Resolve.fieldInitials fields) := by
  induction fields with
  | nil => exact .pure _
  | cons field rest ih => exact bind (.optional field.initial) fun _ => ih

/-- The superclass of a declaration is visited, if there is one. -/
protected theorem declaredSuperclass (decl : ClassDecl) :
    Steps (decl.superclass.toList.map (·.id)) changes (Resolve.declaredSuperclass decl) := by
  unfold Resolve.declaredSuperclass
  split
  · rename_i reference named
    rw [named]
    exact .superclass decl.name reference
  · rename_i root
    rw [root]
    exact .pure _

/-- Checking a class against its superclass visits nothing. -/
protected theorem checkInherited (decl : ClassDecl) (known : Option ClassFacts) :
    Steps [] changes (Resolve.checkInherited decl known) := by
  cases known with
  | some facts => exact .checkOverrides facts decl.name decl.methods
  | none => exact .pure _

end Steps

/-- A method that passes as an override overrides no final one. -/
theorem checkOverride_eq_ok {facts : ClassFacts} {className : String} {method : FunctionDecl}
    {done : Unit} (passed : checkOverride facts className method before = .ok done after) :
    facts.hasFinalMethod method.name = false := by
  unfold checkOverride at passed
  split at passed
  · cases passed
  · rename_i allowed
    exact Bool.eq_false_iff.mpr allowed

private theorem checkOverrides_eq_ok {facts : ClassFacts} {className : String}
    {methods : List FunctionDecl} {done : Unit}
    (passed : checkOverrides facts className methods before = .ok done after) :
    ∀ method ∈ methods, facts.hasFinalMethod method.name = false := by
  induction methods generalizing before with
  | nil => nofun
  | cons method rest ih =>
      obtain ⟨_, middle, first, others⟩ := bind_eq_ok.mp passed
      exact List.forall_mem_cons.mpr ⟨checkOverride_eq_ok first, ih others⟩

/-- A class is declared before its superclass is looked up. It overrides no method that the
superclass is known to mark final. -/
theorem classHead_eq_ok {decl : ClassDecl} {facts : ClassFacts}
    (passed : classHead decl before = .ok facts after) :
    ∃ declared known middle, before.Later [] [(decl.name, decl.isFinal)] declared ∧
      (before.scopes ≠ [] → declared.flags decl.name = some (true, decl.isFinal)) ∧
      declaredSuperclass decl declared = .ok known middle ∧
      (∀ inherited ∈ known, ∀ method ∈ decl.methods,
        inherited.hasFinalMethod method.name = false) ∧
      middle.Later [] [] after := by
  obtain ⟨declared, later, flagged, rest⟩ := introduce_eq_ok passed
  obtain ⟨known, middle, built, checked⟩ := bind_eq_ok.mp rest
  have allowed : ∀ inherited ∈ known, ∀ method ∈ decl.methods,
      inherited.hasFinalMethod method.name = false := by
    rintro inherited rfl
    obtain ⟨_, _, overrides, _⟩ := bind_eq_ok.mp checked
    exact checkOverrides_eq_ok overrides
  refine ⟨declared, known, middle, later, flagged, built, allowed, ?_⟩
  refine Steps.after (.checkInherited decl known) (fun _ => .look fun analysis => ?_)
    middle facts after checked
  have counted : Steps [] [] (modify fun state =>
      { state with nextClass := analysis.nextClass + 1 } : Resolve Unit) := by
    intro first value last counted
    cases counted
    have stayed : first.Later [] [] first := .refl first
    exact stayed.relocate (.refl _) rfl rfl rfl rfl rfl ⟨rfl, rfl, rfl⟩ ⟨rfl, rfl, rfl⟩
  exact Steps.after counted fun _ =>
    .after (.adjust _ (fun _ => rfl) fun _ => rfl) fun _ => .pure _

/-- The analysis of a class is that of its head, and then of its fields and methods in the scopes of
the class. -/
theorem classDecl_eq (decl : ClassDecl) :
    classDecl decl = classHead decl >>= fun facts =>
      inClass (if decl.superclass.isSome then .derived else .root) (some facts)
        (deferred (classScopes decl (do
          fieldInitials decl.fields
          methods decl.methods))) := by
  cases decl
  rfl

/-- The analysis of a function is that of its body in a scope that has its parameters. -/
theorem function_eq (context : BodyContext) (decl : FunctionDecl) :
    function context decl = inBody context (deferred <| inScope (.body decl) do
      hoist decl.body
      parameters decl.params
      statements decl.body) := by
  cases decl
  rfl

namespace Steps

/-- The head of a class visits its superclass and declares its name. -/
protected theorem classHead (decl : ClassDecl) :
    Steps (decl.superclass.toList.map (·.id)) [(decl.name, decl.isFinal)]
      (Resolve.classHead decl) := by
  intro before facts after passed
  obtain ⟨declared, known, middle, first, _, built, _, last⟩ := classHead_eq_ok passed
  have second : declared.Later _ [(decl.name, decl.isFinal)] middle :=
    Steps.declaredSuperclass decl declared known middle built
  have whole := first.trans (second.trans (last.mono (List.nil_subset _)))
  rwa [List.append_nil] at whole

/-- What is declared inside of a class is forgotten with it. -/
protected theorem classScopes {nodes : List NodeId} (decl : ClassDecl) {step : Resolve Unit}
    (steps : Steps nodes [] step) : Steps nodes [] (Resolve.classScopes decl step) := by
  have receiver : Steps nodes [] (Resolve.inScope (.thisOf decl) (do
      declareImplicit "this"
      step)) := .inScope _ (.after (.declareImplicit "this") fun _ => steps.quiet)
  unfold Resolve.classScopes
  dsimp only
  split
  · exact .inScope _ (.after (.declareImplicit "super") fun _ => receiver.quiet)
  · exact receiver

mutual

/-- A statement declares what it is said to bind. -/
protected theorem statement :
    (statement : Statement) → Steps statement.nodes statement.binds (Resolve.statement statement)
  | .expression expr _ | .print expr _ => (Steps.expression expr).quiet
  | .varDecl name initial isFinal location => fun _ _ _ passed => (varDecl_eq_ok passed).1
  | .block body location => .quiet (.inScopeHoist _ _ (.statements body))
  | .ifElse condition thenBranch none _ => by
    simp only [Statement.binds, Statement.nodes]
    exact bind (Steps.expression condition).quiet fun _ => .statement thenBranch
  | .ifElse condition thenBranch (some elseBranch) _ => by
    simp only [Statement.binds, Statement.nodes]
    refine bind (Steps.expression condition).quiet fun _ => bind ?_ fun _ => ?_
    · exact (Steps.statement thenBranch).mono (List.subset_append_left _ _)
    · exact (Steps.statement elseBranch).mono (List.subset_append_right _ _)
  | .whileLoop condition body _ | .doWhile body condition _ | .repeatLoop condition body _ => by
    simp only [Statement.binds, Statement.nodes]
    exact bind (Steps.expression condition).quiet fun _ => .inLoop (.statement body)
  | .function decl => by
    simp only [Statement.binds, Statement.nodes]
    exact introduce (List.mem_singleton.mpr rfl) (Steps.function .function decl).quiet
  | .classDecl decl => by
    simp only [Statement.binds, Statement.nodes]
    exact .classDecl decl
  | .returning value location =>
    after (.checkReturn _ _) fun _ => .quiet (.optional value)
  | .breaking location => .checkInLoop .breaking location
  | .continuing location => .checkInLoop .continuing location
  | .test _ body location => .quiet (.inBody _ (.inScopeHoist _ _ (.statements body)))
  | .moduleDecl name location => by
    simp only [Statement.binds, Statement.nodes]
    exact introduced name .moduleKind location
  | .nativeFunction _ name _ location => by
    simp only [Statement.binds, Statement.nodes]
    exact introduced name .funKind location
  | .extension id className method location => by
    simp only [Statement.nodes]
    refine bind (.extensionHead id className method location) fun _ => .quiet (.inClass _ _ ?_)
    exact .inScope _ (.after (.declareImplicit "this") fun _ =>
      (Steps.function .method method).quiet)

/-- Statements in order visit their nodes and declare their names, in order. -/
protected theorem statements : (statements : List Statement) →
    Steps (Statement.nodesAll statements) (statements.flatMap Statement.binds)
      (Resolve.statements statements)
  | [] => .pure _
  | first :: rest => by
    simp only [Statement.nodesAll]
    refine bind ((Steps.statement first).mono ?_) fun _ => (Steps.statements rest).mono ?_
    · exact List.subset_append_left _ _
    · exact List.subset_append_right _ _

/-- What is declared inside of a function is forgotten with it. -/
protected theorem function (context : BodyContext) :
    (decl : FunctionDecl) → Steps decl.nodes [] (Resolve.function context decl)
  | ⟨name, kind, params, body, isFinal, location⟩ => by
    have inside : Steps (Statement.nodesAll body)
        (params.map (fun param => (param.name, false)) ++ body.flatMap Statement.binds) (do
          Resolve.parameters params
          Resolve.statements body) := by
      refine after ((Steps.parameters params).mono ?_) fun _ => (Steps.statements body).mono ?_
      · exact List.subset_append_left _ _
      · exact List.subset_append_right _ _
    exact .inBody _ (.deferred (.inScopeHoist _ _ inside))

/-- The methods of a class visit their nodes and declare nothing around the class. -/
protected theorem methods : (methods : List FunctionDecl) →
    Steps (FunctionDecl.nodesAll methods) [] (Resolve.methods methods)
  | [] => .pure _
  | first :: rest => bind (.function _ first) fun _ => .methods rest

/-- A class visits its superclass, its fields and its methods, and declares its name. -/
protected theorem classDecl : (decl : ClassDecl) →
    Steps decl.nodes [(decl.name, decl.isFinal)] (Resolve.classDecl decl)
  | ⟨name, superclass, fields, methods, isFinal, location⟩ => by
    refine bind (.classHead _) fun facts => .quiet (.inClass _ _ (.deferred (.classScopes _ ?_)))
    exact bind (.fieldInitials fields) fun _ => .methods methods

end

end Steps

end Resolve

end Scriptlet
