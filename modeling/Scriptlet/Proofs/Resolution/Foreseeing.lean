import Scriptlet.Proofs.Resolution.StatementWalk

/-!
# The analysis with and without checks of fields

Where accesses to fields are not checked the analysis goes on after an access that it would refuse
(`Analysis.uncheck`), and notes it. Up to the first of these the two analyses are one
(`Resolve.Foresees`); so if a program is refused for an access, and has no other fault, that access
is noted (`Resolve.refuses_of_rejected`).
-/

namespace Scriptlet

namespace Analysis

/-- The state of an analysis that does not check accesses to fields. -/
def uncheck (analysis : Analysis) : Analysis :=
  { analysis with checksFields := false }

/-- An access with this fault was noted. -/
def Refuses (analysis : Analysis) (fault : Located ResolveFault) : Prop :=
  ∃ refusal ∈ analysis.refusals, refusal.fault = fault.cause ∧ refusal.location = fault.location

/-- A change that has nothing to do with the checks of fields. -/
structure Unrelated (change : Analysis → Analysis) : Prop where
  uncheck : ∀ analysis, change analysis.uncheck = (change analysis).uncheck
  checksFields : ∀ analysis, (change analysis).checksFields = analysis.checksFields
  refusals : ∀ analysis, (change analysis).refusals = analysis.refusals

end Analysis

namespace Resolve

variable {α β : Type}

/-- A step goes the same way without checks of fields, up to the first access that it refuses:
that one is noted. -/
structure Foresees (step : Resolve α) : Prop where
  passes : ∀ before value after, before.checksFields = true → step before = .ok value after →
    after.checksFields = true ∧ step before.uncheck = .ok value after.uncheck
  stops : ∀ before fault after value last, before.checksFields = true →
    step before = .error fault after → step before.uncheck = .ok value last → last.Refuses fault
  notes : ∀ before value after, before.checksFields = false → step before = .ok value after →
    after.checksFields = false ∧ before.refusals <:+ after.refusals

namespace Foresees

variable {step : Resolve α}

/-- Giving a value goes the same way without checks. -/
protected theorem pure (value : α) : Foresees (pure value) where
  passes before result after checks passed := by
    cases passed
    exact ⟨checks, rfl⟩
  stops before fault after result last _ stopped _ := by cases stopped
  notes before result after unchecked passed := by
    cases passed
    exact ⟨unchecked, List.suffix_refl _⟩

/-- A fault is the same without checks. -/
protected theorem fail (fault : ResolveFault) (location : Location) :
    Foresees (Resolve.fail fault location : Resolve α) where
  passes _ _ _ _ passed := by cases passed
  stops _ _ _ _ _ _ _ passed := by cases passed
  notes _ _ _ _ passed := by cases passed

private theorem bind {next : α → Resolve β} (first : Foresees step)
    (rest : ∀ value, Foresees (next value)) : Foresees (step >>= next) where
  passes before result after checks passed := by
    obtain ⟨value, middle, firstPassed, restPassed⟩ := bind_eq_ok.mp passed
    obtain ⟨still, firstToo⟩ := first.passes _ _ _ checks firstPassed
    obtain ⟨checks, restToo⟩ := (rest value).passes _ _ _ still restPassed
    exact ⟨checks, bind_eq_ok.mpr ⟨value, _, firstToo, restToo⟩⟩
  stops before fault after result last checks stopped passed := by
    obtain ⟨value, middle, firstPassed, restPassed⟩ := bind_eq_ok.mp passed
    change EStateM.bind step next before = _ at stopped
    unfold EStateM.bind at stopped
    cases checked : step before with
    | error early state =>
        rw [checked] at stopped
        cases stopped
        obtain ⟨refusal, noted, same⟩ := first.stops _ _ _ _ _ checks checked firstPassed
        have unchecked := (first.notes _ _ _ rfl firstPassed).1
        exact ⟨refusal, ((rest value).notes _ _ _ unchecked restPassed).2.subset noted, same⟩
    | ok early state =>
        rw [checked] at stopped
        obtain ⟨still, firstToo⟩ := first.passes _ _ _ checks checked
        cases firstToo.symm.trans firstPassed
        exact (rest _).stops _ _ _ _ _ still stopped restPassed
  notes before result after unchecked passed := by
    obtain ⟨value, middle, firstPassed, restPassed⟩ := bind_eq_ok.mp passed
    obtain ⟨still, earlier⟩ := first.notes _ _ _ unchecked firstPassed
    obtain ⟨unchecked, later⟩ := (rest value).notes _ _ _ still restPassed
    exact ⟨unchecked, earlier.trans later⟩

/-- What comes after the state is looked at, if it does not matter whether fields are checked. -/
theorem look {next : Analysis → Resolve β} (rest : ∀ analysis, Foresees (next analysis))
    (same : ∀ analysis, next analysis.uncheck = next analysis) :
    Foresees (get >>= next) where
  passes before result after checks passed := by
    change next before before = _ at passed
    change _ ∧ next before.uncheck before.uncheck = _
    rw [same]
    exact (rest before).passes _ _ _ checks passed
  stops before fault after result last checks stopped passed := by
    change next before before = _ at stopped
    change next before.uncheck before.uncheck = _ at passed
    rw [same] at passed
    exact (rest before).stops _ _ _ _ _ checks stopped passed
  notes before result after unchecked passed := (rest before).notes _ _ _ unchecked passed

private theorem modify {change : Analysis → Analysis} (unrelated : Analysis.Unrelated change) :
    Foresees (modify change : Resolve Unit) where
  passes before value after checks passed := by
    cases passed
    refine ⟨(unrelated.checksFields before).trans checks, ?_⟩
    rw [← unrelated.uncheck]
    rfl
  stops before fault after value last _ stopped _ := by cases stopped
  notes before value after unchecked passed := by
    cases passed
    exact ⟨(unrelated.checksFields before).trans unchecked, (unrelated.refusals before).symm ▸
      List.suffix_refl _⟩

private theorem between {enter leave : Analysis → Analysis} (enters : Analysis.Unrelated enter)
    (inside : Foresees step) (leaves : Analysis.Unrelated leave) :
    Foresees (Resolve.between enter leave step) where
  passes before value after checks passed := by
    obtain ⟨last, inner, rfl⟩ := between_eq_ok.mp passed
    obtain ⟨still, innerToo⟩ :=
      inside.passes _ _ _ ((enters.checksFields before).trans checks) inner
    refine ⟨(leaves.checksFields last).trans still, ?_⟩
    rw [← leaves.uncheck]
    exact between_eq_ok.mpr ⟨last.uncheck, (enters.uncheck before).symm ▸ innerToo, rfl⟩
  stops before fault after value last checks stopped passed := by
    obtain ⟨reached, inner, rfl⟩ := between_eq_ok.mp passed
    rw [enters.uncheck] at inner
    unfold Resolve.between at stopped
    split at stopped
    · cases stopped
    · rename_i innerStopped
      cases stopped
      obtain ⟨refusal, noted, same⟩ := inside.stops _ _ _ _ _
        ((enters.checksFields before).trans checks) innerStopped inner
      exact ⟨refusal, leaves.refusals reached ▸ noted, same⟩
  notes before value after unchecked passed := by
    obtain ⟨last, inner, rfl⟩ := between_eq_ok.mp passed
    obtain ⟨still, noted⟩ :=
      inside.notes _ _ _ ((enters.checksFields before).trans unchecked) inner
    refine ⟨(leaves.checksFields last).trans still, ?_⟩
    rw [leaves.refusals]
    exact enters.refusals before ▸ noted

private theorem inScope (tag : ScopeTag) (inside : Foresees step) :
    Foresees (Resolve.inScope tag step) :=
  between ⟨fun _ => rfl, fun _ => rfl, fun _ => rfl⟩ inside
    ⟨fun _ => rfl, fun _ => rfl, fun _ => rfl⟩

private theorem inLoop (inside : Foresees step) : Foresees (Resolve.inLoop step) :=
  between ⟨fun _ => rfl, fun _ => rfl, fun _ => rfl⟩ inside
    ⟨fun _ => rfl, fun _ => rfl, fun _ => rfl⟩

private theorem deferred (inside : Foresees step) : Foresees (Resolve.deferred step) :=
  between ⟨fun _ => rfl, fun _ => rfl, fun _ => rfl⟩ inside
    ⟨fun _ => rfl, fun _ => rfl, fun _ => rfl⟩

private theorem inBody (context : BodyContext) (inside : Foresees step) :
    Foresees (Resolve.inBody context step) :=
  look (fun _ => between ⟨fun _ => rfl, fun _ => rfl, fun _ => rfl⟩ inside
    ⟨fun _ => rfl, fun _ => rfl, fun _ => rfl⟩) fun _ => rfl

private theorem inClass (context : ClassContext) (facts : Option ClassFacts)
    (inside : Foresees step) :
    Foresees (Resolve.inClass context facts step) :=
  look (fun _ => between ⟨fun _ => rfl, fun _ => rfl, fun _ => rfl⟩ inside
    ⟨fun _ => rfl, fun _ => rfl, fun _ => rfl⟩) fun _ => rfl

/-- Noting an expression goes the same way without checks. -/
protected theorem noteExpr (expr : Expr) : Foresees (Resolve.noteExpr expr) :=
  modify ⟨fun _ => rfl, fun _ => rfl, fun _ => rfl⟩

/-- Resolving a name goes the same way without checks. -/
protected theorem resolveName (id : NodeId) (name : String) :
    Foresees (Resolve.resolveName id name) :=
  modify ⟨fun _ => rfl, fun _ => rfl, fun _ => rfl⟩

/-- Announcing names goes the same way without checks. -/
protected theorem hoist (statements : List Statement) : Foresees (Resolve.hoist statements) :=
  modify ⟨fun _ => rfl, fun _ => rfl, fun _ => rfl⟩

/-- Changing what is known of a name goes the same way without checks. -/
protected theorem adjust (name : String) (change : Declared → Declared) :
    Foresees (Resolve.adjust name change) :=
  modify ⟨fun _ => rfl, fun _ => rfl, fun _ => rfl⟩

/-- Taking a name as defined goes the same way without checks. -/
protected theorem define (name : String) : Foresees (Resolve.define name) :=
  .adjust name _

/-- Declaring a name that a construct binds by itself goes the same way without checks. -/
protected theorem declareImplicit (name : String) : Foresees (Resolve.declareImplicit name) :=
  modify ⟨fun _ => rfl, fun _ => rfl, fun _ => rfl⟩

/-- A declaration goes the same way without checks. -/
protected theorem declare (name : String) (kind : DeclarationKind) (isFinal : Bool)
    (location : Location) : Foresees (Resolve.declare name kind isFinal location) := by
  refine look (fun analysis => ?_) fun _ => rfl
  split
  · exact .fail _ _
  · exact modify ⟨fun _ => rfl, fun _ => rfl, fun _ => rfl⟩

/-- Checking that a name is declared goes the same way without checks. -/
protected theorem checkDeclared (name : String) (location : Location) :
    Foresees (Resolve.checkDeclared name location) := by
  refine look (fun analysis => ?_) fun _ => rfl
  split
  · exact .fail _ _
  · exact .pure _

/-- Reading a name goes the same way without checks. -/
protected theorem readName (id : NodeId) (name : String) (location : Location) :
    Foresees (Resolve.readName id name location) := by
  refine look (fun analysis => ?_) fun _ => rfl
  split
  · exact .fail _ _
  · exact bind (.checkDeclared _ _) fun _ => .resolveName id name

/-- Assigning to a name goes the same way without checks. -/
protected theorem assignName (id : NodeId) (name : String) (location : Location) :
    Foresees (Resolve.assignName id name location) := by
  refine bind (.checkDeclared _ _) fun _ => look (fun analysis => ?_) fun _ => rfl
  split
  · exact .fail _ _
  · exact bind (.resolveName id name) fun _ => modify ⟨fun _ => rfl, fun _ => rfl, fun _ => rfl⟩

/-- An access passes, or is refused and noted: which of the two does not depend on whether fields
are checked. -/
theorem checkField_cases (object : Expr) (name : String) (location : Location)
    (isAssignment : Bool) (analysis : Analysis) :
    (Resolve.checkField object name location isAssignment analysis = .ok () analysis ∧
      Resolve.checkField object name location isAssignment analysis.uncheck =
        .ok () analysis.uncheck) ∨
    ∃ owner field fault,
      Resolve.checkField object name location isAssignment analysis =
        (if analysis.checksFields then Resolve.fail fault location
          else noteRefusal object name location isAssignment owner field fault) analysis ∧
      Resolve.checkField object name location isAssignment analysis.uncheck =
        noteRefusal object name location isAssignment owner field fault analysis.uncheck := by
  have same : instanceClass? analysis.uncheck object = instanceClass? analysis object := by
    cases object <;> rfl
  have current : analysis.uncheck.current = analysis.current := rfl
  rw [Resolve.checkField, get_bind, get_bind, same, current]
  cases (instanceClass? analysis object).bind (·.field? name) with
  | none => exact .inl ⟨rfl, rfl⟩
  | some known =>
      obtain ⟨owner, field⟩ := known
      dsimp only
      cases fieldFault? analysis.current owner field name isAssignment with
      | none => exact .inl ⟨rfl, rfl⟩
      | some fault => exact .inr ⟨owner, field, fault, rfl, rfl⟩

/-- An access to a field goes the same way without checks, unless it is refused; then it is noted.
-/
protected theorem checkField (object : Expr) (name : String) (location : Location)
    (isAssignment : Bool) : Foresees (Resolve.checkField object name location isAssignment) where
  passes before value after checks passed := by
    rcases checkField_cases object name location isAssignment before with
      ⟨checked, unchecked⟩ | ⟨owner, field, fault, checked, _⟩
    · cases checked.symm.trans passed
      exact ⟨checks, unchecked⟩
    · rw [if_pos checks] at checked
      cases checked.symm.trans passed
  stops before fault after value last checks stopped passed := by
    rcases checkField_cases object name location isAssignment before with
      ⟨checked, _⟩ | ⟨owner, field, fault, checked, unchecked⟩
    · cases checked.symm.trans stopped
    · rw [if_pos checks] at checked
      cases checked.symm.trans stopped
      cases unchecked.symm.trans passed
      exact ⟨_, List.mem_cons_self .., rfl, rfl⟩
  notes before value after unchecks passed := by
    rcases checkField_cases object name location isAssignment before with
      ⟨checked, _⟩ | ⟨owner, field, fault, checked, _⟩
    · cases checked.symm.trans passed
      exact ⟨unchecks, List.suffix_refl _⟩
    · rw [if_neg (by simp [unchecks])] at checked
      cases checked.symm.trans passed
      exact ⟨unchecks, List.suffix_cons _ _⟩

mutual

/-- The analysis of an expression goes the same way without checks, up to the first refused access.
-/
protected theorem expression : (expr : Expr) → Foresees (Resolve.expression expr)
  | .literal _ _ => bind (.noteExpr _) fun _ => .pure _
  | .array elements _ => bind (.noteExpr _) fun _ => .expressions elements
  | .var id name location => bind (.noteExpr _) fun _ => .readName id name location
  | .assign id name value location =>
    bind (.noteExpr _) fun _ => bind (.expression value) fun _ => .assignName id name location
  | .binary _ left right _ | .logical _ left right _ | .bitwise _ left right _
  | .elvis left right _ | .getIndex left right _ =>
    bind (.noteExpr _) fun _ => bind (.expression left) fun _ => .expression right
  | .unary _ operand _ | .grouping operand _ => bind (.noteExpr _) fun _ => .expression operand
  | .prefixCall id name operand _ =>
    bind (.noteExpr _) fun _ => bind (.resolveName id name) fun _ => .expression operand
  | .infixCall id name left right _ =>
    bind (.noteExpr _) fun _ => bind (.resolveName id name) fun _ =>
      bind (.expression left) fun _ => .expression right
  | .ternary condition thenBranch elseBranch _ =>
    bind (.noteExpr _) fun _ => bind (.expression condition) fun _ =>
      bind (.expression thenBranch) fun _ => .expression elseBranch
  | .call callee arguments _ =>
    bind (.noteExpr _) fun _ => bind (.expression callee) fun _ => .expressions arguments
  | .get object name location =>
    bind (.noteExpr _) fun _ => bind (.expression object) fun _ =>
      .checkField object name location false
  | .set object name value location =>
    bind (.noteExpr _) fun _ => bind (.expression value) fun _ =>
      bind (.expression object) fun _ => .checkField object name location true
  | .setIndex target index value _ =>
    bind (.noteExpr _) fun _ => bind (.expression target) fun _ =>
      bind (.expression index) fun _ => .expression value
  | .thisRef id _ => by
    refine bind (.noteExpr _) fun _ => look (fun analysis => ?_) fun _ => rfl
    split
    · exact .fail _ _
    · exact .resolveName id "this"
  | .superRef id _ _ => by
    refine bind (.noteExpr _) fun _ => look (fun analysis => ?_) fun _ => rfl
    split
    · exact .resolveName id "super"
    · exact .fail _ _

/-- The analysis of expressions in order goes the same way without checks, up to the first refused
access. -/
protected theorem expressions : (exprs : List Expr) → Foresees (Resolve.expressions exprs)
  | [] => .pure _
  | first :: rest => bind (.expression first) fun _ => .expressions rest

end

/-- The analysis of parameters goes the same way without checks. -/
protected theorem parameters (params : List Parameter) : Foresees (Resolve.parameters params) := by
  induction params with
  | nil => exact .pure _
  | cons param rest ih =>
      exact bind (.declare _ _ _ _) fun _ => bind (.define _) fun _ => ih

/-- A jump out of a loop is refused without checks of fields just as with them. -/
protected theorem checkInLoop (jump : Jump) (location : Location) :
    Foresees (Resolve.checkInLoop jump location) := by
  refine look (fun analysis => ?_) fun _ => rfl
  split
  · exact .fail _ _
  · exact .pure _

/-- A return is refused without checks of fields just as with them. -/
protected theorem checkReturn (hasValue : Bool) (location : Location) :
    Foresees (Resolve.checkReturn hasValue location) := by
  refine look (fun analysis => ?_) fun _ => rfl
  split
  · exact .fail _ _
  · split
    · exact .fail _ _
    · exact .pure _
  · exact .pure _

/-- An override is refused without checks of fields just as with them. -/
protected theorem checkOverride (facts : ClassFacts) (className : String) (method : FunctionDecl) :
    Foresees (Resolve.checkOverride facts className method) := by
  unfold Resolve.checkOverride
  split
  · exact .fail _ _
  · exact .pure _

/-- Overrides are refused without checks of fields just as with them. -/
protected theorem checkOverrides (facts : ClassFacts) (className : String)
    (methods : List FunctionDecl) : Foresees (Resolve.checkOverrides facts className methods) := by
  induction methods with
  | nil => exact .pure _
  | cons method rest ih => exact bind (.checkOverride facts className method) fun _ => ih

/-- Looking for the superclass of a declaration goes the same way without checks. -/
protected theorem declaredSuperclass (decl : ClassDecl) :
    Foresees (Resolve.declaredSuperclass decl) := by
  unfold Resolve.declaredSuperclass
  split
  · unfold Resolve.superclass
    split
    · exact .fail _ _
    · refine bind (.checkDeclared _ _) fun _ => bind (.resolveName _ _) fun _ =>
        look (fun _ => ?_) fun _ => rfl
      dsimp only
      split
      · split
        · exact .fail _ _
        · exact .pure _
      · exact .pure _
  · exact .pure _

/-- Checking a class against its superclass goes the same way without checks of fields. -/
protected theorem checkInherited (decl : ClassDecl) (known : Option ClassFacts) :
    Foresees (Resolve.checkInherited decl known) := by
  cases known with
  | some facts => exact .checkOverrides facts decl.name decl.methods
  | none => exact .pure _

/-- The head of a class goes the same way without checks. -/
protected theorem classHead (decl : ClassDecl) : Foresees (Resolve.classHead decl) :=
  bind (.declare _ _ _ _) fun _ => bind (.define _) fun _ =>
    bind (.declaredSuperclass decl) fun known => bind (.checkInherited decl known) fun _ =>
    look (fun _ => bind (modify ⟨fun _ => rfl, fun _ => rfl, fun _ => rfl⟩) fun _ =>
      bind (.adjust _ _) fun _ => .pure _) fun _ => rfl

/-- The scopes of a class are opened the same way without checks. -/
protected theorem classScopes (decl : ClassDecl) {inside : Resolve Unit}
    (stepped : Foresees inside) : Foresees (Resolve.classScopes decl inside) := by
  have receiver : Foresees (Resolve.inScope (.thisOf decl) (do
      declareImplicit "this"
      inside)) := inScope _ (bind (.declareImplicit _) fun _ => stepped)
  unfold Resolve.classScopes
  dsimp only
  split
  · exact inScope _ (bind (.declareImplicit _) fun _ => receiver)
  · exact receiver

/-- The head of an extension goes the same way without checks. -/
protected theorem extensionHead (id : NodeId) (className : String) (method : FunctionDecl)
    (location : Location) : Foresees (Resolve.extensionHead id className method location) := by
  refine bind (.checkDeclared _ _) fun _ => bind (.resolveName _ _) fun _ =>
    look (fun _ => ?_) fun _ => rfl
  split
  · split
    · exact .fail _ _
    · exact .checkOverride _ _ _
  · exact .pure _

/-- The analysis of an initial value goes the same way without checks, up to the first refused
access. -/
protected theorem optional (initial : Option Expr) : Foresees (Resolve.optional initial) := by
  cases initial with
  | some expr => exact .expression expr
  | none => exact .pure _

/-- The analysis of initial values of fields goes the same way without checks, up to the first
refused access. -/
protected theorem fieldInitials (fields : List FieldDecl) :
    Foresees (Resolve.fieldInitials fields) := by
  induction fields with
  | nil => exact .pure _
  | cons field rest ih => exact bind (.optional field.initial) fun _ => ih

/-- The analysis of a variable goes the same way without checks, up to the first refused access. -/
protected theorem varDecl (name : String) (initial : Option Expr) (isFinal : Bool)
    (location : Location) : Foresees (Resolve.varDecl name initial isFinal location) := by
  refine bind (.declare _ _ _ _) fun _ => ?_
  cases initial with
  | some expr =>
      refine bind (.expression expr) fun _ => look (fun _ => .adjust _ _) fun analysis => ?_
      have same : constructed? analysis.uncheck expr = constructed? analysis expr := by
        unfold constructed?
        split <;> rfl
      rw [same]
  | none => exact .adjust _ _

mutual

/-- The analysis of a statement goes the same way without checks, up to the first refused access. -/
protected theorem statement : (statement : Statement) → Foresees (Resolve.statement statement)
  | .expression expr _ | .print expr _ => .expression expr
  | .varDecl name initial isFinal location => .varDecl name initial isFinal location
  | .block body _ => inScope _ (bind (.hoist body) fun _ => .statements body)
  | .ifElse condition thenBranch none _ =>
    bind (.expression condition) fun _ => .statement thenBranch
  | .ifElse condition thenBranch (some elseBranch) _ =>
    bind (.expression condition) fun _ => bind (.statement thenBranch) fun _ =>
      .statement elseBranch
  | .whileLoop condition body _ | .doWhile body condition _ | .repeatLoop condition body _ =>
    bind (.expression condition) fun _ => inLoop (.statement body)
  | .function decl =>
      bind (.declare _ _ _ _) fun _ => bind (.define _) fun _ => .function .function decl
  | .classDecl decl => .classDecl decl
  | .returning value _ => bind (.checkReturn _ _) fun _ => .optional value
  | .breaking _ => .checkInLoop .breaking _
  | .continuing _ => .checkInLoop .continuing _
  | .test _ body _ => inBody _ (inScope _ (bind (.hoist body) fun _ => .statements body))
  | .moduleDecl _ _ | .nativeFunction _ _ _ _ => bind (.declare _ _ _ _) fun _ => .define _
  | .extension id className method location =>
    bind (.extensionHead id className method location) fun _ =>
      inClass _ _ (inScope _ (bind (.declareImplicit _) fun _ => .function .method method))

/-- The analysis of statements in order goes the same way without checks, up to the first refused
access. -/
protected theorem statements : (statements : List Statement) → Foresees
    (Resolve.statements statements)
  | [] => .pure _
  | first :: rest => bind (.statement first) fun _ => .statements rest

/-- The analysis of a function goes the same way without checks, up to the first refused access. -/
protected theorem function (context : BodyContext) :
    (decl : FunctionDecl) → Foresees (Resolve.function context decl)
  | ⟨_, _, params, body, _, _⟩ => inBody _ <| deferred <| inScope _ <|
    bind (.hoist body) fun _ => bind (.parameters params) fun _ => .statements body

/-- The analysis of methods goes the same way without checks, up to the first refused access. -/
protected theorem methods : (methods : List FunctionDecl) → Foresees (Resolve.methods methods)
  | [] => .pure _
  | first :: rest => bind (.function _ first) fun _ => .methods rest

/-- The analysis of a class goes the same way without checks, up to the first refused access. -/
protected theorem classDecl : (decl : ClassDecl) → Foresees (Resolve.classDecl decl)
  | ⟨_, _, fields, methods, _, _⟩ => bind (.classHead _) fun _ =>
    inClass _ _ <| deferred <| .classScopes _ <|
      bind (.fieldInitials fields) fun _ => .methods methods

end

end Foresees

/-- If a program is refused, and passes if fields are not checked, then it is refused for an access
to a field, and that access is noted. -/
theorem refuses_of_rejected {program : Program} {fault : Located ResolveFault}
    {last final : Analysis} {done : Unit}
    (rejected : Resolve.program program .start = .error fault last)
    (passed : Resolve.program program .startUnchecked = .ok done final) : final.Refuses fault :=
  (Foresees.bind (.hoist program) fun _ => .statements program).stops _ _ _ _ _ rfl rejected passed

end Resolve

end Scriptlet
