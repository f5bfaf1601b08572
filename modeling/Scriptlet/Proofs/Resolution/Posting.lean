import Scriptlet.Proofs.Lexical.Naming
import Scriptlet.Proofs.Resolution.StatementWalk

/-!
# Whose code expressions are analysed as

The analysis keeps the class whose code it goes through next to the scopes it goes through
(`Analysis.At`). The two agree: the class is the one whose receiver the innermost scope of a
receiver stands for. Every expression, and every refused access to a field, is noted where they
agree (`ExprVisit.Posted`, `Refusal.Posted`).
-/

namespace Scriptlet

/-- A scope declares the name it is for. -/
def StaticScope.Holds (scope : StaticScope) : Prop :=
  ∀ name, scope.tag.held? = some name → scope.names.contains name = true

/-- An expression was analysed as code of the class around it. -/
structure ExprVisit.Posted (visit : ExprVisit) : Prop where
  current : visit.current.map (·.own.decl) = classAround (visit.scopes.map (·.tag))
  context : visit.context = contextAround (visit.scopes.map (·.tag))
  holds : ∀ scope ∈ visit.scopes, scope.Holds

/-- An access was refused as code of the class around it, for what is known of the field. -/
structure Refusal.Posted (refusal : Refusal) : Prop where
  current : refusal.current.map (·.own.decl) = classAround (refusal.scopes.map (·.tag))
  field : refusal.owner.fields.find? refusal.name = some refusal.field
  fault : Resolve.fieldFault? refusal.current refusal.owner refusal.field refusal.name
    refusal.isAssignment = some refusal.fault

/-- The analysis goes through code of the class around it, and did so before. -/
structure Analysis.At (tags : List ScopeTag) (analysis : Analysis) : Prop where
  scopes : analysis.scopes.map (·.tag) = tags
  current : analysis.current.map (·.own.decl) = classAround tags
  context : analysis.classContext = contextAround tags
  holds : ∀ scope ∈ analysis.scopes, scope.Holds
  walk : ∀ visit ∈ analysis.walk, visit.Posted
  refusals : ∀ refusal ∈ analysis.refusals, refusal.Posted

/-- What is known of a field is known of the class that declares it. -/
theorem ClassFacts.fields_of_field? {facts : ClassFacts} {name : String} {owner : ClassLayer}
    {field : FieldFacts} (found : facts.field? name = some (owner, field)) :
    owner.fields.find? name = some field := by
  obtain ⟨layer, _, declared⟩ := List.exists_of_findSome?_eq_some found
  obtain ⟨_, known, same⟩ := Option.map_eq_some_iff.mp declared
  cases same
  exact known

namespace Analysis

private theorem map_tag_forgetInstanceIn (name : String) (scopes : List StaticScope) :
    (forgetInstanceIn name scopes).map (·.tag) = scopes.map (·.tag) := by
  induction scopes with
  | nil => rfl
  | cons scope outer ih =>
      unfold forgetInstanceIn
      split
      · rfl
      · rw [List.map_cons, List.map_cons, ih]

private theorem holds_forgetInstanceIn (name : String) {scopes : List StaticScope}
    (holds : ∀ scope ∈ scopes, scope.Holds) : ∀ scope ∈ forgetInstanceIn name scopes,
      scope.Holds := by
  induction scopes with
  | nil => exact nofun
  | cons scope outer ih =>
      obtain ⟨inner, around⟩ := List.forall_mem_cons.mp holds
      unfold forgetInstanceIn
      split
      · exact List.forall_mem_cons.mpr
          ⟨fun held isHeld => Table.contains_put _ _ (inner held isHeld), around⟩
      · exact List.forall_mem_cons.mpr ⟨inner, ih around⟩

namespace At

variable {tags : List ScopeTag} {analysis : Analysis}

/-- Another change of the innermost scope than of its construct, that loses nothing. -/
theorem modifyInnermost {change : StaticScope → StaticScope}
    (same : ∀ scope, (change scope).tag = scope.tag)
    (kept : ∀ scope name, scope.names.contains name = true →
      (change scope).names.contains name = true) (posted : analysis.At tags) :
    (analysis.modifyInnermost change).At tags := by
  refine { posted with scopes := ?_, holds := ?_ }
  · rw [← posted.scopes]
    unfold Analysis.modifyInnermost
    dsimp only
    cases analysis.scopes with
    | nil => rfl
    | cons innermost outer => rw [List.map_cons, List.map_cons, same]
  · have holds := posted.holds
    unfold Analysis.modifyInnermost
    dsimp only
    generalize analysis.scopes = scopes at holds ⊢
    cases scopes with
    | nil => exact holds
    | cons innermost outer =>
        obtain ⟨inner, around⟩ := List.forall_mem_cons.mp holds
        refine List.forall_mem_cons.mpr ⟨fun name held => kept _ _ (inner name ?_), around⟩
        rwa [same] at held

end At

end Analysis

namespace Resolve

/-- If the step passes, what held before it holds after it. -/
def Keeps {α : Type} (holds : Analysis → Prop) (step : Resolve α) : Prop :=
  ∀ (before : Analysis) (value : α) (after : Analysis), step before = .ok value after →
    holds before → holds after

namespace Keeps

variable {α β : Type} {holds : Analysis → Prop} {step : Resolve α}

/-- Giving a value keeps whatever holds. -/
protected theorem pure (value : α) : Keeps holds (pure value) := by
  intro before result after passed known
  cases passed
  exact known

/-- A fault keeps whatever holds, as it passes nothing on. -/
protected theorem fail (fault : ResolveFault) (location : Location) :
    Keeps holds (Resolve.fail fault location : Resolve α) :=
  fun _ _ _ passed => by cases passed

private theorem bind {next : α → Resolve β} (first : Keeps holds step)
    (rest : ∀ value, Keeps holds (next value)) : Keeps holds (step >>= next) := by
  intro before result after passed known
  obtain ⟨value, middle, firstPassed, restPassed⟩ := bind_eq_ok.mp passed
  exact rest value middle result after restPassed (first before value middle firstPassed known)

/-- What comes after the state is looked at, of which what holds is known. -/
theorem look {next : Analysis → Resolve β}
    (rest : ∀ analysis, holds analysis → Keeps holds (next analysis)) :
    Keeps holds (get >>= next) := by
  intro before result after passed known
  obtain ⟨_, _, same, remaining⟩ := bind_eq_ok.mp passed
  cases same
  exact rest before known before result after remaining known

private theorem modify {change : Analysis → Analysis} (kept : ∀ analysis, holds analysis →
    holds (change analysis)) : Keeps holds (modify change : Resolve Unit) := by
  intro before result after passed known
  cases passed
  exact kept before known

/-- A step between a change of the state and its undoing. -/
theorem between (inside : Analysis → Prop) {enter leave : Analysis → Analysis}
    (entered : ∀ analysis, holds analysis → inside (enter analysis))
    (stepped : Keeps inside step) (left : ∀ analysis, inside analysis → holds (leave analysis)) :
    Keeps holds (Resolve.between enter leave step) := by
  intro before value after passed known
  obtain ⟨last, inner, rfl⟩ := between_eq_ok.mp passed
  exact left last (stepped _ _ _ inner (entered before known))

variable {tags : List ScopeTag}

/-- A step in a scope in which stands code of the same class. -/
theorem inScope {tag : ScopeTag} (nothing : tag.held? = none)
    (owner : classAround (tag :: tags) = classAround tags)
    (context : contextAround (tag :: tags) = contextAround tags)
    (stepped : Keeps (Analysis.At (tag :: tags)) step) :
    Keeps (Analysis.At tags) (Resolve.inScope tag step) := by
  refine between (Analysis.At (tag :: tags)) (fun analysis posted => ?_) stepped
    fun analysis posted => ?_
  · exact { posted with
      scopes := congrArg (tag :: ·) posted.scopes
      current := posted.current.trans owner.symm
      context := posted.context.trans context.symm
      holds := List.forall_mem_cons.mpr
        ⟨fun _ held => (by cases nothing.symm.trans held), posted.holds⟩ }
  · exact { posted with
      scopes := by rw [Analysis.closeScope, List.map_tail, posted.scopes, List.tail_cons]
      current := posted.current.trans owner
      context := posted.context.trans context
      holds := fun scope member => posted.holds scope (List.mem_of_mem_tail member) }

private theorem inBody {context : BodyContext} (stepped : Keeps (Analysis.At tags) step) :
    Keeps (Analysis.At tags) (Resolve.inBody context step) := by
  intro before value after passed posted
  obtain ⟨inside, inner, rfl⟩ := inBody_eq_ok.mp passed
  have reached : inside.At tags := stepped _ _ _ inner { posted with }
  exact { reached with }

private theorem inLoop (stepped : Keeps (Analysis.At tags) step) :
    Keeps (Analysis.At tags) (Resolve.inLoop step) :=
  between (Analysis.At tags) (fun _ posted => { posted with }) stepped
    fun _ posted => { posted with }

private theorem deferred (stepped : Keeps (Analysis.At tags) step) :
    Keeps (Analysis.At tags) (Resolve.deferred step) :=
  between (Analysis.At tags) (fun _ posted => { posted with }) stepped
    fun _ posted => { posted with }

/-- A scope that is opened for a name holds it. -/
theorem holds_holding {level : Nat} {tag : ScopeTag} {name : String}
    (held : tag.held? = some name) :
    (⟨[(name, ⟨true, true, .varKind, none, none⟩)], [], level, tag⟩ : StaticScope).Holds := by
  intro other isHeld
  cases held.symm.trans isHeld
  simp [Table.contains, Table.find?]

/-- A step inside a class, in the scope of its receiver. -/
theorem inClass {context : ClassContext} {facts : Option ClassFacts} {tag : ScopeTag}
    {name : String} {next : Unit → Resolve α}
    (held : tag.held? = some name)
    (owner : facts.map (·.own.decl) = classAround (tag :: tags))
    (kind : context = contextAround (tag :: tags))
    (stepped : Keeps (Analysis.At (tag :: tags)) (next ())) :
    Keeps (Analysis.At tags)
      (Resolve.inClass context facts (Resolve.inScope tag
        (Resolve.declareImplicit name >>= next))) := by
  intro before value after passed posted
  obtain ⟨last, entered, rfl⟩ := inClass_eq_ok.mp passed
  obtain ⟨inside, inner, rfl⟩ := inScope_implicit_eq_ok.mp entered
  have reached : inside.At (tag :: tags) := stepped _ _ _ inner
    ⟨congrArg (tag :: ·) posted.scopes, owner, kind,
      List.forall_mem_cons.mpr ⟨holds_holding held, posted.holds⟩, posted.walk, posted.refusals⟩
  refine { posted with
    scopes := ?_, walk := reached.walk, refusals := reached.refusals
    holds := fun scope member => reached.holds scope (List.mem_of_mem_tail member) }
  change inside.scopes.tail.map (·.tag) = tags
  rw [List.map_tail, reached.scopes, List.tail_cons]

/-- An expression is noted as code of the class around it. -/
protected theorem noteExpr (expr : Expr) : Keeps (Analysis.At tags) (Resolve.noteExpr expr) := by
  refine modify fun analysis posted => { posted with walk := ?_ }
  refine List.forall_mem_cons.mpr ⟨⟨?_, ?_, posted.holds⟩, posted.walk⟩
  · exact posted.current.trans (congrArg _ posted.scopes.symm)
  · exact posted.context.trans (congrArg _ posted.scopes.symm)

/-- Resolving a name keeps the class next to the scopes. -/
protected theorem resolveName (id : NodeId) (name : String) :
    Keeps (Analysis.At tags) (Resolve.resolveName id name) :=
  modify fun _ posted => { posted with }

/-- Announcing names keeps the class next to the scopes. -/
protected theorem hoist (statements : List Statement) :
    Keeps (Analysis.At tags) (Resolve.hoist statements) :=
  modify fun _ posted => posted.modifyInnermost (fun _ => rfl) fun _ _ known => known

/-- Changing what is known of a name keeps the class next to the scopes. -/
protected theorem adjust (name : String) (change : Declared → Declared) :
    Keeps (Analysis.At tags) (Resolve.adjust name change) := by
  refine modify fun _ posted => posted.modifyInnermost (fun scope => ?_) fun scope held known => ?_
  · unfold StaticScope.adjust
    split <;> rfl
  · unfold StaticScope.adjust
    split
    · exact Table.contains_put _ _ known
    · exact known

/-- A declaration keeps the class next to the scopes. -/
protected theorem declare (name : String) (kind : DeclarationKind) (isFinal : Bool)
    (location : Location) : Keeps (Analysis.At tags)
      (Resolve.declare name kind isFinal location) := by
  refine look fun analysis _ => ?_
  split
  · exact .fail _ _
  · exact modify fun _ posted => posted.modifyInnermost (fun _ => rfl) fun _ _ known =>
      Table.contains_put _ _ known

/-- Checking that a name is declared keeps the class next to the scopes. -/
protected theorem checkDeclared (name : String) (location : Location) :
    Keeps (Analysis.At tags) (Resolve.checkDeclared name location) := by
  refine look fun analysis _ => ?_
  split
  · exact .fail _ _
  · exact .pure _

/-- Reading a name keeps the class next to the scopes. -/
protected theorem readName (id : NodeId) (name : String) (location : Location) :
    Keeps (Analysis.At tags) (Resolve.readName id name location) := by
  refine look fun analysis _ => ?_
  split
  · exact .fail _ _
  · exact bind (.checkDeclared _ _) fun _ => .resolveName id name

/-- Assigning to a name keeps the class next to the scopes. -/
protected theorem assignName (id : NodeId) (name : String) (location : Location) :
    Keeps (Analysis.At tags) (Resolve.assignName id name location) := by
  refine bind (.checkDeclared _ _) fun _ => look fun analysis _ => ?_
  split
  · exact .fail _ _
  · refine bind (.resolveName id name) fun _ => modify fun analysis posted => ?_
    exact { posted with
      scopes := (Analysis.map_tag_forgetInstanceIn name analysis.scopes).trans posted.scopes
      holds := Analysis.holds_forgetInstanceIn name posted.holds }

/-- A refused access is noted as code of the class around it. -/
protected theorem checkField (object : Expr) (name : String) (location : Location)
    (isAssignment : Bool) :
    Keeps (Analysis.At tags) (Resolve.checkField object name location isAssignment) := by
  intro before value after passed posted
  obtain ⟨_, _, same, looked⟩ := bind_eq_ok.mp passed
  cases same
  cases found : (instanceClass? before object).bind (·.field? name) with
  | none =>
      simp only [found] at looked
      cases looked
      exact posted
  | some known =>
      obtain ⟨owner, field⟩ := known
      obtain ⟨facts, _, declared⟩ := Option.bind_eq_some_iff.mp found
      simp only [found] at looked
      cases refused : fieldFault? before.current owner field name isAssignment with
      | none =>
          simp only [refused] at looked
          cases looked
          exact posted
      | some fault =>
          simp only [refused] at looked
          split at looked
          · cases looked
          · cases looked
            refine { posted with refusals :=
              List.forall_mem_cons.mpr ⟨⟨?_, ?_, refused⟩, posted.refusals⟩ }
            · exact posted.current.trans (congrArg _ posted.scopes.symm)
            · exact ClassFacts.fields_of_field? declared

mutual

/-- Everything in an expression is code of the class around it. -/
protected theorem expression : (expr : Expr) → Keeps (Analysis.At tags) (Resolve.expression expr)
  | .literal _ _ => bind (.noteExpr _) fun _ => .pure _
  | .array elements _ => bind (.noteExpr _) fun _ => .expressions elements
  | .var id name location => bind (.noteExpr _) fun _ => .readName id name location
  | .assign id name value location =>
    bind (.noteExpr _) fun _ => bind (.expression value) fun _ => .assignName id name location
  | .binary _ left right _ | .logical _ left right _ | .bitwise _ left right _
  | .elvis left right _ | .getIndex left right _ =>
    bind (.noteExpr _) fun _ => bind (.expression left) fun _ => .expression right
  | .unary _ operand _ | .grouping operand _ => bind (.noteExpr _) fun _ => .expression operand
  | .prefixCall id name operand _ =>
    bind (.noteExpr _) fun _ => bind (.resolveName id name) fun _ => .expression operand
  | .infixCall id name left right _ =>
    bind (.noteExpr _) fun _ => bind (.resolveName id name) fun _ =>
      bind (.expression left) fun _ => .expression right
  | .ternary condition thenBranch elseBranch _ =>
    bind (.noteExpr _) fun _ => bind (.expression condition) fun _ =>
      bind (.expression thenBranch) fun _ => .expression elseBranch
  | .call callee arguments _ =>
    bind (.noteExpr _) fun _ => bind (.expression callee) fun _ => .expressions arguments
  | .get object name location =>
    bind (.noteExpr _) fun _ => bind (.expression object) fun _ =>
      .checkField object name location false
  | .set object name value location =>
    bind (.noteExpr _) fun _ => bind (.expression value) fun _ =>
      bind (.expression object) fun _ => .checkField object name location true
  | .setIndex target index value _ =>
    bind (.noteExpr _) fun _ => bind (.expression target) fun _ =>
      bind (.expression index) fun _ => .expression value
  | .thisRef id _ => by
    refine bind (.noteExpr _) fun _ => look fun analysis _ => ?_
    split
    · exact .fail _ _
    · exact .resolveName id "this"
  | .superRef id _ _ => by
    refine bind (.noteExpr _) fun _ => look fun analysis _ => ?_
    split
    · exact .resolveName id "super"
    · exact .fail _ _

/-- The analysis of expressions in order keeps the class next to the scopes. -/
protected theorem expressions :
    (exprs : List Expr) → Keeps (Analysis.At tags) (Resolve.expressions exprs)
  | [] => .pure _
  | first :: rest => bind (.expression first) fun _ => .expressions rest

end

/-- Taking a name as defined keeps the class next to the scopes. -/
protected theorem define (name : String) : Keeps (Analysis.At tags) (Resolve.define name) :=
  .adjust name _

/-- The analysis of parameters keeps the class next to the scopes. -/
protected theorem parameters (params : List Parameter) :
    Keeps (Analysis.At tags) (Resolve.parameters params) := by
  induction params with
  | nil => exact .pure _
  | cons param rest ih =>
      exact bind (.declare _ _ _ _) fun _ => bind (.define _) fun _ => ih

/-- Checking a jump out of a loop keeps the class next to the scopes. -/
protected theorem checkInLoop (jump : Jump) (location : Location) :
    Keeps (Analysis.At tags) (Resolve.checkInLoop jump location) := by
  refine look fun analysis _ => ?_
  split
  · exact .fail _ _
  · exact .pure _

/-- Checking a return keeps the class next to the scopes. -/
protected theorem checkReturn (hasValue : Bool) (location : Location) :
    Keeps (Analysis.At tags) (Resolve.checkReturn hasValue location) := by
  refine look fun analysis _ => ?_
  split
  · exact .fail _ _
  · split
    · exact .fail _ _
    · exact .pure _
  · exact .pure _

/-- Checking an override keeps the class next to the scopes. -/
protected theorem checkOverride (facts : ClassFacts) (className : String) (method : FunctionDecl) :
    Keeps (Analysis.At tags) (Resolve.checkOverride facts className method) := by
  unfold Resolve.checkOverride
  split
  · exact .fail _ _
  · exact .pure _

/-- Checking overrides keeps the class next to the scopes. -/
protected theorem checkOverrides (facts : ClassFacts) (className : String)
    (methods : List FunctionDecl) :
    Keeps (Analysis.At tags) (Resolve.checkOverrides facts className methods) := by
  induction methods with
  | nil => exact .pure _
  | cons method rest ih => exact bind (.checkOverride facts className method) fun _ => ih

/-- Looking for the superclass of a declaration keeps the class next to the scopes. -/
protected theorem declaredSuperclass (decl : ClassDecl) :
    Keeps (Analysis.At tags) (Resolve.declaredSuperclass decl) := by
  unfold Resolve.declaredSuperclass
  split
  · unfold Resolve.superclass
    split
    · exact .fail _ _
    · refine bind (.checkDeclared _ _) fun _ => bind (.resolveName _ _) fun _ => look fun _ _ => ?_
      dsimp only
      split
      · split
        · exact .fail _ _
        · exact .pure _
      · exact .pure _
  · exact .pure _

/-- Checking a class against its superclass keeps the class next to the scopes. -/
protected theorem checkInherited (decl : ClassDecl) (known : Option ClassFacts) :
    Keeps (Analysis.At tags) (Resolve.checkInherited decl known) := by
  cases known with
  | some facts => exact .checkOverrides facts decl.name decl.methods
  | none => exact .pure _

/-- The head of a class keeps the class that stands around it next to the scopes. -/
protected theorem classHead (decl : ClassDecl) :
    Keeps (Analysis.At tags) (Resolve.classHead decl) := by
  refine bind (.declare _ _ _ _) fun _ => bind (.define _) fun _ =>
    bind (.declaredSuperclass decl) fun known => bind (.checkInherited decl known) fun _ =>
    look fun analysis _ => bind (modify fun _ posted => { posted with }) fun _ =>
    bind (.adjust _ _) fun _ => .pure _

/-- The head of an extension keeps the class next to the scopes. -/
protected theorem extensionHead (id : NodeId) (className : String) (method : FunctionDecl)
    (location : Location) :
    Keeps (Analysis.At tags) (Resolve.extensionHead id className method location) := by
  refine bind (.checkDeclared _ _) fun _ => bind (.resolveName _ _) fun _ => look fun _ _ => ?_
  split
  · split
    · exact .fail _ _
    · exact .checkOverride _ _ _
  · exact .pure _

/-- The analysis of an initial value keeps the class next to the scopes. -/
protected theorem optional (initial : Option Expr) :
    Keeps (Analysis.At tags) (Resolve.optional initial) := by
  cases initial with
  | some expr => exact .expression expr
  | none => exact .pure _

/-- The analysis of initial values of fields keeps the class next to the scopes. -/
protected theorem fieldInitials (fields : List FieldDecl) :
    Keeps (Analysis.At tags) (Resolve.fieldInitials fields) := by
  induction fields with
  | nil => exact .pure _
  | cons field rest ih => exact bind (.optional field.initial) fun _ => ih

/-- The analysis of a variable keeps the class next to the scopes. -/
protected theorem varDecl (name : String) (initial : Option Expr) (isFinal : Bool)
    (location : Location) :
    Keeps (Analysis.At tags) (Resolve.varDecl name initial isFinal location) := by
  refine bind (.declare _ _ _ _) fun _ => ?_
  split
  · exact bind (.expression _) fun _ => look fun _ _ => .adjust _ _
  · exact .adjust _ _

/-- The inside of a class. -/
theorem classBody {decl : ClassDecl} {facts : ClassFacts} {inside : Resolve Unit}
    (own : facts.own.decl = decl)
    (stepped : ∀ around, Keeps (Analysis.At (.thisOf decl :: around)) inside) :
    Keeps (Analysis.At tags)
      (Resolve.inClass (if decl.superclass.isSome then .derived else .root) (some facts)
        (Resolve.deferred (Resolve.classScopes decl inside))) := by
  intro before value after passed posted
  obtain ⟨last, entered, rfl⟩ := inClass_eq_ok.mp passed
  obtain ⟨deep, nested, rfl⟩ := deferred_eq_ok.mp entered
  have owner : (some facts).map (·.own.decl) = some decl := congrArg some own
  unfold Resolve.classScopes at nested
  split at nested
  · rename_i derived
    obtain ⟨received, inherited, rfl⟩ := inScope_implicit_eq_ok.mp nested
    obtain ⟨stop, analysed, rfl⟩ := inScope_implicit_eq_ok.mp inherited
    have reached : stop.At (.thisOf decl :: .superOf decl :: tags) := stepped _ _ _ _ analysed
      ⟨congrArg (ScopeTag.thisOf decl :: ScopeTag.superOf decl :: ·) posted.scopes, owner,
        (if_pos derived).symm, List.forall_mem_cons.mpr ⟨holds_holding rfl,
          List.forall_mem_cons.mpr ⟨holds_holding rfl, posted.holds⟩⟩, posted.walk, posted.refusals⟩
    refine { posted with
      scopes := ?_, walk := reached.walk, refusals := reached.refusals
      holds := fun scope member =>
        reached.holds scope (List.mem_of_mem_tail (List.mem_of_mem_tail member)) }
    change stop.scopes.tail.tail.map (·.tag) = tags
    rw [List.map_tail, List.map_tail, reached.scopes, List.tail_cons, List.tail_cons]
  · rename_i root
    obtain ⟨stop, analysed, rfl⟩ := inScope_implicit_eq_ok.mp nested
    have reached : stop.At (.thisOf decl :: tags) := stepped _ _ _ _ analysed
      ⟨congrArg (ScopeTag.thisOf decl :: ·) posted.scopes, owner,
        (if_neg root).symm, List.forall_mem_cons.mpr ⟨holds_holding rfl, posted.holds⟩,
        posted.walk, posted.refusals⟩
    refine { posted with
      scopes := ?_, walk := reached.walk, refusals := reached.refusals
      holds := fun scope member => reached.holds scope (List.mem_of_mem_tail member) }
    change stop.scopes.tail.map (·.tag) = tags
    rw [List.map_tail, reached.scopes, List.tail_cons]

end Keeps

/-- The facts of a class are those of its declaration. -/
theorem own_of_classHead {decl : ClassDecl} {before after : Analysis} {facts : ClassFacts}
    (passed : classHead decl before = .ok facts after) : facts.own.decl = decl := by
  obtain ⟨_, _, _, introduced⟩ := bind_eq_ok.mp passed
  obtain ⟨_, _, _, defined⟩ := bind_eq_ok.mp introduced
  obtain ⟨_, _, _, built⟩ := bind_eq_ok.mp defined
  obtain ⟨_, _, _, checked⟩ := bind_eq_ok.mp built
  obtain ⟨_, _, _, numbered⟩ := bind_eq_ok.mp checked
  obtain ⟨_, _, _, counted⟩ := bind_eq_ok.mp numbered
  obtain ⟨_, _, _, adjusted⟩ := bind_eq_ok.mp counted
  cases adjusted
  rfl

namespace Keeps

mutual

/-- Everything in a statement is code of the class around it. -/
protected theorem statement (tags : List ScopeTag) :
    (statement : Statement) → Keeps (Analysis.At tags) (Resolve.statement statement)
  | .expression expr _ | .print expr _ => .expression expr
  | .varDecl name initial isFinal location => .varDecl name initial isFinal location
  | .block body _ => .inScope rfl rfl rfl (bind (.hoist body) fun _ => .statements _ body)
  | .ifElse condition thenBranch none _ =>
    bind (.expression condition) fun _ => .statement tags thenBranch
  | .ifElse condition thenBranch (some elseBranch) _ =>
    bind (.expression condition) fun _ => bind (.statement tags thenBranch) fun _ =>
      .statement tags elseBranch
  | .whileLoop condition body _ | .doWhile body condition _ | .repeatLoop condition body _ =>
    bind (.expression condition) fun _ => .inLoop (.statement tags body)
  | .function decl =>
    bind (.declare _ _ _ _) fun _ => bind (.define _) fun _ => .function tags .function decl
  | .classDecl decl => .classDecl tags decl
  | .returning value _ => bind (.checkReturn _ _) fun _ => .optional value
  | .breaking _ => .checkInLoop .breaking _
  | .continuing _ => .checkInLoop .continuing _
  | .test _ body _ =>
      .inBody (.inScope rfl rfl rfl (bind (.hoist body) fun _ => .statements _ body))
  | .moduleDecl _ _ | .nativeFunction _ _ _ _ => bind (.declare _ _ _ _) fun _ => .define _
  | .extension id className method location =>
    bind (.extensionHead id className method location) fun _ =>
      .inClass rfl rfl rfl (.function _ .method method)

/-- The analysis of statements in order keeps the class next to the scopes. -/
protected theorem statements (tags : List ScopeTag) : (statements : List Statement) →
    Keeps (Analysis.At tags) (Resolve.statements statements)
  | [] => .pure _
  | first :: rest => bind (.statement tags first) fun _ => .statements tags rest

/-- The analysis of a function keeps the class next to the scopes. -/
protected theorem function (tags : List ScopeTag) (context : BodyContext) :
    (decl : FunctionDecl) → Keeps (Analysis.At tags) (Resolve.function context decl)
  | ⟨_, _, params, body, _, _⟩ => .inBody <| .deferred <| .inScope rfl rfl rfl <|
    bind (.hoist body) fun _ => bind (.parameters params) fun _ => .statements _ body

/-- The analysis of methods keeps the class next to the scopes. -/
protected theorem methods (tags : List ScopeTag) : (methods : List FunctionDecl) →
    Keeps (Analysis.At tags) (Resolve.methods methods)
  | [] => .pure _
  | first :: rest => bind (.function tags _ first) fun _ => .methods tags rest

/-- The analysis of a class goes through its code as that of the class, and through the rest as that
of the class around it. -/
protected theorem classDecl (tags : List ScopeTag) : (decl : ClassDecl) →
    Keeps (Analysis.At tags) (Resolve.classDecl decl)
  | ⟨_, _, fields, methods, _, _⟩ => by
    intro before value after passed posted
    obtain ⟨facts, middle, head, inside⟩ := bind_eq_ok.mp passed
    refine classBody (own_of_classHead head) (fun around => ?_) _ _ _ inside
      (Keeps.classHead _ _ _ _ head posted)
    exact bind (.fieldInitials fields) fun _ => .methods _ methods

end

end Keeps

end Resolve

/-- Every expression of a program was analysed as code of the class around it, and every
refused access was refused as such. -/
theorem posted_of_program {program : Program} {start final : Analysis} {done : Unit}
    (accepted : Resolve.program program start = .ok done final) (begins : start.At [.globals]) :
    final.At [.globals] :=
  Resolve.Keeps.bind (.hoist program) (fun _ => .statements _ program) _ _ _ accepted begins

/-- An analysis begins in the scope of the globals, with no class around it. -/
theorem Analysis.at_start : Analysis.start.At [.globals] :=
  ⟨rfl, rfl, rfl, List.forall_mem_singleton.mpr nofun, List.forall_mem_nil _, List.forall_mem_nil _⟩

/-- An analysis without checks begins in the scope of the globals, with no class around it. -/
theorem Analysis.at_startUnchecked : Analysis.startUnchecked.At [.globals] :=
  ⟨rfl, rfl, rfl, List.forall_mem_singleton.mpr nofun, List.forall_mem_nil _, List.forall_mem_nil _⟩

end Scriptlet
