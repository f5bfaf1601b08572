import Scriptlet.Proofs.Renumbering.Facts

/-!
# The static analysis of trees with other numbers

The analysis of a program whose nodes have other numbers goes as that of the program
(`Resolve.Mirrored`), as long as no two nodes are given the same number: it finds the same fault, or
records the same distances under the other numbers (`Resolutions.Renumbers`).
-/

namespace Scriptlet

/-- Distances that are recorded under other numbers. -/
def Resolutions.Renumbers (onId : NodeId → NodeId) (resolutions image : Resolutions) : Prop :=
  ∀ id, image.distance? (onId id) = resolutions.distance? id

/-- The analyses of a program and of the program with other numbers stand at the same place. -/
structure Analysis.Twin (onId : NodeId → NodeId) (analysis twin : Analysis) : Prop where
  scopes : twin.scopes = analysis.scopes.map (StaticScope.renumber onId)
  resolutions : analysis.resolutions.Renumbers onId twin.resolutions
  checksFields : twin.checksFields = analysis.checksFields
  body : twin.body = analysis.body
  classContext : twin.classContext = analysis.classContext
  current : twin.current = analysis.current.map (ClassFacts.renumber onId)
  loopDepth : twin.loopDepth = analysis.loopDepth
  functionDepth : twin.functionDepth = analysis.functionDepth
  nextClass : twin.nextClass = analysis.nextClass

namespace Analysis.Twin

variable {onId : NodeId → NodeId} {analysis twin : Analysis}

private theorem start : Analysis.Twin onId .start .start :=
  ⟨rfl, fun _ => rfl, rfl, rfl, rfl, rfl, rfl, rfl, rfl⟩

variable (met : analysis.Twin onId twin)
include met

private theorem lookup (name : String) :
    twin.lookup name = (analysis.lookup name).map (Prod.map id (Declared.renumber onId)) := by
  unfold Analysis.lookup
  rw [met.scopes, lookupFrom_renumber]

private theorem classOf? (name : String) :
    twin.classOf? name = (analysis.classOf? name).map (ClassFacts.renumber onId) := by
  unfold Analysis.classOf?
  rw [met.lookup]
  cases analysis.lookup name <;> rfl

private theorem innermost? (name : String) :
    twin.innermost? name = (analysis.innermost? name).map (Declared.renumber onId) := by
  unfold Analysis.innermost?
  rw [met.scopes]
  cases analysis.scopes with
  | nil => rfl
  | cons scope outer => simp [StaticScope.renumber]

private theorem usedEarlyIn (name : String) :
    usedEarlyIn name twin.functionDepth twin.scopes =
      Analysis.usedEarlyIn name analysis.functionDepth analysis.scopes := by
  rw [met.scopes, met.functionDepth, usedEarlyIn_renumber]

private theorem laterFinalGlobal? (name : String) :
    twin.laterFinalGlobal? name = analysis.laterFinalGlobal? name := by
  unfold Analysis.laterFinalGlobal?
  rw [met.functionDepth, met.scopes, List.getLast?_map]
  cases analysis.scopes.getLast? <;> rfl

private theorem instanceClass? (object : Expr) :
    Resolve.instanceClass? twin (object.renumber onId) =
      (Resolve.instanceClass? analysis object).map (ClassFacts.renumber onId) := by
  cases object with
  | thisRef => exact met.current
  | var id name place =>
      simp only [Expr.renumber, Expr.relabel, Resolve.instanceClass?]
      rw [met.lookup]
      cases analysis.lookup name <;> rfl
  | _ => rfl

private theorem constructed? (value : Expr) : Resolve.constructed? twin (value.renumber onId) =
    (Resolve.constructed? analysis value).map (ClassFacts.renumber onId) := by
  cases value with
  | call callee arguments place =>
      cases callee with
      | var id name place => exact met.classOf? name
      | _ => rfl
  | _ => rfl

private theorem finalTarget? (name : String) :
    Resolve.finalTarget? twin name = Resolve.finalTarget? analysis name := by
  unfold Resolve.finalTarget?
  rw [met.lookup, met.laterFinalGlobal?]
  cases analysis.lookup name <;> rfl

/-- Distances are recorded under other numbers as long as these tell nodes apart. -/
theorem resolutionsWith (apart : Function.Injective onId) (id : NodeId) (name : String) :
    (analysis.resolutionsWith id name).Renumbers onId (twin.resolutionsWith (onId id) name) := by
  have recorded (distance : Nat) : (analysis.resolutions.record id distance).Renumbers onId
      (twin.resolutions.record (onId id) distance) := by
    intro other
    by_cases same : id = other
    · subst same
      simp
    · rw [Resolutions.distance?_record_of_ne _ _ same,
        Resolutions.distance?_record_of_ne _ _ (apart.ne same), met.resolutions]
  unfold Analysis.resolutionsWith
  rw [met.lookup]
  cases analysis.lookup name with
  | none => exact met.resolutions
  | some found =>
      obtain ⟨out, declared⟩ := found
      cases out with
      | none => exact met.resolutions
      | some distance => exact recorded distance

private theorem modifyInnermost {change changeImage : StaticScope → StaticScope}
    (same : ∀ scope, changeImage (scope.renumber onId) = (change scope).renumber onId) :
    (analysis.modifyInnermost change).Twin onId (twin.modifyInnermost changeImage) := by
  refine { met with scopes := ?_ }
  unfold Analysis.modifyInnermost
  rw [met.scopes]
  cases analysis.scopes with
  | nil => rfl
  | cons scope outer => simp [same]

end Analysis.Twin

namespace Resolve

variable {α β γ δ : Type} {onId : NodeId → NodeId}

/-- A step of the analysis of the tree with other numbers does what a step of that of the tree
does. -/
def Mirrored (onId : NodeId → NodeId) (move : α → β) (image : Resolve β) (step : Resolve α) :
    Prop :=
  Mirrors (fun _ => True) (Analysis.Twin onId) move image step

namespace Mirrored

variable {move : α → β} {onward : γ → δ} {image : Resolve β} {step : Resolve α}

/-- A value may be given with other numbers. -/
protected theorem pure (value : α) : Mirrored onId move (pure (move value)) (pure value) :=
  Mirrors.pure value

/-- A fault is the same with other numbers. -/
protected theorem fail (fault : ResolveFault) (location : Location) :
    Mirrored onId move (Resolve.fail fault location) (Resolve.fail fault location) :=
  Mirrors.throw _

/-- One step after another goes the same with other numbers if both do. -/
protected theorem bind {next : α → Resolve γ} {nextImage : β → Resolve δ}
    (first : Mirrored onId move image step)
    (second : ∀ value, Mirrored onId onward (nextImage (move value)) (next value)) :
    Mirrored onId onward (image >>= nextImage) (step >>= next) :=
  Mirrors.bind first second

/-- One step after another goes the same with other numbers if both do, also where the second does
not look at what the first has found. -/
protected theorem andThen {next : Resolve γ} {nextImage : Resolve δ}
    (first : Mirrored onId move image step) (second : Mirrored onId onward nextImage next) :
    Mirrored onId onward (image >>= fun _ => nextImage) (step >>= fun _ => next) :=
  first.bind fun _ => second

/-- What comes after a look at the analysis. -/
protected theorem see {next : Analysis → Resolve γ} {nextImage : Analysis → Resolve δ}
    (second : ∀ analysis twin, analysis.Twin onId twin →
      Mirrored onId onward (nextImage twin) (next analysis)) :
    Mirrored onId onward (get >>= nextImage) (get >>= next) :=
  Mirrors.see second

/-- A choice goes the same with other numbers if both of its sides do. -/
protected theorem ite {condition : Prop} [Decidable condition] {first second : Resolve α}
    {firstImage secondImage : Resolve β} (yes : Mirrored onId move firstImage first)
    (no : Mirrored onId move secondImage second) :
    Mirrored onId move (if condition then firstImage else secondImage)
      (if condition then first else second) :=
  Mirrors.ite yes no

/-- A change of the analysis goes the same with other numbers if it keeps twins. -/
protected theorem modify {update updateImage : Analysis → Analysis}
    (kept : ∀ analysis twin, analysis.Twin onId twin →
      (update analysis).Twin onId (updateImage twin)) :
    Mirrored onId id (modify updateImage) (modify update) :=
  Mirrors.modify (fun _ _ => trivial) fun analysis twin met _ => kept analysis twin met

/-- A step between two changes goes the same with other numbers if the step and the changes do. -/
protected theorem between {enter enterImage leave leaveImage : Analysis → Analysis}
    (mirrors : Mirrored onId move image step)
    (enters : ∀ analysis twin, analysis.Twin onId twin →
      (enter analysis).Twin onId (enterImage twin))
    (leaves : ∀ analysis twin, analysis.Twin onId twin →
      (leave analysis).Twin onId (leaveImage twin)) :
    Mirrored onId move (Resolve.between enterImage leaveImage image)
      (Resolve.between enter leave step) where
  back _ _ := trivial
  ends analysis twin met _ := by
    have alike := mirrors.ends _ _ (enters analysis twin met) trivial
    unfold Resolve.between
    generalize step (enter analysis) = ended at alike ⊢
    generalize image (enterImage twin) = endedImage at alike ⊢
    cases alike with
    | ok value there => exact .ok value (leaves _ _ there)
    | error stop there => exact .error stop (leaves _ _ there)

/-- A step in a scope of its own goes the same with other numbers if the step does. -/
protected theorem inScope (mirrors : Mirrored onId move image step) (tag : ScopeTag) :
    Mirrored onId move (Resolve.inScope (tag.renumber onId) image) (Resolve.inScope tag step) := by
  refine .between mirrors (fun analysis twin met => ?_) fun analysis twin met => ?_
  · refine { met with scopes := ?_ }
    change _ :: twin.scopes = _
    rw [met.scopes, met.functionDepth]
    rfl
  · refine { met with scopes := ?_ }
    change twin.scopes.tail = _
    rw [met.scopes, ← List.map_tail]
    rfl

/-- A step in a body goes the same with other numbers if the step does. -/
protected theorem inBody (mirrors : Mirrored onId move image step) (context : BodyContext) :
    Mirrored onId move (Resolve.inBody context image) (Resolve.inBody context step) := by
  refine .see fun analysis twin met => ?_
  dsimp only
  rw [met.body, met.loopDepth]
  exact .between mirrors (fun _ _ met => { met with body := rfl, loopDepth := rfl })
    fun _ _ met => { met with body := rfl, loopDepth := rfl }

/-- A step in a loop goes the same with other numbers if the step does. -/
protected theorem inLoop (mirrors : Mirrored onId move image step) :
    Mirrored onId move (Resolve.inLoop image) (Resolve.inLoop step) :=
  .between mirrors (fun _ _ met => { met with loopDepth := congrArg (· + 1) met.loopDepth })
    fun _ _ met => { met with loopDepth := congrArg (· - 1) met.loopDepth }

/-- A step that is deferred goes the same with other numbers if the step does. -/
protected theorem deferred (mirrors : Mirrored onId move image step) :
    Mirrored onId move (Resolve.deferred image) (Resolve.deferred step) :=
  .between mirrors
    (fun _ _ met => { met with functionDepth := congrArg (· + 1) met.functionDepth })
    fun _ _ met => { met with functionDepth := congrArg (· - 1) met.functionDepth }

/-- A step in a class goes the same with other numbers, of which what is known of the class has the
other numbers too. -/
protected theorem inClass (mirrors : Mirrored onId move image step) (context : ClassContext)
    (facts : Option ClassFacts) :
    Mirrored onId move (Resolve.inClass context (facts.map (ClassFacts.renumber onId)) image)
      (Resolve.inClass context facts step) := by
  refine .see fun analysis twin met => ?_
  dsimp only
  rw [met.classContext, met.current]
  exact .between mirrors (fun _ _ met => { met with classContext := rfl, current := rfl })
    fun _ _ met => { met with classContext := rfl, current := rfl }

/-- The same names are announced with other numbers. -/
protected theorem hoist (body : List Statement) :
    Mirrored onId id (Resolve.hoist (Statement.renumberAll onId body)) (Resolve.hoist body) := by
  have same : (Statement.relabelAll onId id body).filterMap Statement.declares? =
      body.filterMap Statement.declares? := by
    rw [Statement.relabelAll_eq_map, List.filterMap_map]
    exact congrArg (List.filterMap · body) (funext Statement.declares?_renumber)
  unfold Resolve.hoist
  rw [same]
  exact .modify fun _ _ met => met.modifyInnermost fun _ => rfl

/-- A declaration goes the same with other numbers. -/
protected theorem declare (name : String) (kind : DeclarationKind) (isFinal : Bool)
    (location : Location) :
    Mirrored onId id (Resolve.declare name kind isFinal location)
      (Resolve.declare name kind isFinal location) := by
  refine .see fun analysis twin met => ?_
  rw [met.innermost?]
  have declared : Mirrored onId id
      (modify (·.modifyInnermost fun scope =>
        { scope with names := scope.names.put name ⟨false, isFinal, kind, none, none⟩ }))
      (modify (·.modifyInnermost fun scope =>
        { scope with names := scope.names.put name ⟨false, isFinal, kind, none, none⟩ })) :=
    .modify fun _ _ met => met.modifyInnermost fun scope => by
      simp [StaticScope.renumber, Table.mapEntries_put, Declared.renumber]
  cases analysis.innermost? name with
  | none => exact declared
  | some known =>
      obtain ⟨defined, isFinal, existing, classFacts, instanceOf⟩ := known
      cases isFinal with
      | false => exact declared
      | true => exact .fail _ _

/-- Changing what is known of a name goes the same with other numbers. -/
protected theorem adjust (name : String) {change changeImage : Declared → Declared}
    (same : ∀ declared, changeImage (declared.renumber onId) = (change declared).renumber onId) :
    Mirrored onId id (Resolve.adjust name changeImage) (Resolve.adjust name change) :=
  .modify fun _ _ met => met.modifyInnermost fun scope => scope.adjust_renumber name same

/-- Taking a name as defined goes the same with other numbers. -/
protected theorem define (name : String) :
    Mirrored onId id (Resolve.define name) (Resolve.define name) :=
  .adjust name fun _ => rfl

/-- Declaring a name that a construct binds by itself goes the same with other numbers. -/
protected theorem declareImplicit (name : String) :
    Mirrored onId id (Resolve.declareImplicit name) (Resolve.declareImplicit name) :=
  .modify fun _ _ met => met.modifyInnermost fun scope => by
    simp [StaticScope.renumber, Table.mapEntries_put, Declared.renumber]

/-- A name is declared with other numbers just if it is without. -/
protected theorem checkDeclared (name : String) (location : Location) :
    Mirrored onId id (Resolve.checkDeclared name location)
      (Resolve.checkDeclared name location) := by
  refine .see fun analysis twin met => ?_
  rw [met.usedEarlyIn]
  exact .ite (.fail _ _) (.pure ())

/-- An expression is noted with other numbers. -/
protected theorem noteExpr (expr : Expr) :
    Mirrored onId id (Resolve.noteExpr (expr.renumber onId)) (Resolve.noteExpr expr) :=
  .modify fun _ _ met => { met with }

/-- The distance of a name is recorded under the other number of its node. -/
protected theorem resolveName (apart : Function.Injective onId) (node : NodeId) (name : String) :
    Mirrored onId id (Resolve.resolveName (onId node) name) (Resolve.resolveName node name) :=
  .modify fun _ _ met => { met with resolutions := met.resolutionsWith apart node name }

end Mirrored

/-! ### Expressions -/

private theorem isInside_renumber (current : Option ClassFacts) (layer : ClassLayer) :
    isInside (current.map (ClassFacts.renumber onId)) (layer.renumber onId) =
      isInside current layer := by
  cases current <;> rfl

private theorem fieldFault?_renumber (current : Option ClassFacts) (owner : ClassLayer)
    (field : FieldFacts) (name : String) (isAssignment : Bool) :
    fieldFault? (current.map (ClassFacts.renumber onId)) (owner.renumber onId) field name
      isAssignment = fieldFault? current owner field name isAssignment := by
  unfold fieldFault?
  rw [isInside_renumber, owner.name_renumber]

namespace Mirrored

/-- A field is refused with other numbers just if it is without. -/
protected theorem checkField (object : Expr) (name : String) (location : Location)
    (isAssignment : Bool) :
    Mirrored onId id (Resolve.checkField (object.renumber onId) name location isAssignment)
      (Resolve.checkField object name location isAssignment) := by
  refine .see fun analysis twin met => ?_
  rw [met.instanceClass?, met.current, met.checksFields]
  cases instanceClass? analysis object with
  | none => exact .pure ()
  | some facts =>
      dsimp only [Option.map_some, Option.bind_some]
      rw [facts.field?_renumber]
      cases facts.field? name with
      | none => exact .pure ()
      | some found =>
          obtain ⟨owner, field⟩ := found
          dsimp only [Option.map_some, Prod.map, id]
          rw [fieldFault?_renumber]
          cases fieldFault? analysis.current owner field name isAssignment with
          | none => exact .pure ()
          | some fault => exact .ite (.fail _ _) (.modify fun _ _ met => { met with })

/-- Reading a name goes the same with other numbers. -/
protected theorem readName (apart : Function.Injective onId) (node : NodeId) (name : String)
    (location : Location) :
    Mirrored onId id (Resolve.readName (onId node) name location)
      (Resolve.readName node name location) := by
  refine .see fun analysis twin met => ?_
  rw [met.innermost?, met.scopes]
  have read : Mirrored onId id
      (Resolve.checkDeclared name location >>= fun _ => Resolve.resolveName (onId node) name)
      (Resolve.checkDeclared name location >>= fun _ => Resolve.resolveName node name) :=
    (Mirrored.checkDeclared name location).andThen (.resolveName apart node name)
  rcases analysis.scopes with _ | ⟨innermost, _ | ⟨outer, rest⟩⟩
  · exact read
  · exact read
  · cases analysis.innermost? name with
    | none => exact read
    | some known =>
        obtain ⟨defined, isFinal, existing, classFacts, instanceOf⟩ := known
        cases defined with
        | true => exact read
        | false => exact .fail _ _

/-- Assigning to a name goes the same with other numbers. -/
protected theorem assignName (apart : Function.Injective onId) (node : NodeId) (name : String)
    (location : Location) :
    Mirrored onId id (Resolve.assignName (onId node) name location)
      (Resolve.assignName node name location) := by
  refine (Mirrored.checkDeclared name location).andThen (.see fun analysis twin met => ?_)
  rw [met.finalTarget?]
  cases finalTarget? analysis name with
  | some kind => exact .fail _ _
  | none =>
      refine (Mirrored.resolveName apart node name).andThen (.modify fun _ _ met => ?_)
      refine { met with scopes := ?_ }
      rw [met.scopes, Analysis.forgetInstanceIn_renumber]

mutual

/-- The analysis of an expression does not depend on the numbers of its nodes. -/
protected theorem expression (apart : Function.Injective onId) (expr : Expr) :
    Mirrored onId id (Resolve.expression (expr.renumber onId)) (Resolve.expression expr) := by
  cases expr with
  | literal value place => exact (Mirrored.noteExpr _).andThen (.pure ())
  | array elements place =>
      exact (Mirrored.noteExpr _).andThen (Mirrored.expressions apart elements)
  | var node name place => exact (Mirrored.noteExpr _).andThen (.readName apart node name place)
  | assign node name value place =>
      exact (Mirrored.noteExpr _).andThen ((Mirrored.expression apart value).andThen
        (.assignName apart node name place))
  | binary _ left right | logical _ left right | bitwise _ left right | elvis left right
  | getIndex left right =>
      exact (Mirrored.noteExpr _).andThen
        ((Mirrored.expression apart left).andThen (Mirrored.expression apart right))
  | unary _ operand | grouping operand =>
      exact (Mirrored.noteExpr _).andThen (Mirrored.expression apart operand)
  | prefixCall node name operand =>
      exact (Mirrored.noteExpr _).andThen ((Mirrored.resolveName apart node name).andThen
        (Mirrored.expression apart operand))
  | infixCall node name left right =>
      exact (Mirrored.noteExpr _).andThen ((Mirrored.resolveName apart node name).andThen
        ((Mirrored.expression apart left).andThen (Mirrored.expression apart right)))
  | ternary first second third | setIndex first second third =>
      exact (Mirrored.noteExpr _).andThen ((Mirrored.expression apart first).andThen
        ((Mirrored.expression apart second).andThen (Mirrored.expression apart third)))
  | call callee arguments =>
      exact (Mirrored.noteExpr _).andThen ((Mirrored.expression apart callee).andThen
        (Mirrored.expressions apart arguments))
  | get object name place =>
      exact (Mirrored.noteExpr _).andThen ((Mirrored.expression apart object).andThen
        (.checkField object name place false))
  | set object name value place =>
      exact (Mirrored.noteExpr _).andThen ((Mirrored.expression apart value).andThen
        ((Mirrored.expression apart object).andThen (.checkField object name place true)))
  | thisRef node place =>
      refine (Mirrored.noteExpr _).andThen (.see fun analysis twin met => ?_)
      rw [met.classContext]
      exact .ite (.fail _ _) (.resolveName apart node "this")
  | superRef node method place =>
      refine (Mirrored.noteExpr _).andThen (.see fun analysis twin met => ?_)
      rw [met.classContext]
      exact .ite (.resolveName apart node "super") (.fail _ _)

/-- The analysis of expressions in order goes the same with other numbers. -/
protected theorem expressions (apart : Function.Injective onId) (items : List Expr) :
    Mirrored onId id (Resolve.expressions (Expr.renumberAll onId items))
      (Resolve.expressions items) := by
  cases items with
  | nil => exact .pure ()
  | cons first rest =>
      exact (Mirrored.expression apart first).andThen (Mirrored.expressions apart rest)

end

/-! ### Statements -/

/-- The analysis of parameters goes the same with other numbers. -/
protected theorem parameters (params : List Parameter) :
    Mirrored onId id (Resolve.parameters (params.map (Parameter.relabel id)))
      (Resolve.parameters params) := by
  induction params with
  | nil => exact .pure ()
  | cons first rest ih =>
      exact (Mirrored.declare _ _ _ _).andThen ((Mirrored.define _).andThen ih)

/-- A jump out of a loop is refused with other numbers just if it is without. -/
protected theorem checkInLoop (jump : Jump) (location : Location) :
    Mirrored onId id (Resolve.checkInLoop jump location) (Resolve.checkInLoop jump location) := by
  refine .see fun analysis twin met => ?_
  rw [met.loopDepth]
  exact .ite (.fail _ _) (.pure ())

/-- A return is refused with other numbers just if it is without. -/
protected theorem checkReturn (hasValue : Bool) (location : Location) :
    Mirrored onId id (Resolve.checkReturn hasValue location)
      (Resolve.checkReturn hasValue location) := by
  refine .see fun analysis twin met => ?_
  rw [met.body]
  cases analysis.body with
  | none => exact .fail _ _
  | constructor => exact .ite (.fail _ _) (.pure ())
  | function | method | test => exact .pure ()

/-- A method is refused as an override with other numbers just if it is without. -/
protected theorem checkOverride (facts : ClassFacts) (className : String) (method : FunctionDecl) :
    Mirrored onId id
      (Resolve.checkOverride (facts.renumber onId) className (method.renumber onId))
      (Resolve.checkOverride facts className method) := by
  obtain ⟨name, kind, params, body, isFinal, place⟩ := method
  unfold Resolve.checkOverride
  rw [facts.hasFinalMethod_renumber]
  exact .ite (.fail _ _) (.pure ())

/-- Methods are checked as overrides the same with other numbers. -/
protected theorem checkOverrides (facts : ClassFacts) (className : String)
    (methods : List FunctionDecl) :
    Mirrored onId id
      (Resolve.checkOverrides (facts.renumber onId) className
        (FunctionDecl.relabelAll onId id methods))
      (Resolve.checkOverrides facts className methods) := by
  induction methods with
  | nil => exact .pure ()
  | cons first rest ih => exact (Mirrored.checkOverride facts className first).andThen ih

/-- What is known of a superclass is found with other numbers. -/
protected theorem superclass (apart : Function.Injective onId) (className : String)
    (reference : SuperclassRef) :
    Mirrored onId (Option.map (ClassFacts.renumber onId))
      (Resolve.superclass className (reference.relabel onId id))
      (Resolve.superclass className reference) := by
  obtain ⟨node, name, place⟩ := reference
  refine .ite (.fail _ _) ((Mirrored.checkDeclared name place).andThen
    ((Mirrored.resolveName apart node name).andThen (.see fun analysis twin met => ?_)))
  dsimp only [SuperclassRef.relabel]
  rw [met.classOf?]
  cases analysis.classOf? name with
  | none => exact .pure none
  | some known =>
      dsimp only [Option.map_some]
      rw [show (known.renumber onId).own.isFinal = known.own.isFinal from
        known.own.isFinal_renumber]
      exact .ite (.fail _ _) (.pure (some known))

/-- What is known of the superclass of a declaration is found with other numbers. -/
protected theorem declaredSuperclass (apart : Function.Injective onId) (decl : ClassDecl) :
    Mirrored onId (Option.map (ClassFacts.renumber onId))
      (Resolve.declaredSuperclass (decl.renumber onId)) (Resolve.declaredSuperclass decl) := by
  obtain ⟨name, reference, fields, methods, isFinal, place⟩ := decl
  cases reference with
  | none => exact .pure none
  | some reference => exact .superclass apart name reference

/-- A class is checked against its superclass the same with other numbers. -/
protected theorem checkInherited (decl : ClassDecl) (known : Option ClassFacts) :
    Mirrored onId id
      (Resolve.checkInherited (decl.renumber onId) (known.map (ClassFacts.renumber onId)))
      (Resolve.checkInherited decl known) := by
  obtain ⟨name, reference, fields, methods, isFinal, place⟩ := decl
  cases known with
  | none => exact .pure ()
  | some facts => exact .checkOverrides facts name methods

/-- What is known of a class that is declared does not depend on the numbers of its nodes. -/
protected theorem classHead (apart : Function.Injective onId) (decl : ClassDecl) :
    Mirrored onId (ClassFacts.renumber onId) (Resolve.classHead (decl.renumber onId))
      (Resolve.classHead decl) := by
  have name : (decl.renumber onId).name = decl.name := by obtain ⟨⟩ := decl; rfl
  have isFinal : (decl.renumber onId).isFinal = decl.isFinal := by obtain ⟨⟩ := decl; rfl
  have location : (decl.renumber onId).location = decl.location := by obtain ⟨⟩ := decl; rfl
  unfold Resolve.classHead
  rw [name, isFinal, location]
  refine (Mirrored.declare _ _ _ _).andThen ((Mirrored.define _).andThen
    ((Mirrored.declaredSuperclass apart decl).bind fun known =>
      (Mirrored.checkInherited decl known).andThen (.see fun analysis twin met => ?_)))
  rw [met.nextClass]
  dsimp only
  rw [ClassFacts.ofDecl_renumber]
  have counted : Mirrored onId id
      (modify fun later => { later with nextClass := analysis.nextClass + 1 })
      (modify fun later => { later with nextClass := analysis.nextClass + 1 }) :=
    .modify fun _ _ met => { met with nextClass := rfl }
  have adjusted (facts : ClassFacts) : Mirrored onId id
      (Resolve.adjust decl.name ({ · with classFacts := some (facts.renumber onId) }))
      (Resolve.adjust decl.name ({ · with classFacts := some facts })) :=
    .adjust _ fun _ => rfl
  exact counted.andThen ((adjusted _).andThen (.pure _))

/-- The scopes of a class are opened the same with other numbers. -/
protected theorem classScopes {step image : Resolve Unit} (decl : ClassDecl)
    (mirrors : Mirrored onId id image step) :
    Mirrored onId id (Resolve.classScopes (decl.renumber onId) image)
      (Resolve.classScopes decl step) := by
  have receiver : Mirrored onId id
      (Resolve.inScope (.thisOf (decl.renumber onId)) do
        Resolve.declareImplicit "this"
        image)
      (Resolve.inScope (.thisOf decl) do
        Resolve.declareImplicit "this"
        step) :=
    ((Mirrored.declareImplicit "this").andThen mirrors).inScope (.thisOf decl)
  have derived : (decl.renumber onId).superclass.isSome = decl.superclass.isSome := by
    obtain ⟨⟩ := decl
    exact Option.isSome_map
  unfold Resolve.classScopes
  rw [derived]
  exact .ite (((Mirrored.declareImplicit "super").andThen receiver).inScope (.superOf decl))
    receiver

/-- The head of an extension goes the same with other numbers. -/
protected theorem extensionHead (apart : Function.Injective onId) (node : NodeId)
    (className : String) (method : FunctionDecl) (location : Location) :
    Mirrored onId id
      (Resolve.extensionHead (onId node) className (method.renumber onId) location)
      (Resolve.extensionHead node className method location) := by
  refine (Mirrored.checkDeclared _ _).andThen ((Mirrored.resolveName apart _ _).andThen
    (.see fun analysis twin met => ?_))
  rw [met.classOf?]
  cases analysis.classOf? className with
  | none => exact .pure ()
  | some facts =>
      dsimp only [Option.map_some]
      rw [show (facts.renumber onId).own.isFinal = facts.own.isFinal from
        facts.own.isFinal_renumber]
      exact .ite (.fail _ _) (.checkOverride facts className method)

/-- The analysis of an initial value goes the same with other numbers. -/
protected theorem optional (apart : Function.Injective onId) (value : Option Expr) :
    Mirrored onId id (Resolve.optional (value.map (Expr.relabel onId id)))
      (Resolve.optional value) := by
  cases value with
  | none => exact .pure ()
  | some value => exact .expression apart value

/-- The analysis of initial values of fields goes the same with other numbers. -/
protected theorem fieldInitials (apart : Function.Injective onId) (fields : List FieldDecl) :
    Mirrored onId id (Resolve.fieldInitials (fields.map (FieldDecl.relabel onId id)))
      (Resolve.fieldInitials fields) := by
  induction fields with
  | nil => exact .pure ()
  | cons first rest ih => exact (Mirrored.optional apart first.initial).andThen ih

/-- The analysis of a variable goes the same with other numbers. -/
protected theorem varDecl (apart : Function.Injective onId) (name : String)
    (initial : Option Expr) (isFinal : Bool) (location : Location) :
    Mirrored onId id
      (Resolve.varDecl name (initial.map (Expr.relabel onId id)) isFinal location)
      (Resolve.varDecl name initial isFinal location) := by
  refine (Mirrored.declare _ _ _ _).andThen ?_
  cases initial with
  | none => exact .adjust name fun _ => rfl
  | some value =>
      refine (Mirrored.expression apart value).andThen (.see fun analysis twin met => ?_)
      dsimp only
      rw [met.constructed?]
      exact .adjust name fun _ => rfl

mutual

/-- The analysis of a statement does not depend on the numbers of its nodes. -/
protected theorem statement (apart : Function.Injective onId) (statement : Statement) :
    Mirrored onId id (Resolve.statement (statement.renumber onId))
      (Resolve.statement statement) := by
  cases statement with
  | expression expr | print expr => exact .expression apart expr
  | varDecl name initial isFinal place => exact .varDecl apart name initial isFinal place
  | block body place =>
      exact ((Mirrored.hoist body).andThen (Mirrored.statements apart body)).inScope
        (.block body place)
  | ifElse condition thenBranch elseBranch place =>
      cases elseBranch with
      | none =>
          exact (Mirrored.expression apart condition).andThen (Mirrored.statement apart thenBranch)
      | some elseBranch =>
          exact (Mirrored.expression apart condition).andThen
            ((Mirrored.statement apart thenBranch).andThen (Mirrored.statement apart elseBranch))
  | whileLoop condition body | doWhile body condition | repeatLoop condition body =>
      exact (Mirrored.expression apart condition).andThen (Mirrored.statement apart body).inLoop
  | function decl =>
      obtain ⟨name, kind, params, body, isFinal, place⟩ := decl
      exact (Mirrored.declare _ _ _ _).andThen ((Mirrored.define name).andThen
        (Mirrored.function apart .function ⟨name, kind, params, body, isFinal, place⟩))
  | classDecl decl => exact Mirrored.classDecl apart decl
  | returning value place =>
      have checked : Mirrored onId id
          (Resolve.checkReturn (value.map (Expr.relabel onId id)).isSome place)
          (Resolve.checkReturn value.isSome place) := by
        rw [Option.isSome_map]
        exact .checkReturn _ _
      exact checked.andThen (.optional apart value)
  | breaking place | continuing place => exact .checkInLoop _ _
  | test name body place =>
      exact (((Mirrored.hoist body).andThen (Mirrored.statements apart body)).inScope
        (.test body place)).inBody .test
  | moduleDecl name place | nativeFunction _ name _ place =>
      exact (Mirrored.declare _ _ _ _).andThen (.define name)
  | extension node className decl place =>
      exact (Mirrored.extensionHead apart node className decl place).andThen
        ((((Mirrored.declareImplicit "this").andThen (Mirrored.function apart .method decl)).inScope
          (.extensionThis node decl)).inClass .root none)

/-- The analysis of statements in order goes the same with other numbers. -/
protected theorem statements (apart : Function.Injective onId) (statements : List Statement) :
    Mirrored onId id (Resolve.statements (Statement.renumberAll onId statements))
      (Resolve.statements statements) := by
  cases statements with
  | nil => exact .pure ()
  | cons first rest =>
      exact (Mirrored.statement apart first).andThen (Mirrored.statements apart rest)

/-- The analysis of a function goes the same with other numbers. -/
protected theorem function (apart : Function.Injective onId) (context : BodyContext)
    (decl : FunctionDecl) :
    Mirrored onId id (Resolve.function context (decl.renumber onId))
      (Resolve.function context decl) := by
  obtain ⟨name, kind, params, body, isFinal, place⟩ := decl
  exact (((Mirrored.hoist body).andThen ((Mirrored.parameters params).andThen
    (Mirrored.statements apart body))).inScope
      (.body ⟨name, kind, params, body, isFinal, place⟩)).deferred.inBody context

/-- The analysis of methods goes the same with other numbers. -/
protected theorem methods (apart : Function.Injective onId) (decls : List FunctionDecl) :
    Mirrored onId id (Resolve.methods (FunctionDecl.relabelAll onId id decls))
      (Resolve.methods decls) := by
  cases decls with
  | nil => exact .pure ()
  | cons first rest =>
      obtain ⟨name, kind, params, body, isFinal, place⟩ := first
      exact (Mirrored.function apart (methodContext kind)
        ⟨name, kind, params, body, isFinal, place⟩).andThen (Mirrored.methods apart rest)

/-- The analysis of a class goes the same with other numbers. -/
protected theorem classDecl (apart : Function.Injective onId) (decl : ClassDecl) :
    Mirrored onId id (Resolve.classDecl (decl.renumber onId)) (Resolve.classDecl decl) := by
  obtain ⟨name, superclass, fields, methods, isFinal, place⟩ := decl
  refine (Mirrored.classHead apart
    ⟨name, superclass, fields, methods, isFinal, place⟩).bind fun facts => ?_
  rw [Option.isSome_map]
  exact (((Mirrored.fieldInitials apart fields).andThen
    (Mirrored.methods apart methods)).classScopes
    ⟨name, superclass, fields, methods, isFinal, place⟩).deferred.inClass _ (some facts)

end

end Mirrored

/-- The analysis of a program does not depend on the numbers of its nodes. -/
protected theorem Mirrored.program (apart : Function.Injective onId) (source : Program) :
    Mirrored onId id (Resolve.program (Statement.renumberAll onId source))
      (Resolve.program source) :=
  (Mirrored.hoist source).andThen (.statements apart source)

end Resolve

/-- The analysis of a program with other numbers finds the fault of the program, or records its
distances under the other numbers. -/
theorem resolve_renumberAll {onId : NodeId → NodeId} (apart : Function.Injective onId)
    (source : Program) :
    (∃ fault, resolve source = .error fault ∧
      resolve (Statement.renumberAll onId source) = .error fault) ∨
    ∃ resolutions image, resolve source = .ok resolutions ∧
      resolve (Statement.renumberAll onId source) = .ok image ∧
      resolutions.Renumbers onId image := by
  have alike := (Resolve.Mirrored.program apart source).ends .start .start Analysis.Twin.start
    trivial
  unfold resolve
  generalize Resolve.program source .start = ended at alike ⊢
  generalize Resolve.program (Statement.renumberAll onId source) .start = endedImage at alike ⊢
  cases alike with
  | ok _ met => exact .inr ⟨_, _, rfl, rfl, met.resolutions⟩
  | error fault _ => exact .inl ⟨fault, rfl, rfl⟩

end Scriptlet
