import Scriptlet.Proofs.Lexical.Binding
import Scriptlet.Proofs.Resolution.Later

/-!
# The walk of the analysis

Which nodes the analysis of code visits, in order, and what each step of it leaves
behind: an expression declares nothing, a statement declares in the innermost scope what
`Statement.binds` lists.
-/

namespace Scriptlet

mutual

/-- The numbers of the nodes of an expression that mention names, in the order of the
analysis. -/
def Expr.nodes : Expr → List NodeId
  | .literal _ _ => []
  | .array elements _ => Expr.nodesAll elements
  | .var id _ _ | .thisRef id _ | .superRef id _ _ => [id]
  | .assign id _ value _ => value.nodes ++ [id]
  | .binary _ left right _ | .logical _ left right _ | .bitwise _ left right _
  | .elvis left right _ | .getIndex left right _ => left.nodes ++ right.nodes
  | .unary _ operand _ | .grouping operand _ | .get operand _ _ => operand.nodes
  | .prefixCall id _ operand _ => id :: operand.nodes
  | .infixCall id _ left right _ => id :: (left.nodes ++ right.nodes)
  | .ternary condition thenBranch elseBranch _ =>
    condition.nodes ++ (thenBranch.nodes ++ elseBranch.nodes)
  | .call callee arguments _ => callee.nodes ++ Expr.nodesAll arguments
  | .set object _ value _ => value.nodes ++ object.nodes
  | .setIndex target index value _ => target.nodes ++ (index.nodes ++ value.nodes)

/-- The numbers of the nodes of some expressions. -/
def Expr.nodesAll : List Expr → List NodeId
  | [] => []
  | first :: rest => first.nodes ++ Expr.nodesAll rest

end

/-- The numbers of the nodes of an expression that may be left out. -/
def initialNodes : Option Expr → List NodeId
  | some initial => initial.nodes
  | none => []

mutual

/-- The numbers of the nodes of a statement that mention names, in the order of the
analysis. -/
def Statement.nodes : Statement → List NodeId
  | .expression expr _ | .print expr _ => expr.nodes
  | .varDecl _ initial _ _ | .returning initial _ => initialNodes initial
  | .block body _ | .test _ body _ => Statement.nodesAll body
  | .ifElse condition thenBranch none _ => condition.nodes ++ thenBranch.nodes
  | .ifElse condition thenBranch (some elseBranch) _ =>
    condition.nodes ++ (thenBranch.nodes ++ elseBranch.nodes)
  | .whileLoop condition body _ | .doWhile body condition _ | .repeatLoop condition body _ =>
    condition.nodes ++ body.nodes
  | .function decl => decl.nodes
  | .classDecl decl => decl.nodes
  | .breaking _ | .continuing _ | .moduleDecl _ _ | .nativeFunction _ _ _ _ => []
  | .extension id _ decl _ => id :: decl.nodes

/-- The numbers of the nodes of some statements. -/
def Statement.nodesAll : List Statement → List NodeId
  | [] => []
  | first :: rest => first.nodes ++ Statement.nodesAll rest

/-- The numbers of the nodes in the body of a function. -/
def FunctionDecl.nodes : FunctionDecl → List NodeId
  | ⟨_, _, _, body, _, _⟩ => Statement.nodesAll body

/-- The numbers of the nodes in the bodies of methods. -/
def FunctionDecl.nodesAll : List FunctionDecl → List NodeId
  | [] => []
  | first :: rest => first.nodes ++ FunctionDecl.nodesAll rest

/-- The numbers of the nodes of a class: its superclass, its fields, its methods. -/
def ClassDecl.nodes : ClassDecl → List NodeId
  | ⟨_, superclass, fields, methods, _, _⟩ =>
    superclass.toList.map (·.id) ++
      (fields.flatMap (initialNodes ·.initial) ++ FunctionDecl.nodesAll methods)

end

/-- No two nodes of a program have the same number. -/
def Program.Numbered (program : Program) : Prop :=
  (Statement.nodesAll program).Nodup

instance (program : Program) : Decidable program.Numbered :=
  inferInstanceAs (Decidable (List.Nodup _))

namespace Resolve

namespace Steps

variable {α : Type} {nodes : List NodeId} {changes : List (String × Bool)}

/-- Looking up a name leaves a visit, and a record if the name is local. -/
protected theorem resolveName (id : NodeId) (name : String) :
    Steps [id] changes (Resolve.resolveName id name) := by
  intro before value after passed
  cases passed
  refine ⟨.refl _, rfl, rfl, rfl, rfl, rfl, rfl, ⟨List.suffix_cons _ _, List.suffix_refl _⟩,
    fun distinct recorded => ?_⟩
  have fresh : id ∉ before.visits.map (·.id) := (List.nodup_cons.mp distinct).1
  have unrecorded := recorded.unvisited id fresh
  have others (other : NodeId) (apart : id ≠ other) :
      (before.resolutionsWith id name).distance? other = before.resolutions.distance? other := by
    unfold Analysis.resolutionsWith
    split
    · exact Resolutions.distance?_record_of_ne _ _ apart
    · rfl
  refine ⟨fun visit member => ?_, fun other missing => ?_⟩
  · rcases List.mem_cons.mp member with rfl | earlier
    · dsimp only [Visit.distance?]
      change (before.resolutionsWith id name).distance? id = (before.lookup name).bind (·.1)
      unfold Analysis.resolutionsWith
      split
      · rename_i found
        rw [found]
        exact Resolutions.distance?_record_self _ _ _
      · rename_i notLocal
        rw [unrecorded]
        cases found : before.lookup name with
        | none => rfl
        | some entry =>
            obtain ⟨distance, declared⟩ := entry
            cases distance with
            | none => rfl
            | some distance => exact absurd found (notLocal distance declared)
    · have apart : id ≠ visit.id := fun same => fresh (same ▸ List.mem_map_of_mem earlier)
      exact (others visit.id apart).trans (recorded.visited visit earlier)
  · simp only [List.map_cons, List.mem_cons, not_or] at missing
    exact (others other (Ne.symm missing.1)).trans (recorded.unvisited other missing.2)

/-- Checking that a name is declared visits nothing. -/
protected theorem checkDeclared (name : String) (location : Location) :
    Steps [] changes (Resolve.checkDeclared name location) := by
  refine look fun analysis => ?_
  split
  · exact .fail _ _
  · exact .pure _

/-- Reading a name visits its node. -/
protected theorem readName (id : NodeId) (name : String) (location : Location) :
    Steps [id] changes (Resolve.readName id name location) := by
  refine look fun analysis => ?_
  split
  · exact .fail _ _
  · exact after (.checkDeclared _ _) fun _ => .resolveName id name

/-- Forgetting what a variable holds an instance of changes no declaration. -/
theorem forall₂_forgetInstanceIn (name : String) (scopes : List StaticScope) :
    scopes.Forall₂ (·.Becomes [] ·) (Analysis.forgetInstanceIn name scopes) := by
  induction scopes with
  | nil => exact .nil
  | cons scope outer ih =>
      unfold Analysis.forgetInstanceIn
      split
      · rename_i declared found
        exact .cons (.adjusted scope found rfl rfl) (ScopesLater.forall₂_refl outer)
      · exact .cons (.refl scope) ih

/-- Assigning to a name visits its node. -/
protected theorem assignName (id : NodeId) (name : String) (location : Location) :
    Steps [id] [] (Resolve.assignName id name location) := by
  refine after (.checkDeclared _ _) fun _ => look fun analysis => ?_
  split
  · exact .fail _ _
  · have forgets : Steps [] [] (modify fun analysis =>
        { analysis with scopes := Analysis.forgetInstanceIn name analysis.scopes } :
          Resolve Unit) := by
      intro before value after passed
      cases passed
      exact .of_scopes before (.of_forall₂ (forall₂_forgetInstanceIn name before.scopes))
    exact bind (.resolveName id name) fun _ => forgets

/-- Noting a refused access visits nothing. -/
protected theorem noteRefusal (object : Expr) (name : String) (location : Location)
    (isAssignment : Bool) (owner : ClassLayer) (field : FieldFacts) (fault : ResolveFault) :
    Steps [] changes
      (Resolve.noteRefusal object name location isAssignment owner field fault) := by
  intro before value after passed
  cases passed
  exact ⟨.refl _, rfl, rfl, rfl, rfl, rfl, rfl, ⟨List.suffix_refl _, List.suffix_refl _⟩,
    fun _ recorded => recorded.congr rfl rfl⟩

/-- Checking the access to a field visits nothing. -/
protected theorem checkField (object : Expr) (name : String) (location : Location)
    (isAssignment : Bool) :
    Steps [] changes (Resolve.checkField object name location isAssignment) := by
  refine look fun analysis => ?_
  split
  · exact .pure _
  · split
    · exact .pure _
    · split
      · exact .fail _ _
      · exact .noteRefusal _ _ _ _ _ _ _

/-- Noting an expression visits nothing. -/
protected theorem noteExpr (expr : Expr) : Steps [] changes (Resolve.noteExpr expr) := by
  intro before value after passed
  cases passed
  exact ⟨.refl _, rfl, rfl, rfl, rfl, rfl, rfl, ⟨List.suffix_refl _, List.suffix_cons _ _⟩,
    fun _ recorded => recorded.congr rfl rfl⟩

end Steps

/-- If the step passes, it declares nothing, visits these nodes in order, and leaves noted that
the expression is analysed where it begins. -/
structure Notes (expr : Expr) (nodes : List NodeId) {α : Type} (step : Resolve α) : Prop where
  steps : Steps nodes [] step
  noted : ∀ (before : Analysis) (value : α) (after : Analysis), step before = .ok value after →
    ⟨expr, before.scopes, before.current, before.classContext⟩ ∈ after.walk

namespace Notes

open Steps (after bind look)

variable {α : Type} {nodes : List NodeId}

/-- An expression is noted before anything in it is. -/
theorem first {expr : Expr} {step : Unit → Resolve α} (steps : Steps nodes [] (step ())) :
    Notes expr nodes (Resolve.noteExpr expr >>= step) := by
  refine ⟨after (.noteExpr expr) fun _ => steps, fun before value last passed => ?_⟩
  obtain ⟨_, _, noting, rest⟩ := bind_eq_ok.mp passed
  cases noting
  exact (steps _ value last rest).precedes.walk.subset (List.mem_cons_self ..)

mutual

/-- An expression declares nothing. -/
protected theorem expression : (expr : Expr) → Notes expr expr.nodes (Resolve.expression expr)
  | .literal _ _ => first (.pure _)
  | .array elements _ => first (Notes.expressions elements)
  | .var id name location => first (.readName id name location)
  | .assign id name value location =>
    first (bind (Notes.expression value).steps fun _ => .assignName id name location)
  | .binary _ left right _ | .logical _ left right _ | .bitwise _ left right _
  | .elvis left right _ | .getIndex left right _ =>
    first (bind (Notes.expression left).steps fun _ => (Notes.expression right).steps)
  | .unary _ operand _ | .grouping operand _ => first (Notes.expression operand).steps
  | .prefixCall id name operand _ =>
    first (bind (.resolveName id name) fun _ => (Notes.expression operand).steps)
  | .infixCall id name left right _ =>
    first (bind (.resolveName id name) fun _ => bind (Notes.expression left).steps fun _ =>
      (Notes.expression right).steps)
  | .ternary condition thenBranch elseBranch _ =>
    first (bind (Notes.expression condition).steps fun _ =>
      bind (Notes.expression thenBranch).steps fun _ => (Notes.expression elseBranch).steps)
  | .call callee arguments _ =>
    first (bind (Notes.expression callee).steps fun _ => Notes.expressions arguments)
  | .get object name location => by
    have whole := bind (Notes.expression object).steps fun _ =>
      .checkField object name location false
    rw [List.append_nil] at whole
    exact first whole
  | .set object name value location => by
    have rest := bind (Notes.expression object).steps fun _ =>
      .checkField object name location true
    rw [List.append_nil] at rest
    exact first (bind (Notes.expression value).steps fun _ => rest)
  | .setIndex target index value _ =>
    first (bind (Notes.expression target).steps fun _ =>
      bind (Notes.expression index).steps fun _ => (Notes.expression value).steps)
  | .thisRef id _ => by
    refine first (look fun analysis => ?_)
    split
    · exact .fail _ _
    · exact .resolveName id "this"
  | .superRef id _ _ => by
    refine first (look fun analysis => ?_)
    split
    · exact .resolveName id "super"
    · exact .fail _ _

/-- Expressions in order visit their nodes, in order. -/
protected theorem expressions :
    (exprs : List Expr) → Steps (Expr.nodesAll exprs) [] (Resolve.expressions exprs)
  | [] => .pure _
  | first :: rest => bind (Notes.expression first).steps fun _ => Notes.expressions rest

end

end Notes

/-- An expression visits its nodes, in order, and declares nothing. -/
protected theorem Steps.expression (expr : Expr) :
    Steps expr.nodes [] (Resolve.expression expr) :=
  (Notes.expression expr).steps

/-- Expressions visit their nodes, in order, and declare nothing. -/
protected theorem Steps.expressions (exprs : List Expr) :
    Steps (Expr.nodesAll exprs) [] (Resolve.expressions exprs) :=
  Notes.expressions exprs

end Resolve

end Scriptlet
