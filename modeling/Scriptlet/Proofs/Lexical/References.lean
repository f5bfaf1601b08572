import Scriptlet.Proofs.Lexical.Binding

/-!
# References to names in the text

Where a program refers to a name (`Program.occurrences`), and which names the scopes around the
reference have by then (`NameScope`). The statements of a list are done one after the other, so a
scope has the names of those before the one with the reference, and of that one itself if it is a
declaration. A scope also knows the names that its own statements declare anywhere. A declaration
that is a branch or the body of a loop is none of the statements of its scope, but once it is passed
the scope has its name (`passing`).
-/

namespace Scriptlet

/-- The ways to refer to a name. -/
inductive ReferenceKind where
  | read | assigned | prefixCall | infixCall | superclass | extended
  deriving DecidableEq, Repr

/-- Whether a reference calls an operator of the script. -/
def ReferenceKind.isOperator : ReferenceKind → Bool
  | prefixCall | infixCall => true
  | read | assigned | superclass | extended => false

/-- A reference to a name. -/
structure Reference where
  kind : ReferenceKind
  name : String
  location : Location
  deriving DecidableEq, Repr

/-- A scope around a reference: the names that are declared in it by then; those among the names
declared before the reference in the text that are not declared by then, because the analysis comes
to the condition of a loop before it comes to the body; the names that the statements of the scope
declare; and how many functions the scope is inside of. -/
structure NameScope where
  entered : List String
  passed : List String
  listed : List String
  level : Nat
  deriving DecidableEq, Repr

/-- The names that a scope has before a reference in the text. -/
def NameScope.written (scope : NameScope) : List String :=
  scope.entered ++ scope.passed

/-- A reference in the scopes around it, innermost first, and how many functions it is inside
of. -/
structure Occurrence where
  reference : Reference
  scopes : List NameScope
  depth : Nat
  deriving DecidableEq, Repr

/-- A name is referred to early if a scope of the same function lists it, and neither this scope
nor one between it and the reference has it by then. -/
def Occurrence.Early (has : NameScope → List String) (occurrence : Occurrence) : Prop :=
  ∃ inner scope outer, occurrence.scopes = inner ++ scope :: outer ∧
    scope.level = occurrence.depth ∧ occurrence.reference.name ∈ scope.listed ∧
    ∀ nearer ∈ inner ++ [scope], occurrence.reference.name ∉ has nearer

/-- What the text does not have by then the analysis does not have either. -/
theorem Occurrence.Early.entered {occurrence : Occurrence}
    (early : occurrence.Early NameScope.written) : occurrence.Early NameScope.entered := by
  obtain ⟨inner, scope, outer, split, level, listed, without⟩ := early
  refine ⟨inner, scope, outer, split, level, listed, fun nearer member inside => ?_⟩
  exact without nearer member (List.mem_append_left _ inside)

/-- Some names are declared in the innermost scope. -/
def entering (names : List String) : List NameScope → List NameScope
  | [] => []
  | scope :: outer => { scope with entered := names ++ scope.entered } :: outer

/-- Some names are declared in the innermost scope only as far as the text goes. -/
def passing (names : List String) : List NameScope → List NameScope
  | [] => []
  | scope :: outer => { scope with passed := names ++ scope.passed } :: outer

/-- The names that the statements of a list declare themselves. -/
def listedBy (statements : List Statement) : List String :=
  (statements.filterMap Statement.declares?).map Prod.fst

/-- The names that a statement has declared in its own scope when it is done. -/
def Statement.bound (statement : Statement) : List String :=
  statement.binds.map Prod.fst

mutual

/-- The references of an expression. -/
def Expr.references : Expr → List Reference
  | .literal _ _ | .thisRef _ _ | .superRef _ _ _ => []
  | .array elements _ => Expr.referencesAll elements
  | .var _ name location => [⟨.read, name, location⟩]
  | .assign _ name value location => value.references ++ [⟨.assigned, name, location⟩]
  | .binary _ left right _ | .logical _ left right _ | .bitwise _ left right _
  | .elvis left right _ | .getIndex left right _ => left.references ++ right.references
  | .unary _ operand _ | .grouping operand _ | .get operand _ _ => operand.references
  | .prefixCall _ name operand location => ⟨.prefixCall, name, location⟩ :: operand.references
  | .infixCall _ name left right location =>
    ⟨.infixCall, name, location⟩ :: (left.references ++ right.references)
  | .ternary condition thenBranch elseBranch _ =>
    condition.references ++ (thenBranch.references ++ elseBranch.references)
  | .call callee arguments _ => callee.references ++ Expr.referencesAll arguments
  | .set object _ value _ => value.references ++ object.references
  | .setIndex target index value _ =>
    target.references ++ (index.references ++ value.references)

/-- The references of some expressions. -/
def Expr.referencesAll : List Expr → List Reference
  | [] => []
  | first :: rest => first.references ++ Expr.referencesAll rest

end

/-- Some references in scopes. -/
def occurring (depth : Nat) (scopes : List NameScope) (references : List Reference) :
    List Occurrence :=
  references.map fun reference => ⟨reference, scopes, depth⟩

/-- The references of an expression that may be left out. -/
def initialReferences : Option Expr → List Reference
  | some initial => initial.references
  | none => []

/-- The scopes that the fields and methods of a class stand in. -/
def classNameScopes (derived : Bool) (level : Nat) (outer : List NameScope) : List NameScope :=
  ⟨["this"], [], [], level⟩ :: if derived then ⟨["super"], [], [], level⟩ :: outer else outer

mutual

/-- The references of a statement in the scopes that the statement stands in. -/
def Statement.occurrences (depth : Nat) (scopes : List NameScope) : Statement → List Occurrence
  | .expression expr _ | .print expr _ => occurring depth scopes expr.references
  | .varDecl name initial _ _ =>
    occurring depth (entering [name] scopes) (initialReferences initial)
  | .block body _ | .test _ body _ =>
    Statement.occurrencesAll depth (⟨[], [], listedBy body, depth⟩ :: scopes) body
  | .ifElse condition thenBranch none _ =>
    occurring depth scopes condition.references ++ thenBranch.occurrences depth scopes
  | .ifElse condition thenBranch (some elseBranch) _ =>
    occurring depth scopes condition.references ++ (thenBranch.occurrences depth scopes ++
      elseBranch.occurrences depth (entering thenBranch.bound scopes))
  | .whileLoop condition body _ | .repeatLoop condition body _ =>
    occurring depth scopes condition.references ++ body.occurrences depth scopes
  | .doWhile body condition _ =>
    occurring depth (passing body.bound scopes) condition.references ++
      body.occurrences depth scopes
  | .function decl => decl.occurrences depth (entering [decl.name] scopes)
  | .classDecl decl => decl.occurrences depth scopes
  | .returning value _ => occurring depth scopes (initialReferences value)
  | .breaking _ | .continuing _ | .moduleDecl _ _ | .nativeFunction _ _ _ _ => []
  | .extension _ className decl location =>
    ⟨⟨.extended, className, location⟩, scopes, depth⟩ ::
      decl.occurrences depth (⟨["this"], [], [], depth⟩ :: scopes)

/-- The references of statements that are done one after the other. -/
def Statement.occurrencesAll (depth : Nat) (scopes : List NameScope) :
    List Statement → List Occurrence
  | [] => []
  | first :: rest => first.occurrences depth scopes ++
    Statement.occurrencesAll depth (entering first.bound scopes) rest

/-- The references in the body of a function. -/
def FunctionDecl.occurrences (depth : Nat) (scopes : List NameScope) :
    FunctionDecl → List Occurrence
  | ⟨_, _, params, body, _, _⟩ =>
    Statement.occurrencesAll (depth + 1)
      (⟨params.map (·.name), [], listedBy body, depth + 1⟩ :: scopes) body

/-- The references in the bodies of methods. -/
def FunctionDecl.occurrencesAll (depth : Nat) (scopes : List NameScope) :
    List FunctionDecl → List Occurrence
  | [] => []
  | first :: rest => first.occurrences depth scopes ++ FunctionDecl.occurrencesAll depth scopes rest

/-- The references of a class: to its superclass, in its fields and in its methods. The last two
run later, as a function does. -/
def ClassDecl.occurrences (depth : Nat) (scopes : List NameScope) : ClassDecl → List Occurrence
  | ⟨name, superclass, fields, methods, _, _⟩ =>
    let declared := entering [name] scopes
    let inside := classNameScopes superclass.isSome (depth + 1) declared
    occurring depth declared (superclass.toList.map fun reference =>
        ⟨.superclass, reference.name, reference.location⟩) ++
      (occurring (depth + 1) inside (fields.flatMap (initialReferences ·.initial)) ++
        FunctionDecl.occurrencesAll (depth + 1) inside methods)

end

/-- The references of a program. -/
def Program.occurrences (program : Program) : List Occurrence :=
  Statement.occurrencesAll 0 [⟨[], [], listedBy program, 0⟩] program

end Scriptlet
