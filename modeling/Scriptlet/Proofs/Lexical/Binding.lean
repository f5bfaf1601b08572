import Scriptlet.Resolution.Statement

/-!
# What code binds where

The parts of expressions and statements, by the scope they stand in, and the names a statement may
bind in the scope it stands in itself (`Statement.binds`). A declaration need not be a direct
statement of its scope: it can be the branch of a condition or the body of a loop, and such a
declaration may be skipped or repeated (`ScopeTag.LooselyBinds`).
-/

namespace Scriptlet

/-- The expressions directly inside of another one. -/
def Expr.parts : Expr → List Expr
  | .array elements _ => elements
  | .assign _ _ value _ => [value]
  | .binary _ left right _ | .logical _ left right _ | .bitwise _ left right _
  | .elvis left right _ | .getIndex left right _ | .infixCall _ _ left right _ => [left, right]
  | .unary _ operand _ | .grouping operand _ | .prefixCall _ _ operand _ => [operand]
  | .ternary condition thenBranch elseBranch _ => [condition, thenBranch, elseBranch]
  | .call callee arguments _ => callee :: arguments
  | .get object _ _ => [object]
  | .set object _ value _ => [object, value]
  | .setIndex target index value _ => [target, index, value]
  | .literal _ _ | .var _ _ _ | .thisRef _ _ | .superRef _ _ _ => []

/-- Whether an expression is a call. -/
def Expr.isCall : Expr → Bool
  | .call _ _ _ | .prefixCall _ _ _ _ | .infixCall _ _ _ _ _ => true
  | _ => false

namespace Statement

/-- The expressions a statement evaluates in its own scope, outside of loops and
initial values. -/
def values : Statement → List Expr
  | .expression expr _ | .print expr _ => [expr]
  | .ifElse condition _ _ _ => [condition]
  | .returning (some value) _ => [value]
  | _ => []

/-- The statements a condition chooses from. -/
def branches : Statement → List Statement
  | .ifElse _ thenBranch elseBranch _ => thenBranch :: elseBranch.toList
  | _ => []

/-- The condition or count of a loop, and its body. -/
def loop? : Statement → Option (Expr × Statement)
  | .whileLoop condition body _ | .doWhile body condition _ | .repeatLoop condition body _ =>
    some (condition, body)
  | _ => none

/-- The scope a statement opens for statements inside of it. -/
def opens? : Statement → Option (ScopeTag × List Statement)
  | .block body location => some (.block body location, body)
  | .test _ body location => some (.test body location, body)
  | _ => none

/-- The names a statement may bind in the scope it stands in, each with whether that
is for good. -/
def binds : Statement → List (String × Bool)
  | .ifElse _ thenBranch none _ => thenBranch.binds
  | .ifElse _ thenBranch (some elseBranch) _ => thenBranch.binds ++ elseBranch.binds
  | .whileLoop _ body _ | .doWhile body _ _ | .repeatLoop _ body _ => body.binds
  | .varDecl name _ isFinal _ => [(name, isFinal)]
  | .function decl => [(decl.name, decl.isFinal)]
  | .classDecl decl => [(decl.name, decl.isFinal)]
  | .moduleDecl name _ | .nativeFunction _ name _ _ => [(name, false)]
  | _ => []

/-- A declaration binds the name it declares and nothing else. -/
theorem binds_of_declares {statement : Statement} {name : String} {hoisted : Hoisted}
    (declared : statement.declares? = some (name, hoisted)) :
    statement.binds = [(name, hoisted.isFinal)] := by
  cases statement <;> simp_all [declares?, binds] <;> grind

/-- A statement chosen by a condition binds names of the whole condition. -/
theorem binds_subset_of_mem_branches {statement branch : Statement}
    (member : branch ∈ statement.branches) : branch.binds ⊆ statement.binds := by
  cases statement with
  | ifElse condition thenBranch elseBranch location =>
      cases elseBranch with
      | none =>
          obtain rfl : branch = thenBranch := by simpa [branches] using member
          simp [binds]
      | some elseBranch =>
          rcases (by simpa [branches] using member : branch = thenBranch ∨ branch = elseBranch)
            with rfl | rfl
          · simp [binds]
          · simp [binds]
  | _ => simp [branches] at member

/-- A loop may bind what its body binds, since the body stands in the scope of the loop. -/
theorem binds_of_loop {statement body : Statement} {condition : Expr}
    (looped : statement.loop? = some (condition, body)) : statement.binds = body.binds := by
  cases statement <;> simp_all [loop?, binds]

/-- A statement that chooses from branches declares nothing by itself. -/
theorem declares?_of_mem_branches {statement branch : Statement}
    (member : branch ∈ statement.branches) : statement.declares? = none := by
  cases statement <;> simp_all [branches, declares?]

/-- A loop declares nothing by itself. -/
theorem declares?_of_loop {statement : Statement} {loop : Expr × Statement}
    (looped : statement.loop? = some loop) : statement.declares? = none := by
  cases statement <;> simp_all [loop?, declares?]

/-- A statement that opens a scope declares nothing by itself. -/
theorem declares?_of_opens {statement : Statement} {inside : ScopeTag × List Statement}
    (opens : statement.opens? = some inside) : statement.declares? = none := by
  cases statement <;> simp_all [opens?, declares?]

end Statement

namespace ScopeTag

/-- The statements that run in a scope of their own. -/
def statements (program : Program) : ScopeTag → List Statement
  | .globals => program
  | .block listed _ | .test listed _ => listed
  | .body decl => decl.body
  | .superOf _ | .thisOf _ | .extensionThis _ _ => []

/-- The names a construct binds in its scope by itself. -/
def implicit : ScopeTag → List (String × Bool)
  | .body decl => decl.params.map fun param => (param.name, false)
  | .superOf _ => [("super", true)]
  | .thisOf _ | .extensionThis _ _ => [("this", true)]
  | .globals | .block _ _ | .test _ _ => []

/-- Every name that may ever be bound in the scope of a construct, each with whether
that is for good. -/
def binds (program : Program) (tag : ScopeTag) : List (String × Bool) :=
  tag.implicit ++ (tag.statements program).flatMap Statement.binds

/-- Whether a construct is a body that returns lead out of and other jumps do not. -/
def isBody : ScopeTag → Bool
  | .body _ | .test _ _ => true
  | _ => false

/-- A scope that holds a receiver or a superclass. -/
def isSealed : ScopeTag → Bool
  | .superOf _ | .thisOf _ | .extensionThis _ _ => true
  | .globals | .block _ _ | .test _ _ | .body _ => false

/-- A name that the branch of a condition or the body of a loop declares in the scope
of a construct, with whether that is for good. -/
def LooselyBinds (program : Program) (tag : ScopeTag) (entry : String × Bool) : Prop :=
  ∃ statement ∈ tag.statements program, statement.declares? = none ∧ entry ∈ statement.binds

/-- A name that the branch of a condition or the body of a loop declares in the scope
of a construct. -/
def Loose (program : Program) (tag : ScopeTag) (name : String) : Prop :=
  ∃ isFinal, tag.LooselyBinds program (name, isFinal)

end ScopeTag

/-- The class whose code stands inside scopes opened by these constructs, innermost first. Code
of an extension is code of no class. -/
def classAround : List ScopeTag → Option ClassDecl
  | [] => none
  | .thisOf decl :: _ => some decl
  | .extensionThis _ _ :: _ => none
  | .globals :: outer | .block _ _ :: outer | .test _ _ :: outer | .body _ :: outer
  | .superOf _ :: outer => classAround outer

/-- The kind of class whose code stands inside scopes opened by these constructs. An extension
adds to a class as if that built on none. -/
def contextAround : List ScopeTag → ClassContext
  | [] => .none
  | .thisOf decl :: _ => if decl.superclass.isSome then .derived else .root
  | .extensionThis _ _ :: _ => .root
  | .globals :: outer | .block _ _ :: outer | .test _ _ :: outer | .body _ :: outer
  | .superOf _ :: outer => contextAround outer

end Scriptlet
