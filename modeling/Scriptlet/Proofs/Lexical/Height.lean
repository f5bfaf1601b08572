import Scriptlet.Proofs.Run.Regime

/-!
# How deep code nests

The height of code counts how deep it nests (`Code.height`), with the bodies and the initial values
of all it declares. Code that runs inside of other code is less high (`Code.height_lt_of_holds`).
Code is quiet if the initial values of the fields it declares call nothing (`Code.isQuiet`).
-/

namespace Scriptlet

mutual

/-- How deep an expression nests. -/
def Expr.height : Expr → Nat
  | .array elements _ => heightOf elements + 1
  | .assign _ _ operand _ | .unary _ operand _ | .prefixCall _ _ operand _ | .get operand _ _
  | .grouping operand _ => operand.height + 1
  | .binary _ left right _ | .logical _ left right _ | .bitwise _ left right _
  | .infixCall _ _ left right _ | .elvis left right _ | .set left _ right _
  | .getIndex left right _ => max left.height right.height + 1
  | .ternary first second third _ | .setIndex first second third _ =>
    max first.height (max second.height third.height) + 1
  | .call callee arguments _ => max callee.height (heightOf arguments) + 1
  | .literal _ _ | .var _ _ _ | .thisRef _ _ | .superRef _ _ _ => 0

/-- How deep the highest of some expressions nests. -/
def Expr.heightOf : List Expr → Nat
  | [] => 0
  | expr :: rest => max expr.height (heightOf rest)

end

mutual

/-- Whether there is a call in an expression. -/
def Expr.calls : Expr → Bool
  | .array elements _ => callsIn elements
  | .assign _ _ operand _ | .unary _ operand _ | .get operand _ _ | .grouping operand _ =>
    operand.calls
  | .binary _ left right _ | .logical _ left right _ | .bitwise _ left right _
  | .elvis left right _ | .set left _ right _ | .getIndex left right _ => left.calls || right.calls
  | .ternary first second third _ | .setIndex first second third _ =>
    first.calls || second.calls || third.calls
  | .prefixCall _ _ _ _ | .infixCall _ _ _ _ _ | .call _ _ _ => true
  | .literal _ _ | .var _ _ _ | .thisRef _ _ | .superRef _ _ _ => false

/-- Whether there is a call in one of some expressions. -/
def Expr.callsIn : List Expr → Bool
  | [] => false
  | expr :: rest => expr.calls || callsIn rest

end

/-- How deep the initial values of fields nest. -/
def FieldDecl.heightOf (fields : List FieldDecl) : Nat :=
  Expr.heightOf (fields.filterMap (·.initial))

mutual

/-- How deep a statement nests. -/
def Statement.height : Statement → Nat
  | .expression expr _ | .print expr _ => expr.height + 1
  | .varDecl _ value _ _ | .returning value _ => Expr.heightOf value.toList + 1
  | .block body _ | .test _ body _ => Statement.heightOf body + 1
  | .ifElse condition thenBranch none _ => max condition.height thenBranch.height + 1
  | .ifElse condition thenBranch (some elseBranch) _ =>
    max condition.height (max thenBranch.height elseBranch.height) + 1
  | .whileLoop condition body _ | .doWhile body condition _ | .repeatLoop condition body _ =>
    max condition.height body.height + 1
  | .function decl | .extension _ _ decl _ => decl.height + 1
  | .classDecl decl => decl.height + 1
  | .breaking _ | .continuing _ | .moduleDecl _ _ | .nativeFunction _ _ _ _ => 0

/-- How deep the body of a function nests. -/
def FunctionDecl.height : FunctionDecl → Nat
  | ⟨_, _, _, body, _, _⟩ => Statement.heightOf body

/-- How deep the code of a class nests. -/
def ClassDecl.height : ClassDecl → Nat
  | ⟨_, _, fields, methods, _, _⟩ =>
    max (FieldDecl.heightOf fields) (FunctionDecl.heightOf methods)

/-- How deep statements in order nest. -/
def Statement.heightOf : List Statement → Nat
  | [] => 0
  | statement :: rest => max statement.height (Statement.heightOf rest) + 1

/-- How deep the highest of some functions nests. -/
def FunctionDecl.heightOf : List FunctionDecl → Nat
  | [] => 0
  | decl :: rest => max decl.height (FunctionDecl.heightOf rest)

end

mutual

/-- Whether the initial values of all fields a statement declares call nothing. -/
def Statement.isQuiet : Statement → Bool
  | .block body _ | .test _ body _ => Statement.areQuiet body
  | .ifElse _ thenBranch none _ => thenBranch.isQuiet
  | .ifElse _ thenBranch (some elseBranch) _ => thenBranch.isQuiet && elseBranch.isQuiet
  | .whileLoop _ body _ | .doWhile body _ _ | .repeatLoop _ body _ => body.isQuiet
  | .function decl | .extension _ _ decl _ => decl.isQuiet
  | .classDecl decl => decl.isQuiet
  | _ => true

/-- Whether the body of a function is quiet. -/
def FunctionDecl.isQuiet : FunctionDecl → Bool
  | ⟨_, _, _, body, _, _⟩ => Statement.areQuiet body

/-- Whether the initial values of a class call nothing, and its methods are quiet. -/
def ClassDecl.isQuiet : ClassDecl → Bool
  | ⟨_, _, fields, methods, _, _⟩ =>
    !Expr.callsIn (fields.filterMap (·.initial)) && FunctionDecl.areQuiet methods

/-- Whether statements are quiet. -/
def Statement.areQuiet : List Statement → Bool
  | [] => true
  | statement :: rest => statement.isQuiet && Statement.areQuiet rest

/-- Whether functions are quiet. -/
def FunctionDecl.areQuiet : List FunctionDecl → Bool
  | [] => true
  | decl :: rest => decl.isQuiet && FunctionDecl.areQuiet rest

end

namespace Expr

/-- There is a call in a call. -/
theorem calls_of_isCall {expr : Expr} (call : expr.isCall = true) : expr.calls = true := by
  cases expr with
  | call | prefixCall | infixCall => rfl
  | _ => cases call

/-- There is a call in expressions of which one has a call in it. -/
theorem callsIn_of_mem {expr : Expr} {exprs : List Expr} (member : expr ∈ exprs)
    (calls : expr.calls = true) : callsIn exprs = true := by
  induction exprs with
  | nil => cases member
  | cons first rest ih =>
    rw [callsIn, Bool.or_eq_true]
    rcases List.mem_cons.mp member with rfl | later
    · exact .inl calls
    · exact .inr (ih later)

/-- A call in a part of an expression is a call in the expression. -/
theorem calls_of_mem_parts {expr part : Expr} (member : part ∈ expr.parts)
    (calls : part.calls = true) : expr.calls = true := by
  cases expr with
  | array elements location => exact callsIn_of_mem member calls
  | call | prefixCall | infixCall => rfl
  | literal | var | thisRef | superRef => cases member
  | _ =>
    simp only [parts, List.mem_cons, List.not_mem_nil, or_false] at member
    rw [Expr.calls]
    grind

/-- An expression is at most as high as the highest of some it is among. -/
theorem height_le_heightOf {expr : Expr} {exprs : List Expr} (member : expr ∈ exprs) :
    expr.height ≤ heightOf exprs := by
  induction exprs with
  | nil => cases member
  | cons first rest ih =>
    rw [heightOf]
    rcases List.mem_cons.mp member with rfl | later
    · exact Nat.le_max_left _ _
    · exact Nat.le_trans (ih later) (Nat.le_max_right _ _)

/-- The parts of an expression are less high. -/
theorem height_lt_of_mem_parts {expr part : Expr} (member : part ∈ expr.parts) :
    part.height < expr.height := by
  cases expr with
  | array elements location =>
    exact Nat.lt_succ_of_le (height_le_heightOf member)
  | call callee arguments location =>
    rw [height]
    rcases List.mem_cons.mp member with rfl | later
    · omega
    · have := height_le_heightOf later
      omega
  | literal | var | thisRef | superRef => cases member
  | _ =>
    simp only [parts, List.mem_cons, List.not_mem_nil, or_false] at member
    rw [height]
    grind

end Expr

namespace Statement

/-- A statement is less high than statements in order that it is among. -/
theorem height_lt_heightOf {statement : Statement} {statements : List Statement}
    (member : statement ∈ statements) : statement.height < heightOf statements := by
  induction statements with
  | nil => cases member
  | cons first rest ih =>
    rw [heightOf]
    rcases List.mem_cons.mp member with rfl | later
    · omega
    · have := ih later
      omega

/-- Statements in a scope of their own are less high than the statement that opens it. -/
theorem heightOf_lt_of_opens {statement : Statement} {tag : ScopeTag} {inside : List Statement}
    (opens : statement.opens? = some (tag, inside)) : heightOf inside < statement.height := by
  cases statement with
  | block | test =>
    cases opens
    exact Nat.lt_succ_self _
  | _ => cases opens

end Statement

/-- Each of some quiet statements is quiet. -/
theorem Statement.isQuiet_of_mem {statement : Statement} {statements : List Statement}
    (quiet : areQuiet statements = true) (member : statement ∈ statements) :
    statement.isQuiet = true := by
  induction statements with
  | nil => cases member
  | cons first rest ih =>
    rw [areQuiet, Bool.and_eq_true] at quiet
    rcases List.mem_cons.mp member with rfl | later
    · exact quiet.1
    · exact ih quiet.2 later

/-- The statements in the scope that a quiet statement opens are quiet. -/
theorem Statement.areQuiet_of_opens {statement : Statement} {tag : ScopeTag}
    {inside : List Statement} (quiet : statement.isQuiet = true)
    (opens : statement.opens? = some (tag, inside)) : areQuiet inside = true := by
  cases statement with
  | block | test =>
    cases opens
    exact quiet
  | _ => cases opens

/-- A function is quiet if its body is. -/
theorem FunctionDecl.isQuiet_eq (decl : FunctionDecl) :
    decl.isQuiet = Statement.areQuiet decl.body := by
  cases decl
  rfl

/-- A class is quiet if its initial values call nothing and its methods are quiet. -/
theorem ClassDecl.isQuiet_eq (decl : ClassDecl) :
    decl.isQuiet =
      (!Expr.callsIn (decl.fields.filterMap (·.initial)) && FunctionDecl.areQuiet
        decl.methods) := by
  cases decl
  rfl

/-- Each of some quiet functions is quiet. -/
theorem FunctionDecl.isQuiet_of_mem {decl : FunctionDecl} {decls : List FunctionDecl}
    (quiet : areQuiet decls = true) (member : decl ∈ decls) : decl.isQuiet = true := by
  induction decls with
  | nil => cases member
  | cons first rest ih =>
    rw [areQuiet, Bool.and_eq_true] at quiet
    rcases List.mem_cons.mp member with rfl | later
    · exact quiet.1
    · exact ih quiet.2 later

/-- A function is as high as its body. -/
theorem FunctionDecl.height_eq (decl : FunctionDecl) :
    decl.height = Statement.heightOf decl.body := by
  cases decl
  rfl

/-- A class is as high as the highest of its initial values and its methods. -/
theorem ClassDecl.height_eq (decl : ClassDecl) :
    decl.height = max (FieldDecl.heightOf decl.fields) (FunctionDecl.heightOf decl.methods) := by
  cases decl
  rfl

/-- A function is at most as high as the highest of some it is among. -/
theorem FunctionDecl.height_le_heightOf {decl : FunctionDecl} {decls : List FunctionDecl}
    (member : decl ∈ decls) : decl.height ≤ heightOf decls := by
  induction decls with
  | nil => cases member
  | cons first rest ih =>
    rw [heightOf]
    rcases List.mem_cons.mp member with rfl | later
    · exact Nat.le_max_left _ _
    · exact Nat.le_trans (ih later) (Nat.le_max_right _ _)

/-- How deep code nests. -/
def Code.height : Code → Nat
  | .expression expr => expr.height
  | .statement one => one.height
  | .statements listed => Statement.heightOf listed

/-- Code inside of other code is less high. -/
theorem Code.height_lt_of_holds {outer inner : Code} (holds : Code.Holds outer inner) :
    inner.height < outer.height := by
  cases holds with
  | part member => exact Expr.height_lt_of_mem_parts member
  | @value statement expr member =>
    cases statement with
    | returning value location =>
      cases value with
      | none => cases member
      | some result =>
        obtain rfl : expr = result := List.mem_singleton.mp member
        simp [Code.height, Statement.height, Expr.heightOf]
    | expression | print =>
      obtain rfl := List.mem_singleton.mp member
      exact Nat.lt_succ_self _
    | ifElse condition thenBranch elseBranch location =>
      obtain rfl : expr = condition := List.mem_singleton.mp member
      cases elseBranch <;> simp only [Code.height, Statement.height] <;> omega
    | _ => cases member
  | initial => simp [Code.height, Statement.height, Expr.heightOf]
  | @branch statement branch member =>
    cases statement with
    | ifElse condition thenBranch elseBranch location =>
      cases elseBranch with
      | none =>
        obtain rfl : branch = thenBranch := by simpa [Statement.branches] using member
        simp only [Code.height, Statement.height]
        omega
      | some elseBranch =>
        simp only [Code.height, Statement.height]
        rcases (by simpa [Statement.branches] using member :
          branch = thenBranch ∨ branch = elseBranch) with rfl | rfl <;> omega
    | _ => cases member
  | @condition statement body expr looped | @loopBody statement body expr looped =>
    cases statement with
    | whileLoop | doWhile | repeatLoop =>
      cases looped
      simp only [Code.height, Statement.height]
      omega
    | _ => cases looped
  | first | rest =>
    simp only [Code.height, Statement.heightOf]
    omega

/-- Whether there may be a call in code. -/
def Code.calls : Code → Bool
  | .expression expr => expr.calls
  | .statement _ | .statements _ => true

/-- A call in code is a call in the code around it. -/
theorem Code.calls_of_holds {outer inner : Code} (holds : Code.Holds outer inner)
    (calls : inner.calls = true) : outer.calls = true := by
  cases holds with
  | part member => exact Expr.calls_of_mem_parts member calls
  | _ => rfl

/-- Whether the initial values of all fields declared in code call nothing. -/
def Code.isQuiet : Code → Bool
  | .expression _ => true
  | .statement one => one.isQuiet
  | .statements listed => Statement.areQuiet listed

/-- Code inside of quiet code is quiet. -/
theorem Code.isQuiet_of_holds {outer inner : Code} (holds : Code.Holds outer inner)
    (quiet : outer.isQuiet = true) : inner.isQuiet = true := by
  cases holds with
  | part | value | initial | condition => rfl
  | @branch statement branch member =>
    cases statement with
    | ifElse condition thenBranch elseBranch location =>
      cases elseBranch with
      | none =>
        obtain rfl : branch = thenBranch := by simpa [Statement.branches] using member
        exact quiet
      | some elseBranch =>
        have both : thenBranch.isQuiet = true ∧ elseBranch.isQuiet = true :=
          Bool.and_eq_true_iff.mp quiet
        rcases (by simpa [Statement.branches] using member :
          branch = thenBranch ∨ branch = elseBranch) with rfl | rfl
        · exact both.1
        · exact both.2
    | _ => cases member
  | @loopBody statement body expr looped =>
    cases statement with
    | whileLoop | doWhile | repeatLoop =>
      cases looped
      exact quiet
    | _ => cases looped
  | first => exact (Bool.and_eq_true_iff.mp quiet).1
  | rest => exact (Bool.and_eq_true_iff.mp quiet).2

end Scriptlet
