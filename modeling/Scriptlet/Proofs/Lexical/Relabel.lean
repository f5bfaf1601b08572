import Scriptlet.Tree.Statement

/-!
# Trees with other numbers and places

The numbers and the places of the nodes of a tree can be replaced without touching what it says
(`Statement.relabel`). Trees are alike if they differ in nothing else (`Program.bare`).
-/

namespace Scriptlet

section Relabel

variable (onId : NodeId → NodeId) (onPlace : Location → Location)

mutual

/-- An expression with other numbers and places. -/
def Expr.relabel : Expr → Expr
  | .literal value place => .literal value (onPlace place)
  | .array elements place => .array (Expr.relabelAll elements) (onPlace place)
  | .var id name place => .var (onId id) name (onPlace place)
  | .assign id name value place => .assign (onId id) name value.relabel (onPlace place)
  | .binary op left right place => .binary op left.relabel right.relabel (onPlace place)
  | .logical op left right place => .logical op left.relabel right.relabel (onPlace place)
  | .bitwise op left right place => .bitwise op left.relabel right.relabel (onPlace place)
  | .unary op operand place => .unary op operand.relabel (onPlace place)
  | .prefixCall id name operand place => .prefixCall (onId id) name operand.relabel (onPlace place)
  | .infixCall id name left right place =>
    .infixCall (onId id) name left.relabel right.relabel (onPlace place)
  | .ternary condition thenBranch elseBranch place =>
    .ternary condition.relabel thenBranch.relabel elseBranch.relabel (onPlace place)
  | .elvis value fallback place => .elvis value.relabel fallback.relabel (onPlace place)
  | .call callee arguments place => .call callee.relabel (Expr.relabelAll arguments) (onPlace place)
  | .get object name place => .get object.relabel name (onPlace place)
  | .set object name value place => .set object.relabel name value.relabel (onPlace place)
  | .getIndex object index place => .getIndex object.relabel index.relabel (onPlace place)
  | .setIndex object index value place =>
    .setIndex object.relabel index.relabel value.relabel (onPlace place)
  | .grouping inner place => .grouping inner.relabel (onPlace place)
  | .thisRef id place => .thisRef (onId id) (onPlace place)
  | .superRef id method place => .superRef (onId id) method (onPlace place)

/-- Expressions with other numbers and places. -/
def Expr.relabelAll : List Expr → List Expr
  | [] => []
  | first :: rest => first.relabel :: Expr.relabelAll rest

end

/-- A parameter at another place. -/
def Parameter.relabel (param : Parameter) : Parameter :=
  { param with location := onPlace param.location }

/-- A field with other numbers and places. -/
def FieldDecl.relabel (decl : FieldDecl) : FieldDecl :=
  { decl with
    initial := decl.initial.map (Expr.relabel onId onPlace)
    location := onPlace decl.location }

/-- A superclass with another number and place. -/
def SuperclassRef.relabel (superclass : SuperclassRef) : SuperclassRef :=
  { superclass with id := onId superclass.id, location := onPlace superclass.location }

mutual

/-- A statement with other numbers and places. -/
def Statement.relabel : Statement → Statement
  | .expression expr place => .expression (expr.relabel onId onPlace) (onPlace place)
  | .varDecl name initial isFinal place =>
    .varDecl name (initial.map (Expr.relabel onId onPlace)) isFinal (onPlace place)
  | .block body place => .block (Statement.relabelAll body) (onPlace place)
  | .ifElse condition thenBranch none place =>
    .ifElse (condition.relabel onId onPlace) thenBranch.relabel none (onPlace place)
  | .ifElse condition thenBranch (some elseBranch) place =>
    .ifElse (condition.relabel onId onPlace) thenBranch.relabel (some elseBranch.relabel)
      (onPlace place)
  | .whileLoop condition body place =>
    .whileLoop (condition.relabel onId onPlace) body.relabel (onPlace place)
  | .doWhile body condition place =>
    .doWhile body.relabel (condition.relabel onId onPlace) (onPlace place)
  | .repeatLoop count body place =>
    .repeatLoop (count.relabel onId onPlace) body.relabel (onPlace place)
  | .function decl => .function decl.relabel
  | .classDecl decl => .classDecl decl.relabel
  | .returning value place => .returning (value.map (Expr.relabel onId onPlace)) (onPlace place)
  | .breaking place => .breaking (onPlace place)
  | .continuing place => .continuing (onPlace place)
  | .print expr place => .print (expr.relabel onId onPlace) (onPlace place)
  | .test name body place => .test name (Statement.relabelAll body) (onPlace place)
  | .moduleDecl name place => .moduleDecl name (onPlace place)
  | .nativeFunction moduleName name params place =>
    .nativeFunction moduleName name (params.map (Parameter.relabel onPlace)) (onPlace place)
  | .extension id className function place =>
    .extension (onId id) className function.relabel (onPlace place)

/-- A function with other numbers and places. -/
def FunctionDecl.relabel : FunctionDecl → FunctionDecl
  | ⟨name, kind, params, body, isFinal, place⟩ =>
    ⟨name, kind, params.map (Parameter.relabel onPlace), Statement.relabelAll body, isFinal,
      onPlace place⟩

/-- A class with other numbers and places. -/
def ClassDecl.relabel : ClassDecl → ClassDecl
  | ⟨name, superclass, fields, methods, isFinal, place⟩ =>
    ⟨name, superclass.map (SuperclassRef.relabel onId onPlace),
      fields.map (FieldDecl.relabel onId onPlace), FunctionDecl.relabelAll methods, isFinal,
      onPlace place⟩

/-- Statements with other numbers and places. -/
def Statement.relabelAll : List Statement → List Statement
  | [] => []
  | first :: rest => first.relabel :: Statement.relabelAll rest

/-- Functions with other numbers and places. -/
def FunctionDecl.relabelAll : List FunctionDecl → List FunctionDecl
  | [] => []
  | first :: rest => first.relabel :: FunctionDecl.relabelAll rest

end

end Relabel

section Composition

variable (onId thenId : NodeId → NodeId) (onPlace thenPlace : Location → Location)

mutual

/-- Relabelling twice is relabelling once. -/
theorem Expr.relabel_relabel (expr : Expr) :
    (expr.relabel onId onPlace).relabel thenId thenPlace =
      expr.relabel (thenId ∘ onId) (thenPlace ∘ onPlace) := by
  cases expr with
  | literal | var | thisRef | superRef => rfl
  | array elements => simp [Expr.relabel, Expr.relabelAll_relabelAll elements]
  | call callee arguments =>
      simp [Expr.relabel, Expr.relabel_relabel callee, Expr.relabelAll_relabelAll arguments]
  | assign _ _ value | unary _ value | prefixCall _ _ value | get value | grouping value =>
      simp [Expr.relabel, Expr.relabel_relabel value]
  | binary _ left right | logical _ left right | bitwise _ left right | elvis left right
  | infixCall _ _ left right | getIndex left right | set left _ right =>
      simp [Expr.relabel, Expr.relabel_relabel left, Expr.relabel_relabel right]
  | ternary first second third | setIndex first second third =>
      simp [Expr.relabel, Expr.relabel_relabel first, Expr.relabel_relabel second,
        Expr.relabel_relabel third]

private theorem Expr.relabelAll_relabelAll (items : List Expr) :
    Expr.relabelAll thenId thenPlace (Expr.relabelAll onId onPlace items) =
      Expr.relabelAll (thenId ∘ onId) (thenPlace ∘ onPlace) items := by
  cases items with
  | nil => rfl
  | cons first rest =>
      simp [Expr.relabelAll, Expr.relabel_relabel first, Expr.relabelAll_relabelAll rest]

end

/-- Relabelling the parts of a list or of an option twice is relabelling them once. -/
theorem Parameter.relabel_comp :
    Parameter.relabel thenPlace ∘ Parameter.relabel onPlace =
      Parameter.relabel (thenPlace ∘ onPlace) := rfl

private theorem Expr.relabel_comp :
    Expr.relabel thenId thenPlace ∘ Expr.relabel onId onPlace =
      Expr.relabel (thenId ∘ onId) (thenPlace ∘ onPlace) :=
  funext (Expr.relabel_relabel onId thenId onPlace thenPlace)

private theorem FieldDecl.relabel_comp :
    FieldDecl.relabel thenId thenPlace ∘ FieldDecl.relabel onId onPlace =
      FieldDecl.relabel (thenId ∘ onId) (thenPlace ∘ onPlace) := by
  funext decl
  simp [FieldDecl.relabel, Expr.relabel_comp]

private theorem SuperclassRef.relabel_comp :
    SuperclassRef.relabel thenId thenPlace ∘ SuperclassRef.relabel onId onPlace =
      SuperclassRef.relabel (thenId ∘ onId) (thenPlace ∘ onPlace) := rfl

mutual

private theorem Statement.relabel_relabel (statement : Statement) :
    (statement.relabel onId onPlace).relabel thenId thenPlace =
      statement.relabel (thenId ∘ onId) (thenPlace ∘ onPlace) := by
  cases statement with
  | breaking | continuing | moduleDecl => rfl
  | expression expr | print expr => simp [Statement.relabel, Expr.relabel_relabel]
  | varDecl | returning => simp [Statement.relabel, Expr.relabel_comp]
  | nativeFunction => simp [Statement.relabel, Parameter.relabel_comp]
  | block body | test _ body =>
      simp [Statement.relabel, Statement.relabelAll_relabelAll body]
  | whileLoop _ body | doWhile body | repeatLoop _ body =>
      simp [Statement.relabel, Expr.relabel_relabel, Statement.relabel_relabel body]
  | ifElse _ thenBranch elseBranch =>
      cases elseBranch with
      | none => simp [Statement.relabel, Expr.relabel_relabel, Statement.relabel_relabel thenBranch]
      | some elseBranch =>
          simp [Statement.relabel, Expr.relabel_relabel, Statement.relabel_relabel thenBranch,
            Statement.relabel_relabel elseBranch]
  | function decl | extension _ _ decl =>
      simp [Statement.relabel, FunctionDecl.relabel_relabel decl]
  | classDecl decl => simp [Statement.relabel, ClassDecl.relabel_relabel decl]

private theorem FunctionDecl.relabel_relabel (decl : FunctionDecl) :
    (decl.relabel onId onPlace).relabel thenId thenPlace =
      decl.relabel (thenId ∘ onId) (thenPlace ∘ onPlace) := by
  obtain ⟨name, kind, params, body, isFinal, place⟩ := decl
  simp [FunctionDecl.relabel, Parameter.relabel_comp, Statement.relabelAll_relabelAll body]

private theorem ClassDecl.relabel_relabel (decl : ClassDecl) :
    (decl.relabel onId onPlace).relabel thenId thenPlace =
      decl.relabel (thenId ∘ onId) (thenPlace ∘ onPlace) := by
  obtain ⟨name, superclass, fields, methods, isFinal, place⟩ := decl
  simp [ClassDecl.relabel, SuperclassRef.relabel_comp, FieldDecl.relabel_comp,
    FunctionDecl.relabelAll_relabelAll methods]

/-- Replacing numbers and places twice replaces them by what comes out in the end. -/
theorem Statement.relabelAll_relabelAll (statements : List Statement) :
    Statement.relabelAll thenId thenPlace (Statement.relabelAll onId onPlace statements) =
      Statement.relabelAll (thenId ∘ onId) (thenPlace ∘ onPlace) statements := by
  cases statements with
  | nil => rfl
  | cons first rest =>
      simp [Statement.relabelAll, Statement.relabel_relabel first,
        Statement.relabelAll_relabelAll rest]

private theorem FunctionDecl.relabelAll_relabelAll (decls : List FunctionDecl) :
    FunctionDecl.relabelAll thenId thenPlace (FunctionDecl.relabelAll onId onPlace decls) =
      FunctionDecl.relabelAll (thenId ∘ onId) (thenPlace ∘ onPlace) decls := by
  cases decls with
  | nil => rfl
  | cons first rest =>
      simp [FunctionDecl.relabelAll, FunctionDecl.relabel_relabel first,
        FunctionDecl.relabelAll_relabelAll rest]

end

end Composition

/-- An expression without its numbers and places. -/
abbrev Expr.bare (expr : Expr) : Expr :=
  expr.relabel (fun _ => 0) (fun _ => .nowhere)

/-- Expressions without their numbers and places. -/
abbrev Expr.bareAll (items : List Expr) : List Expr :=
  Expr.relabelAll (fun _ => 0) (fun _ => .nowhere) items

/-- A statement without its numbers and places. -/
abbrev Statement.bare (statement : Statement) : Statement :=
  statement.relabel (fun _ => 0) (fun _ => .nowhere)

/-- Functions without their numbers and places. -/
abbrev FunctionDecl.bareAll (decls : List FunctionDecl) : List FunctionDecl :=
  FunctionDecl.relabelAll (fun _ => 0) (fun _ => .nowhere) decls

/-- Fields without their numbers and places. -/
abbrev FieldDecl.bareAll (decls : List FieldDecl) : List FieldDecl :=
  decls.map (FieldDecl.relabel (fun _ => 0) (fun _ => .nowhere))

/-- A program without its numbers and places. -/
abbrev Program.bare (program : Program) : Program :=
  Statement.relabelAll (fun _ => 0) (fun _ => .nowhere) program

/-- A program without the numbers of its nodes. -/
abbrev Program.unnumbered (program : Program) : Program :=
  Statement.relabelAll (fun _ => 0) id program

end Scriptlet
