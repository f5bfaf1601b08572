import Mathlib.Data.List.Perm.Basic
import Scriptlet.Grammar.Program
import Scriptlet.Proofs.Resolution.Walk

/-!
# What a program consists of

A program consists of expressions, of functions in the places where they are declared, and of what
else carries a number or parameters (`Element`). Each of these elements is fit by itself or is not
(`Element.Fit`); a use of an operator is also to be declared before it, and that is a matter of the
tokens in front of it.
-/

namespace Scriptlet

/-- Where a function is declared. -/
inductive Place where
  | statement | member | extension
  deriving DecidableEq

/-- Something that a program consists of. -/
inductive Element where
  | expr (expr : Expr)
  | function (place : Place) (decl : FunctionDecl)
  | nativeFunction (params : List Parameter)
  | superclass (reference : SuperclassRef)
  | extension (id : NodeId)

mutual

/-- An expression and those inside of it, in the order of the analysis. -/
def Expr.elements : Expr → List Element
  | .literal value location => [.expr (.literal value location)]
  | .var id name location => [.expr (.var id name location)]
  | .thisRef id location => [.expr (.thisRef id location)]
  | .superRef id method location => [.expr (.superRef id method location)]
  | .array items location => .expr (.array items location) :: Expr.elementsAll items
  | .assign id name value location => value.elements ++ [.expr (.assign id name value location)]
  | .binary op left right location =>
    .expr (.binary op left right location) :: (left.elements ++ right.elements)
  | .logical op left right location =>
    .expr (.logical op left right location) :: (left.elements ++ right.elements)
  | .bitwise op left right location =>
    .expr (.bitwise op left right location) :: (left.elements ++ right.elements)
  | .elvis value fallback location =>
    .expr (.elvis value fallback location) :: (value.elements ++ fallback.elements)
  | .unary op operand location => .expr (.unary op operand location) :: operand.elements
  | .grouping inner location => .expr (.grouping inner location) :: inner.elements
  | .get object name location => .expr (.get object name location) :: object.elements
  | .getIndex target index location =>
    .expr (.getIndex target index location) :: (target.elements ++ index.elements)
  | .prefixCall id name operand location =>
    .expr (.prefixCall id name operand location) :: operand.elements
  | .infixCall id name left right location =>
    .expr (.infixCall id name left right location) :: (left.elements ++ right.elements)
  | .ternary condition thenBranch elseBranch location =>
    .expr (.ternary condition thenBranch elseBranch location) ::
      (condition.elements ++ (thenBranch.elements ++ elseBranch.elements))
  | .call callee arguments location =>
    .expr (.call callee arguments location) :: (callee.elements ++ Expr.elementsAll arguments)
  | .set object name value location =>
    .expr (.set object name value location) :: (value.elements ++ object.elements)
  | .setIndex target index value location =>
    .expr (.setIndex target index value location) ::
      (target.elements ++ (index.elements ++ value.elements))

/-- Some expressions and those inside of them. -/
def Expr.elementsAll : List Expr → List Element
  | [] => []
  | first :: rest => first.elements ++ Expr.elementsAll rest

end

/-- The elements of an expression that may be left out. -/
def initialElements : Option Expr → List Element
  | some initial => initial.elements
  | none => []

mutual

/-- The elements of a statement, in the order of the analysis. -/
def Statement.elements : Statement → List Element
  | .expression expr _ | .print expr _ => expr.elements
  | .varDecl _ initial _ _ | .returning initial _ => initialElements initial
  | .block body _ | .test _ body _ => Statement.elementsAll body
  | .ifElse condition thenBranch none _ => condition.elements ++ thenBranch.elements
  | .ifElse condition thenBranch (some elseBranch) _ =>
    condition.elements ++ (thenBranch.elements ++ elseBranch.elements)
  | .whileLoop condition body _ | .doWhile body condition _ | .repeatLoop condition body _ =>
    condition.elements ++ body.elements
  | .function decl => .function .statement decl :: decl.elements
  | .classDecl decl => decl.elements
  | .breaking _ | .continuing _ | .moduleDecl _ _ => []
  | .nativeFunction _ _ params _ => [.nativeFunction params]
  | .extension id _ decl _ => .extension id :: .function .extension decl :: decl.elements

/-- The elements of some statements. -/
def Statement.elementsAll : List Statement → List Element
  | [] => []
  | first :: rest => first.elements ++ Statement.elementsAll rest

/-- The elements of the body of a function. -/
def FunctionDecl.elements : FunctionDecl → List Element
  | ⟨_, _, _, body, _, _⟩ => Statement.elementsAll body

/-- The methods of a class with the elements of their bodies. -/
def FunctionDecl.elementsAll : List FunctionDecl → List Element
  | [] => []
  | first :: rest => .function .member first :: (first.elements ++ FunctionDecl.elementsAll rest)

/-- The elements of a class: its superclass, those of its fields, its methods. -/
def ClassDecl.elements : ClassDecl → List Element
  | ⟨_, superclass, fields, methods, _, _⟩ =>
    superclass.toList.map .superclass ++
      (fields.flatMap (initialElements ·.initial) ++ FunctionDecl.elementsAll methods)

end

/-- The number of a node that mentions a name. -/
def Expr.id? : Expr → Option NodeId
  | .var id _ _ | .assign id _ _ _ | .prefixCall id _ _ _ | .infixCall id _ _ _ _ | .thisRef id _
  | .superRef id _ _ => some id
  | _ => none

namespace Element

/-- The number an element carries. -/
def id? : Element → Option NodeId
  | .expr one => one.id?
  | .superclass reference => some reference.id
  | .extension id => some id
  | .function _ _ | .nativeFunction _ => none

/-- Which operator an element uses, and where. -/
def use? : Element → Option (FunctionKind × String × Location)
  | .expr (.prefixCall _ name _ location) => some (.prefixOperator, name, location)
  | .expr (.infixCall _ name _ _ location) => some (.infixOperator, name, location)
  | _ => none

end Element

/-- Whether a function of this kind is declared in such a place. -/
def Place.Takes : Place → FunctionKind → Prop
  | .statement, kind => kind = .function ∨ kind = .prefixOperator ∨ kind = .infixOperator
  | .member, kind => kind = .method ∨ kind = .constructor
  | .extension, kind => kind = .method

open Grammar (argumentLimit operatorArity?)

/-- An element keeps to the limits of arguments and parameters, and a function is of a kind for its
place and has as many parameters as an operator of its kind. -/
def Element.Fit : Element → Prop
  | .expr (.call _ arguments _) => arguments.length ≤ argumentLimit
  | .function place decl =>
    decl.params.length ≤ argumentLimit ∧ place.Takes decl.kind ∧
      ∀ arity ∈ operatorArity? decl.kind, decl.params.length = arity
  | .nativeFunction params => params.length ≤ argumentLimit
  | _ => True

/-! ### Numbers -/

section Numbers

open List (filterMap_cons filterMap_append)

mutual

private theorem Expr.ids_elements : ∀ expr : Expr, expr.elements.filterMap Element.id? = expr.nodes
  | .literal _ _ | .var _ _ _ | .thisRef _ _ | .superRef _ _ _ => rfl
  | .array items _ => Expr.ids_elementsAll items
  | .assign _ _ value _ => by
    rw [elements, nodes, filterMap_append, value.ids_elements]
    rfl
  | .binary _ left right _ | .logical _ left right _ | .bitwise _ left right _
  | .elvis left right _ | .getIndex left right _ | .infixCall _ _ left right _
  | .set right _ left _ => by
    simp [elements, nodes, filterMap_cons, left.ids_elements, right.ids_elements, Element.id?, id?]
  | .unary _ operand _ | .grouping operand _ | .get operand _ _ | .prefixCall _ _ operand _ => by
    simp [elements, nodes, filterMap_cons, operand.ids_elements, Element.id?, id?]
  | .ternary first second third _ | .setIndex first second third _ => by
    simp [elements, nodes, filterMap_cons, first.ids_elements, second.ids_elements,
      third.ids_elements, Element.id?, id?]
  | .call callee arguments _ => by
    simp [elements, nodes, filterMap_cons, callee.ids_elements, Expr.ids_elementsAll arguments,
      Element.id?, id?]

private theorem Expr.ids_elementsAll : ∀ items : List Expr,
    (Expr.elementsAll items).filterMap Element.id? = Expr.nodesAll items
  | [] => rfl
  | first :: rest => by
    rw [elementsAll, nodesAll, filterMap_append, first.ids_elements, Expr.ids_elementsAll rest]

end

private theorem ids_initialElements (initial : Option Expr) :
    (initialElements initial).filterMap Element.id? = initialNodes initial := by
  cases initial with
  | none => rfl
  | some initial => exact initial.ids_elements

private theorem ids_fields (fields : List FieldDecl) :
    (fields.flatMap (initialElements ·.initial)).filterMap Element.id? =
      fields.flatMap (initialNodes ·.initial) := by
  rw [List.filterMap_flatMap]
  exact congrArg fields.flatMap (funext fun field => ids_initialElements field.initial)

private theorem ids_superclass (superclass : Option SuperclassRef) :
    (superclass.toList.map Element.superclass).filterMap Element.id? =
      superclass.toList.map (·.id) := by
  cases superclass <;> rfl

mutual

/-- The numbers in a statement are those of the nodes that the analysis visits. -/
theorem Statement.ids_elements : ∀ statement : Statement,
    statement.elements.filterMap Element.id? = statement.nodes
  | .expression expr _ | .print expr _ => expr.ids_elements
  | .varDecl _ initial _ _ | .returning initial _ => ids_initialElements initial
  | .block body _ | .test _ body _ => Statement.ids_elementsAll body
  | .ifElse condition thenBranch none _ => by
    rw [Statement.elements, Statement.nodes, filterMap_append, condition.ids_elements,
      thenBranch.ids_elements]
  | .ifElse condition thenBranch (some elseBranch) _ => by
    rw [Statement.elements, Statement.nodes, filterMap_append, filterMap_append,
      condition.ids_elements, thenBranch.ids_elements, elseBranch.ids_elements]
  | .whileLoop condition body _ | .doWhile body condition _ | .repeatLoop condition body _ => by
    rw [Statement.elements, Statement.nodes, filterMap_append, condition.ids_elements,
      body.ids_elements]
  | .function decl => decl.ids_elements
  | .classDecl decl => decl.ids_elements
  | .breaking _ | .continuing _ | .moduleDecl _ _ | .nativeFunction _ _ _ _ => rfl
  | .extension _ _ decl _ => congrArg _ decl.ids_elements

/-- The numbers of the elements of statements are those of their nodes. -/
theorem Statement.ids_elementsAll : ∀ statements : List Statement,
    (Statement.elementsAll statements).filterMap Element.id? = Statement.nodesAll statements
  | [] => rfl
  | first :: rest => by
    rw [Statement.elementsAll, Statement.nodesAll, filterMap_append, first.ids_elements,
      Statement.ids_elementsAll rest]

private theorem FunctionDecl.ids_elements : ∀ decl : FunctionDecl,
    decl.elements.filterMap Element.id? = decl.nodes
  | ⟨_, _, _, body, _, _⟩ => Statement.ids_elementsAll body

private theorem FunctionDecl.ids_elementsAll : ∀ decls : List FunctionDecl,
    (FunctionDecl.elementsAll decls).filterMap Element.id? = FunctionDecl.nodesAll decls
  | [] => rfl
  | first :: rest => by
    rw [FunctionDecl.elementsAll, FunctionDecl.nodesAll, filterMap_cons]
    dsimp only [Element.id?]
    rw [filterMap_append, first.ids_elements, FunctionDecl.ids_elementsAll rest]

private theorem ClassDecl.ids_elements : ∀ decl : ClassDecl,
    decl.elements.filterMap Element.id? = decl.nodes
  | ⟨_, superclass, fields, methods, _, _⟩ => by
    rw [ClassDecl.elements, ClassDecl.nodes, filterMap_append, filterMap_append, ids_superclass,
      ids_fields, FunctionDecl.ids_elementsAll methods]

end

end Numbers

end Scriptlet
