import Scriptlet.Proofs.Grammar.Spelling

/-!
# Trees that can be written out

Not every tree has a text (`Statement.Shaped`). Operands have to bind tight enough for their place,
lists of arguments and parameters have to keep to the limit, and an operator name has to be declared
before it is used (`Expr.Named`), in the order of the text. What a declaration adds to the known
names stays known after the block or function it stands in (`Statement.operators`).
-/

namespace Scriptlet

open Grammar (Level argumentLimit operatorArity?)

/-- The names of operators that are declared so far. -/
structure Operators where
  prefixNames : List String
  infixNames : List String

namespace Operators

/-- No operator is declared. -/
def none : Operators := ⟨[], []⟩

/-- The known names behind the name of a declared function. -/
def declare (known : Operators) (kind : FunctionKind) (name : String) : Operators :=
  match kind with
  | .prefixOperator => { known with prefixNames := name :: known.prefixNames }
  | .infixOperator => { known with infixNames := name :: known.infixNames }
  | _ => known

end Operators

/-! ### Expressions -/

/-- Whether an expression is a name. -/
def Expr.isVar : Expr → Bool
  | .var .. => true
  | _ => false

mutual

/-- The operator names an expression uses are known, and the name of a known prefix operator
is no operand but only called or assigned to. An operand of a prefix operator does not begin with a
parenthesis, for that would make it an argument. -/
def Expr.Named (known : Operators) : Expr → Prop
  | .literal .. | .thisRef .. | .superRef .. => True
  | .var _ name _ => name ∉ known.prefixNames
  | .array elements _ => Expr.AreNamed known elements
  | .assign _ _ value _ => value.Named known
  | .unary _ operand _ => operand.Named known
  | .binary _ left right _ | .logical _ left right _ | .bitwise _ left right _ =>
    left.Named known ∧ right.Named known
  | .elvis value fallback _ => value.Named known ∧ fallback.Named known
  | .prefixCall _ name operand _ =>
    name ∈ known.prefixNames ∧ operand.Named known ∧
      ∀ word ∈ operand.flatten.head?, word.sign ≠ .mark .leftParen
  | .infixCall _ name left right _ =>
    name ∈ known.infixNames ∧ left.Named known ∧ right.Named known
  | .ternary condition thenBranch elseBranch _ =>
    condition.Named known ∧ thenBranch.Named known ∧ elseBranch.Named known
  | .call callee arguments _ =>
    (callee.isVar = true ∨ callee.Named known) ∧ Expr.AreNamed known arguments ∧
      arguments.length ≤ argumentLimit
  | .get object _ _ => object.Named known
  | .set object _ value _ => object.Named known ∧ value.Named known
  | .getIndex object index _ => object.Named known ∧ index.Named known
  | .setIndex object index value _ =>
    object.Named known ∧ index.Named known ∧ value.Named known
  | .grouping inner _ => inner.Named known

/-- So it is for every one of some expressions. -/
def Expr.AreNamed (known : Operators) : List Expr → Prop
  | [] => True
  | first :: rest => first.Named known ∧ Expr.AreNamed known rest

end

/-- An expression has a text where some operators are known. -/
structure Expr.Shaped (known : Operators) (expr : Expr) : Prop where
  laddered : expr.Laddered
  named : expr.Named known

/-! ### Statements -/

/-- A name where no node has its place. -/
abbrev Word.name (text : String) : Word := ⟨.name text, Option.none⟩

/-- A reserved word. -/
abbrev Word.word (keyword : Keyword) : Word := .mark (.word keyword)

/-- The word that makes a declaration final. -/
def finalWords (isFinal : Bool) : List Word :=
  if isFinal then [.word .finalWord] else []

/-- The words of parameters, with commas between them. -/
def Parameter.flattenList : List Parameter → List Word
  | [] => []
  | [last] => [.name last.name]
  | first :: rest => .name first.name :: .mark .comma :: Parameter.flattenList rest

/-- The words of an initial value. -/
def initialWords : Option Expr → List Word
  | some value => .mark .equal :: value.flatten
  | none => []

/-- The words of a field. What everyone may touch goes without saying. -/
def FieldDecl.flatten (decl : FieldDecl) : List Word :=
  (match decl.visibility with
    | .everyone => []
    | .ownClass => [.word .privateWord]) ++
  (finalWords decl.isFinal ++
    .word .varWord :: .name decl.name :: (initialWords decl.initial ++ [.mark .semicolon]))

/-- The words before the parameters of a function. -/
def functionWords (kind : FunctionKind) (isFinal : Bool) (name : String) : List Word :=
  match kind with
  | .function | .method => finalWords isFinal ++ [.word .funWord, .name name]
  | .prefixOperator => [.word .prefixWord, .word .funWord, .name name]
  | .infixOperator => [.word .infixWord, .word .funWord, .name name]
  | .constructor => [.word .constructorWord]

/-- The words that name a superclass. -/
def superclassWords : Option SuperclassRef → List Word
  | some superclass => [.word .extendsWord, .name superclass.name]
  | none => []

/-- The words of a value that is returned. -/
def returnedWords : Option Expr → List Word
  | some value => value.flatten
  | none => []

mutual

/-- The words of a statement. -/
def Statement.flatten : Statement → List Word
  | .expression expr _ => expr.flatten ++ [.mark .semicolon]
  | .varDecl name initial isFinal _ =>
    finalWords isFinal ++
      .word .varWord :: .name name :: (initialWords initial ++ [.mark .semicolon])
  | .block body _ => .mark .leftBrace :: (Statement.flattenList body ++ [.mark .rightBrace])
  | .ifElse condition thenBranch none _ =>
    .word .ifWord :: .mark .leftParen ::
      (condition.flatten ++ .mark .rightParen :: thenBranch.flatten)
  | .ifElse condition thenBranch (some elseBranch) _ =>
    .word .ifWord :: .mark .leftParen ::
      (condition.flatten ++ .mark .rightParen ::
        (thenBranch.flatten ++ .word .elseWord :: elseBranch.flatten))
  | .whileLoop condition body _ =>
    .word .whileWord :: .mark .leftParen :: (condition.flatten ++ .mark .rightParen :: body.flatten)
  | .doWhile body condition _ =>
    .word .doWord ::
      (body.flatten ++ .word .whileWord :: .mark .leftParen ::
        (condition.flatten ++ [.mark .rightParen, .mark .semicolon]))
  | .repeatLoop count body _ =>
    .word .repeatWord :: .mark .leftParen :: (count.flatten ++ .mark .rightParen :: body.flatten)
  | .function decl => functionWords decl.kind decl.isFinal decl.name ++ decl.flattenRest
  | .classDecl decl => decl.flatten
  | .returning value _ => .word .returnWord :: (returnedWords value ++ [.mark .semicolon])
  | .breaking _ => [.word .breakWord, .mark .semicolon]
  | .continuing _ => [.word .continueWord, .mark .semicolon]
  | .print expr _ => .word .printWord :: (expr.flatten ++ [.mark .semicolon])
  | .test name body _ =>
    .word .testWord :: .mark .leftParen :: ⟨.label name, none⟩ :: .mark .rightParen ::
      .mark .leftBrace :: (Statement.flattenList body ++ [.mark .rightBrace])
  | .moduleDecl name _ => [.word .moduleWord, .name name, .mark .semicolon]
  | .nativeFunction moduleName name params _ =>
    .word .nativeWord :: .word .funWord :: .name moduleName :: .mark .dot :: .name name ::
      .mark .leftParen :: (Parameter.flattenList params ++ [.mark .rightParen, .mark .semicolon])
  | .extension _ className function _ =>
    finalWords function.isFinal ++
      .word .funWord :: .name className :: .mark .dot :: .name function.name ::
        function.flattenRest

/-- The words of a function from its parameters on. -/
def FunctionDecl.flattenRest : FunctionDecl → List Word
  | ⟨_, _, params, body, _, _⟩ =>
    .mark .leftParen :: (Parameter.flattenList params ++ .mark .rightParen :: .mark .leftBrace ::
      (Statement.flattenList body ++ [.mark .rightBrace]))

/-- The words of a class, its fields before its methods. -/
def ClassDecl.flatten : ClassDecl → List Word
  | ⟨name, superclass, fields, methods, isFinal, _⟩ =>
    finalWords isFinal ++ .word .classWord :: .name name :: (superclassWords superclass ++
      .mark .leftBrace :: (fields.flatMap FieldDecl.flatten ++
        (FunctionDecl.flattenList methods ++ [.mark .rightBrace])))

/-- The words of statements in order. -/
def Statement.flattenList : List Statement → List Word
  | [] => []
  | first :: rest => first.flatten ++ Statement.flattenList rest

/-- The words of functions in order. -/
def FunctionDecl.flattenList : List FunctionDecl → List Word
  | [] => []
  | first :: rest =>
    functionWords first.kind first.isFinal first.name ++
      (first.flattenRest ++ FunctionDecl.flattenList rest)

end

/-- Whether a statement ends with a condition without an alternative, so that an alternative behind
it would be taken for one of that condition. -/
def Statement.isOpen : Statement → Bool
  | .ifElse _ _ none _ => true
  | .ifElse _ _ (some elseBranch) _ => elseBranch.isOpen
  | .whileLoop _ body _ | .repeatLoop _ body _ => body.isOpen
  | _ => false

mutual

/-- The operator names that are known behind a statement. -/
def Statement.operators : Statement → Operators → Operators
  | .block body _, known | .test _ body _, known => Statement.operatorsOf body known
  | .ifElse _ thenBranch none _, known => thenBranch.operators known
  | .ifElse _ thenBranch (some elseBranch) _, known =>
    elseBranch.operators (thenBranch.operators known)
  | .whileLoop _ body _, known | .doWhile body _ _, known | .repeatLoop _ body _, known =>
    body.operators known
  | .function decl, known => decl.operators (known.declare decl.kind decl.name)
  | .extension _ _ decl _, known => decl.operators known
  | .classDecl decl, known => decl.operators known
  | .expression .., known | .varDecl .., known | .returning .., known | .breaking _, known
  | .continuing _, known | .print .., known | .moduleDecl .., known | .nativeFunction .., known =>
    known

/-- The operator names that are known behind the body of a function. -/
def FunctionDecl.operators : FunctionDecl → Operators → Operators
  | ⟨_, _, _, body, _, _⟩, known => Statement.operatorsOf body known

/-- The operator names that are known behind the members of a class. -/
def ClassDecl.operators : ClassDecl → Operators → Operators
  | ⟨_, _, _, methods, _, _⟩, known => FunctionDecl.operatorsOf methods known

/-- The operator names that are known behind statements in order. -/
def Statement.operatorsOf : List Statement → Operators → Operators
  | [], known => known
  | first :: rest, known => Statement.operatorsOf rest (first.operators known)

/-- The operator names that are known behind the bodies of functions in order. -/
def FunctionDecl.operatorsOf : List FunctionDecl → Operators → Operators
  | [], known => known
  | first :: rest, known => FunctionDecl.operatorsOf rest (first.operators known)

end

/-- A function that is declared as a statement: an operator takes the operands it stands with and
is not final. -/
structure FunctionDecl.StandsAlone (decl : FunctionDecl) : Prop where
  notMethod : decl.kind ≠ .method
  notConstructor : decl.kind ≠ .constructor
  operator : ∀ arity ∈ operatorArity? decl.kind, decl.params.length = arity ∧ decl.isFinal = false

/-- A function that is declared in a class. -/
def FunctionDecl.IsMember (decl : FunctionDecl) : Prop :=
  decl.kind = .method ∨
    decl.kind = .constructor ∧ decl.name = constructorName ∧ decl.isFinal = false

mutual

/-- A statement has a text where some operators are known. -/
def Statement.Shaped : Statement → Operators → Prop
  | .expression expr _, known | .print expr _, known => expr.Shaped known
  | .varDecl _ value _ _, known | .returning value _, known =>
    ∀ expr ∈ value, Expr.Shaped known expr
  | .block body _, known | .test _ body _, known => Statement.AreShaped body known
  | .ifElse condition thenBranch none _, known =>
    condition.Shaped known ∧ thenBranch.Shaped known
  | .ifElse condition thenBranch (some elseBranch) _, known =>
    condition.Shaped known ∧ (thenBranch.isOpen = false ∧ thenBranch.Shaped known) ∧
      elseBranch.Shaped (thenBranch.operators known)
  | .whileLoop condition body _, known | .repeatLoop condition body _, known =>
    condition.Shaped known ∧ body.Shaped known
  | .doWhile body condition _, known =>
    body.Shaped known ∧ condition.Shaped (body.operators known)
  | .function decl, known =>
    decl.StandsAlone ∧ decl.Shaped (known.declare decl.kind decl.name)
  | .classDecl decl, known => decl.Shaped known
  | .nativeFunction _ _ params _, _ => params.length ≤ argumentLimit
  | .extension _ _ decl _, known => decl.kind = .method ∧ decl.Shaped known
  | .breaking _, _ | .continuing _, _ | .moduleDecl .., _ => True

/-- The parameters and the body of a function have a text. -/
def FunctionDecl.Shaped : FunctionDecl → Operators → Prop
  | ⟨_, _, params, body, _, _⟩, known =>
    params.length ≤ argumentLimit ∧ Statement.AreShaped body known

/-- The members of a class have a text. -/
def ClassDecl.Shaped : ClassDecl → Operators → Prop
  | ⟨_, _, fields, methods, _, _⟩, known =>
    (∀ field ∈ fields, ∀ expr ∈ field.initial, Expr.Shaped known expr) ∧
      FunctionDecl.AreShaped methods known

/-- Statements in order have a text. -/
def Statement.AreShaped : List Statement → Operators → Prop
  | [], _ => True
  | first :: rest, known =>
    first.Shaped known ∧ Statement.AreShaped rest (first.operators known)

/-- Members in order have a text. -/
def FunctionDecl.AreShaped : List FunctionDecl → Operators → Prop
  | [], _ => True
  | first :: rest, known =>
    first.IsMember ∧ first.Shaped known ∧ FunctionDecl.AreShaped rest (first.operators known)

end

end Scriptlet
