import Mathlib.Data.List.Forall2
import Scriptlet.Grammar.Statement

/-!
# How trees are written out

A tree is written out as one word for each reserved word, name, literal, operator and bracket, in
the order of the text and without brackets of its own (`Expr.flatten`). A word says what a token has
to tell a parser (`Sign`), and for an expression also where the token stands that gives a node its
place (`Word`).
-/

namespace Scriptlet

/-- What a token tells a parser. -/
inductive Sign where
  | mark (kind : TokenKind)
  | name (text : String)
  | member (text : String)
  | literal (value : Literal)
  | label (text : String)

/-- A sign, and where the token stands that shows it if a tree tells that. -/
structure Word where
  sign : Sign
  place : Option Location := none

/-! ### Words and tokens -/

/-- The kind of the token that writes a literal. -/
def Literal.kind : Literal → TokenKind
  | .nil => .word .nilWord
  | .bool true => .word .trueWord
  | .bool false => .word .falseWord
  | .number _ => .number
  | .string _ => .string
  | .char _ => .char

/-- Whether a token of this kind writes a literal. -/
def TokenKind.isLiteral : TokenKind → Bool
  | .number | .string | .char | .word .trueWord | .word .falseWord | .word .nilWord => true
  | _ => false

/-- The kind of the token that shows a sign. A member may be named by the reserved word for
constructors. -/
def Sign.kind : Sign → TokenKind
  | .mark kind => kind
  | .name _ => .identifier
  | .member text => if text = constructorName then .word .constructorWord else .identifier
  | .literal value => value.kind
  | .label _ => .string

/-- A token shows a sign: it tells a parser what the sign says. Of a literal only the value is
told, and of a member only the name. -/
def Token.Shows (token : Token) : Sign → Prop
  | .mark kind => token.kind = kind
  | .name text => token.kind = .identifier ∧ token.lexeme = text
  | .member text =>
    (token.kind = .identifier ∨ token.kind = .word .constructorWord) ∧ token.lexeme = text
  | .literal value => token.kind.isLiteral = true ∧ token.literal.getD .nil = value
  | .label text => token.kind = .string ∧ Grammar.testName token = text

/-- A token writes a word: it shows the sign, at the place of the word. -/
def Token.Writes (token : Token) (word : Word) : Prop :=
  token.Shows word.sign ∧ ∀ place ∈ word.place, token.location = place

/-- A token as a source text has it: a literal has a value of its own kind, and exactly the
reserved word for constructors is spelled like that. -/
structure Token.Faithful (token : Token) : Prop where
  literal : token.kind.isLiteral = true → (token.literal.getD .nil).kind = token.kind
  constructor : token.kind = .word .constructorWord → token.lexeme = constructorName
  identifier : token.kind = .identifier → token.lexeme ≠ constructorName

/-- A faithful token has the kind of the sign it shows. -/
theorem Token.Shows.kind_eq {token : Token} {sign : Sign} (shows_ : token.Shows sign)
    (faithful : token.Faithful) : token.kind = sign.kind := by
  cases sign with
  | mark kind => exact shows_
  | name text => exact shows_.1
  | label text => exact shows_.1
  | literal value =>
      obtain ⟨literal, rfl⟩ := shows_
      exact (faithful.literal literal).symm
  | member text =>
      obtain ⟨kind, rfl⟩ := shows_
      change token.kind = if token.lexeme = constructorName then _ else _
      rcases kind with name | word
      · rw [if_neg (faithful.identifier name), name]
      · rw [if_pos (faithful.constructor word), word]

/-- A token that writes a word and stands at its place. -/
def Word.token (word : Word) : Token where
  kind := word.sign.kind
  lexeme :=
    match word.sign with
    | .name text | .member text => text
    | _ => ""
  literal :=
    match word.sign with
    | .literal value => some value
    | .label text => some (.string text)
    | _ => none
  location := word.place.getD .nowhere

private theorem Literal.isLiteral_kind (value : Literal) : value.kind.isLiteral = true := by
  cases value with
  | bool value => cases value <;> rfl
  | _ => rfl

/-- Every word has a token that writes it. -/
theorem Word.token_writes (word : Word) : word.token.Writes word := by
  obtain ⟨sign, place⟩ := word
  constructor
  · cases sign with
    | mark kind => rfl
    | name text => exact ⟨rfl, rfl⟩
    | label text => exact ⟨rfl, rfl⟩
    | literal value => exact ⟨value.isLiteral_kind, rfl⟩
    | member text =>
        refine ⟨?_, rfl⟩
        change (if _ then _ else _) = _ ∨ (if _ then _ else _) = _
        split
        · exact .inr rfl
        · exact .inl rfl
  · rintro place rfl
    rfl

/-! ### Expressions -/

/-- A reserved word, an operator or a bracket. -/
abbrev Word.mark (kind : TokenKind) : Word := ⟨.mark kind, none⟩

/-- A reserved word, an operator or a bracket that gives a node its place. -/
abbrev Word.markAt (kind : TokenKind) (place : Location) : Word := ⟨.mark kind, some place⟩

/-- The token that joins two operands. -/
def BinaryOp.kind : BinaryOp → TokenKind
  | .add => .plus
  | .sub => .minus
  | .mul => .star
  | .div => .slash
  | .mod => .percent
  | .equal => .equalEqual
  | .notEqual => .bangEqual
  | .less => .less
  | .lessEqual => .lessEqual
  | .greater => .greater
  | .greaterEqual => .greaterEqual

/-- The token that joins two operands. -/
def LogicalOp.kind : LogicalOp → TokenKind
  | .and => .and
  | .or => .or

/-- The token that joins two operands. -/
def BitwiseOp.kind : BitwiseOp → TokenKind
  | .and => .ampersand
  | .or => .pipe
  | .xor => .caret
  | .shiftLeft => .shiftLeft
  | .shiftRight => .shiftRight
  | .unsignedShiftRight => .unsignedShiftRight

/-- The token that stands before the operand. -/
def UnaryOp.kind : UnaryOp → TokenKind
  | .not => .bang
  | .negate => .minus
  | .complement => .tilde

mutual

/-- The words of an expression. The place of a node is that of its operator or opening bracket,
of the name of the member, or else of its first word. -/
def Expr.flatten : Expr → List Word
  | .literal value place => [⟨.literal value, some place⟩]
  | .array elements place =>
    .markAt .leftBracket place :: (Expr.flattenList elements ++ [.mark .rightBracket])
  | .var _ name place => [⟨.name name, some place⟩]
  | .assign _ name value place => ⟨.name name, some place⟩ :: .mark .equal :: value.flatten
  | .binary op left right place => left.flatten ++ .markAt op.kind place :: right.flatten
  | .logical op left right place => left.flatten ++ .markAt op.kind place :: right.flatten
  | .bitwise op left right place => left.flatten ++ .markAt op.kind place :: right.flatten
  | .unary op operand place => .markAt op.kind place :: operand.flatten
  | .prefixCall _ name operand place => ⟨.name name, some place⟩ :: operand.flatten
  | .infixCall _ name left right place => left.flatten ++ ⟨.name name, some place⟩ :: right.flatten
  | .ternary condition thenBranch elseBranch place =>
    condition.flatten ++ .markAt .question place ::
      (thenBranch.flatten ++ .mark .colon :: elseBranch.flatten)
  | .elvis value fallback place => value.flatten ++ .markAt .elvis place :: fallback.flatten
  | .call callee arguments place =>
    callee.flatten ++ .markAt .leftParen place ::
      (Expr.flattenList arguments ++ [.mark .rightParen])
  | .get object name place => object.flatten ++ [.mark .dot, ⟨.member name, some place⟩]
  | .set object name value place =>
    object.flatten ++ .mark .dot :: ⟨.member name, some place⟩ :: .mark .equal :: value.flatten
  | .getIndex object index place =>
    object.flatten ++ .markAt .leftBracket place :: (index.flatten ++ [.mark .rightBracket])
  | .setIndex object index value place =>
    object.flatten ++ .markAt .leftBracket place ::
      (index.flatten ++ .mark .rightBracket :: .mark .equal :: value.flatten)
  | .grouping inner place => .markAt .leftParen place :: (inner.flatten ++ [.mark .rightParen])
  | .thisRef _ place => [.markAt (.word .thisWord) place]
  | .superRef _ method place =>
    [.markAt (.word .superWord) place, .mark .dot, ⟨.member method, none⟩]

/-- The words of some expressions, with commas between them. -/
def Expr.flattenList : List Expr → List Word
  | [] => []
  | first :: rest => first.flatten ++ Expr.flattenFurther rest

/-- The words of further expressions, each behind a comma. -/
def Expr.flattenFurther : List Expr → List Word
  | [] => []
  | first :: rest => .mark .comma :: (first.flatten ++ Expr.flattenFurther rest)

end

/-! ### The precedence of operators -/

namespace Grammar.Level

/-- How tight a level binds. -/
def rank : Level → Nat
  | assignment => 0
  | elvis => 1
  | ternary => 2
  | shift => 3
  | or => 4
  | xor => 5
  | and => 6
  | equality => 7
  | prefixCall => 8
  | relational => 9
  | additive => 10
  | multiplicative => 11
  | infixCall => 12
  | unary => 13
  | call => 14
  | primary => 15

end Grammar.Level

open Grammar (Level)

/-- The level of the operator. -/
def BinaryOp.level : BinaryOp → Level
  | .add | .sub => .additive
  | .mul | .div | .mod => .multiplicative
  | .equal | .notEqual => .equality
  | .less | .lessEqual | .greater | .greaterEqual => .relational

/-- The level of the connective. -/
def LogicalOp.level : LogicalOp → Level
  | .and => .and
  | .or => .or

/-- The level of the operator. -/
def BitwiseOp.level : BitwiseOp → Level
  | .and => .and
  | .or => .or
  | .xor => .xor
  | .shiftLeft | .shiftRight | .unsignedShiftRight => .shift

/-- The level an expression belongs to by its outermost operator. -/
def Expr.level : Expr → Level
  | .assign .. | .set .. | .setIndex .. => .assignment
  | .elvis .. => .elvis
  | .ternary .. => .ternary
  | .binary op _ _ _ => op.level
  | .logical op _ _ _ => op.level
  | .bitwise op _ _ _ => op.level
  | .prefixCall .. => .prefixCall
  | .infixCall .. => .infixCall
  | .unary .. => .unary
  | .call .. | .get .. | .getIndex .. => .call
  | .literal .. | .array .. | .var .. | .grouping .. | .thisRef .. | .superRef .. => .primary

/-- An expression may stand where one of a level is expected: it binds at least as tight. -/
def Grammar.Level.Admits (level : Level) (expr : Expr) : Prop :=
  level.rank ≤ expr.level.rank

instance (level : Level) (expr : Expr) : Decidable (level.Admits expr) :=
  inferInstanceAs (Decidable (level.rank ≤ expr.level.rank))

mutual

/-- Every operand of an expression binds tight enough for the place it stands at. -/
def Expr.Laddered : Expr → Prop
  | .literal .. | .var .. | .thisRef .. | .superRef .. => True
  | .array elements _ => Expr.AreLaddered elements
  | .assign _ _ value _ => value.Laddered
  | .binary op left right _ =>
    (op.level.Admits left ∧ left.Laddered) ∧ op.level.tighter.Admits right ∧ right.Laddered
  | .logical op left right _ =>
    (op.level.Admits left ∧ left.Laddered) ∧ op.level.tighter.Admits right ∧ right.Laddered
  | .bitwise op left right _ =>
    (op.level.Admits left ∧ left.Laddered) ∧ op.level.tighter.Admits right ∧ right.Laddered
  | .unary _ operand _ => Level.unary.Admits operand ∧ operand.Laddered
  | .prefixCall _ _ operand _ => Level.prefixCall.Admits operand ∧ operand.Laddered
  | .infixCall _ _ left right _ =>
    (Level.infixCall.Admits left ∧ left.Laddered) ∧ Level.unary.Admits right ∧ right.Laddered
  | .ternary condition thenBranch elseBranch _ =>
    (Level.shift.Admits condition ∧ condition.Laddered) ∧
      (Level.elvis.Admits thenBranch ∧ thenBranch.Laddered) ∧
      Level.ternary.Admits elseBranch ∧ elseBranch.Laddered
  | .elvis value fallback _ =>
    (Level.elvis.Admits value ∧ value.Laddered) ∧ Level.ternary.Admits fallback ∧ fallback.Laddered
  | .call callee arguments _ =>
    (Level.call.Admits callee ∧ callee.Laddered) ∧ Expr.AreLaddered arguments
  | .get object _ _ => Level.call.Admits object ∧ object.Laddered
  | .set object _ value _ => (Level.call.Admits object ∧ object.Laddered) ∧ value.Laddered
  | .getIndex object index _ => (Level.call.Admits object ∧ object.Laddered) ∧ index.Laddered
  | .setIndex object index value _ =>
    (Level.call.Admits object ∧ object.Laddered) ∧ index.Laddered ∧ value.Laddered
  | .grouping inner _ => inner.Laddered

/-- So it is in every one of some expressions. -/
def Expr.AreLaddered : List Expr → Prop
  | [] => True
  | first :: rest => first.Laddered ∧ Expr.AreLaddered rest

end

end Scriptlet
