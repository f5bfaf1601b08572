import Scriptlet.Proofs.Grammar.Reading
import Scriptlet.Proofs.Grammar.TokenAccount

/-!
# Where a level begins and stops

A token joins two operands at one level (`Token.joins?`), and a parser of a tighter level stops
before it (`Grammar.Level.Stops`). The first token of an expression starts an operand, and tells
whether a level begins with an operator (`Unprefixed`).
-/

namespace Scriptlet

open Grammar (Level startsOperand unaryOp?)

/-- The level at which a token of some kind goes on behind an operand. -/
def TokenKind.joins? : TokenKind → Option Level
  | .equal => some .assignment
  | .elvis => some .elvis
  | .question => some .ternary
  | .shiftLeft | .shiftRight | .unsignedShiftRight => some .shift
  | .or | .pipe => some .or
  | .caret => some .xor
  | .and | .ampersand => some .and
  | .equalEqual | .bangEqual => some .equality
  | .less | .lessEqual | .greater | .greaterEqual => some .relational
  | .plus | .minus => some .additive
  | .star | .slash | .percent => some .multiplicative
  | .leftParen | .dot | .leftBracket => some .call
  | _ => none

/-- The level at which a token goes on behind an operand. A name does so if it is that of an
operator. -/
def Token.joins? (known : Operators) (token : Token) : Option Level :=
  if token.kind = .identifier then
    if token.lexeme ∈ known.infixNames then some .infixCall else none
  else token.kind.joins?

/-- The parser of a level stops before some words. -/
def Grammar.Level.Stops (level : Level) (known : Operators) : List Word → Prop
  | [] => True
  | word :: _ => ∀ token : Token, token.Shows word.sign →
    ∀ join ∈ token.joins? known, join.rank < level.rank

namespace Grammar.Level

variable {level : Level} {known : Operators} {words : List Word}

/-- A level that stops before some words has the tighter ones stop there. -/
theorem Stops.tighter {tight : Level} (stops : level.Stops known words)
    (ranks : level.rank ≤ tight.rank) : tight.Stops known words := by
  cases words with
  | nil => trivial
  | cons word rest =>
      exact fun token shows_ join joins => Nat.lt_of_lt_of_le (stops token shows_ join joins) ranks

/-- A reserved word, an operator or a bracket stops a level if it joins at a looser one or
nowhere. -/
theorem stops_mark (kind : TokenKind) (notName : kind ≠ .identifier)
    (looser : ∀ join ∈ kind.joins?, join.rank < level.rank) (place : Option Location) :
    level.Stops known (⟨.mark kind, place⟩ :: words) := by
  intro token shows_ join joins
  have same : token.kind = kind := shows_
  unfold Token.joins? at joins
  rw [if_neg (same ▸ notName), same] at joins
  exact looser join joins

/-- A name stops a level that is tighter than that of declared operators. -/
theorem stops_name {text : String} {place : Option Location}
    (tight : Level.infixCall.rank < level.rank) :
    level.Stops known (⟨.name text, place⟩ :: words) := by
  intro token shows_ join joins
  unfold Token.joins? at joins
  rw [if_pos shows_.1] at joins
  split at joins
  · cases joins
    exact tight
  · cases joins

/-- The next token joins operands, if at all, at a looser level than one that stops before it. -/
theorem Stops.peek (stops : level.Stops known words) {cursor : Cursor}
    (at_ : cursor.At known words) : ∀ join ∈ cursor.peek.joins? known, join.rank < level.rank := by
  cases words with
  | nil =>
      obtain ⟨passed, rest, faults, prefixNames, infixNames, nextId⟩ := cursor
      cases at_.shows_
      rintro join ⟨⟩
  | cons word rest => exact stops cursor.peek at_.peek

/-- Where a level stops, the current token is none that joins at the level. -/
theorem Stops.kind_ne (stops : level.Stops known words) {cursor : Cursor}
    (at_ : cursor.At known words) {kind : TokenKind} (notName : kind ≠ .identifier)
    {join : Level} (joins : kind.joins? = some join) (tight : level.rank ≤ join.rank) :
    cursor.peek.kind ≠ kind := by
  intro same
  refine absurd (stops.peek at_ join ?_) (Nat.not_lt.mpr tight)
  unfold Token.joins?
  rw [if_neg (same ▸ notName), same]
  exact joins

/-- A mark that a level combines operands at joins them at this level. -/
theorem combine?_joins? {kind : TokenKind} {make : Expr → Expr → Location → Expr}
    (combines : level.combine? kind = some make) :
    kind ≠ .identifier ∧ kind.joins? = some level := by
  unfold Level.combine? at combines
  split at combines <;> cases combines <;> exact ⟨by decide, rfl⟩

end Grammar.Level

/-! ### First words -/

/-- The first word of an expression. -/
def Expr.firstWord : Expr → Word
  | .literal value place => ⟨.literal value, some place⟩
  | .array _ place => .markAt .leftBracket place
  | .var _ name place | .assign _ name _ place | .prefixCall _ name _ place =>
    ⟨.name name, some place⟩
  | .binary _ left _ _ | .logical _ left _ _ | .bitwise _ left _ _ | .infixCall _ _ left _ _ =>
    left.firstWord
  | .unary op _ place => .markAt op.kind place
  | .ternary condition _ _ _ => condition.firstWord
  | .elvis value _ _ => value.firstWord
  | .call callee _ _ => callee.firstWord
  | .get object _ _ | .set object _ _ _ | .getIndex object _ _ | .setIndex object _ _ _ =>
    object.firstWord
  | .grouping _ place => .markAt .leftParen place
  | .thisRef _ place => .markAt (.word .thisWord) place
  | .superRef _ _ place => .markAt (.word .superWord) place

/-- The words of an expression begin with its first one. -/
theorem Expr.flatten_eq_cons : ∀ expr : Expr, ∃ rest, expr.flatten = expr.firstWord :: rest
  | .literal .. | .array .. | .var .. | .assign .. | .prefixCall .. | .unary .. | .grouping ..
  | .thisRef .. | .superRef .. => ⟨_, rfl⟩
  | .binary _ left _ _ | .logical _ left _ _ | .bitwise _ left _ _ | .infixCall _ _ left _ _
  | .elvis left _ _ | .ternary left _ _ _ | .call left _ _ | .get left _ _ | .set left _ _ _
  | .getIndex left _ _ | .setIndex left _ _ _ => by
    obtain ⟨rest, first⟩ := Expr.flatten_eq_cons left
    exact ⟨_, by rw [Expr.flatten, first, Expr.firstWord]; rfl⟩

private theorem TokenKind.startsOperand_of_isLiteral {kind : TokenKind}
    (literal : kind.isLiteral = true) :
    startsOperand kind = true := by
  unfold TokenKind.isLiteral at literal
  split at literal <;> first | rfl | cases literal

/-- The first token of an expression starts an operand. -/
theorem Expr.firstWord_starts : ∀ (expr : Expr) (token : Token),
    token.Shows expr.firstWord.sign → startsOperand token.kind = true
  | .literal .., _, shows_ => TokenKind.startsOperand_of_isLiteral shows_.1
  | .var .., _, shows_ | .assign .., _, shows_ | .prefixCall .., _, shows_ => by rw [shows_.1]; rfl
  | .array .., _, shows_ | .grouping .., _, shows_ | .thisRef .., _, shows_
  | .superRef .., _, shows_ => by
    rw [show _ = _ from shows_]
    rfl
  | .unary op _ _, _, shows_ => by
    rw [show _ = op.kind from shows_]
    cases op <;> rfl
  | .binary _ left _ _, token, shows_ | .logical _ left _ _, token, shows_
  | .bitwise _ left _ _, token, shows_ | .infixCall _ _ left _ _, token, shows_
  | .elvis left _ _, token, shows_ | .ternary left _ _ _, token, shows_
  | .call left _ _, token, shows_ | .get left _ _, token, shows_ | .set left _ _ _, token, shows_
  | .getIndex left _ _, token, shows_ | .setIndex left _ _ _, token, shows_ =>
    Expr.firstWord_starts left token shows_

/-- Only the parenthesis itself is shown by one. -/
theorem Token.Shows.mark_of_leftParen {token : Token} {sign : Sign} (shows_ : token.Shows sign)
    (isParen : token.kind = .leftParen) : sign = .mark .leftParen := by
  cases sign with
  | mark kind => rw [← isParen, show token.kind = kind from shows_]
  | name text => exact absurd (isParen.symm.trans shows_.1) (by decide)
  | label text => exact absurd (isParen.symm.trans shows_.1) (by decide)
  | literal value =>
      have literal := shows_.1
      rw [isParen] at literal
      cases literal
  | member text =>
      rcases shows_.1 with name | word
      · exact absurd (isParen.symm.trans name) (by decide)
      · exact absurd (isParen.symm.trans word) (by decide)

private theorem unaryOp?_of_isLiteral {kind : TokenKind} (literal : kind.isLiteral = true) :
    unaryOp? kind = none := by
  unfold TokenKind.isLiteral at literal
  split at literal <;> first | rfl | cases literal

private theorem BinaryOp.rank_lt_call (op : BinaryOp) : op.level.rank < Level.call.rank := by
  cases op <;> decide

private theorem LogicalOp.rank_lt_relational (op : LogicalOp) :
    op.level.rank < Level.relational.rank := by
  cases op <;> decide

private theorem BitwiseOp.rank_lt_relational (op : BitwiseOp) :
    op.level.rank < Level.relational.rank := by
  cases op <;> decide

/-- What may be called does not begin with an operator. -/
theorem Expr.firstWord_notUnary : ∀ (expr : Expr), expr.Laddered → Level.call.Admits expr →
    ∀ token : Token, token.Shows expr.firstWord.sign → unaryOp? token.kind = none
  | .literal .., _, _, _, shows_ => unaryOp?_of_isLiteral shows_.1
  | .var .., _, _, _, shows_ => by rw [shows_.1]; rfl
  | .array .., _, _, _, shows_ | .grouping .., _, _, _, shows_ | .thisRef .., _, _, _, shows_
  | .superRef .., _, _, _, shows_ => by
    rw [show _ = _ from shows_]
    rfl
  | .call callee _ _, laddered, _, token, shows_ =>
    Expr.firstWord_notUnary callee laddered.1.2 laddered.1.1 token shows_
  | .get object _ _, laddered, _, token, shows_ =>
    Expr.firstWord_notUnary object laddered.2 laddered.1 token shows_
  | .getIndex object _ _, laddered, _, token, shows_ =>
    Expr.firstWord_notUnary object laddered.1.2 laddered.1.1 token shows_
  | .binary op _ _ _, _, admits, _, _ => absurd admits (Nat.not_le.mpr op.rank_lt_call)
  | .logical op _ _ _, _, admits, _, _ =>
    absurd admits (Nat.not_le.mpr (Nat.lt_trans op.rank_lt_relational (by decide)))
  | .bitwise op _ _ _, _, admits, _, _ =>
    absurd admits (Nat.not_le.mpr (Nat.lt_trans op.rank_lt_relational (by decide)))
  | .assign .., _, admits, _, _ | .set .., _, admits, _, _ | .setIndex .., _, admits, _, _ =>
    absurd (show 14 ≤ 0 from admits) (by decide)
  | .elvis .., _, admits, _, _ => absurd (show 14 ≤ 1 from admits) (by decide)
  | .ternary .., _, admits, _, _ => absurd (show 14 ≤ 2 from admits) (by decide)
  | .prefixCall .., _, admits, _, _ => absurd (show 14 ≤ 8 from admits) (by decide)
  | .infixCall .., _, admits, _, _ => absurd (show 14 ≤ 12 from admits) (by decide)
  | .unary .., _, admits, _, _ => absurd (show 14 ≤ 13 from admits) (by decide)

/-! ### Names of prefix operators -/

/-- Words do not begin with the name of a prefix operator before an operand. -/
def Unprefixed (known : Operators) : List Word → Prop
  | word :: second :: _ => ∀ token next : Token, token.Shows word.sign → next.Shows second.sign →
    token.kind = .identifier → token.lexeme ∈ known.prefixNames →
      next.kind = .leftParen ∨ startsOperand next.kind = false
  | _ => True

section Unprefixed

variable {known : Operators} {word : Word} {words : List Word}

private theorem unprefixed_of_kind
    (notName : ∀ token : Token, token.Shows word.sign → token.kind ≠ .identifier) :
    Unprefixed known (word :: words) := by
  cases words with
  | nil => trivial
  | cons second rest => exact fun token _ shows_ _ isName => absurd isName (notName token shows_)

private theorem unprefixed_of_name {name : String} {place : Option Location}
    (unknown : name ∉ known.prefixNames) : Unprefixed known (⟨.name name, place⟩ :: words) := by
  cases words with
  | nil => trivial
  | cons second rest =>
      intro token _ shows_ _ _ member
      rw [shows_.2] at member
      exact absurd member unknown

/-- Also the name of a prefix operator counts as any other before some tokens. -/
theorem unprefixed_of_next {kind : TokenKind} {place : Option Location}
    (other : kind = .leftParen ∨ startsOperand kind = false) :
    Unprefixed known (word :: ⟨.mark kind, place⟩ :: words) := by
  intro _ next _ shows_ _ _
  rwa [show next.kind = kind from shows_]

private theorem not_isLiteral_identifier {token : Token} (literal : token.kind.isLiteral = true) :
    token.kind ≠ .identifier := by
  intro name
  rw [name] at literal
  cases literal

/-- What binds as tight as a comparison does not begin with the name of a prefix operator before an
operand. -/
theorem Expr.unprefixed : ∀ expr : Expr, expr.Laddered → expr.Named known →
    Level.relational.Admits expr → ∀ more, Unprefixed known (expr.flatten ++ more)
  | .literal .., _, _, _, _ => unprefixed_of_kind fun _ shows_ => not_isLiteral_identifier shows_.1
  | .array .., _, _, _, _ | .grouping .., _, _, _, _ | .thisRef .., _, _, _, _
  | .superRef .., _, _, _, _ =>
    unprefixed_of_kind fun _ shows_ => by rw [show _ = _ from shows_]; decide
  | .unary op _ _, _, _, _, _ =>
    unprefixed_of_kind fun _ shows_ => by rw [show _ = op.kind from shows_]; cases op <;> decide
  | .var .., _, unknown, _, _ => unprefixed_of_name unknown
  | .binary _ left _ _, laddered, named, admits, _ => by
    rw [Expr.flatten, List.append_assoc]
    exact Expr.unprefixed left laddered.1.2 named.1 (Nat.le_trans admits laddered.1.1) _
  | .infixCall _ _ left _ _, laddered, named, admits, _ => by
    rw [Expr.flatten, List.append_assoc]
    exact Expr.unprefixed left laddered.1.2 named.2.1 (Nat.le_trans admits laddered.1.1) _
  | .call callee _ _, laddered, named, _, _ => by
    rw [Expr.flatten, List.append_assoc]
    rcases named.1 with isVar | named
    · cases callee <;> cases isVar
      exact unprefixed_of_next (.inl rfl)
    · exact Expr.unprefixed callee laddered.1.2 named
        (Nat.le_trans (by decide) laddered.1.1) _
  | .get object _ _, laddered, named, _, _ => by
    rw [Expr.flatten, List.append_assoc]
    exact Expr.unprefixed object laddered.2 named (Nat.le_trans (by decide) laddered.1) _
  | .getIndex object _ _, laddered, named, _, _ => by
    rw [Expr.flatten, List.append_assoc]
    exact Expr.unprefixed object laddered.1.2 named.1 (Nat.le_trans (by decide) laddered.1.1) _
  | .logical op _ _ _, _, _, admits, _ =>
    absurd admits (Nat.not_le.mpr op.rank_lt_relational)
  | .bitwise op _ _ _, _, _, admits, _ =>
    absurd admits (Nat.not_le.mpr op.rank_lt_relational)
  | .assign .., _, _, admits, _ | .set .., _, _, admits, _ | .setIndex .., _, _, admits, _ =>
    absurd (show 9 ≤ 0 from admits) (by decide)
  | .elvis .., _, _, admits, _ => absurd (show 9 ≤ 1 from admits) (by decide)
  | .ternary .., _, _, admits, _ => absurd (show 9 ≤ 2 from admits) (by decide)
  | .prefixCall .., _, _, admits, _ => absurd (show 9 ≤ 8 from admits) (by decide)

/-- There the look-ahead for a prefix operator fails. -/
theorem Unprefixed.lookahead (unprefixed : Unprefixed known words) {cursor : Cursor}
    (at_ : cursor.At known words) :
    (cursor.peek.kind == .identifier && cursor.prefixNames.contains cursor.peek.lexeme
      && cursor.peekNext.kind != .leftParen && startsOperand cursor.peekNext.kind) = false := by
  obtain ⟨passed, rest, faults, prefixNames, infixNames, nextId⟩ := cursor
  have names : prefixNames = known.prefixNames := at_.prefixNames
  subst names
  cases at_.shows_ with
  | nil => rfl
  | cons first others =>
      rename_i token word tokens words
      cases others with
      | nil => simp [Cursor.peekNext, Cursor.missing, startsOperand]
      | cons second others =>
          rename_i next follower tokens words
          have fails := unprefixed token next first second
          simp only [Cursor.peek, Cursor.peekNext]
          by_cases name : token.kind = .identifier
          · by_cases member : token.lexeme ∈ known.prefixNames
            · rcases fails name member with paren | other
              · simp [paren]
              · simp [other]
            · simp [member]
          · simp [name]

end Unprefixed

end Scriptlet
