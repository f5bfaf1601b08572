import Scriptlet.Proofs.Grammar.Spelling
import Scriptlet.Proofs.Outcome

/-!
# Parsed expressions account for every token

By the built-in rules, a parser of expressions that reports no fault passes exactly the words of the
expression it gives (`Parse.Accounts`), and the operands of the expression keep to the levels of the
grammar (`Expr.Spelled`). The tokens passed are followed through the parsers of the levels, and
through the loops with the left operand read so far (`Grammar.Level.Joins`).
-/

namespace Scriptlet

/-- Between two places of a cursor stand the given tokens. -/
structure Cursor.Passes (cursor later : Cursor) (tokens : List Token) : Prop where
  rest : cursor.rest = tokens ++ later.rest
  passed : later.passed = tokens.reverse ++ cursor.passed

namespace Cursor.Passes

variable {cursor middle later : Cursor} {tokens further : List Token}

/-- Tokens that are passed one after the other are passed. -/
theorem trans (first : cursor.Passes middle tokens) (second : middle.Passes later further) :
    cursor.Passes later (tokens ++ further) where
  rest := by rw [first.rest, second.rest, List.append_assoc]
  passed := by rw [second.passed, first.passed, List.reverse_append, List.append_assoc]

/-- An advance passes the current token, unless it is the end marker. -/
theorem advance (more : cursor.peek.kind ≠ .endOfInput) :
    cursor.Passes cursor.advance [cursor.peek] := by
  obtain ⟨passed, rest, faults, prefixNames, infixNames, nextId⟩ := cursor
  cases rest with
  | nil => exact absurd rfl more
  | cons token rest =>
      have kept : (token.kind == .endOfInput) = false := beq_eq_false_iff_ne.mpr more
      constructor <;> simp [Cursor.advance, Cursor.peek, kept]

end Cursor.Passes

/-- Passing a token reports no fault. -/
theorem Cursor.faults_advance (cursor : Cursor) : cursor.advance.faults = cursor.faults := by
  unfold Cursor.advance
  split
  · split <;> rfl
  · rfl

namespace Parse

variable {α β : Type} {cursor : Cursor} {parser : Parse α} {spelled : α → List Token → Prop}

/-- A parser that gives a value has passed tokens that spell it, unless it reported a fault. -/
def Accounts (cursor : Cursor) (parser : Parse α) (spelled : α → List Token → Prop) : Prop :=
  ∀ value later, parser cursor = .ok value later →
    cursor.faults.size ≤ later.faults.size ∧
      (later.faults.size = cursor.faults.size →
        ∃ tokens, cursor.Passes later tokens ∧ spelled value tokens)

namespace Accounts

/-- Giving a value that nothing spells passes nothing. -/
protected theorem pure {value : α} (nothing : spelled value []) :
    Accounts cursor (pure value) spelled := by
  rintro _ _ ⟨⟩
  exact ⟨Nat.le_refl _, fun _ => ⟨[], ⟨rfl, rfl⟩, nothing⟩⟩

/-- A parser that fails passes tokens for nothing. -/
protected theorem fail (fault : Located ParseFault) : Accounts cursor (Parse.fail fault) spelled :=
  fun _ _ ended => by cases ended

/-- A parser that stops for its depth passes tokens for nothing. -/
protected theorem exhausted : Accounts cursor Parse.exhausted spelled :=
  fun _ _ ended => by cases ended

/-- After a report there is nothing to account for. -/
protected theorem report (fault : Located ParseFault) :
    Accounts cursor (Parse.report fault) fun _ _ => False := by
  rintro _ _ ⟨⟩
  change _ ≤ (cursor.faults.push fault).size ∧ ((cursor.faults.push fault).size = _ → _)
  rw [Array.size_push]
  exact ⟨Nat.le_succ _, fun same => absurd same (Nat.succ_ne_self _)⟩

/-- What comes second accounts for its own tokens behind those of the first. -/
protected theorem bind {next : α → Parse β} {whole : β → List Token → Prop}
    (first : Accounts cursor parser spelled)
    (rest : ∀ value middle, Accounts middle (next value)
      fun result tokens => ∀ before, spelled value before → whole result (before ++ tokens)) :
    Accounts cursor (parser >>= next) whole := by
  intro result later ended
  obtain ⟨value, middle, firstEnded, restEnded⟩ := bind_eq_ok.mp ended
  obtain ⟨grown, firstAccount⟩ := first value middle firstEnded
  obtain ⟨grownOn, restAccount⟩ := rest value middle result later restEnded
  refine ⟨Nat.le_trans grown grownOn, fun same => ?_⟩
  obtain ⟨before, passedFirst, spelledFirst⟩ := firstAccount (by omega)
  obtain ⟨tokens, passedRest, spelledRest⟩ := restAccount (by omega)
  exact ⟨before ++ tokens, passedFirst.trans passedRest, spelledRest before spelledFirst⟩

/-- Less may be said of what the passed tokens spell. -/
protected theorem weaken {looser : α → List Token → Prop} (account : Accounts cursor parser spelled)
    (implied : ∀ value tokens, spelled value tokens → looser value tokens) :
    Accounts cursor parser looser := by
  intro value later ended
  obtain ⟨grown, accounted⟩ := account value later ended
  refine ⟨grown, fun same => ?_⟩
  obtain ⟨tokens, passed, known⟩ := accounted same
  exact ⟨tokens, passed, implied value tokens known⟩

/-- A look at the cursor passes nothing. -/
protected theorem get {next : Cursor → Parse α} (rest : Accounts cursor (next cursor) spelled) :
    Accounts cursor (get >>= next) spelled :=
  rest

/-- A look at the next token passes nothing. -/
protected theorem peek {next : Token → Parse α}
    (rest : Accounts cursor (next cursor.peek) spelled) :
    Accounts cursor (Parse.peek >>= next) spelled :=
  rest

/-- Checking the kind of the next token passes nothing. -/
protected theorem check {kind : TokenKind} {next : Bool → Parse α}
    (rest : Accounts cursor (next (cursor.isAt kind)) spelled) :
    Accounts cursor (Parse.check kind >>= next) spelled :=
  rest

/-- Passing a token passes this one. -/
protected theorem advance (more : cursor.peek.kind ≠ .endOfInput) :
    Accounts cursor Parse.advance fun token tokens => token = cursor.peek ∧ tokens = [token] := by
  rintro _ _ ⟨⟩
  refine ⟨Nat.le_of_eq (by rw [cursor.faults_advance]), fun _ => ?_⟩
  exact ⟨[cursor.peek], .advance more, rfl, rfl⟩

/-- Giving out a number passes nothing. -/
protected theorem fresh : Accounts cursor Parse.fresh fun _ tokens => tokens = [] := by
  rintro _ _ ⟨⟩
  exact ⟨Nat.le_refl _, fun _ => ⟨[], ⟨rfl, rfl⟩, rfl⟩⟩

/-- A token that is to be there is passed, and of its kind. -/
protected theorem consume (kind : TokenKind) (proper : kind ≠ .endOfInput) (what : String) :
    Accounts cursor (Parse.consume kind what)
      fun token tokens => token.kind = kind ∧ tokens = [token] := by
  refine .check ?_
  by_cases here : cursor.peek.kind = kind
  · have isHere : cursor.isAt kind = true := beq_iff_eq.mpr here
    rw [isHere]
    refine (Accounts.advance (here ▸ proper)).weaken ?_
    rintro _ _ ⟨rfl, rfl⟩
    exact ⟨here, rfl⟩
  · have isElse : cursor.isAt kind = false := beq_eq_false_iff_ne.mpr here
    rw [isElse]
    exact .get (.fail _)

/-- The name of a member is passed, as a name or as the word for constructors. -/
protected theorem consumeMember (what : String) :
    Accounts cursor (Parse.consumeMember what) fun token tokens =>
      (token.kind = .identifier ∨ token.kind = .word .constructorWord) ∧ tokens = [token] := by
  refine .check ?_
  by_cases here : cursor.peek.kind = .word .constructorWord
  · have isHere : cursor.isAt (.word .constructorWord) = true := beq_iff_eq.mpr here
    rw [isHere]
    refine (Accounts.advance (by rw [here]; decide)).weaken ?_
    rintro _ _ ⟨rfl, rfl⟩
    exact ⟨.inr here, rfl⟩
  · have isElse : cursor.isAt (.word .constructorWord) = false := beq_eq_false_iff_ne.mpr here
    rw [isElse]
    refine (Accounts.consume .identifier (by decide) what).weaken ?_
    rintro token _ ⟨kind, rfl⟩
    exact ⟨.inl kind, rfl⟩

/-- A token of a kind is passed if there is one, and nothing else. -/
protected theorem accept (kind : TokenKind) (proper : kind ≠ .endOfInput) :
    Accounts cursor (Parse.accept [kind]) fun found tokens =>
      if found then ∃ token : Token, token.kind = kind ∧ tokens = [token] else tokens = [] := by
  refine .peek ?_
  by_cases here : cursor.peek.kind = kind
  · rw [if_pos (by simp [here])]
    refine (Accounts.advance (here ▸ proper)).bind fun token middle => .pure ?_
    rintro _ ⟨rfl, rfl⟩
    exact ⟨cursor.peek, here, rfl⟩
  · rw [if_neg (by simpa using here)]
    exact .pure rfl

end Accounts

end Parse

namespace Expr

/-- Tokens write out an expression that may stand where one of a level is expected. -/
structure Spelled (level : Grammar.Level) (expr : Expr) (tokens : List Token) : Prop where
  admitted : level.Admits expr
  laddered : expr.Laddered
  written : List.Forall₂ Token.Writes tokens expr.flatten

/-- Tokens write out some expressions with commas between them. -/
structure AreSpelled (items : List Expr) (tokens : List Token) : Prop where
  laddered : Expr.AreLaddered items
  written : List.Forall₂ Token.Writes tokens (Expr.flattenList items)

private theorem Spelled.at_looser {level tight : Grammar.Level} {expr : Expr} {tokens : List Token}
    (spelled : expr.Spelled tight tokens) (looser : level.rank ≤ tight.rank) :
    expr.Spelled level tokens :=
  { spelled with admitted := Nat.le_trans looser spelled.admitted }

/-- Further expressions are written as the first of them, behind a comma, and the rest. -/
theorem flattenFurther_eq {items : List Expr} (more : items ≠ []) :
    Expr.flattenFurther items = .mark .comma :: Expr.flattenList items := by
  cases items with
  | nil => exact absurd rfl more
  | cons first rest => rw [Expr.flattenFurther, Expr.flattenList]

end Expr

/-- A reserved word, an operator or a bracket of the given kind is written by such a token. -/
theorem Token.writes_mark {token : Token} {kind : TokenKind} (known : token.kind = kind) :
    token.Writes (.mark kind) :=
  ⟨known, by simp⟩

private theorem Token.writes_name {token : Token} (known : token.kind = .identifier) :
    token.Writes ⟨.name token.lexeme, some token.location⟩ :=
  ⟨⟨known, rfl⟩, by rintro _ ⟨⟩; rfl⟩

private theorem Token.writes_member {token : Token}
    (known : token.kind = .identifier ∨ token.kind = .word .constructorWord) :
    token.Writes ⟨.member token.lexeme, some token.location⟩ :=
  ⟨⟨known, rfl⟩, by rintro _ ⟨⟩; rfl⟩

private theorem Token.writes_markAt {token : Token} {kind : TokenKind} (known : token.kind = kind) :
    token.Writes (.markAt kind token.location) :=
  ⟨known, by rintro _ ⟨⟩; rfl⟩

namespace Grammar

open Parse

/-! ### The operators of a level -/

/-- What an operator makes of two operands is written with the operator between them, belongs to
the level of the operator, and takes a tighter operand on the right. -/
structure Level.Joins (level : Level) (kind : TokenKind) (make : Expr → Expr → Location → Expr) :
    Prop where
  flatten : ∀ left right place,
    (make left right place).flatten = left.flatten ++ .markAt kind place :: right.flatten
  outermost : ∀ left right place, (make left right place).level = level
  laddered : ∀ left right place, (make left right place).Laddered ↔
    (level.Admits left ∧ left.Laddered) ∧ level.tighter.Admits right ∧ right.Laddered

/-- What a level makes of two operands is written with its operator between them. -/
theorem Level.combine?_joins {level : Level} {kind : TokenKind}
    {make : Expr → Expr → Location → Expr} (combines : level.combine? kind = some make) :
    level.Joins kind make := by
  unfold Level.combine? at combines
  split at combines <;> cases combines
  all_goals
    constructor <;> intro left right place
    · rfl
    · rfl
    · exact Iff.rfl

/-- The end of the input joins nothing. -/
theorem Level.combine?_endOfInput (level : Level) : level.combine? .endOfInput = none := by
  cases level <;> rfl

/-! ### Loops -/

variable {operand expression : Parse Expr} {level : Level}

private theorem chain_accounts
    (accounts : ∀ cursor, Accounts cursor operand (Expr.Spelled level.tighter))
    (bound : Nat) (left : Expr) (cursor : Cursor) :
    Accounts cursor (chain level operand bound left) fun result tokens =>
      ∀ before, left.Spelled level before → result.Spelled level (before ++ tokens) := by
  induction bound generalizing left cursor with
  | zero => exact .exhausted
  | succ bound ih =>
      refine .peek ?_
      cases combines : level.combine? cursor.peek.kind with
      | none => exact .pure fun before known => by rwa [List.append_nil]
      | some make =>
          have joins := Level.combine?_joins combines
          have more : cursor.peek.kind ≠ .endOfInput := by
            intro ends
            rw [ends, level.combine?_endOfInput] at combines
            cases combines
          refine (Accounts.advance more).bind fun operator middle => (accounts middle).bind
            fun right after => (ih (make left right operator.location) after).weaken ?_
          rintro result tokens known rightTokens spelledRight _ ⟨rfl, rfl⟩ before spelledLeft
          have joined : (make left right cursor.peek.location).Spelled level
              (before ++ cursor.peek :: rightTokens) := by
            refine ⟨Nat.le_of_eq (by rw [joins.outermost]), ?_, ?_⟩
            · exact (joins.laddered ..).mpr ⟨⟨spelledLeft.admitted, spelledLeft.laddered⟩,
                spelledRight.admitted, spelledRight.laddered⟩
            · rw [joins.flatten]
              exact List.rel_append spelledLeft.written
                (.cons (Token.writes_markAt rfl) spelledRight.written)
          simpa using known _ joined

private theorem infixChain_accounts
    (accounts : ∀ cursor, Accounts cursor operand (Expr.Spelled .unary))
    (bound : Nat) (left : Expr) (cursor : Cursor) :
    Accounts cursor (infixChain operand bound left) fun result tokens =>
      ∀ before, left.Spelled .infixCall before → result.Spelled .infixCall (before ++ tokens) := by
  induction bound generalizing left cursor with
  | zero => exact .exhausted
  | succ bound ih =>
      refine .get ?_
      dsimp only
      split
      · rename_i declared
        have isName : cursor.peek.kind = .identifier := by simp_all
        refine (Accounts.advance (by rw [isName]; decide)).bind fun _ middle =>
          (accounts middle).bind fun right between => Accounts.fresh.bind fun id after =>
            (ih (.infixCall id cursor.peek.lexeme left right cursor.peek.location) after).weaken ?_
        rintro result tokens known _ rfl rightTokens spelledRight _ ⟨rfl, rfl⟩ before spelledLeft
        have joined : (Expr.infixCall id cursor.peek.lexeme left right
            cursor.peek.location).Spelled .infixCall (before ++ cursor.peek :: rightTokens) := by
          refine ⟨Nat.le_refl _, ?_, ?_⟩
          · exact ⟨⟨spelledLeft.admitted, spelledLeft.laddered⟩, spelledRight.admitted,
              spelledRight.laddered⟩
          · exact List.rel_append spelledLeft.written
              (.cons (Token.writes_name isName) spelledRight.written)
        simpa using known _ joined
      · exact .pure fun before known => by rwa [List.append_nil]

private theorem listItems_accounts
    (accounts : ∀ cursor, Accounts cursor expression (Expr.Spelled .assignment)) (limited : Bool)
    (bound count : Nat) (cursor : Cursor) :
    Accounts cursor (listItems expression limited bound count) fun items tokens =>
      items ≠ [] ∧ Expr.AreSpelled items tokens := by
  induction bound generalizing count cursor with
  | zero => exact .exhausted
  | succ bound ih =>
      have items (start : Cursor) : Accounts start
          (do
            let item ← expression
            if ← accept [.comma] then
              return item :: (← listItems expression limited bound (count + 1))
            else return [item]) fun items tokens => items ≠ [] ∧ Expr.AreSpelled items tokens := by
        refine (accounts start).bind fun item middle => (Accounts.accept .comma (by decide)).bind
          fun found after => ?_
        cases found with
        | false =>
            refine .pure ?_
            rintro _ rfl tokens spelled
            refine ⟨List.cons_ne_nil _ _, ⟨spelled.laddered, trivial⟩, ?_⟩
            simpa [Expr.flattenList, Expr.flattenFurther] using spelled.written
        | true =>
            refine (ih (count + 1) after).bind fun rest _ => .pure ?_
            rintro furtherTokens ⟨more, further⟩ _ ⟨comma, isComma, rfl⟩ tokens spelled
            refine ⟨List.cons_ne_nil _ _, ⟨spelled.laddered, further.laddered⟩, ?_⟩
            rw [Expr.flattenList, Expr.flattenFurther_eq more, List.append_nil]
            exact List.rel_append spelled.written
              (.cons (Token.writes_mark isComma) further.written)
      unfold listItems
      split
      · exact .peek ((Accounts.report _).bind fun _ start =>
          (items start).weaken fun _ _ _ _ impossible => impossible.elim)
      · exact items cursor

private theorem expressionList_accounts
    (accounts : ∀ cursor, Accounts cursor expression (Expr.Spelled .assignment)) (bound : Nat)
    (closing : TokenKind) (proper : closing ≠ .endOfInput) (what : String) (cursor : Cursor) :
    Accounts cursor (expressionList expression bound closing what) fun items tokens =>
      Expr.AreLaddered items ∧
        List.Forall₂ Token.Writes tokens (Expr.flattenList items ++ [.mark closing]) := by
  have closed (items : List Expr) (start : Cursor) : Accounts start
      (do
        let _ ← consume closing what
        return items) fun result tokens =>
          ∀ before, Expr.AreSpelled items before → Expr.AreLaddered result ∧
            List.Forall₂ Token.Writes (before ++ tokens)
              (Expr.flattenList result ++ [.mark closing]) := by
    refine (Accounts.consume closing proper what).bind fun token _ => .pure ?_
    rintro _ ⟨kind, rfl⟩ before spelled
    exact ⟨spelled.laddered, List.rel_append spelled.written (.cons (Token.writes_mark kind) .nil)⟩
  refine .check ?_
  split
  · refine (closed [] cursor).weaken fun result tokens known => ?_
    exact known [] ⟨trivial, .nil⟩
  · refine (listItems_accounts accounts _ bound 0 cursor).bind fun items start =>
      (closed items start).weaken ?_
    rintro result tokens known before ⟨_, spelled⟩
    exact known before spelled

private theorem suffixes_accounts
    (accounts : ∀ cursor, Accounts cursor expression (Expr.Spelled .assignment)) (bound : Nat)
    (expr : Expr) (cursor : Cursor) :
    Accounts cursor (suffixes expression bound expr) fun result tokens =>
      ∀ before, expr.Spelled .call before → result.Spelled .call (before ++ tokens) := by
  induction bound generalizing expr cursor with
  | zero => exact .exhausted
  | succ bound ih =>
      refine .peek ?_
      split
      · rename_i isParen
        refine (Accounts.advance (by rw [isParen]; decide)).bind fun paren middle =>
          (expressionList_accounts accounts bound .rightParen (by decide) _ middle).bind
            fun arguments after => (ih (.call expr arguments paren.location) after).weaken ?_
        rintro result tokens known listTokens ⟨laddered, written⟩ _ ⟨rfl, rfl⟩ before spelled
        have called : (Expr.call expr arguments cursor.peek.location).Spelled .call
            (before ++ cursor.peek :: listTokens) :=
          ⟨Nat.le_refl _, ⟨⟨spelled.admitted, spelled.laddered⟩, laddered⟩,
            List.rel_append spelled.written (.cons (Token.writes_markAt isParen) written)⟩
        simpa using known _ called
      · rename_i isDot
        refine (Accounts.advance (by rw [isDot]; decide)).bind fun _ middle =>
          (Accounts.consumeMember _).bind fun name after =>
            (ih (.get expr name.lexeme name.location) after).weaken ?_
        rintro result tokens known _ ⟨isMember, rfl⟩ _ ⟨rfl, rfl⟩ before spelled
        have member : (Expr.get expr name.lexeme name.location).Spelled .call
            (before ++ [cursor.peek, name]) :=
          ⟨Nat.le_refl _, ⟨spelled.admitted, spelled.laddered⟩,
            List.rel_append spelled.written
              (.cons (Token.writes_mark isDot) (.cons (Token.writes_member isMember) .nil))⟩
        simpa using known _ member
      · rename_i isBracket
        refine (Accounts.advance (by rw [isBracket]; decide)).bind fun bracket middle =>
          (accounts middle).bind fun index between =>
            (Accounts.consume .rightBracket (by decide) _).bind fun close after =>
              (ih (.getIndex expr index bracket.location) after).weaken ?_
        rintro result tokens known _ ⟨closes, rfl⟩ indexTokens spelledIndex _ ⟨rfl, rfl⟩ before
          spelled
        have element : (Expr.getIndex expr index cursor.peek.location).Spelled .call
            (before ++ cursor.peek :: (indexTokens ++ [close])) :=
          ⟨Nat.le_refl _, ⟨⟨spelled.admitted, spelled.laddered⟩, spelledIndex.laddered⟩,
            List.rel_append spelled.written (.cons (Token.writes_markAt isBracket)
              (List.rel_append spelledIndex.written (.cons (Token.writes_mark closes) .nil)))⟩
        simpa using known _ element
      · exact .pure fun before known => by rwa [List.append_nil]

/-! ### Single levels -/

/-- An assignment is written as its target, the sign and the value, also where the node of the
target is thrown away for that of the assignment. -/
theorem assignTo_accounts (target value : Expr) (equals : Location) (cursor : Cursor) :
    Accounts cursor (assignTo target value equals) fun result tokens =>
      ∀ before sign after, target.Spelled .elvis before → sign.kind = .equal →
        value.Spelled .assignment after →
          result.Spelled .assignment (before ++ sign :: after ++ tokens) := by
  unfold assignTo
  split
  · refine Accounts.fresh.bind fun id _ => .pure ?_
    rintro _ rfl before sign after spelled isEqual spelledValue
    refine ⟨Nat.zero_le _, spelledValue.laddered, ?_⟩
    rw [List.append_nil, List.append_nil]
    exact List.rel_append spelled.written (.cons (Token.writes_mark isEqual) spelledValue.written)
  · refine .pure fun before sign after spelled isEqual spelledValue => ?_
    refine ⟨Nat.zero_le _, ⟨spelled.laddered, spelledValue.laddered⟩, ?_⟩
    have written := List.rel_append spelled.written
      (.cons (Token.writes_mark isEqual) spelledValue.written)
    simpa [Expr.flatten] using written
  · refine .pure fun before sign after spelled isEqual spelledValue => ?_
    obtain ⟨array, index⟩ := spelled.laddered
    refine ⟨Nat.zero_le _, ⟨array, index, spelledValue.laddered⟩, ?_⟩
    have written := List.rel_append spelled.written
      (.cons (Token.writes_mark isEqual) spelledValue.written)
    simpa [Expr.flatten] using written
  · exact (Accounts.report _).bind fun _ _ => .pure fun _ impossible => impossible.elim

/-- The token of a literal is accounted for by the value. -/
theorem literal_spelled {token : Token} (isLiteral : token.kind.isLiteral = true) :
    (Expr.literal (token.literal.getD .nil) token.location).Spelled .primary [token] :=
  ⟨Nat.le_refl _, trivial, .cons ⟨⟨isLiteral, rfl⟩, by rintro _ ⟨⟩; rfl⟩ .nil⟩

private theorem primary_accounts {grammar : Grammar} (builtin : grammar.primaries = [])
    (accounts : ∀ cursor, Accounts cursor expression (Expr.Spelled .assignment)) (bound : Nat)
    (cursor : Cursor) :
    Accounts cursor (primary grammar expression bound) (Expr.Spelled .primary) := by
  have literal (more : cursor.peek.kind ≠ .endOfInput) (isLiteral : cursor.peek.kind.isLiteral) :
      Accounts cursor
        (do
          let _ ← advance
          return .literal (cursor.peek.literal.getD .nil) cursor.peek.location)
        (Expr.Spelled .primary) := by
    refine (Accounts.advance more).bind fun _ _ => .pure ?_
    rintro _ ⟨rfl, rfl⟩
    exact literal_spelled isLiteral
  refine .peek ?_
  dsimp only
  split
  case h_7 isName =>
    refine (Accounts.advance (by rw [isName]; decide)).bind fun _ _ => Accounts.fresh.bind
      fun id _ => .pure ?_
    rintro _ rfl _ ⟨rfl, rfl⟩
    exact ⟨Nat.le_refl _, trivial, .cons (Token.writes_name isName) .nil⟩
  case h_8 isThis =>
    refine (Accounts.advance (by rw [isThis]; decide)).bind fun _ _ => Accounts.fresh.bind
      fun id _ => .pure ?_
    rintro _ rfl _ ⟨rfl, rfl⟩
    exact ⟨Nat.le_refl _, trivial, .cons (Token.writes_markAt isThis) .nil⟩
  case h_9 isSuper =>
    refine (Accounts.advance (by rw [isSuper]; decide)).bind fun _ _ =>
      (Accounts.consume .dot (by decide) _).bind fun dot _ => (Accounts.consumeMember _).bind
        fun method _ => Accounts.fresh.bind fun id _ => .pure ?_
    rintro _ rfl _ ⟨isMember, rfl⟩ _ ⟨isDot, rfl⟩ _ ⟨rfl, rfl⟩
    exact ⟨Nat.le_refl _, trivial, .cons (Token.writes_markAt isSuper)
      (.cons (Token.writes_mark isDot) (.cons ⟨⟨isMember, rfl⟩, by simp⟩ .nil))⟩
  case h_10 isParen =>
    refine (Accounts.advance (by rw [isParen]; decide)).bind fun _ middle =>
      (accounts middle).bind fun inner _ => (Accounts.consume .rightParen (by decide) _).bind
        fun close _ => .pure ?_
    rintro _ ⟨closes, rfl⟩ tokens spelled _ ⟨rfl, rfl⟩
    exact ⟨Nat.le_refl _, spelled.laddered, .cons (Token.writes_markAt isParen)
      (List.rel_append spelled.written (.cons (Token.writes_mark closes) .nil))⟩
  case h_11 isBracket =>
    refine (Accounts.advance (by rw [isBracket]; decide)).bind fun _ middle =>
      (expressionList_accounts accounts bound .rightBracket (by decide) _ middle).bind
        fun elements _ => .pure ?_
    rintro tokens ⟨laddered, written⟩ _ ⟨rfl, rfl⟩
    rw [List.append_nil]
    exact ⟨Nat.le_refl _, laddered, .cons (Token.writes_markAt isBracket) written⟩
  case h_12 =>
    rw [builtin]
    exact fun _ _ ended => by cases ended
  all_goals
    rename_i isLiteral
    exact literal (by rw [isLiteral]; decide) (by rw [isLiteral]; rfl)

/-- A prefix operator is read from the token that writes it. -/
theorem unaryOp?_kind {kind : TokenKind} {op : UnaryOp} (unary : unaryOp? kind = some op) :
    op.kind = kind := by
  unfold unaryOp? at unary
  split at unary <;> cases unary <;> rfl

/-! ### All levels -/

private theorem Level.rank_le_tighter (level : Level) : level.rank ≤ level.tighter.rank := by
  cases level <;> decide

private theorem production_accounts {grammar : Grammar} (builtin : grammar.primaries = [])
    {parser : Level → Parse Expr}
    (accounts : ∀ level cursor, Accounts cursor (parser level) (Expr.Spelled level))
    (bound : Nat) (level : Level) (cursor : Cursor) :
    Accounts cursor (production grammar parser bound level) (Expr.Spelled level) := by
  have looser {tight loose : Level} (ranks : loose.rank ≤ tight.rank) (cursor : Cursor) :
      Accounts cursor (parser tight) (Expr.Spelled loose) :=
    (accounts tight cursor).weaken fun _ _ spelled => spelled.at_looser ranks
  have looping (level : Level) (start : Cursor) : Accounts start
      (do
        let left ← parser level.tighter
        chain level (parser level.tighter) bound left) (Expr.Spelled level) :=
    (looser level.rank_le_tighter start).bind fun left middle =>
      (chain_accounts (accounts level.tighter) bound left middle).weaken
        fun _ _ known before spelled => known before spelled
  cases level with
  | assignment =>
      refine (accounts .elvis cursor).bind fun target middle => .check ?_
      split
      · rename_i found
        have isEqual : middle.peek.kind = .equal := beq_iff_eq.mp found
        refine (Accounts.advance (by rw [isEqual]; decide)).bind fun sign between =>
          (accounts .assignment between).bind fun value after =>
            (assignTo_accounts target value sign.location after).weaken ?_
        rintro result tokens known valueTokens spelledValue _ ⟨rfl, rfl⟩ before spelled
        simpa using known before _ valueTokens spelled isEqual spelledValue
      · refine .pure fun before spelled => ?_
        rw [List.append_nil]
        exact spelled.at_looser (by decide)
  | elvis => exact looping .elvis cursor
  | ternary =>
      refine (accounts .shift cursor).bind fun condition middle => .check ?_
      split
      · rename_i found
        have isMark : middle.peek.kind = .question := beq_iff_eq.mp found
        refine (Accounts.advance (by rw [isMark]; decide)).bind fun mark between =>
          (accounts .elvis between).bind fun thenBranch _ =>
            (Accounts.consume .colon (by decide) _).bind fun colon last =>
              (accounts .ternary last).bind fun elseBranch _ => .pure ?_
        rintro third spelledElse _ ⟨isColon, rfl⟩ second spelledThen _ ⟨rfl, rfl⟩ first spelled
        rw [List.append_nil]
        exact ⟨Nat.le_refl _,
          ⟨⟨spelled.admitted, spelled.laddered⟩, ⟨spelledThen.admitted, spelledThen.laddered⟩,
            spelledElse.admitted, spelledElse.laddered⟩,
          List.rel_append spelled.written (.cons (Token.writes_markAt isMark)
            (List.rel_append spelledThen.written
              (.cons (Token.writes_mark isColon) spelledElse.written)))⟩
      · refine .pure fun before spelled => ?_
        rw [List.append_nil]
        exact spelled.at_looser (by decide)
  | shift => exact looping .shift cursor
  | or => exact looping .or cursor
  | xor => exact looping .xor cursor
  | and => exact looping .and cursor
  | equality => exact looping .equality cursor
  | prefixCall =>
      refine .get ?_
      dsimp only
      split
      · rename_i declared
        have isName : cursor.peek.kind = .identifier := by simp_all
        refine (Accounts.advance (by rw [isName]; decide)).bind fun _ middle =>
          (accounts .prefixCall middle).bind fun operand _ => Accounts.fresh.bind
            fun id _ => .pure ?_
        rintro _ rfl tokens spelled _ ⟨rfl, rfl⟩
        rw [List.append_nil, List.append_nil]
        exact ⟨Nat.le_refl _, ⟨spelled.admitted, spelled.laddered⟩,
          .cons (Token.writes_name isName) spelled.written⟩
      · exact looser (by decide) cursor
  | relational => exact looping .relational cursor
  | additive => exact looping .additive cursor
  | multiplicative => exact looping .multiplicative cursor
  | infixCall =>
      exact (looser (by decide) cursor).bind fun left middle =>
        (infixChain_accounts (accounts .unary) bound left middle).weaken
          fun _ _ known before spelled => known before spelled
  | unary =>
      refine .peek ?_
      cases isUnary : unaryOp? cursor.peek.kind with
      | none => exact looser (by decide) cursor
      | some op =>
          have same := unaryOp?_kind isUnary
          have more : cursor.peek.kind ≠ .endOfInput := by
            rw [← same]
            cases op <;> decide
          refine (Accounts.advance more).bind fun operator middle =>
            (accounts .unary middle).bind fun operand _ => .pure ?_
          rintro tokens spelled _ ⟨rfl, rfl⟩
          rw [List.append_nil]
          exact ⟨Nat.le_refl _, ⟨spelled.admitted, spelled.laddered⟩,
            .cons (Token.writes_markAt same.symm) spelled.written⟩
  | call =>
      exact (looser (by decide) cursor).bind fun callee middle =>
        (suffixes_accounts (accounts .assignment) bound callee middle).weaken
          fun _ _ known before spelled => known before spelled
  | primary => exact primary_accounts builtin (accounts .assignment) bound cursor

private theorem expressionAt_accounts {grammar : Grammar} (builtin : grammar.primaries = [])
    (bound : Nat) (level : Level) (cursor : Cursor) :
    Accounts cursor (expressionAt grammar bound level) (Expr.Spelled level) := by
  induction bound generalizing level cursor with
  | zero => exact .exhausted
  | succ bound ih => exact production_accounts builtin ih bound level cursor

/-- Words written by faithful tokens are written by tokens of their kinds. -/
theorem kinds_eq_of_faithful {tokens : List Token} {words : List Word}
    (written : List.Forall₂ Token.Writes tokens words)
    (faithful : ∀ token ∈ tokens, token.Faithful) :
    tokens.map (·.kind) = words.map (·.sign.kind) := by
  induction written with
  | nil => rfl
  | cons first _ ih =>
      rw [List.forall_mem_cons] at faithful
      rw [List.map_cons, List.map_cons, first.1.kind_eq faithful.1, ih faithful.2]

/-- If no fault is reported, the tokens passed for an expression are exactly its words, each with
the place of its node, and every operand keeps to its level. Where the tokens are as a source text
has them, they also have the kinds of the words. -/
theorem expression_accounts {grammar : Grammar} {bound : Nat} {cursor later : Cursor} {expr : Expr}
    (builtin : grammar.primaries = [])
    (parsed : expressionAt grammar bound .assignment cursor = .ok expr later)
    (unreported : later.faults = cursor.faults) :
    ∃ tokens, cursor.Passes later tokens ∧ List.Forall₂ Token.Writes tokens expr.flatten ∧
      ((∀ token ∈ tokens, token.Faithful) →
        tokens.map (·.kind) = expr.flatten.map (·.sign.kind)) ∧ expr.Laddered := by
  obtain ⟨_, accounted⟩ := expressionAt_accounts builtin bound .assignment cursor expr later parsed
  obtain ⟨tokens, passes, spelled⟩ := accounted (by rw [unreported])
  exact ⟨tokens, passes, spelled.written, kinds_eq_of_faithful spelled.written, spelled.laddered⟩

/-- A token of `kind` with the given text in the given column. -/
def sampleToken (kind : TokenKind) (text : String) (column : Nat) : Token :=
  ⟨kind, text, none, ⟨1, column⟩⟩

/-- The tokens of `a = b.c(-d)`, without the end of the input. -/
def assignmentTokens : List Token :=
  [sampleToken .identifier "a" 1, sampleToken .equal "=" 3, sampleToken .identifier "b" 5,
    sampleToken .dot "." 6, sampleToken .identifier "c" 7, sampleToken .leftParen "(" 8,
    sampleToken .minus "-" 9, sampleToken .identifier "d" 10, sampleToken .rightParen ")" 11]

/-- What the parser makes of them. -/
def assignmentExpr : Expr :=
  .assign 3 "a" (.call (.get (.var 1 "b" ⟨1, 5⟩) "c" ⟨1, 7⟩)
    [.unary .negate (.var 2 "d" ⟨1, 10⟩) ⟨1, 9⟩] ⟨1, 8⟩) ⟨1, 1⟩

/-- The parser reads the expression from these tokens, which are its words. -/
theorem expression_accounts_sample :
    ∃ later, expressionAt .standard 64 .assignment
        (Cursor.ofTokens (assignmentTokens ++ [sampleToken .endOfInput "" 12]) 0) =
          .ok assignmentExpr later ∧ later.faults = #[] ∧
      (Cursor.ofTokens (assignmentTokens ++ [sampleToken .endOfInput "" 12]) 0).Passes later
        assignmentTokens ∧
      List.Forall₂ Token.Writes assignmentTokens assignmentExpr.flatten ∧
      ((∀ token ∈ assignmentTokens, token.Faithful) →
        assignmentTokens.map (·.kind) = assignmentExpr.flatten.map (·.sign.kind)) ∧
      assignmentExpr.Laddered := by
  have parsed : expressionAt .standard 64 .assignment
      (Cursor.ofTokens (assignmentTokens ++ [sampleToken .endOfInput "" 12]) 0) =
        .ok assignmentExpr _ := rfl
  obtain ⟨tokens, passes, accounted⟩ := expression_accounts rfl parsed rfl
  have rest : assignmentTokens ++ [sampleToken .endOfInput "" 12] =
      tokens ++ [sampleToken .endOfInput "" 12] := passes.rest
  obtain rfl : assignmentTokens = tokens := List.append_cancel_right rest
  exact ⟨_, parsed, rfl, passes, accounted⟩

/-- Only up to these the kinds are those of the words: a number without a value reads as the value
`nil`, and a member `constructor` named by an identifier as one named by the reserved word. -/
theorem kinds_not_told :
    (∃ later, expressionAt .standard 64 .assignment
        (Cursor.ofTokens [sampleToken .number "5" 1, sampleToken .endOfInput "" 2] 0) =
          .ok (.literal .nil ⟨1, 1⟩) later ∧ later.faults = #[] ∧
        (Cursor.ofTokens [sampleToken .number "5" 1, sampleToken .endOfInput "" 2] 0).Passes later
          [sampleToken .number "5" 1] ∧
        [sampleToken .number "5" 1].map (·.kind) ≠
          (Expr.literal .nil ⟨1, 1⟩).flatten.map (·.sign.kind)) ∧
      ∃ later, expressionAt .standard 64 .assignment
        (Cursor.ofTokens [sampleToken .identifier "a" 1, sampleToken .dot "." 2,
          sampleToken .identifier "constructor" 3, sampleToken .endOfInput "" 14] 0) =
          .ok (.get (.var 0 "a" ⟨1, 1⟩) "constructor" ⟨1, 3⟩) later ∧ later.faults = #[] ∧
        (Cursor.ofTokens [sampleToken .identifier "a" 1, sampleToken .dot "." 2,
          sampleToken .identifier "constructor" 3, sampleToken .endOfInput "" 14] 0).Passes later
          [sampleToken .identifier "a" 1, sampleToken .dot "." 2,
            sampleToken .identifier "constructor" 3] ∧
        [sampleToken .identifier "a" 1, sampleToken .dot "." 2,
            sampleToken .identifier "constructor" 3].map (·.kind) ≠
          (Expr.get (.var 0 "a" ⟨1, 1⟩) "constructor" ⟨1, 3⟩).flatten.map (·.sign.kind) := by
  refine ⟨⟨_, rfl, rfl, ⟨rfl, rfl⟩, by decide⟩, ⟨_, rfl, rfl, ⟨rfl, rfl⟩, by decide⟩⟩

end Grammar

end Scriptlet
