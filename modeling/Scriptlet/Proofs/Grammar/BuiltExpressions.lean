import Scriptlet.Proofs.Grammar.Building

/-!
# Expressions that are built

By the rules of any grammar, a parser of expressions that reports no fault builds the elements of
the expression it gives (`Grammar.BuildsExpr`): lists in parentheses keep to their limit, each node
gets the number that was free when it was made, and a name is read as an operator only where it is
known as one.
-/

namespace Scriptlet.Grammar

open Parse

variable {operand expression : Parse Expr} {cursor : Cursor}

/-- A parser of expressions builds the elements of what it gives. -/
abbrev BuildsExpr (cursor : Cursor) (parser : Parse Expr) : Prop :=
  Builds cursor parser fun expr later => cursor.Spans later expr.elements

/-! ### Loops -/

/-- What an operator of a level makes of two operands consists of itself and of these. -/
theorem Level.combine?_elements {level : Level} {kind : TokenKind}
    {make : Expr → Expr → Location → Expr} (combines : level.combine? kind = some make)
    (left right : Expr) (location : Location) :
    (make left right location).elements =
        .expr (make left right location) :: (left.elements ++ right.elements) ∧
      (Element.expr (make left right location)).Fit ∧
      (Element.expr (make left right location)).id? = none ∧
      (Element.expr (make left right location)).use? = none := by
  unfold Level.combine? at combines
  split at combines <;> cases combines <;> exact ⟨rfl, trivial, rfl, rfl⟩

private theorem chain_builds (level : Level) (builds : ∀ cursor, BuildsExpr cursor operand)
    (bound : Nat) (left : Expr) (cursor : Cursor) :
    Builds cursor (chain level operand bound left) fun result later =>
      ∀ start : Cursor, start.Spans cursor left.elements → start.Spans later result.elements := by
  induction bound generalizing left cursor with
  | zero => exact .exhausted
  | succ bound ih =>
    refine .peek ?_
    cases combines : level.combine? cursor.peek.kind with
    | none => exact .pure fun _ => id
    | some make =>
      refine Builds.advance.bind fun operator middle => (builds middle).bind fun right behind =>
        (ih (make left right operator.location) behind).weaken ?_
      rintro result later known right ⟨rfl, passed⟩ start left
      obtain ⟨elements, fit, plain⟩ := Level.combine?_elements combines _ _ cursor.peek.location
      refine known start ?_
      rw [elements]
      exact ((left.plain passed).append right).cons fit plain

private theorem infixChain_builds (builds : ∀ cursor, BuildsExpr cursor operand) (bound : Nat)
    (left : Expr) (cursor : Cursor) :
    Builds cursor (infixChain operand bound left) fun result later =>
      ∀ start : Cursor, start.Spans cursor left.elements → start.Spans later result.elements := by
  induction bound generalizing left cursor with
  | zero => exact .exhausted
  | succ bound ih =>
    refine .get ?_
    dsimp only
    split
    · rename_i declared
      simp only [Bool.and_eq_true, beq_iff_eq, List.contains_iff_mem] at declared
      obtain ⟨isName, knows⟩ := declared
      have knows : cursor.Knows .infixOperator cursor.peek.lexeme := knows
      refine Builds.advance.bind fun _ middle => (builds middle).bind fun right last =>
        Builds.fresh.bind fun id behind =>
          (ih (.infixCall id cursor.peek.lexeme left right cursor.peek.location) behind).weaken ?_
      rintro result later known ⟨rfl, rfl⟩ right ⟨rfl, passed⟩ start left
      refine known start ?_
      refine ((left.plain passed).append right).consNumbered trivial rfl ?_
      rintro kind name location ⟨⟩
      exact (left.useKnown isName knows).mono fun _ => List.mem_append_left _
    · exact .pure fun _ => id

/-- A list that is limited is no longer than the limit, or its length was reported. -/
theorem listItems_builds (builds : ∀ cursor, BuildsExpr cursor expression) (limited : Bool)
    (bound count : Nat) (cursor : Cursor) :
    Builds cursor (listItems expression limited bound count) fun items later =>
      (limited = true → count ≤ argumentLimit → count + items.length ≤ argumentLimit) ∧
        cursor.Spans later (Expr.elementsAll items) := by
  induction bound generalizing count cursor with
  | zero => exact .exhausted
  | succ bound ih =>
    have items (start : Cursor) : Builds start
        (do
          let item ← expression
          if ← accept [.comma] then
            return item :: (← listItems expression limited bound (count + 1))
          else return [item]) fun items later =>
            (limited = true → count < argumentLimit → count + items.length ≤ argumentLimit) ∧
              start.Spans later (Expr.elementsAll items) := by
      refine (builds start).bind fun item middle => (Builds.accept _).bind fun found behind => ?_
      cases found with
      | false =>
        refine .pure fun passed item => ⟨fun _ few => few, ?_⟩
        rw [Expr.elementsAll, Expr.elementsAll, List.append_nil]
        exact item.plain passed
      | true =>
        refine (ih (count + 1) behind).bind fun rest later => .pure ?_
        rintro ⟨short, rest⟩ passed item
        refine ⟨fun isLimited few => ?_, (item.plain passed).append rest⟩
        have short := short isLimited few
        rw [List.length_cons]
        omega
    unfold listItems
    split
    · exact .peek ((Builds.report _).bind fun _ start =>
        (items start).weaken fun _ _ _ impossible => impossible.elim)
    · rename_i unreported
      refine (items cursor).weaken fun _ _ known => ⟨fun isLimited few => ?_, known.2⟩
      simp only [isLimited, Bool.true_and, beq_iff_eq] at unreported
      exact known.1 isLimited (by omega)

private theorem expressionList_builds (builds : ∀ cursor, BuildsExpr cursor expression)
    (bound : Nat) (closing : TokenKind) (what : String) (cursor : Cursor) :
    Builds cursor (expressionList expression bound closing what) fun items later =>
      (closing = .rightParen → items.length ≤ argumentLimit) ∧
        cursor.Spans later (Expr.elementsAll items) := by
  refine .check ?_
  split
  · refine (Builds.scansConsume ..).bind fun _ _ => .pure fun passed => ⟨fun _ => ?_, passed⟩
    exact Nat.zero_le _
  · refine (listItems_builds builds _ bound 0 cursor).bind fun items middle =>
      (Builds.scansConsume ..).bind fun _ _ => .pure ?_
    rintro passed ⟨short, items⟩
    refine ⟨fun isParen => ?_, items.plain passed⟩
    have few := short (by rw [isParen]; rfl) (Nat.zero_le _)
    omega

private theorem suffixes_builds (builds : ∀ cursor, BuildsExpr cursor expression) (bound : Nat)
    (expr : Expr) (cursor : Cursor) :
    Builds cursor (suffixes expression bound expr) fun result later =>
      ∀ start : Cursor, start.Spans cursor expr.elements → start.Spans later result.elements := by
  induction bound generalizing expr cursor with
  | zero => exact .exhausted
  | succ bound ih =>
    refine .peek ?_
    split
    · refine Builds.advance.bind fun paren middle =>
        (expressionList_builds builds bound _ _ middle).bind fun arguments behind =>
          (ih (.call expr arguments paren.location) behind).weaken ?_
      rintro result later known ⟨short, arguments⟩ ⟨-, passed⟩ start expr
      exact known start (((expr.plain passed).append arguments).cons (short rfl) ⟨rfl, rfl⟩)
    · refine Builds.advance.bind fun _ _ => (Builds.consumeMember _).bind fun name behind =>
        (ih (.get expr name.lexeme name.location) behind).weaken ?_
      rintro result later known named ⟨-, passed⟩ start expr
      exact known start (((expr.plain passed).plain named).cons trivial ⟨rfl, rfl⟩)
    · refine Builds.advance.bind fun bracket middle => (builds middle).bind fun index _ =>
        (Builds.scansConsume ..).bind fun _ behind =>
          (ih (.getIndex expr index bracket.location) behind).weaken ?_
      rintro result later known closed index ⟨-, passed⟩ start expr
      exact known start
        (((expr.plain passed).append (index.plain closed)).cons trivial ⟨rfl, rfl⟩)
    · exact .pure fun _ => id

/-! ### Levels -/

/-- The node of a target that becomes an assignment is left out, and so is that of a member. -/
theorem assignTo_builds (target value : Expr) (equals : Location) (cursor : Cursor) :
    Builds cursor (assignTo target value equals) fun result later =>
      ∀ start : Cursor, start.Spans cursor (target.elements ++ value.elements) →
        start.Spans later result.elements := by
  unfold assignTo
  split
  · rename_i name location
    refine Builds.fresh.bind fun id _ => .pure ?_
    rintro ⟨rfl, rfl⟩ start spans
    have node : start.Spans { cursor with nextId := cursor.nextId + 1 }
        (.expr (.assign cursor.nextId name value location) :: value.elements) :=
      spans.tail.consNode trivial rfl rfl
    exact node.perm (List.perm_append_singleton ..).symm
  · refine .pure fun start spans => ?_
    exact (spans.tail.perm List.perm_append_comm).cons trivial ⟨rfl, rfl⟩
  · rename_i array index location
    refine .pure fun start spans => ?_
    have parts : start.Spans cursor (array.elements ++ index.elements ++ value.elements) :=
      spans.tail
    rw [List.append_assoc] at parts
    exact parts.cons trivial ⟨rfl, rfl⟩
  · exact (Builds.report _).bind fun _ _ => .pure fun impossible => impossible.elim

private theorem hostPrimary_offers (builds : ∀ cursor, BuildsExpr cursor expression)
    (rule : PrimaryRule)
    (cursor : Cursor) : Offers Expr.elements cursor (hostPrimary expression rule) := by
  refine .peek ?_
  cases rule with
  | decline steps => exact (Builds.skip steps).bind fun _ _ => .pure fun known => known.2
  | refuse trigger =>
    dsimp only
    split
    · exact .get (.fail _)
    · exact Offers.none
  | literal trigger value =>
    dsimp only
    split
    · exact Builds.advance.bind fun _ _ => .pure fun known => known.2.cons trivial ⟨rfl, rfl⟩
    · exact Offers.none
  | group trigger =>
    dsimp only
    split
    · exact Builds.advance.bind fun _ middle => (builds middle).bind fun _ _ => .pure
        fun inner known => (known.2.after inner).cons trivial ⟨rfl, rfl⟩
    · exact Offers.none
  | reference trigger name =>
    dsimp only
    split
    · refine Builds.advance.bind fun _ _ => Builds.fresh.bind fun _ _ => .pure ?_
      rintro ⟨rfl, rfl⟩ known
      exact known.2.consNode trivial rfl rfl
    · exact Offers.none

private theorem primary_builds (grammar : Grammar) (builds : ∀ cursor, BuildsExpr cursor expression)
    (bound : Nat) (cursor : Cursor) : BuildsExpr cursor (primary grammar expression bound) := by
  refine .peek ?_
  dsimp only
  split
  case h_7 | h_8 =>
    refine Builds.advance.bind fun _ _ => Builds.fresh.bind fun _ _ => .pure ?_
    rintro ⟨rfl, rfl⟩ known
    exact known.2.consNode trivial rfl rfl
  case h_9 =>
    refine Builds.advance.bind fun _ _ => (Builds.scansConsume ..).bind fun _ _ =>
      (Builds.consumeMember _).bind fun _ _ => Builds.fresh.bind fun _ _ => .pure ?_
    rintro ⟨rfl, rfl⟩ named dotted known
    exact ((known.2.after dotted).after named).consNode trivial rfl rfl
  case h_10 =>
    refine Builds.advance.bind fun _ middle => (builds middle).bind fun _ _ =>
      (Builds.scansConsume ..).bind fun _ _ => .pure fun closed inner known => ?_
    exact (known.2.after (inner.plain closed)).cons trivial ⟨rfl, rfl⟩
  case h_11 =>
    refine Builds.advance.bind fun _ middle =>
      (expressionList_builds builds bound _ _ middle).bind fun _ _ => .pure fun items known => ?_
    exact (known.2.after items.2).cons trivial ⟨rfl, rfl⟩
  case h_12 =>
    refine (Offers.firstOf (hostPrimary_offers builds)).bind fun result _ => ?_
    cases result with
    | some expr => exact .pure id
    | none => exact .fail _
  all_goals
    exact Builds.advance.bind fun _ _ => .pure fun known => known.2.cons trivial ⟨rfl, rfl⟩

private theorem production_builds (grammar : Grammar) {parser : Level → Parse Expr}
    (builds : ∀ level cursor, BuildsExpr cursor (parser level)) (bound : Nat) (level : Level)
    (cursor : Cursor) : BuildsExpr cursor (production grammar parser bound level) := by
  have looping (level : Level) : BuildsExpr cursor
      (do
        let left ← parser level.tighter
        chain level (parser level.tighter) bound left) :=
    (builds level.tighter cursor).bind fun left middle =>
      (chain_builds level (builds level.tighter) bound left middle).weaken
        fun _ _ known left => known cursor left
  cases level with
  | assignment =>
    refine (builds .elvis cursor).bind fun target middle => .check ?_
    split
    · refine Builds.advance.bind fun equals between => (builds .assignment between).bind
        fun value behind => (assignTo_builds target value equals.location behind).weaken ?_
      rintro result later known value ⟨-, passed⟩ target
      exact known cursor ((target.plain passed).append value)
    · exact .pure id
  | elvis => exact looping .elvis
  | ternary =>
    refine (builds .shift cursor).bind fun condition middle => .check ?_
    split
    · refine Builds.advance.bind fun mark between => (builds .elvis between).bind
        fun thenBranch _ => (Builds.scansConsume ..).bind fun _ last =>
          (builds .ternary last).bind fun elseBranch _ => .pure ?_
      rintro elseBranch coloned thenBranch ⟨-, passed⟩ condition
      exact ((condition.plain passed).append ((thenBranch.plain coloned).append elseBranch)).cons
        trivial ⟨rfl, rfl⟩
    · exact .pure id
  | shift => exact looping .shift
  | or => exact looping .or
  | xor => exact looping .xor
  | and => exact looping .and
  | equality => exact looping .equality
  | prefixCall =>
    refine .get ?_
    dsimp only
    split
    · rename_i declared
      simp only [Bool.and_eq_true, beq_iff_eq, List.contains_iff_mem] at declared
      obtain ⟨⟨⟨isName, knows⟩, _⟩, _⟩ := declared
      have knows : cursor.Knows .prefixOperator cursor.peek.lexeme := knows
      refine Builds.advance.bind fun _ middle => (builds .prefixCall middle).bind fun operand _ =>
        Builds.fresh.bind fun id _ => .pure ?_
      rintro ⟨rfl, rfl⟩ operand ⟨-, passed⟩
      refine (passed.after operand).consNumbered trivial rfl ?_
      rintro kind name location ⟨⟩
      exact (Cursor.Spans.refl.useKnown isName knows).mono fun _ => nofun
    · exact builds .relational cursor
  | relational => exact looping .relational
  | additive => exact looping .additive
  | multiplicative => exact looping .multiplicative
  | infixCall =>
    exact (builds .unary cursor).bind fun left middle =>
      (infixChain_builds (builds .unary) bound left middle).weaken
        fun _ _ known left => known cursor left
  | unary =>
    refine .peek ?_
    cases unaryOp? cursor.peek.kind with
    | none => exact builds .call cursor
    | some op =>
      exact Builds.advance.bind fun _ middle => (builds .unary middle).bind fun _ _ => .pure
        fun operand known => (known.2.after operand).cons trivial ⟨rfl, rfl⟩
  | call =>
    exact (builds .primary cursor).bind fun callee middle =>
      (suffixes_builds (builds .assignment) bound callee middle).weaken
        fun _ _ known callee => known cursor callee
  | primary => exact primary_builds grammar (builds .assignment) bound cursor

/-- However deep it may nest, an expression that is parsed is built. -/
theorem expressionAt_builds (grammar : Grammar) (bound : Nat) (level : Level) (cursor : Cursor) :
    BuildsExpr cursor (expressionAt grammar bound level) := by
  induction bound generalizing level cursor with
  | zero => exact .exhausted
  | succ bound ih => exact production_builds grammar ih bound level cursor

end Scriptlet.Grammar
