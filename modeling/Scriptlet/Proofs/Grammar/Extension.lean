import Scriptlet.Proofs.Grammar.Mirroring

/-!
# Expressions of an extended grammar

A grammar can be extended by rules that always decline, and by rules that wait for tokens of some
kinds (`Grammar.Extends`). Before tokens spared of these kinds its parsers of expressions mirror
those of the grammar that was extended (`Grammar.expressionAt_mirrors`).
-/

namespace Scriptlet

/-- A list with more elements, all of some sort, put in at any places. -/
inductive Interspersed {α : Type} (sort : α → Prop) : List α → List α → Prop
  | nil : Interspersed sort [] []
  | keep (element : α) {base extended : List α} :
      Interspersed sort base extended → Interspersed sort (element :: base) (element :: extended)
  | insert (element : α) {base extended : List α} :
      sort element → Interspersed sort base extended →
        Interspersed sort base (element :: extended)

private theorem Interspersed.refl {α : Type} {sort : α → Prop} (elements : List α) :
    Interspersed sort elements elements := by
  induction elements with
  | nil => exact .nil
  | cons first rest ih => exact .keep first ih

/-- A rule of the host that does nothing unless it finds a token of some kinds. -/
def StatementRule.WaitsFor (kinds : TokenKind → Prop) : StatementRule → Prop
  | .builtin _ => False
  | .decline _ => True
  | .print trigger | .send trigger | .block trigger | .refuse trigger => kinds trigger

/-- A rule of the host that does nothing unless it finds a token of some kinds. -/
def PrimaryRule.WaitsFor (kinds : TokenKind → Prop) : PrimaryRule → Prop
  | .decline _ => True
  | .refuse trigger | .literal trigger _ | .group trigger | .reference trigger _ => kinds trigger

/-- A grammar with more rules, all of which wait for tokens of some kinds. -/
structure Grammar.Extends (kinds : TokenKind → Prop) (base extended : Grammar) : Prop where
  statements : Interspersed (StatementRule.WaitsFor kinds) base.statements extended.statements
  primaries : Interspersed (PrimaryRule.WaitsFor kinds) base.primaries extended.primaries

/-- Every grammar extends itself. -/
theorem Grammar.Extends.refl {kinds : TokenKind → Prop} (grammar : Grammar) :
    grammar.Extends kinds grammar :=
  ⟨.refl _, .refl _⟩

/-- An expression whose nodes have later numbers. -/
abbrev Expr.later (shift : Nat) (expr : Expr) : Expr :=
  expr.relabel (· + shift) id

/-- Expressions whose nodes have later numbers. -/
abbrev Expr.laterAll (shift : Nat) (items : List Expr) : List Expr :=
  Expr.relabelAll (· + shift) id items

namespace Parse

variable {α β : Type} {kinds : TokenKind → Prop} {shift : Nat}

/-- A parser that gives nothing, and changes nothing but where the cursor stands. -/
def Declines (kinds : TokenKind → Prop) (parser : Parse (Option α)) : Prop :=
  ∀ cursor : Cursor, cursor.Spares kinds → ∃ after, parser cursor = .ok none after ∧
    { after with passed := cursor.passed, rest := cursor.rest } = cursor

namespace Declines

variable {cursor : Cursor}

/-- A parser that gives nothing declines. -/
protected theorem none : Declines kinds (pure none : Parse (Option α)) :=
  fun cursor _ => ⟨cursor, rfl, rfl⟩

/-- Skipping tokens only moves the cursor. -/
theorem skip_moves (steps : Nat) (cursor : Cursor) :
    ∃ after, Grammar.skip steps cursor = .ok () after ∧
      { after with passed := cursor.passed, rest := cursor.rest } = cursor := by
  induction steps generalizing cursor with
  | zero => exact ⟨cursor, rfl, rfl⟩
  | succ steps ih =>
      obtain ⟨after, ended, moved⟩ := ih cursor.advance
      refine ⟨after, (bind_of_ok rfl).trans ended, ?_⟩
      obtain ⟨passed, rest, faults, prefixNames, infixNames, nextId⟩ := cursor
      cases rest with
      | nil => exact moved
      | cons token rest =>
          by_cases last : token.kind == .endOfInput <;>
            simp_all [Cursor.advance, Cursor.mk.injEq]

/-- Passing some tokens and giving nothing declines. -/
protected theorem skip (steps : Nat) :
    Declines kinds (Grammar.skip steps >>= fun _ => pure none : Parse (Option α)) := by
  intro cursor _
  obtain ⟨after, ended, moved⟩ := skip_moves steps cursor
  exact ⟨after, bind_of_ok ended, moved⟩

/-- A rule whose token is not there declines. -/
protected theorem absent {condition : Bool} {parser : Parse (Option α)}
    (absent : condition = false) :
    Declines kinds (if condition then parser else pure none) := by
  rw [absent]
  exact .none

/-- What comes after a look at the cursor, where that spares the kinds. -/
protected theorem get {next : Cursor → Parse (Option α)}
    (second : ∀ cursor : Cursor, cursor.Spares kinds → Declines kinds (next cursor)) :
    Declines kinds (get >>= next) :=
  fun cursor spares => second cursor spares cursor spares

end Declines

/-- Of alternatives of which some decline, the first that gives an answer is the first of the
others that does. -/
theorem Mirrors.firstOf {Choice : Type} {sort : Choice → Prop} {move : α → β}
    {image : Choice → Parse (Option β)} {parser : Choice → Parse (Option α)}
    {base extended : List Choice} (interspersed : Interspersed sort base extended)
    (declines : ∀ choice, sort choice → Declines kinds (image choice))
    (mirrors : ∀ choice,
      Mirrors kinds shift (Option.map move) (image choice) (parser choice)) :
    Mirrors kinds shift (Option.map move) (Parse.firstOf image extended)
      (Parse.firstOf parser base) := by
  induction interspersed with
  | nil => exact .pure none
  | keep choice _ ih =>
      intro cursor spares
      unfold Parse.firstOf
      rw [get_bind, get_bind]
      obtain ⟨same, still⟩ := mirrors choice cursor spares
      cases ended : parser choice cursor with
      | error stop after =>
          rw [ended] at same still
          rw [bind_of_error ended, bind_of_error same]
          exact ⟨rfl, still⟩
      | ok answer after =>
          rw [ended] at same still
          rw [bind_of_ok ended, bind_of_ok same]
          cases answer with
          | some result => exact ⟨rfl, still⟩
          | none => exact ih { after with passed := cursor.passed, rest := cursor.rest } spares
  | insert choice idle _ ih =>
      intro cursor spares
      obtain ⟨after, ended, moved⟩ := declines choice idle (cursor.later shift) spares
      rw [Parse.firstOf, get_bind, bind_of_ok ended]
      change Parse.firstOf image _ { after with passed := _, rest := _ } = _ ∧ _
      rw [moved]
      exact ih cursor spares

end Parse

namespace Grammar

open Parse

variable {kinds : TokenKind → Prop} {shift : Nat} {base extended : Grammar}

/-- What an operator makes of its operands does not depend on their numbers. -/
theorem Level.combine?_later {level : Level} {kind : TokenKind}
    {combine : Expr → Expr → Location → Expr} (combines : level.combine? kind = some combine)
    (left right : Expr) (location : Location) :
    combine (left.later shift) (right.later shift) location =
      (combine left right location).later shift := by
  unfold Level.combine? at combines
  split at combines <;> cases combines <;> rfl

/-- Passing some tokens is mirrored. -/
theorem skip_mirrors (steps : Nat) : Mirrors kinds shift id (skip steps) (skip steps) := by
  induction steps with
  | zero => exact .pure ()
  | succ steps ih => exact Mirrors.advance.bind fun _ => ih

section Parts

variable {image expression : Parse Expr}

private theorem chain_mirrors (level : Level)
    (mirrors : Mirrors kinds shift (Expr.later shift) image expression) (bound : Nat)
    (left : Expr) :
    Mirrors kinds shift (Expr.later shift) (chain level image bound (left.later shift))
      (chain level expression bound left) := by
  induction bound generalizing left with
  | zero => exact .exhausted
  | succ bound ih =>
      refine Mirrors.peek.bind fun token => ?_
      dsimp only [id]
      cases combines : level.combine? token.kind with
      | none => exact .pure left
      | some combine =>
          refine Mirrors.advance.bind fun operator => mirrors.bind fun right => ?_
          rw [Level.combine?_later combines]
          exact ih _

private theorem infixChain_mirrors
    (mirrors : Mirrors kinds shift (Expr.later shift) image expression)
    (bound : Nat) (left : Expr) :
    Mirrors kinds shift (Expr.later shift) (infixChain image bound (left.later shift))
      (infixChain expression bound left) := by
  induction bound generalizing left with
  | zero => exact .exhausted
  | succ bound ih =>
      exact .get fun cursor _ => .ite (Mirrors.advance.bind fun _ => mirrors.bind fun right =>
        Mirrors.fresh.bind fun id => ih (.infixCall id cursor.peek.lexeme left right _))
        (.pure left)

private theorem listItems_mirrors
    (mirrors : Mirrors kinds shift (Expr.later shift) image expression)
    (limited : Bool) (bound count : Nat) :
    Mirrors kinds shift (Expr.laterAll shift) (listItems image limited bound count)
      (listItems expression limited bound count) := by
  induction bound generalizing count with
  | zero => exact .exhausted
  | succ bound ih =>
      have items : Mirrors kinds shift (Expr.laterAll shift)
          (do
            let item ← image
            if ← accept [.comma] then
              return item :: (← listItems image limited bound (count + 1))
            else return [item])
          (do
            let item ← expression
            if ← accept [.comma] then
              return item :: (← listItems expression limited bound (count + 1))
            else return [item]) :=
        mirrors.bind fun item => (Mirrors.accept [.comma]).bind fun _ =>
          .ite ((ih (count + 1)).bind fun rest => .pure (item :: rest)) (.pure [item])
      exact .ite (Mirrors.peek.bind fun _ => (Mirrors.report _).bind fun _ => items) items

private theorem expressionList_mirrors
    (mirrors : Mirrors kinds shift (Expr.later shift) image expression)
    (bound : Nat) (closing : TokenKind) (what : String) :
    Mirrors kinds shift (Expr.laterAll shift) (expressionList image bound closing what)
      (expressionList expression bound closing what) := by
  refine (Mirrors.check closing).bind fun empty => ?_
  have closed (items : List Expr) : Mirrors kinds shift (Expr.laterAll shift)
      (consume closing what >>= fun _ => pure (Expr.laterAll shift items))
      (consume closing what >>= fun _ => pure items) :=
    (Mirrors.consume closing what).bind fun _ => .pure items
  exact .ite (closed []) ((listItems_mirrors mirrors _ bound 0).bind closed)

private theorem suffixes_mirrors (mirrors : Mirrors kinds shift (Expr.later shift) image expression)
    (bound : Nat) (expr : Expr) :
    Mirrors kinds shift (Expr.later shift) (suffixes image bound (expr.later shift))
      (suffixes expression bound expr) := by
  induction bound generalizing expr with
  | zero => exact .exhausted
  | succ bound ih =>
      refine Mirrors.peek.bind fun token => ?_
      dsimp only [id]
      split
      · exact Mirrors.advance.bind fun paren => (expressionList_mirrors mirrors bound _ _).bind
          fun arguments => ih (.call expr arguments paren.location)
      · exact Mirrors.advance.bind fun _ => (Mirrors.consumeMember _).bind fun name =>
          ih (.get expr name.lexeme name.location)
      · exact Mirrors.advance.bind fun bracket => mirrors.bind fun index =>
          (Mirrors.consume _ _).bind fun _ => ih (.getIndex expr index bracket.location)
      · exact .pure expr

private theorem assignTo_mirrors (target value : Expr) (equals : Location) :
    Mirrors kinds shift (Expr.later shift)
      (assignTo (target.later shift) (value.later shift) equals)
      (assignTo target value equals) := by
  cases target with
  | var _ name place =>
      exact Mirrors.fresh.bind fun id => .pure (Expr.assign id name value place)
  | get object name place => exact .pure (Expr.set object name value place)
  | getIndex object index place => exact .pure (Expr.setIndex object index value place)
  | _ => exact (Mirrors.report _).bind fun _ => .pure _

/-- A rule that waits for tokens of the kinds declines where there are none. -/
theorem hostPrimary_declines (proper : ¬ kinds .endOfInput) (expression : Parse Expr)
    (rule : PrimaryRule) (waits : rule.WaitsFor kinds) :
    Declines kinds (hostPrimary expression rule) := by
  refine .get fun cursor spares => ?_
  have missing {trigger : TokenKind} (waited : kinds trigger) :
      (cursor.peek.kind == trigger) = false :=
    beq_eq_false_iff_ne.mpr fun same => spares.peek proper (same ▸ waited)
  cases rule with
  | decline steps => exact .skip steps
  | refuse trigger => exact .absent (missing waits)
  | literal trigger value => exact .absent (missing waits)
  | group trigger => exact .absent (missing waits)
  | reference trigger name => exact .absent (missing waits)

private theorem hostPrimary_mirrors
    (mirrors : Mirrors kinds shift (Expr.later shift) image expression) (rule : PrimaryRule) :
    Mirrors kinds shift (Option.map (Expr.later shift)) (hostPrimary image rule)
      (hostPrimary expression rule) := by
  refine Mirrors.peek.bind fun token => ?_
  cases rule with
  | decline steps => exact (skip_mirrors steps).bind fun _ => .pure none
  | refuse trigger => exact .ite (.get fun cursor _ => .fail (cursor.expected _)) (.pure none)
  | literal trigger value =>
      exact .ite (Mirrors.advance.bind fun _ => .pure (some (Expr.literal value token.location)))
        (.pure none)
  | group trigger =>
      exact .ite (Mirrors.advance.bind fun _ => mirrors.bind fun inner =>
        .pure (some (Expr.grouping inner token.location))) (.pure none)
  | reference trigger name =>
      exact .ite (Mirrors.advance.bind fun _ => Mirrors.fresh.bind fun id =>
        .pure (some (Expr.var id name token.location))) (.pure none)

private theorem primary_mirrors (proper : ¬ kinds .endOfInput)
    (extends_ : base.Extends kinds extended)
    (mirrors : Mirrors kinds shift (Expr.later shift) image expression) (bound : Nat) :
    Mirrors kinds shift (Expr.later shift) (primary extended image bound)
      (primary base expression bound) := by
  refine Mirrors.peek.bind fun token => ?_
  dsimp only [id]
  have literal : Mirrors kinds shift (Expr.later shift)
      (advance >>= fun _ => pure (.literal (token.literal.getD .nil) token.location))
      (advance >>= fun _ => pure (.literal (token.literal.getD .nil) token.location)) :=
    Mirrors.advance.bind fun _ => .pure (Expr.literal _ _)
  split
  iterate 6 exact literal
  · exact Mirrors.advance.bind fun _ => Mirrors.fresh.bind fun id =>
      .pure (Expr.var id token.lexeme token.location)
  · exact Mirrors.advance.bind fun _ => Mirrors.fresh.bind fun id =>
      .pure (Expr.thisRef id token.location)
  · exact Mirrors.advance.bind fun _ => (Mirrors.consume _ _).bind fun _ =>
      (Mirrors.consumeMember _).bind fun method => Mirrors.fresh.bind fun id =>
        .pure (Expr.superRef id method.lexeme token.location)
  · exact Mirrors.advance.bind fun _ => mirrors.bind fun inner => (Mirrors.consume _ _).bind
      fun _ => .pure (Expr.grouping inner token.location)
  · exact Mirrors.advance.bind fun _ => (expressionList_mirrors mirrors bound _ _).bind
      fun elements => .pure (Expr.array elements token.location)
  · refine (Mirrors.firstOf extends_.primaries (hostPrimary_declines proper image)
      (hostPrimary_mirrors mirrors)).bind fun found => ?_
    cases found with
    | some expr => exact .pure expr
    | none => exact .fail _

end Parts

private theorem production_mirrors (proper : ¬ kinds .endOfInput)
    (extends_ : base.Extends kinds extended) {image parser : Level → Parse Expr}
    (mirrors : ∀ level, Mirrors kinds shift (Expr.later shift) (image level) (parser level))
    (bound : Nat) (level : Level) :
    Mirrors kinds shift (Expr.later shift) (production extended image bound level)
      (production base parser bound level) := by
  have chained (level : Level) : Mirrors kinds shift (Expr.later shift)
      (image level.tighter >>= chain level (image level.tighter) bound)
      (parser level.tighter >>= chain level (parser level.tighter) bound) :=
    (mirrors _).bind (chain_mirrors level (mirrors _) bound)
  cases level with
  | assignment =>
      exact (mirrors .elvis).bind fun target => (Mirrors.check _).bind fun _ =>
        .ite (Mirrors.advance.bind fun _ => (mirrors .assignment).bind fun value =>
          assignTo_mirrors target value _) (.pure target)
  | ternary =>
      exact (mirrors .shift).bind fun condition => (Mirrors.check _).bind fun _ =>
        .ite (Mirrors.advance.bind fun mark => (mirrors .elvis).bind fun thenBranch =>
          (Mirrors.consume _ _).bind fun _ => (mirrors .ternary).bind fun elseBranch =>
            .pure (Expr.ternary condition thenBranch elseBranch mark.location)) (.pure condition)
  | prefixCall =>
      exact .get fun cursor _ => .ite (Mirrors.advance.bind fun _ =>
        (mirrors .prefixCall).bind fun operand => Mirrors.fresh.bind fun id =>
          .pure (Expr.prefixCall id cursor.peek.lexeme operand cursor.peek.location))
        (mirrors .relational)
  | infixCall => exact (mirrors .unary).bind (infixChain_mirrors (mirrors .unary) bound)
  | unary =>
      refine Mirrors.peek.bind fun token => ?_
      dsimp only [id]
      cases unaryOp? token.kind with
      | none => exact mirrors .call
      | some op =>
          exact Mirrors.advance.bind fun operator => (mirrors .unary).bind fun operand =>
            .pure (Expr.unary op operand operator.location)
  | call => exact (mirrors .primary).bind (suffixes_mirrors (mirrors .assignment) bound)
  | primary => exact primary_mirrors proper extends_ (mirrors .assignment) bound
  | elvis => exact chained .elvis
  | shift => exact chained .shift
  | or => exact chained .or
  | xor => exact chained .xor
  | and => exact chained .and
  | equality => exact chained .equality
  | relational => exact chained .relational
  | additive => exact chained .additive
  | multiplicative => exact chained .multiplicative

/-- The expression parsers of an extended grammar do what those of the grammar do. -/
theorem expressionAt_mirrors (proper : ¬ kinds .endOfInput)
    (extends_ : base.Extends kinds extended) (bound : Nat) (level : Level) :
    Mirrors kinds shift (Expr.later shift) (expressionAt extended bound level)
      (expressionAt base bound level) := by
  induction bound generalizing level with
  | zero => exact .exhausted
  | succ bound ih => exact production_mirrors proper extends_ ih bound level

end Grammar

end Scriptlet
