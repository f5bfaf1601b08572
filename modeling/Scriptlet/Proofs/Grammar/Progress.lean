import Scriptlet.Grammar.Program
import Scriptlet.Proofs.Grammar.TokenAccount

/-!
# Parsers of expressions go onward and end

A parser moves its cursor over tokens that come before the first end marker, and never back beyond
where it began (`Cursor.Onward`). Each repetition passes a token, and between two tokens there is at
most one walk down the levels (`Grammar.Level.Fits`), so a parser that may nest deep enough for the
tokens to come is never stopped by its bound (`Parse.Arrives`). A host could undo this with a rule
that groups at end markers only.
-/

namespace Scriptlet

namespace Cursor

/-- How many tokens are to come. -/
def left (cursor : Cursor) : Nat := cursor.rest.length

/-- Between two places of a cursor stand tokens of which none is an end marker. -/
def Onward (cursor later : Cursor) : Prop :=
  ∃ tokens, cursor.Passes later tokens ∧ ∀ token ∈ tokens, token.kind ≠ .endOfInput

/-- A cursor has passed some token since, unless it stood at the end. -/
def Forward (cursor later : Cursor) : Prop :=
  cursor.atEnd = false → later.left < cursor.left

variable {cursor middle later : Cursor}

namespace Onward

/-- A cursor that passed nothing has gone onward. -/
theorem here (rest : later.rest = cursor.rest) (passed : later.passed = cursor.passed) :
    cursor.Onward later :=
  ⟨[], ⟨rest.symm, passed⟩, List.forall_mem_nil _⟩

/-- A cursor has gone onward from where it is. -/
theorem refl : cursor.Onward cursor := here rfl rfl

/-- A cursor that goes onward twice has gone onward. -/
theorem trans (first : cursor.Onward middle) (second : middle.Onward later) :
    cursor.Onward later := by
  obtain ⟨tokens, passes, proper⟩ := first
  obtain ⟨further, passesOn, properOn⟩ := second
  refine ⟨tokens ++ further, passes.trans passesOn, fun token member => ?_⟩
  rcases List.mem_append.mp member with member | member
  · exact proper token member
  · exact properOn token member

/-- No more tokens are to come behind a cursor that went onward. -/
theorem left_le (onward : cursor.Onward later) : later.left ≤ cursor.left := by
  obtain ⟨tokens, passes, _⟩ := onward
  unfold left
  rw [passes.rest, List.length_append]
  exact Nat.le_add_left ..

/-- A cursor that has no fewer tokens to come has not moved. -/
theorem rest_eq (onward : cursor.Onward later) (still : ¬ later.left < cursor.left) :
    later.rest = cursor.rest := by
  obtain ⟨tokens, passes, _⟩ := onward
  unfold left at still
  rw [passes.rest, List.length_append] at still
  have none : tokens = [] := List.length_eq_zero_iff.mp (by omega)
  rw [passes.rest, none, List.nil_append]

/-- Passing a token goes onward. -/
protected theorem advance : cursor.Onward cursor.advance := by
  by_cases more : cursor.peek.kind = .endOfInput
  · have stays : cursor.advance = cursor := by
      obtain ⟨passed, rest, faults, prefixNames, infixNames, nextId⟩ := cursor
      cases rest with
      | nil => rfl
      | cons token rest => exact if_pos (beq_iff_eq.mpr more)
    rw [stays]
    exact refl
  · exact ⟨[cursor.peek], .advance more, by simpa using more⟩

end Onward

private theorem left_advance (more : cursor.peek.kind ≠ .endOfInput) :
    cursor.advance.left < cursor.left := by
  have passes := Passes.advance more
  unfold left
  rw [passes.rest]
  exact Nat.lt_succ_self _

/-- Passing a token moves a cursor forward. -/
theorem forward_advance : cursor.Forward cursor.advance :=
  fun more => left_advance (beq_eq_false_iff_ne.mp more)

end Cursor

namespace Parse

variable {α β γ : Type} {cursor middle : Cursor} {parser : Parse α} {held : α → Cursor → Prop}

/-- A parser ends, and not by its bound: the cursor has gone onward, also when there is a fault,
and what is known of a value and the cursor behind it holds. -/
def Arrives (cursor : Cursor) (parser : Parse α) (held : α → Cursor → Prop) : Prop :=
  match parser cursor with
  | .ok value later => cursor.Onward later ∧ held value later
  | .error stop later => cursor.Onward later ∧ stop ≠ .exhausted

/-- A parser ends. -/
abbrev Halts (cursor : Cursor) (parser : Parse α) : Prop :=
  Arrives cursor parser fun _ _ => True

/-- A parser ends, and passes a token for a value it gives. -/
abbrev Moves (cursor : Cursor) (parser : Parse α) : Prop :=
  Arrives cursor parser fun _ later => cursor.Forward later

/-- A parser ends, and passes a token for a value that it may give. -/
abbrev MayMove (cursor : Cursor) (parser : Parse (Option α)) : Prop :=
  Arrives cursor parser fun result later => result.isSome → cursor.Forward later

namespace Arrives

/-- A parser that gives a value, with the cursor gone onward, arrives. -/
theorem of_ok {value : α} {later : Cursor} (ended : parser cursor = .ok value later)
    (onward : cursor.Onward later) (known : held value later) : Arrives cursor parser held := by
  unfold Arrives
  rw [ended]
  exact ⟨onward, known⟩

/-- A parser that arrives has gone onward to what it gives. -/
theorem ok (ends : Arrives cursor parser held) {value : α} {later : Cursor}
    (ended : parser cursor = .ok value later) : cursor.Onward later ∧ held value later := by
  unfold Arrives at ends
  rw [ended] at ends
  exact ends

/-- A parser that arrives and stops has gone onward, and did not stop for its bound. -/
theorem stop (ends : Arrives cursor parser held) {stop : ParseStop} {later : Cursor}
    (ended : parser cursor = .error stop later) : cursor.Onward later ∧ stop ≠ .exhausted := by
  unfold Arrives at ends
  rw [ended] at ends
  exact ends

/-- Giving a value arrives where the cursor is. -/
protected theorem pure {value : α} (known : held value cursor) : Arrives cursor (pure value) held :=
  ⟨.refl, known⟩

/-- A parser that fails arrives where the cursor is. -/
protected theorem fail (fault : Located ParseFault) : Arrives cursor (Parse.fail fault) held :=
  ⟨.refl, nofun⟩

/-- What comes second begins where no more tokens are to come. -/
protected theorem bind {next : α → Parse β} {holds : β → Cursor → Prop}
    (first : Arrives cursor parser held)
    (rest : ∀ value middle, middle.left ≤ cursor.left → held value middle →
      Arrives middle (next value) holds) : Arrives cursor (parser >>= next) holds := by
  unfold Arrives
  cases ended : parser cursor with
  | error stop middle =>
    rw [bind_of_error ended]
    exact first.stop ended
  | ok value middle =>
    obtain ⟨onward, known⟩ := first.ok ended
    have second := rest value middle onward.left_le known
    rw [bind_of_ok ended]
    cases endedOn : next value middle with
    | ok result later =>
      obtain ⟨onwardOn, holds⟩ := second.ok endedOn
      exact ⟨onward.trans onwardOn, holds⟩
    | error stop later =>
      obtain ⟨onwardOn, proper⟩ := second.stop endedOn
      exact ⟨onward.trans onwardOn, proper⟩

/-- Less may be said of where a parser arrives. -/
protected theorem weaken {holds : α → Cursor → Prop} (ends : Arrives cursor parser held)
    (implied : ∀ value later, later.left ≤ cursor.left → held value later → holds value later) :
    Arrives cursor parser holds := by
  unfold Arrives
  cases ended : parser cursor with
  | ok value later =>
    obtain ⟨onward, known⟩ := ends.ok ended
    exact ⟨onward, implied value later onward.left_le known⟩
  | error stop later => exact ends.stop ended

/-- A parser that arrives ends. -/
theorem halts (ends : Arrives cursor parser held) : Halts cursor parser :=
  ends.weaken fun _ _ _ _ => trivial

/-- A token that was passed before stays passed. -/
theorem behind (passed : middle.left < cursor.left) (ends : Halts middle parser) :
    Arrives middle parser fun _ later => later.left < cursor.left :=
  ends.weaken fun _ _ fewer _ => Nat.lt_of_le_of_lt fewer passed

/-- What ends behind a cursor that moved forward leaves one that has moved forward. -/
theorem forward (moved : cursor.Forward middle) (ends : Halts middle parser) :
    Arrives middle parser fun _ later => cursor.Forward later :=
  ends.weaken fun _ _ fewer _ more => Nat.lt_of_le_of_lt fewer (moved more)

/-- What may give something behind a cursor that moved forward has moved forward if it does. -/
theorem mayForward {parser : Parse (Option α)} (moved : cursor.Forward middle)
    (ends : Halts middle parser) :
    Arrives middle parser fun result later => result.isSome → cursor.Forward later :=
  (ends.forward moved).weaken fun _ _ _ known _ => known

/-- A look at the cursor goes nowhere. -/
protected theorem get {next : Cursor → Parse α} (rest : Arrives cursor (next cursor) held) :
    Arrives cursor (get >>= next) held :=
  rest

/-- A look at the next token goes nowhere. -/
protected theorem peek {next : Token → Parse α} (rest : Arrives cursor (next cursor.peek) held) :
    Arrives cursor (Parse.peek >>= next) held :=
  rest

/-- Checking the kind of the next token goes nowhere. -/
protected theorem check {kind : TokenKind} {next : Bool → Parse α}
    (rest : Arrives cursor (next (cursor.isAt kind)) held) :
    Arrives cursor (Parse.check kind >>= next) held :=
  rest

/-- Reporting a fault ends. -/
protected theorem report (fault : Located ParseFault) : Halts cursor (Parse.report fault) :=
  ⟨.here rfl rfl, trivial⟩

/-- Giving out a number ends. -/
protected theorem fresh : Halts cursor Parse.fresh := ⟨.here rfl rfl, trivial⟩

/-- Passing a token moves. -/
protected theorem advance : Moves cursor Parse.advance := ⟨.advance, cursor.forward_advance⟩

/-- A token of another kind than the end is passed. -/
theorem advanceAt {kind : TokenKind} (isHere : cursor.peek.kind = kind)
    (proper : kind ≠ .endOfInput) :
    Arrives cursor Parse.advance fun _ later => later.left < cursor.left :=
  ⟨.advance, cursor.left_advance (isHere ▸ proper)⟩

/-- Passing a token that is to be there ends. -/
protected theorem consume (kind : TokenKind) (what : String) :
    Halts cursor (Parse.consume kind what) := by
  refine .check ?_
  split
  · exact Arrives.advance.halts
  · exact .get (.fail _)

/-- A token of another kind than the end is passed where it is asked for. -/
theorem consumes {kind : TokenKind} (proper : kind ≠ .endOfInput) (what : String) :
    Arrives cursor (Parse.consume kind what) fun _ later => later.left < cursor.left := by
  refine .check ?_
  split
  · rename_i found
    exact .advanceAt (beq_iff_eq.mp found) proper
  · exact .get (.fail _)

/-- Passing the name of a member ends. -/
protected theorem consumeMember (what : String) : Halts cursor (Parse.consumeMember what) := by
  refine .check ?_
  split
  · exact Arrives.advance.halts
  · exact .consume ..

/-- A token that is accepted is passed. -/
protected theorem accept {kind : TokenKind} (proper : kind ≠ .endOfInput) :
    Arrives cursor (Parse.accept [kind])
      fun found later => found = true → later.left < cursor.left := by
  refine .peek ?_
  by_cases isHere : cursor.peek.kind = kind
  · rw [if_pos (by simp [isHere])]
    exact (Arrives.advanceAt isHere proper).bind fun _ _ _ passed => .pure fun _ => passed
  · rw [if_neg (by simpa using isHere)]
    exact .pure nofun

/-- Passing some tokens moves forward, if it is to pass any. -/
protected theorem skip (steps : Nat) :
    Arrives cursor (Grammar.skip steps) fun _ later => 0 < steps → cursor.Forward later := by
  induction steps generalizing cursor with
  | zero => exact .pure nofun
  | succ steps ih =>
    exact Arrives.advance.bind fun _ _ _ moved =>
      (ih.halts.forward moved).weaken fun _ _ _ known _ => known

/-- Of some alternatives that end, and move for what they give, so does the first that gives
something; if none does, the cursor stays where it is. -/
protected theorem firstOf {choose : γ → Parse (Option α)} {alternatives : List γ}
    (choice : ∀ alternative ∈ alternatives, ∀ start : Cursor, start.left = cursor.left →
      MayMove start (choose alternative)) :
    Arrives cursor (Parse.firstOf choose alternatives) fun result later =>
      if result.isSome then cursor.Forward later else cursor.Passes later [] := by
  induction alternatives generalizing cursor with
  | nil => exact .pure ⟨rfl, rfl⟩
  | cons alternative others ih =>
    have chosen := choice alternative List.mem_cons_self cursor rfl
    unfold Arrives
    cases ended : choose alternative cursor with
    | error stop middle =>
      rw [Parse.firstOf, get_bind, bind_of_error ended]
      exact chosen.stop ended
    | ok result middle =>
      cases result with
      | some value =>
        rw [Parse.firstOf, get_bind, bind_of_ok ended]
        obtain ⟨onward, moved⟩ := chosen.ok ended
        exact ⟨onward, moved rfl⟩
      | none =>
        -- The cursor is put back, so what follows runs from a cursor at the same place.
        let back : Cursor := { middle with passed := cursor.passed, rest := cursor.rest }
        have run : Parse.firstOf choose (alternative :: others) cursor =
            Parse.firstOf choose others back := bind_of_ok ended
        have further := @ih back fun other member start same =>
          choice other (List.mem_cons_of_mem _ member) start same
        have aside : cursor.Onward back := .here rfl rfl
        rw [run]
        cases endedOn : Parse.firstOf choose others back with
        | error stop later =>
          obtain ⟨onward, proper⟩ := further.stop endedOn
          exact ⟨aside.trans onward, proper⟩
        | ok result later =>
          obtain ⟨onward, moved⟩ := further.ok endedOn
          refine ⟨aside.trans onward, ?_⟩
          cases result with
          | some value => exact moved
          | none => exact ⟨moved.rest, moved.passed⟩

end Arrives

end Parse

namespace Grammar

open Parse

variable {operand expression : Parse Expr} {limit : Nat} {cursor : Cursor}

/-! ### Loops -/

private theorem chain_halts (level : Level)
    (halts : ∀ cursor : Cursor, cursor.left < limit → Halts cursor operand) {bound : Nat}
    (deep : cursor.left < bound) (within : cursor.left ≤ limit) (left : Expr) :
    Halts cursor (chain level operand bound left) := by
  induction bound generalizing left cursor with
  | zero => exact absurd deep (Nat.not_lt_zero _)
  | succ bound ih =>
    refine .peek ?_
    cases combines : level.combine? cursor.peek.kind with
    | none => exact .pure trivial
    | some make =>
      have more : cursor.peek.kind ≠ .endOfInput := by
        intro ends
        rw [ends, level.combine?_endOfInput] at combines
        cases combines
      exact (Arrives.advanceAt rfl more).bind fun _ middle _ passed =>
        (halts middle (by omega)).bind fun _ _ _ _ => ih (by omega) (by omega) _

private theorem infixChain_halts
    (halts : ∀ cursor : Cursor, cursor.left < limit → Halts cursor operand) {bound : Nat}
    (deep : cursor.left < bound) (within : cursor.left ≤ limit) (left : Expr) :
    Halts cursor (infixChain operand bound left) := by
  induction bound generalizing left cursor with
  | zero => exact absurd deep (Nat.not_lt_zero _)
  | succ bound ih =>
    refine .get ?_
    dsimp only
    split
    · rename_i declared
      have isName : cursor.peek.kind = .identifier := by simp_all
      exact (Arrives.advanceAt isName (by decide)).bind fun _ middle _ passed =>
        (halts middle (by omega)).bind fun _ _ _ _ => Arrives.fresh.bind fun _ _ _ _ =>
          ih (by omega) (by omega) _
    · exact .pure trivial

private theorem listItems_halts
    (halts : ∀ cursor : Cursor, cursor.left < limit → Halts cursor expression) (limited : Bool)
    {bound : Nat} (deep : cursor.left < bound) (within : cursor.left < limit) (count : Nat) :
    Halts cursor (listItems expression limited bound count) := by
  induction bound generalizing count cursor with
  | zero => exact absurd deep (Nat.not_lt_zero _)
  | succ bound ih =>
    have items (start : Cursor) (fewer : start.left ≤ cursor.left) : Halts start
        (do
          let item ← expression
          if ← accept [.comma] then
            return item :: (← listItems expression limited bound (count + 1))
          else return [item]) := by
      refine (halts start (by omega)).bind fun _ middle _ _ =>
        (Arrives.accept (by decide)).bind fun found _ _ passed => ?_
      cases found with
      | false => exact .pure trivial
      | true =>
        have fewer := passed rfl
        exact (ih (by omega) (by omega) _).bind fun _ _ _ _ => .pure trivial
    unfold listItems
    split
    · exact .peek ((Arrives.report _).bind fun _ middle fewer _ => items middle fewer)
    · exact items cursor (Nat.le_refl _)

private theorem expressionList_halts
    (halts : ∀ cursor : Cursor, cursor.left < limit → Halts cursor expression) {bound : Nat}
    (deep : cursor.left < bound) (within : cursor.left < limit) (closing : TokenKind)
    (what : String) : Halts cursor (expressionList expression bound closing what) := by
  refine .check ?_
  split
  · exact (Arrives.consume ..).bind fun _ _ _ _ => .pure trivial
  · exact (listItems_halts halts _ deep within 0).bind fun _ _ _ _ =>
      (Arrives.consume ..).bind fun _ _ _ _ => .pure trivial

private theorem suffixes_halts
    (halts : ∀ cursor : Cursor, cursor.left < limit → Halts cursor expression) {bound : Nat}
    (deep : cursor.left < bound) (within : cursor.left ≤ limit) (expr : Expr) :
    Halts cursor (suffixes expression bound expr) := by
  induction bound generalizing expr cursor with
  | zero => exact absurd deep (Nat.not_lt_zero _)
  | succ bound ih =>
    refine .peek ?_
    split
    · rename_i isParen
      exact (Arrives.advanceAt isParen (by decide)).bind fun _ _ _ passed =>
        (expressionList_halts halts (by omega) (by omega) _ _).bind fun _ _ _ _ =>
          ih (by omega) (by omega) _
    · rename_i isDot
      exact (Arrives.advanceAt isDot (by decide)).bind fun _ _ _ passed =>
        (Arrives.consumeMember _).bind fun _ _ _ _ => ih (by omega) (by omega) _
    · rename_i isBracket
      exact (Arrives.advanceAt isBracket (by decide)).bind fun _ middle _ passed =>
        (halts middle (by omega)).bind fun _ _ _ _ => (Arrives.consume ..).bind fun _ _ _ _ =>
          ih (by omega) (by omega) _
    · exact .pure trivial

/-! ### Levels -/

private theorem assignTo_halts (target value : Expr) (equals : Location) :
    Halts cursor (assignTo target value equals) := by
  unfold assignTo
  split
  · exact Arrives.fresh.bind fun _ _ _ _ => .pure trivial
  · exact .pure trivial
  · exact .pure trivial
  · exact (Arrives.report _).bind fun _ _ _ _ => .pure trivial

/-- A rule of the host passes a token for what it gives. An expression that it groups comes behind
this token. -/
theorem hostPrimary_moves
    (halts : ∀ cursor : Cursor, cursor.left < limit → Halts cursor expression)
    (within : cursor.left ≤ limit) {rule : PrimaryRule} (proper : rule ≠ .group .endOfInput) :
    MayMove cursor (hostPrimary expression rule) := by
  refine .peek ?_
  cases rule with
  | decline steps => exact (Arrives.skip steps).bind fun _ _ _ _ => .pure nofun
  | refuse trigger =>
    dsimp only
    split
    · exact .get (.fail _)
    · exact .pure nofun
  | literal trigger value =>
    dsimp only
    split
    · exact Arrives.advance.bind fun _ _ _ moved => .pure fun _ => moved
    · exact .pure nofun
  | group trigger =>
    dsimp only
    split
    · rename_i found
      have isTrigger : cursor.peek.kind = trigger := beq_iff_eq.mp found
      have proper : trigger ≠ .endOfInput := fun same => proper (congrArg PrimaryRule.group same)
      refine (Arrives.advanceAt isTrigger proper).bind fun _ middle _ passed => ?_
      exact (Arrives.bind (halts middle (by omega)) fun _ _ _ _ => .pure trivial).mayForward
        fun _ => passed
    · exact .pure nofun
  | reference trigger name =>
    dsimp only
    split
    · exact Arrives.advance.bind fun _ _ _ moved =>
        (Arrives.fresh.bind fun _ _ _ _ => .pure trivial).mayForward moved
    · exact .pure nofun

private theorem primary_moves {grammar : Grammar} (proper : .group .endOfInput ∉ grammar.primaries)
    (halts : ∀ start : Cursor, start.left < cursor.left → Halts start expression) {bound : Nat}
    (deep : cursor.left ≤ bound) : Moves cursor (primary grammar expression bound) := by
  refine .peek ?_
  dsimp only
  split
  case h_7 =>
    exact Arrives.advance.bind fun _ _ _ moved =>
      (Arrives.fresh.bind fun _ _ _ _ => .pure trivial).forward moved
  case h_8 =>
    exact Arrives.advance.bind fun _ _ _ moved =>
      (Arrives.fresh.bind fun _ _ _ _ => .pure trivial).forward moved
  case h_9 =>
    exact Arrives.advance.bind fun _ _ _ moved =>
      ((Arrives.consume ..).bind fun _ _ _ _ => (Arrives.consumeMember _).bind fun _ _ _ _ =>
        Arrives.fresh.bind fun _ _ _ _ => .pure trivial).forward moved
  case h_10 isParen =>
    refine (Arrives.advanceAt isParen (by decide)).bind fun _ middle _ passed => ?_
    exact ((halts middle passed).bind fun _ _ _ _ => (Arrives.consume ..).bind fun _ _ _ _ =>
      .pure trivial).forward fun _ => passed
  case h_11 isBracket =>
    refine (Arrives.advanceAt isBracket (by decide)).bind fun _ middle _ passed => ?_
    exact ((expressionList_halts halts (by omega) passed _ _).bind fun _ _ _ _ =>
      .pure trivial).forward fun _ => passed
  case h_12 =>
    refine (Arrives.firstOf fun rule member start same => hostPrimary_moves
      (fun later fewer => halts later (by omega)) (Nat.le_refl start.left) ?_).bind ?_
    · rintro rfl
      exact proper member
    · intro result middle _ known
      cases result with
      | some expr => exact .pure known
      | none => exact .fail _
  all_goals exact Arrives.advance.bind fun _ _ _ moved => .pure moved

private theorem Level.rank_le_primary (level : Level) : level.rank ≤ Level.primary.rank := by
  cases level <;> decide

/-- A depth that is enough for a level on the tokens to come: one walk down the levels for each of
them, and the rest of a walk for the current one. -/
def Level.Fits (level : Level) (cursor : Cursor) (bound : Nat) : Prop :=
  17 * cursor.left + 16 ≤ bound + level.rank

namespace Level.Fits

variable {level : Level} {bound : Nat}

private theorem tighter (fits : level.Fits cursor (bound + 1)) {tight : Level}
    (ranks : level.rank < tight.rank) : tight.Fits cursor bound := by
  unfold Fits at fits ⊢
  omega

/-- Behind a token there is depth for a new walk. -/
theorem later (fits : level.Fits cursor (bound + 1)) {behind : Cursor}
    (passed : behind.left < cursor.left) (next : Level) : next.Fits behind bound := by
  have tightest : level.rank ≤ 15 := level.rank_le_primary
  unfold Fits at fits ⊢
  omega

private theorem left_le (fits : level.Fits cursor (bound + 1)) : cursor.left ≤ bound := by
  have tightest : level.rank ≤ 15 := level.rank_le_primary
  unfold Fits at fits
  omega

private theorem left_lt (fits : level.Fits cursor (bound + 1))
    (loose : level.rank < Level.primary.rank) :
    cursor.left < bound := by
  have tightest : Level.primary.rank = 15 := rfl
  unfold Fits at fits
  omega

end Level.Fits

section Levels

variable {grammar : Grammar} {parser : Level → Parse Expr} {bound : Nat}

private theorem production_moves (proper : .group .endOfInput ∉ grammar.primaries)
    (ready : ∀ level (start : Cursor), level.Fits start bound → Moves start (parser level))
    {level : Level} (fits : level.Fits cursor (bound + 1)) :
    Moves cursor (production grammar parser bound level) := by
  have behind (next : Level) (start : Cursor) (passed : start.left < cursor.left) :
      Halts start (parser next) := (ready next start (fits.later passed next)).halts
  have looping (loose : level.rank < level.tighter.rank) : Moves cursor
      (do
        let left ← parser level.tighter
        chain level (parser level.tighter) bound left) := by
    have enough := fits.left_lt (Nat.lt_of_lt_of_le loose level.tighter.rank_le_primary)
    exact (ready level.tighter cursor (fits.tighter loose)).bind fun _ _ fewer moved =>
      (chain_halts level (behind level.tighter) (by omega) fewer _).forward moved
  cases level with
  | assignment =>
    refine (ready .elvis cursor (fits.tighter (by decide))).bind fun target middle fewer moved =>
      .check ?_
    split
    · rename_i found
      have isEqual : middle.peek.kind = .equal := beq_iff_eq.mp found
      exact ((Arrives.advanceAt isEqual (by decide)).bind fun _ between _ passed =>
        (behind .assignment between (by omega)).bind fun _ _ _ _ =>
          assignTo_halts ..).forward moved
    · exact .pure moved
  | elvis => exact looping (by decide)
  | ternary =>
    refine (ready .shift cursor (fits.tighter (by decide))).bind fun condition middle fewer moved =>
      .check ?_
    split
    · rename_i found
      have isMark : middle.peek.kind = .question := beq_iff_eq.mp found
      exact ((Arrives.advanceAt isMark (by decide)).bind fun _ between _ passed =>
        (behind .elvis between (by omega)).bind fun _ _ _ _ => (Arrives.consume ..).bind
          fun _ last _ _ => (behind .ternary last (by omega)).bind fun _ _ _ _ =>
            .pure trivial).forward moved
    · exact .pure moved
  | shift => exact looping (by decide)
  | or => exact looping (by decide)
  | xor => exact looping (by decide)
  | and => exact looping (by decide)
  | equality => exact looping (by decide)
  | prefixCall =>
    refine .get ?_
    dsimp only
    split
    · rename_i declared
      have isName : cursor.peek.kind = .identifier := by simp_all
      refine (Arrives.advanceAt isName (by decide)).bind fun _ middle _ passed => ?_
      exact ((behind .prefixCall middle passed).bind fun _ _ _ _ => Arrives.fresh.bind
        fun _ _ _ _ => .pure trivial).forward fun _ => passed
    · exact ready .relational cursor (fits.tighter (by decide))
  | relational => exact looping (by decide)
  | additive => exact looping (by decide)
  | multiplicative => exact looping (by decide)
  | infixCall =>
    have enough := fits.left_lt (by decide)
    exact (ready .unary cursor (fits.tighter (by decide))).bind fun _ _ fewer moved =>
      (infixChain_halts (behind .unary) (by omega) fewer _).forward moved
  | unary =>
    refine .peek ?_
    cases isUnary : unaryOp? cursor.peek.kind with
    | none => exact ready .call cursor (fits.tighter (by decide))
    | some op =>
      have more : cursor.peek.kind ≠ .endOfInput := by
        rw [← unaryOp?_kind isUnary]
        cases op <;> decide
      refine (Arrives.advanceAt rfl more).bind fun _ middle _ passed => ?_
      exact ((behind .unary middle passed).bind fun _ _ _ _ => .pure trivial).forward
        fun _ => passed
  | call =>
    have enough := fits.left_lt (by decide)
    exact (ready .primary cursor (fits.tighter (by decide))).bind fun _ _ fewer moved =>
      (suffixes_halts (behind .assignment) (by omega) fewer _).forward moved
  | primary => exact primary_moves proper (behind .assignment) fits.left_le

/-- With enough depth, an expression of any level ends, and passes a token if it is one. -/
theorem expressionAt_moves (proper : .group .endOfInput ∉ grammar.primaries) {level : Level}
    (fits : level.Fits cursor bound) : Moves cursor (expressionAt grammar bound level) := by
  induction bound generalizing level cursor with
  | zero =>
    have tightest : level.rank ≤ 15 := level.rank_le_primary
    unfold Level.Fits at fits
    omega
  | succ bound ih => exact production_moves proper (fun _ _ => ih) fits

end Levels

end Grammar

end Scriptlet
