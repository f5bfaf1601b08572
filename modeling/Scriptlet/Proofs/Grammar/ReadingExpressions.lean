import Scriptlet.Proofs.Grammar.Ladder

/-!
# Reading expressions

Before the words of an expression, the parser of every level that admits it gives it back
(`Expr.ReadsAt`). At the levels whose operators group to the left, the left operand has been read
when the operator shows: there the run of the loop is followed, from the first operand on, to where
it stands with the whole expression in hand (`Expr.LeadsAt`). From the level of its outermost
operator an expression is carried to the looser levels (`Expr.Readable`), each of which finds
nothing of its own before or behind it.
-/

namespace Scriptlet

namespace Grammar

open Parse

/-- What a level does behind its first operand, at the levels whose operators group to the left. -/
def loopAt (parser : Level → Parse Expr) (level : Level) : Nat → Expr → Parse Expr :=
  match level with
  | .infixCall => infixChain (parser .unary)
  | .call => suffixes (parser .assignment)
  | level => chain level (parser level.tighter)

/-- Whether the operators of a level group to the left. -/
def Level.loops : Level → Bool
  | .assignment | .ternary | .prefixCall | .unary | .primary => false
  | _ => true

private theorem production_of_loops {grammar : Grammar} {parser : Level → Parse Expr} {bound : Nat}
    {level : Level} (loops : level.loops = true) :
    production grammar parser bound level =
      parser level.tighter >>= loopAt parser level bound := by
  cases level <;> first | rfl | cases loops

/-- Each level but the tightest is followed by one that is tighter by one. -/
theorem Level.rank_tighter {level : Level} (notLast : level ≠ .primary) :
    level.tighter.rank = level.rank + 1 := by
  cases level <;> first | rfl | exact absurd rfl notLast

private theorem Level.eq_of_rank {one other : Level} (same : one.rank = other.rank) :
    one = other := by
  cases one <;> cases other <;> first | rfl | cases same

/-- A loop ends before what stops its level. -/
theorem loopAt_stops {parser : Level → Parse Expr} {level : Level} (loops : level.loops = true)
    {cursor : Cursor} {known : Operators} {words : List Word} (at_ : cursor.At known words)
    (stops : level.Stops known words) (bound : Nat) (expr : Expr) :
    loopAt parser level (bound + 1) expr cursor = .ok expr cursor := by
  have chained (notSuffix : level ≠ .call) (notName : level ≠ .infixCall) :
      chain level (parser level.tighter) (bound + 1) expr cursor = .ok expr cursor := by
    rw [chain, peek_bind]
    cases combines : level.combine? cursor.peek.kind with
    | none => rfl
    | some make =>
        obtain ⟨notName, joins⟩ := Level.combine?_joins? combines
        exact absurd rfl (stops.kind_ne at_ notName joins (Nat.le_refl _))
  cases level with
  | assignment | ternary | prefixCall | unary | primary => cases loops
  | call =>
      have other {kind : TokenKind} (notName : kind ≠ .identifier)
          (joins : kind.joins? = some .call) : cursor.peek.kind ≠ kind :=
        stops.kind_ne at_ notName joins (Nat.le_refl _)
      rw [loopAt, suffixes, peek_bind]
      cases here : cursor.peek.kind with
      | leftParen | dot | leftBracket => exact absurd here (other (by decide) rfl)
      | _ => rfl
  | infixCall =>
      change (if cursor.peek.kind == .identifier && cursor.infixNames.contains cursor.peek.lexeme
        then _ else pure expr : Parse Expr) cursor = _
      rw [if_neg]
      · rfl
      · intro declared
        rw [Bool.and_eq_true, beq_iff_eq, List.contains_iff_mem, at_.infixNames] at declared
        have joins : cursor.peek.joins? known = some .infixCall := by
          unfold Token.joins?
          rw [if_pos declared.1, if_pos declared.2]
        exact absurd (stops.peek at_ _ joins) (Nat.lt_irrefl _)
  | _ => exact chained (by decide) (by decide)

end Grammar

namespace Expr

open Grammar Parse

variable {grammar : Grammar} {known : Operators} {level : Level} {expr : Expr}

/-- The parser of a level reads an expression from its words. -/
def ReadsAt (grammar : Grammar) (known : Operators) (level : Level) (expr : Expr) : Prop :=
  ∀ (cursor : Cursor) (more : List Word) (bound : Nat), cursor.At known (expr.flatten ++ more) →
    (Level.relational.Admits expr → Unprefixed known (expr.flatten ++ more)) →
    level.Stops known more → 16 * expr.flatten.length + 16 ≤ bound + level.rank →
      Reads cursor (expressionAt grammar bound level) known more (·.bare = expr.bare)

/-- The loop of a level comes to stand with an expression in hand, behind the words of it. -/
def LeadsAt (grammar : Grammar) (known : Operators) (level : Level) (expr : Expr) : Prop :=
  ∀ (cursor : Cursor) (more : List Word) (bound fuel : Nat),
    cursor.At known (expr.flatten ++ more) →
    (Level.relational.Admits expr → Unprefixed known (expr.flatten ++ more)) →
    level.tighter.Stops known more →
    16 * expr.flatten.length + 16 ≤ bound + level.tighter.rank →
      ∃ value after remaining, value.bare = expr.bare ∧ after.At known more ∧ fuel ≤ remaining ∧
        (expressionAt grammar bound level.tighter >>=
            loopAt (expressionAt grammar bound) level (fuel + expr.flatten.length)) cursor =
          loopAt (expressionAt grammar bound) level remaining value after

/-! ### From level to level -/

/-- What the tighter level reads leads the loop of a level. -/
theorem ReadsAt.leads (reads : expr.ReadsAt grammar known level.tighter) :
    expr.LeadsAt grammar known level := by
  intro cursor more bound fuel at_ unprefixed stops enough
  obtain ⟨value, after, ended, same, there⟩ := reads cursor more bound at_ unprefixed stops enough
  exact ⟨value, after, _, same, there, Nat.le_add_right _ _, bind_of_ok ended⟩

/-- Where the loop of a level is led to ends the level, if something stops it. -/
theorem LeadsAt.reads (loops : level.loops = true) (leads : expr.LeadsAt grammar known level) :
    expr.ReadsAt grammar known level := by
  intro cursor more bound at_ unprefixed stops enough
  have ranks : level.tighter.rank = level.rank + 1 := by
    refine Level.rank_tighter ?_
    rintro rfl
    cases loops
  have loose : level.rank ≤ 14 := by
    cases level <;> first | decide | cases loops
  obtain ⟨bound, rfl⟩ : ∃ smaller, bound = smaller + 1 := ⟨bound - 1, by omega⟩
  obtain ⟨fuel, enoughFuel⟩ : ∃ fuel, bound = fuel + 1 + expr.flatten.length :=
    ⟨bound - 1 - expr.flatten.length, by omega⟩
  obtain ⟨value, after, remaining, same, there, spent, run⟩ :=
    leads cursor more bound (fuel + 1) at_ unprefixed (stops.tighter (by omega)) (by omega)
  obtain ⟨remaining, rfl⟩ : ∃ rest, remaining = rest + 1 := ⟨remaining - 1, by omega⟩
  refine ⟨value, after, ?_, same, there⟩
  change production grammar (expressionAt grammar bound) bound level cursor = _
  rw [production_of_loops loops]
  rw [← enoughFuel] at run
  rw [run]
  exact loopAt_stops loops there stops remaining value

/-- A level reads what the tighter one reads. -/
theorem ReadsAt.looser (reads : expr.ReadsAt grammar known level.tighter)
    (notLast : level ≠ .primary) (laddered : expr.Laddered)
    (admitted : level.tighter.Admits expr) : expr.ReadsAt grammar known level := by
  by_cases loops : level.loops = true
  · exact reads.leads.reads loops
  intro cursor more bound at_ unprefixed stops enough
  have ranks := Level.rank_tighter notLast
  have small : level.rank ≤ 15 := by
    cases level <;> decide
  obtain ⟨bound, rfl⟩ : ∃ smaller, bound = smaller + 1 := ⟨bound - 1, by omega⟩
  have tight : Reads cursor (expressionAt grammar bound level.tighter) known more
      (·.bare = expr.bare) :=
    reads cursor more bound at_ unprefixed (stops.tighter (by omega)) (by omega)
  cases level with
  | assignment =>
      refine Reads.bind tight fun value middle same there => ?_
      exact .checkNot (stops.kind_ne there (by decide) rfl (by decide)) (.pure there same)
  | ternary =>
      refine Reads.bind tight fun value middle same there => ?_
      exact .checkNot (stops.kind_ne there (by decide) rfl (by decide)) (.pure there same)
  | prefixCall =>
      have fails := (unprefixed admitted).lookahead at_
      refine .get ?_
      dsimp only
      rw [fails]
      exact tight
  | unary =>
      obtain ⟨rest, begins⟩ := expr.flatten_eq_cons
      rw [begins] at at_
      have notUnary := expr.firstWord_notUnary laddered admitted cursor.peek at_.peek
      refine .peek ?_
      rw [notUnary]
      exact tight
  | primary => exact absurd rfl notLast
  | _ => exact absurd rfl loops

/-- An expression is read at every level that admits it, and leads the loops of such levels. -/
structure Readable (grammar : Grammar) (known : Operators) (expr : Expr) : Prop where
  reads : ∀ level : Level, level.Admits expr → expr.ReadsAt grammar known level
  leads : ∀ level : Level, level.loops = true → level.Admits expr →
    expr.LeadsAt grammar known level

/-- What is read at the level of its outermost operator is read at all looser ones. -/
theorem reads_of_own (laddered : expr.Laddered) (own : expr.ReadsAt grammar known expr.level) :
    ∀ level : Level, level.Admits expr → expr.ReadsAt grammar known level := by
  suffices climbs : ∀ (steps : Nat) (level : Level), level.rank + steps = expr.level.rank →
      expr.ReadsAt grammar known level by
    intro level admits
    exact climbs (expr.level.rank - level.rank) level (Nat.add_sub_of_le admits)
  intro steps
  induction steps with
  | zero =>
      intro level same
      rw [Level.eq_of_rank same]
      exact own
  | succ steps ih =>
      intro level below
      have notLast : level ≠ .primary := by
        rintro rfl
        have : expr.level.rank ≤ 15 := by cases expr.level <;> decide
        change 15 + _ = _ at below
        omega
      have ranks := Level.rank_tighter notLast
      exact (ih level.tighter (by omega)).looser notLast laddered
        (show level.tighter.rank ≤ expr.level.rank by omega)

/-- An expression whose level groups to the left is read everywhere, if it leads the loop of its own
level. -/
theorem readable_of_leads (laddered : expr.Laddered) (loops : expr.level.loops = true)
    (own : expr.LeadsAt grammar known expr.level) : expr.Readable grammar known := by
  have reads := reads_of_own laddered (own.reads loops)
  refine ⟨reads, fun level _ admits => ?_⟩
  by_cases same : level.rank = expr.level.rank
  · rw [Level.eq_of_rank same]
    exact own
  · have notLast : level ≠ .primary := by
      rintro rfl
      have : expr.level.rank ≤ 15 := by cases expr.level <;> decide
      have : 15 ≤ expr.level.rank := admits
      exact same (by change 15 = _; omega)
    have ranks := Level.rank_tighter notLast
    have admits : level.rank ≤ expr.level.rank := admits
    exact (reads level.tighter (show level.tighter.rank ≤ _ by omega)).leads

/-- An expression whose level does not group to the left is read everywhere, if its own level reads
it. -/
theorem readable_of_reads (laddered : expr.Laddered) (single : expr.level.loops = false)
    (own : expr.ReadsAt grammar known expr.level) : expr.Readable grammar known := by
  have reads := reads_of_own laddered own
  refine ⟨reads, fun level loops admits => ?_⟩
  have other : level.rank ≠ expr.level.rank := by
    intro same
    rw [Level.eq_of_rank same, single] at loops
    cases loops
  have ranks : level.tighter.rank = level.rank + 1 := by
    refine Level.rank_tighter ?_
    rintro rfl
    cases loops
  have admits : level.rank ≤ expr.level.rank := admits
  exact (reads level.tighter (show level.tighter.rank ≤ _ by omega)).leads

/-! ### Lists -/

/-- An expression that has a text is read from it. -/
theorem Readable.at_ (readable : expr.Readable grammar known) (shaped : expr.Shaped known)
    (admits : level.Admits expr) {cursor : Cursor} {more : List Word} (bound : Nat)
    (there : cursor.At known (expr.flatten ++ more)) (stops : level.Stops known more)
    (enough : 16 * expr.flatten.length + 16 ≤ bound + level.rank) :
    Reads cursor (expressionAt grammar bound level) known more (·.bare = expr.bare) :=
  readable.reads level admits cursor more bound there
    (fun tight => expr.unprefixed shaped.laddered shaped.named tight more) stops enough

/-- So it is where any expression may stand. -/
theorem Readable.whole (readable : expr.Readable grammar known) (shaped : expr.Shaped known)
    {cursor : Cursor} {more : List Word} (bound : Nat)
    (there : cursor.At known (expr.flatten ++ more)) (stops : Level.assignment.Stops known more)
    (enough : 16 * expr.flatten.length + 16 ≤ bound) :
    Reads cursor (expressionAt grammar bound .assignment) known more (·.bare = expr.bare) :=
  readable.at_ shaped (Nat.zero_le _) bound there stops enough

/-- The first token of an expression is read from where the words of it begin. -/
theorem startsOperand_peek {cursor : Cursor} {more : List Word}
    (there : cursor.At known (expr.flatten ++ more)) : startsOperand cursor.peek.kind = true := by
  obtain ⟨rest, begins⟩ := expr.flatten_eq_cons
  rw [begins] at there
  exact expr.firstWord_starts cursor.peek there.peek

/-- An expression has words. -/
theorem flatten_length_pos (expr : Expr) : 0 < expr.flatten.length := by
  obtain ⟨rest, begins⟩ := expr.flatten_eq_cons
  rw [begins]
  exact Nat.succ_pos _

/-- A list of expressions that have texts and are read from them. -/
structure AreReadable (grammar : Grammar) (known : Operators) (items : List Expr) : Prop where
  readable : ∀ item ∈ items, item.Readable grammar known
  shaped : ∀ item ∈ items, item.Shaped known

variable {items : List Expr} {closing : TokenKind} {cursor : Cursor} {more : List Word}

/-- A bracket that closes a list of expressions. -/
def Closes (closing : TokenKind) : Prop :=
  closing = .rightParen ∨ closing = .rightBracket

/-- Every level stops before a bracket that closes a list. -/
theorem Closes.stops (closes : Closes closing) (place : Option Location) :
    level.Stops known (⟨.mark closing, place⟩ :: more) := by
  rcases closes with rfl | rfl
  · exact Level.stops_mark .rightParen (by decide) (by simp [TokenKind.joins?]) place
  · exact Level.stops_mark .rightBracket (by decide) (by simp [TokenKind.joins?]) place

private theorem listItems_reads (areReadable : AreReadable grammar known items)
    (closes : Closes closing) (nonempty : items ≠ []) {limited : Bool} {bound fuel count : Nat}
    (few : limited = true → count + items.length ≤ argumentLimit)
    (at_ : cursor.At known (Expr.flattenList items ++ .mark closing :: more))
    (enough : 16 * (Expr.flattenList items).length + 16 ≤ bound) (fuelled : items.length ≤ fuel) :
    Reads cursor (listItems (expressionAt grammar bound .assignment) limited fuel count) known
      (.mark closing :: more) (Expr.bareAll · = Expr.bareAll items) := by
  induction items generalizing cursor count fuel with
  | nil => exact absurd rfl nonempty
  | cons item rest ih =>
      rw [List.length_cons] at few fuelled
      obtain ⟨fuel, rfl⟩ : ∃ smaller, fuel = smaller + 1 := ⟨fuel - 1, by omega⟩
      have readable := areReadable.readable item (List.mem_cons_self ..)
      have shaped := areReadable.shaped item (List.mem_cons_self ..)
      have unlimited : ¬ (limited && count == argumentLimit) = true := by
        rw [Bool.and_eq_true, beq_iff_eq]
        rintro ⟨isLimited, reached⟩
        have := few isLimited
        omega
      unfold listItems
      rw [if_neg unlimited]
      cases rest with
      | nil =>
          rw [Expr.flattenList, Expr.flattenFurther, List.append_nil] at at_ enough
          refine (readable.whole shaped bound at_ (closes.stops _) enough).bind
            fun value middle same behind => ?_
          have notComma : middle.peek.kind ≠ .comma := by
            rw [show middle.peek.kind = closing from behind.peek]
            rcases closes with rfl | rfl <;> decide
          refine (Reads.acceptNot behind notComma).bind fun found last isFalse there => ?_
          rw [isFalse]
          exact .pure there (congrArg (· :: []) same)
      | cons second others =>
          have split : Expr.flattenList (item :: second :: others) =
              item.flatten ++ .mark .comma :: Expr.flattenList (second :: others) := by
            rw [Expr.flattenList, Expr.flattenFurther_eq (List.cons_ne_nil _ _)]
          rw [split, List.append_assoc] at at_
          rw [split, List.length_append, List.length_cons] at enough
          have others : AreReadable grammar known (second :: others) :=
            ⟨fun later member => areReadable.readable later (.tail _ member),
              fun later member => areReadable.shaped later (.tail _ member)⟩
          refine (readable.whole shaped bound at_
            (Level.stops_mark .comma (by decide) (by decide) _) (by omega)).bind
              fun value middle same behind =>
              (Reads.accept behind behind.peek (by decide)).bind fun found last isTrue there => ?_
          rw [isTrue]
          refine (ih others (List.cons_ne_nil _ _) (fun isLimited => ?_) there (by omega)
            (by omega)).bind fun values after sames ends =>
              .pure ends (congrArg₂ List.cons same sames)
          have := few isLimited
          omega

/-- A list is as long as its words at most. -/
theorem length_le_flattenList (items : List Expr) :
    items.length ≤ (Expr.flattenList items).length := by
  suffices further : ∀ items : List Expr, items.length ≤ (Expr.flattenFurther items).length by
    cases items with
    | nil => exact Nat.le_refl _
    | cons first rest =>
        have := flatten_length_pos first
        have := further rest
        rw [Expr.flattenList, List.length_append, List.length_cons]
        omega
  intro items
  induction items with
  | nil => exact Nat.le_refl _
  | cons first rest ih =>
      rw [Expr.flattenFurther, List.length_cons, List.length_cons, List.length_append]
      omega

/-- A list of expressions is read from its words up to the closing bracket. -/
theorem expressionList_reads (areReadable : AreReadable grammar known items)
    (closes : Closes closing) (few : closing = .rightParen → items.length ≤ argumentLimit)
    (bound fuel : Nat) (what : String)
    (at_ : cursor.At known (Expr.flattenList items ++ .mark closing :: more))
    (enough : 16 * (Expr.flattenList items).length + 16 ≤ bound)
    (fuelled : items.length ≤ fuel) :
    Reads cursor (expressionList (expressionAt grammar bound .assignment) fuel closing what) known
      more (Expr.bareAll · = Expr.bareAll items) := by
  have proper : closing ≠ .endOfInput := by
    rcases closes with rfl | rfl <;> decide
  have ends (values : List Expr) (start : Cursor) (there : start.At known (.mark closing :: more))
      (sames : Expr.bareAll values = Expr.bareAll items) : Reads start
        (do
          let _ ← consume closing what
          return values) known more (Expr.bareAll · = Expr.bareAll items) :=
    (Reads.consumeMark there proper what).bind fun _ _ _ behind => .pure behind sames
  cases items with
  | nil => exact .check at_.peek (ends [] cursor at_ rfl)
  | cons first rest =>
      have begins : startsOperand cursor.peek.kind = true := by
        rw [Expr.flattenList, List.append_assoc] at at_
        exact startsOperand_peek at_
      have elsewhere : cursor.peek.kind ≠ closing := by
        intro same
        rw [same] at begins
        rcases closes with rfl | rfl <;> cases begins
      refine .checkNot elsewhere ((listItems_reads areReadable closes (List.cons_ne_nil _ _)
        (fun limited => ?_) at_ enough fuelled).bind fun values middle sames there =>
          ends values middle there sames)
      rw [Nat.zero_add]
      exact few (beq_iff_eq.mp limited)

end Expr

end Scriptlet
