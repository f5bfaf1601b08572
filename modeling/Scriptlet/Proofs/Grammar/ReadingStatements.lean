import Scriptlet.Proofs.Grammar.ReadingForms

/-!
# Reading statements

The first two tokens of a statement tell which rule of the language reads it (`Grammar.ruleFor?`);
the other rules decline and leave the cursor where it is. Each rule is followed over the words of
its form, from what is known of the statements inside.
-/

namespace Scriptlet

open Grammar Parse

/-- The rule of the language for what begins with tokens of two kinds. -/
def Grammar.ruleFor? : TokenKind → TokenKind → Option BuiltinRule
  | .word .varWord, _ | .word .finalWord, .word .varWord => some .varDecl
  | .word .funWord, _ | .word .finalWord, .word .funWord | .word .prefixWord, .word .funWord
  | .word .infixWord, .word .funWord => some .function
  | .word .nativeWord, _ => some .nativeFunction
  | .word .classWord, _ | .word .finalWord, .word .classWord => some .classDecl
  | .word .ifWord, _ => some .ifElse
  | .word .whileWord, _ => some .whileLoop
  | .word .doWord, _ => some .doWhile
  | .word .repeatWord, _ => some .repeatLoop
  | .leftBrace, _ => some .block
  | .word .returnWord, _ => some .returning
  | .word .breakWord, _ => some .breaking
  | .word .continueWord, _ => some .continuing
  | .word .printWord, _ => some .print
  | .word .testWord, _ => some .test
  | .word .moduleWord, _ => some .moduleDecl
  | _, _ => none

/-- No rule reads what begins as an operand does. -/
theorem Grammar.ruleFor?_of_startsOperand {first : TokenKind} (starts : startsOperand first = true)
    (second : TokenKind) : ruleFor? first second = none := by
  unfold startsOperand at starts
  split at starts <;> first | rfl | cases starts

/-- The rule for a function is that of the functions whose head it is. -/
theorem Grammar.functionHead?_eq_none {first second : TokenKind}
    (other : ruleFor? first second ≠ some .function) : functionHead? first second = none := by
  unfold functionHead?
  split
  · exact absurd rfl other
  · exact absurd rfl other
  · exact absurd rfl other
  · exact absurd rfl other
  · rfl

/-- A cursor is not at a kind that the next token is not of. -/
theorem Cursor.isAt_eq_false {cursor : Cursor} {kind : TokenKind}
    (other : cursor.peek.kind ≠ kind) : cursor.isAt kind = false :=
  beq_eq_false_iff_ne.mpr other

/-- A cursor is at the kind of the next token. -/
theorem Cursor.isAt_eq_true {cursor : Cursor} {kind : TokenKind} (same : cursor.peek.kind = kind) :
    cursor.isAt kind = true :=
  beq_iff_eq.mpr same

section Declining

variable {parts : Parts} {cursor : Cursor}

private theorem afterWord_declines {word : Keyword} {rest : Location → Parse Statement}
    (other : cursor.peek.kind ≠ .word word) : afterWord word rest cursor = .ok none cursor := by
  change (if cursor.isAt (.word word) then _ else pure none : Parse (Option Statement)) cursor = _
  rw [Cursor.isAt_eq_false other]
  rfl

/-- The declaration with some word, maybe final, is not what two tokens begin. -/
theorem not_declares (first second : TokenKind) (word : Keyword)
    (plain : first ≠ .word word) (final_ : first = .word .finalWord → second ≠ .word word) :
    (first == .word .finalWord && second == .word word || first == .word word) = false := by
  rw [Bool.or_eq_false_iff, Bool.and_eq_false_iff]
  refine ⟨?_, beq_eq_false_iff_ne.mpr plain⟩
  by_cases isFinal : first = .word .finalWord
  · exact .inr (beq_eq_false_iff_ne.mpr (final_ isFinal))
  · exact .inl (beq_eq_false_iff_ne.mpr isFinal)

/-- A rule declines what another one reads. -/
theorem builtin_declines {rule : BuiltinRule}
    (other : ruleFor? cursor.peek.kind cursor.peekNext.kind ≠ some rule) :
    builtin parts rule cursor = .ok none cursor := by
  cases rule with
  | varDecl =>
      have declines := not_declares cursor.peek.kind cursor.peekNext.kind .varWord
        (fun same => other (by rw [same]; rfl))
        (fun same again => other (by rw [same, again]; rfl))
      change (if (cursor.isAt (.word .finalWord) && cursor.nextIs (.word .varWord) ||
        cursor.isAt (.word .varWord)) = true then _ else pure none : Parse (Option Statement))
          cursor = _
      rw [if_neg (by rw [Bool.not_eq_true]; exact declines)]
      rfl
  | classDecl =>
      have declines := not_declares cursor.peek.kind cursor.peekNext.kind .classWord
        (fun same => other (by rw [same]; rfl))
        (fun same again => other (by rw [same, again]; rfl))
      change (if (cursor.isAt (.word .finalWord) && cursor.nextIs (.word .classWord) ||
        cursor.isAt (.word .classWord)) = true then _ else pure none : Parse (Option Statement))
          cursor = _
      rw [if_neg (by rw [Bool.not_eq_true]; exact declines)]
      rfl
  | function =>
      rw [builtin, function, get_bind, functionHead?_eq_none other]
      rfl
  | nativeFunction =>
      have elsewhere : cursor.peek.kind ≠ .word .nativeWord := fun same => other (by rw [same]; rfl)
      change (if cursor.isAt (.word .nativeWord) then _ else pure none : Parse (Option Statement))
        cursor = _
      rw [Cursor.isAt_eq_false elsewhere]
      rfl
  | block =>
      have elsewhere : cursor.peek.kind ≠ .leftBrace := fun same => other (by rw [same]; rfl)
      change (if cursor.isAt .leftBrace then _ else pure none : Parse (Option Statement)) cursor = _
      rw [Cursor.isAt_eq_false elsewhere]
      rfl
  | breaking | continuing =>
      unfold builtin
      exact afterWord_declines fun same => other (by rw [same]; rfl)
  | _ => exact afterWord_declines fun same => other (by rw [same]; rfl)

/-- The rules are tried until the one that reads the statement. -/
theorem firstOf_picks {rule : BuiltinRule} {result : Statement} {after : Cursor}
    (begins : ruleFor? cursor.peek.kind cursor.peekNext.kind = some rule)
    (reads : builtin parts rule cursor = .ok (some result) after) {rules : List BuiltinRule}
    (listed : rule ∈ rules) :
    firstOf (byRule parts) (rules.map .builtin) cursor = .ok (some result) after := by
  induction rules with
  | nil => cases listed
  | cons first others ih =>
      by_cases picked : first = rule
      · subst picked
        exact bind_of_ok reads
      · have declined : byRule parts (.builtin first) cursor = .ok none cursor := by
          refine builtin_declines ?_
          rw [begins]
          exact fun same => picked (Option.some.inj same).symm
        have later : rule ∈ others := (List.mem_cons.mp listed).resolve_left (Ne.symm picked)
        exact (bind_of_ok declined).trans (ih later)

/-- Where a statement is an expression, all rules of the language decline. -/
theorem firstOf_declines (begins : ruleFor? cursor.peek.kind cursor.peekNext.kind = none)
    (rules : List BuiltinRule) :
    firstOf (byRule parts) (rules.map .builtin) cursor = .ok none cursor := by
  induction rules with
  | nil => rfl
  | cons first others ih =>
      have declined : byRule parts (.builtin first) cursor = .ok none cursor :=
        builtin_declines (by rw [begins]; simp)
      exact (bind_of_ok declined).trans ih

/-- Every rule of the language is among those that are tried. -/
theorem BuiltinRule.mem_all (rule : BuiltinRule) : rule ∈ BuiltinRule.all := by
  cases rule <;> decide

end Declining

/-! ### Parts of statements -/

section Parts

variable {known later : Operators} {cursor : Cursor} {words more : List Word} {bound : Nat}

/-- A shaped expression is read by the parser of expressions. -/
theorem Expr.Shaped.reads {expr : Expr} (shaped : expr.Shaped known) (bound : Nat)
    (at_ : cursor.At known (expr.flatten ++ more)) (stops : Level.assignment.Stops known more)
    (enough : 16 * expr.flatten.length + 16 ≤ bound) :
    Reads cursor (expressionAt .standard bound .assignment) known more (·.bare = expr.bare) :=
  (Expr.readable expr shaped.laddered (.inr shaped.named)).whole shaped bound at_ stops enough

/-- An expression stops before a semicolon. -/
theorem semicolon_stops : Level.assignment.Stops known (.mark .semicolon :: more) :=
  Level.stops_mark .semicolon (by decide) (by decide) _

private theorem rightParen_stops : Level.assignment.Stops known (.mark .rightParen :: more) :=
  Level.stops_mark .rightParen (by decide) (by decide) _

/-- A form of statement is read behind the word it begins with. -/
theorem Parse.Reads.afterWord {word : Keyword} {rest : Location → Parse Statement}
    {holds : Statement → Prop} (at_ : cursor.At known (.word word :: words))
    (reads : ∀ place middle, middle.At known words → Reads middle (rest place) later more holds) :
    Reads cursor (Grammar.afterWord word rest) later more
      fun result => ∃ statement, result = some statement ∧ holds statement := by
  have here : cursor.peek.kind = .word word := at_.peek
  exact .check here ((Reads.advance at_ (by rw [here]; simp)).bind fun token middle _ there =>
    (reads token.location middle there).bind fun statement _ good ends =>
      .pure ends ⟨statement, rfl, good⟩)

/-- Passes one reserved word. -/
theorem Parse.Reads.skipOne {word : Keyword} (at_ : cursor.At known (.word word :: words)) :
    Reads cursor (skip 1) known words fun _ => True :=
  (Reads.advance at_ (by rw [show _ = _ from at_.peek]; simp)).bind fun _ _ _ there =>
    .pure there trivial

/-- Passes two reserved words. -/
theorem Parse.Reads.skipTwo {word second : Keyword}
    (at_ : cursor.At known (.word word :: .word second :: words)) :
    Reads cursor (skip 2) known words fun _ => True :=
  (Reads.advance at_ (by rw [show _ = _ from at_.peek]; simp)).bind fun _ _ _ there =>
    Reads.skipOne there

/-- An expression in parentheses is read. -/
theorem parenthesized_reads {expr : Expr} (shaped : expr.Shaped known) {before after : String}
    (at_ : cursor.At known
      (.mark .leftParen :: (expr.flatten ++ .mark .rightParen :: more)))
    (enough : 16 * expr.flatten.length + 16 ≤ bound) :
    Reads cursor (parenthesized (partsAt .standard bound) before after) known more
      (·.bare = expr.bare) :=
  (Reads.consumeMark at_ (by decide) _).bind fun _ _ _ there =>
    (shaped.reads bound there rightParen_stops enough).bind fun _ _ same atClose =>
      (Reads.consumeMark atClose (by decide) _).bind fun _ _ _ ends => .pure ends same

/-- An initial value is read, if there is one. -/
theorem initialValue_reads {initial : Option Expr}
    (shaped : ∀ expr ∈ initial, Expr.Shaped known expr)
    (at_ : cursor.At known (initialWords initial ++ .mark .semicolon :: more))
    (enough : 16 * (initialWords initial).length ≤ bound) :
    Reads cursor (initialValue (partsAt .standard bound)) known (.mark .semicolon :: more)
      (·.map Expr.bare = initial.map Expr.bare) := by
  cases initial with
  | none =>
      refine (Reads.acceptNot at_ (by rw [show _ = _ from at_.peek]; decide)).bind
        fun found _ isFalse there => ?_
      rw [isFalse]
      exact .pure there rfl
  | some value =>
      refine (Reads.accept at_ at_.peek (by decide)).bind fun found _ isTrue there => ?_
      rw [isTrue]
      rw [initialWords, List.length_cons] at enough
      exact ((shaped value rfl).reads bound there semicolon_stops (by omega)).bind
        fun _ _ same ends => .pure ends (congrArg some same)

/-! ### Parameters -/

/-- Parameters without their places. -/
abbrev Parameter.bareAll (params : List Parameter) : List Parameter :=
  params.map (Parameter.relabel fun _ => .nowhere)

private theorem parameterItems_reads {params : List Parameter} (nonempty : params ≠ [])
    {fuel count : Nat} (few : count + params.length ≤ argumentLimit)
    (at_ : cursor.At known (Parameter.flattenList params ++ .mark .rightParen :: more))
    (fuelled : params.length ≤ fuel) :
    Reads cursor (parameterItems fuel count) known (.mark .rightParen :: more)
      (Parameter.bareAll · = Parameter.bareAll params) := by
  induction params generalizing cursor count fuel with
  | nil => exact absurd rfl nonempty
  | cons param rest ih =>
      rw [List.length_cons] at few fuelled
      obtain ⟨fuel, rfl⟩ : ∃ smaller, fuel = smaller + 1 := ⟨fuel - 1, by omega⟩
      have allowed : ¬ (count == argumentLimit) = true := by
        rw [beq_iff_eq]
        omega
      unfold parameterItems
      rw [if_neg allowed]
      cases rest with
      | nil =>
          refine (Reads.consumeName at_ _).bind fun token _ lexeme there =>
            (Reads.acceptNot there (by rw [show _ = _ from there.peek]; decide)).bind
              fun found _ isFalse ends => ?_
          rw [isFalse]
          exact .pure ends (by rw [lexeme]; rfl)
      | cons second others =>
          refine (Reads.consumeName at_ _).bind fun token _ lexeme there =>
            (Reads.accept there there.peek (by decide)).bind fun found _ isTrue behind => ?_
          rw [isTrue]
          refine (ih (List.cons_ne_nil _ _) (by omega) behind (by omega)).bind
            fun params _ sames ends => .pure ends ?_
          rw [lexeme]
          exact congrArg (Parameter.mk param.name .nowhere :: ·) sames

/-- There are at least as many words as parameters. -/
theorem Parameter.length_le_flattenList (params : List Parameter) :
    params.length ≤ (Parameter.flattenList params).length := by
  fun_induction Parameter.flattenList params with
  | case1 => exact Nat.le_refl _
  | case2 => exact Nat.le_refl _
  | case3 first rest _ ih =>
      rw [List.length_cons, List.length_cons, List.length_cons]
      omega

/-- Parameters are read, with the parentheses around them. -/
theorem parameters_reads {params : List Parameter} (few : params.length ≤ argumentLimit)
    (at_ : cursor.At known
      (.mark .leftParen :: (Parameter.flattenList params ++ .mark .rightParen :: more)))
    (enough : params.length ≤ bound) :
    Reads cursor (parameters bound) known more
      (Parameter.bareAll · = Parameter.bareAll params) := by
  refine (Reads.consumeMark at_ (by decide) _).bind fun _ _ _ there => ?_
  have ends (values : List Parameter) (start : Cursor)
      (atClose : start.At known (.mark .rightParen :: more))
      (sames : Parameter.bareAll values = Parameter.bareAll params) : Reads start
        (do
          let _ ← consume .rightParen "')' after parameters"
          return values) known more (Parameter.bareAll · = Parameter.bareAll params) :=
    (Reads.consumeMark atClose (by decide) _).bind fun _ _ _ behind => .pure behind sames
  cases params with
  | nil => exact .check there.peek (ends [] _ there rfl)
  | cons first rest =>
      refine .checkNot ?_ ((parameterItems_reads (List.cons_ne_nil _ _) (by omega) there
        enough).bind fun values middle sames atClose => ends values middle atClose sames)
      cases rest <;> exact fun isParen => absurd (there.peek.1.symm.trans isParen) (by decide)

end Parts

end Scriptlet
