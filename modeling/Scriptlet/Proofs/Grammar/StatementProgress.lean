import Scriptlet.Proofs.Grammar.Progress

/-!
# Parsing goes onward and ends

After a fault a parse takes up again behind at least one token (`Cursor.Within`), and a statement
that is parsed has passed one. So the loops over the statements of a program and of a block get to
their ends, whatever the tokens are (`Grammar.parse_advances`), and neither gets beyond the first
end marker.
-/

namespace Scriptlet

namespace Cursor

variable {cursor later : Cursor}

/-- A cursor on some tokens that has passed none from the first end marker on. -/
structure Within (cursor : Cursor) (tokens : List Token) : Prop where
  whole : cursor.passed.reverse ++ cursor.rest = tokens
  proper : ∀ token ∈ cursor.passed, token.kind ≠ .endOfInput

namespace Within

variable {tokens : List Token}

private theorem onward (within : cursor.Within tokens) (onward : cursor.Onward later) :
    later.Within tokens := by
  obtain ⟨further, passes, proper⟩ := onward
  constructor
  · rw [passes.passed, List.reverse_append, List.reverse_reverse, List.append_assoc,
      ← passes.rest, within.whole]
  · intro token member
    rw [passes.passed] at member
    rcases List.mem_append.mp member with member | member
    · exact proper token (List.mem_reverse.mp member)
    · exact within.proper token member

private theorem length_eq (within : cursor.Within tokens) :
    cursor.passed.length + cursor.left = tokens.length := by
  rw [← within.whole, List.length_append, List.length_reverse]
  rfl

end Within

private theorem resumeFrom_eq (passed rest : List Token) : ∃ tokens,
    rest = tokens ++ (resumeFrom passed rest).2 ∧
      (resumeFrom passed rest).1 = tokens.reverse ++ passed ∧
      ∀ token ∈ tokens, token.kind ≠ .endOfInput := by
  fun_induction resumeFrom passed rest with
  | case1 passed => exact ⟨[], rfl, rfl, List.forall_mem_nil _⟩
  | case2 passed token rest behindSemicolon stops =>
    exact ⟨[], rfl, rfl, List.forall_mem_nil _⟩
  | case3 passed token rest behindSemicolon goesOn ih =>
    obtain ⟨tokens, split, passedOn, proper⟩ := ih
    have more : token.kind ≠ .endOfInput := by
      intro ends
      simp [ends] at goesOn
    refine ⟨token :: tokens, congrArg (token :: ·) split, ?_,
      List.forall_mem_cons.mpr ⟨more, proper⟩⟩
    rw [passedOn, List.reverse_cons, List.append_assoc, List.singleton_append]

private theorem onward_resumed : cursor.advance.Onward cursor.synchronize := by
  obtain ⟨tokens, split, passed, proper⟩ := resumeFrom_eq cursor.advance.passed cursor.advance.rest
  exact ⟨tokens, ⟨split, passed⟩, proper⟩

/-- Taking up again goes onward. -/
theorem onward_synchronize : cursor.Onward cursor.synchronize :=
  Onward.advance.trans onward_resumed

private theorem forward_synchronize : cursor.Forward cursor.synchronize :=
  fun more => Nat.lt_of_le_of_lt onward_resumed.left_le (cursor.forward_advance more)

private theorem atEnd_congr (same : later.rest = cursor.rest) : later.atEnd = cursor.atEnd := by
  unfold atEnd peek
  rw [same]

end Cursor

namespace Parse.Arrives

variable {α γ : Type} {cursor : Cursor} {held : γ → Cursor → Prop} {holds : α → Cursor → Prop}

/-- What comes after either of two parsers. -/
theorem either {condition : Prop} [Decidable condition] {one other : Parse γ} {next : γ → Parse α}
    (first : Arrives cursor one held) (second : Arrives cursor other held)
    (rest : ∀ value middle, middle.left ≤ cursor.left → held value middle →
      Arrives middle (next value) holds) :
    Arrives cursor (if condition then one >>= next else other >>= next) holds := by
  split
  · exact first.bind rest
  · exact second.bind rest

/-- What comes after the name of an operator is declared, if it is that of one. -/
theorem declaring {kind : FunctionKind} {name : String} {next : Unit → Parse α}
    (rest : ∀ middle : Cursor, middle.left ≤ cursor.left → Arrives middle (next ()) holds) :
    Arrives cursor (match kind with
      | .prefixOperator => declarePrefix name >>= next
      | .infixOperator => declareInfix name >>= next
      | _ => next ()) holds := by
  cases kind with
  | prefixOperator =>
    have declared : Halts cursor (declarePrefix name) := ⟨.here rfl rfl, trivial⟩
    exact declared.bind fun _ middle fewer _ => rest middle fewer
  | infixOperator =>
    have declared : Halts cursor (declareInfix name) := ⟨.here rfl rfl, trivial⟩
    exact declared.bind fun _ middle fewer _ => rest middle fewer
  | _ => exact rest cursor (Nat.le_refl _)

end Parse.Arrives

namespace Grammar

open Parse

variable {parts : Parts} {limit : Nat} {cursor : Cursor}

/-! ### Statements in a row -/

/-- Before the end, a statement is parsed or given up, and a token is passed in any case. -/
theorem recovering_moves {statement : Parse Statement} (moves : Moves cursor statement)
    (more : cursor.atEnd = false) : ∃ result later, recovering statement cursor = .ok result later ∧
      cursor.Onward later ∧ later.left < cursor.left := by
  cases ended : statement cursor with
  | ok result later =>
    obtain ⟨onward, moved⟩ := moves.ok ended
    have attempted : attempt statement cursor = .ok (.ok result) later := by
      rw [attempt, ended]
    refine ⟨some result, later, ?_, onward, moved more⟩
    exact bind_of_ok attempted
  | error stop later =>
    obtain ⟨onward, proper⟩ := moves.stop ended
    cases stop with
    | exhausted => exact absurd rfl proper
    | fault fault =>
      have attempted : attempt statement cursor = .ok (.error fault) later := by
        rw [attempt, ended]
      let reported : Cursor := { later with faults := later.faults.push fault }
      have aside : later.Onward reported := .here rfl rfl
      have onwardOn := (onward.trans aside).trans reported.onward_synchronize
      refine ⟨none, reported.synchronize, bind_of_ok attempted, onwardOn, ?_⟩
      -- A statement that was given up where it began leaves its first token to be skipped.
      by_cases moved : later.left < cursor.left
      · exact Nat.lt_of_le_of_lt (aside.trans reported.onward_synchronize).left_le moved
      · have still := onward.rest_eq moved
        have here : reported.left = cursor.left := congrArg List.length still
        rw [← here]
        exact reported.forward_synchronize ((Cursor.atEnd_congr still).trans more)

private theorem statementsUntil_ends {statement : Parse Statement} (closing : TokenKind)
    (moves : ∀ start : Cursor, start.left ≤ cursor.left → Moves start statement) {bound : Nat}
    (deep : cursor.left < bound) : ∃ body later,
      statementsUntil statement closing bound cursor = .ok body later ∧ cursor.Onward later ∧
        (later.isAt closing || later.atEnd) = true := by
  induction bound generalizing cursor with
  | zero => exact absurd deep (Nat.not_lt_zero _)
  | succ bound ih =>
    unfold statementsUntil
    rw [get_bind]
    by_cases ends : (cursor.isAt closing || cursor.atEnd) = true
    · rw [if_pos ends]
      exact ⟨[], cursor, rfl, .refl, ends⟩
    · rw [if_neg ends]
      have more : cursor.atEnd = false := by
        simp only [Bool.or_eq_true, not_or, Bool.not_eq_true] at ends
        exact ends.2
      obtain ⟨result, middle, ended, onward, fewer⟩ :=
        recovering_moves (moves cursor (Nat.le_refl _)) more
      obtain ⟨rest, later, endedOn, onwardOn, closes⟩ := @ih middle
        (fun start within => moves start (by omega)) (by omega)
      rw [bind_of_ok ended]
      cases result with
      | some first =>
        refine ⟨first :: rest, later, ?_, onward.trans onwardOn, closes⟩
        exact bind_of_ok endedOn
      | none => exact ⟨rest, later, endedOn, onward.trans onwardOn, closes⟩

/-- The parsers of the parts of a statement, ready for a number of tokens: an expression may begin
with the first of them, a smaller statement begins behind it. -/
structure Parts.Ready (parts : Parts) (limit : Nat) : Prop where
  expression : ∀ start : Cursor, start.left ≤ limit → Moves start parts.expression
  statement : ∀ start : Cursor, start.left < limit → Moves start parts.statement
  bound : limit < parts.bound

private theorem parameterItems_halts {bound : Nat} (deep : cursor.left < bound) (count : Nat) :
    Halts cursor (parameterItems bound count) := by
  induction bound generalizing count cursor with
  | zero => exact absurd deep (Nat.not_lt_zero _)
  | succ bound ih =>
    have items (start : Cursor) (fewer : start.left ≤ cursor.left) : Halts start
        (do
          let name ← consumeName "parameter name"
          let parameter : Parameter := ⟨name.lexeme, name.location⟩
          if ← accept [.comma] then return parameter :: (← parameterItems bound (count + 1))
          else return [parameter]) := by
      refine (Arrives.consume ..).bind fun name middle _ _ => (Arrives.accept (by decide)).bind
        fun found _ _ passed => ?_
      cases found with
      | false => exact .pure trivial
      | true =>
        have fewer := passed rfl
        exact (ih (by omega) _).bind fun _ _ _ _ => .pure trivial
    unfold parameterItems
    split
    · exact .peek ((Arrives.report _).bind fun _ middle fewer _ => items middle fewer)
    · exact items cursor (Nat.le_refl _)

private theorem parameters_halts {bound : Nat} (deep : cursor.left < bound) :
    Halts cursor (parameters bound) := by
  refine (Arrives.consume ..).bind fun _ _ fewer _ => .check ?_
  split
  · exact (Arrives.consume ..).bind fun _ _ _ _ => .pure trivial
  · exact (parameterItems_halts (by omega) 0).bind fun _ _ _ _ =>
      (Arrives.consume ..).bind fun _ _ _ _ => .pure trivial

private theorem more_of_functionHead? {next : TokenKind} {head : FunctionKind × Bool}
    (begins : functionHead? cursor.peek.kind next = some head) : cursor.atEnd = false := by
  refine beq_eq_false_iff_ne.mpr fun ends => ?_
  rw [ends] at begins
  cases begins

private theorem checkOperatorArity_halts (kind : FunctionKind) (found : Nat) (location : Location) :
    Halts cursor (checkOperatorArity kind found location) := by
  unfold checkOperatorArity
  split
  · split
    · exact Arrives.report _
    · exact .pure trivial
  · exact .pure trivial

private theorem visibility?_halts : Halts cursor visibility? := by
  refine .peek ?_
  split
  · exact Arrives.advance.bind fun _ _ _ _ => .pure trivial
  · exact Arrives.advance.bind fun _ _ _ _ => .pure trivial
  · exact .pure trivial

private theorem superclass?_halts : Halts cursor superclass? := by
  refine (Arrives.accept (by decide)).bind fun found _ _ _ => ?_
  cases found with
  | false => exact .pure trivial
  | true =>
    exact (Arrives.consume ..).bind fun _ _ _ _ => Arrives.fresh.bind fun _ _ _ _ => .pure trivial

/-- A statement behind a reserved word begins there with fewer tokens to come. -/
theorem afterWord_moves {word : Keyword} {rest : Location → Parse Statement}
    (halts : ∀ (start : Cursor) location, start.left < limit → Halts start (rest location))
    (within : cursor.left ≤ limit) : MayMove cursor (afterWord word rest) := by
  refine .check ?_
  split
  · rename_i isHere
    refine (Arrives.advanceAt (beq_iff_eq.mp isHere) nofun).bind fun _ middle _ passed => ?_
    exact ((halts middle _ (by omega)).bind fun _ _ _ _ => .pure trivial).mayForward
      fun _ => passed
  · exact .pure nofun

/-! ### Parts of statements -/

namespace Parts.Ready

variable (ready : parts.Ready limit)

include ready

private theorem blockBody (within : cursor.left < limit) : Halts cursor (blockBody parts) := by
  have body : Halts cursor (statementsUntil parts.statement .rightBrace parts.bound) := by
    have deep := ready.bound
    have moves (start : Cursor) (fewer : start.left ≤ cursor.left) : Moves start parts.statement :=
      ready.statement start (by omega)
    obtain ⟨body, later, ended, onward, _⟩ := statementsUntil_ends .rightBrace moves
      (show cursor.left < parts.bound by omega)
    exact .of_ok ended onward trivial
  exact body.bind fun _ _ _ _ => (Arrives.consume ..).bind fun _ _ _ _ => .pure trivial

/-- The opening brace is passed, so there is depth for the statements behind it. -/
theorem bracedBody (within : cursor.left ≤ limit) (what : String) :
    Halts cursor (bracedBody parts what) :=
  (Arrives.consumes (by decide) what).bind fun _ _ _ passed => ready.blockBody (by omega)

private theorem expr (within : cursor.left ≤ limit) : Halts cursor parts.expression :=
  (ready.expression cursor within).halts

private theorem inner (within : cursor.left < limit) : Halts cursor parts.statement :=
  (ready.statement cursor within).halts

private theorem params (within : cursor.left < limit) : Halts cursor (parameters parts.bound) := by
  have deep := ready.bound
  exact parameters_halts (by omega)

private theorem parenthesized (within : cursor.left ≤ limit) (before after : String) :
    Halts cursor (parenthesized parts before after) :=
  (Arrives.consume ..).bind fun _ _ fewer _ => (ready.expr (by omega)).bind fun _ _ _ _ =>
    (Arrives.consume ..).bind fun _ _ _ _ => .pure trivial

private theorem initialValue (within : cursor.left ≤ limit) :
    Halts cursor (initialValue parts) := by
  refine (Arrives.accept (by decide)).bind fun found _ fewer _ => ?_
  cases found with
  | false => exact .pure trivial
  | true => exact (ready.expr (by omega)).bind fun _ _ _ _ => .pure trivial

/-! ### Declarations -/

private theorem varDecl (within : cursor.left ≤ limit) : MayMove cursor (varDecl parts) := by
  refine .get ?_
  dsimp only
  split
  · refine (Arrives.skip _).bind fun _ _ fewer moved => ?_
    exact ((Arrives.consume ..).bind fun _ _ _ _ => (ready.initialValue (by omega)).bind
      fun _ _ _ _ => (Arrives.consume ..).bind fun _ _ _ _ => .pure trivial).mayForward
        (moved (by split <;> decide))
  · exact .pure nofun

private theorem extensionMethod (within : cursor.left < limit) (className : Token) (isFinal : Bool)
    (location : Location) : Halts cursor (extensionMethod parts className isFinal location) :=
  (Arrives.consume ..).bind fun _ _ _ _ => (ready.params (by omega)).bind fun _ _ _ _ =>
    (ready.bracedBody (by omega) _).bind fun _ _ _ _ => Arrives.fresh.bind fun _ _ _ _ =>
      .pure trivial

private theorem function (within : cursor.left ≤ limit) : MayMove cursor (function parts) := by
  refine .get ?_
  cases begins : functionHead? cursor.peek.kind cursor.peekNext.kind with
  | none => exact .pure nofun
  | some head =>
    obtain ⟨kind, isFinal⟩ := head
    have more := more_of_functionHead? begins
    refine (Arrives.skip _).bind fun _ start _ moved => ?_
    have passed : start.left < cursor.left := moved (by split <;> decide) more
    refine Arrives.mayForward (fun _ => passed) ((Arrives.consume ..).bind fun name _ _ _ => ?_)
    refine .either (Arrives.accept (by decide)).halts (.pure trivial) fun extends? _ _ _ => ?_
    cases extends? with
    | true =>
      exact (ready.extensionMethod (by omega) _ _ _).bind fun _ _ _ _ => .pure trivial
    | false =>
      exact .declaring fun _ _ => (ready.params (by omega)).bind fun _ _ _ _ =>
        (checkOperatorArity_halts ..).bind fun _ _ _ _ => (ready.bracedBody (by omega) _).bind
          fun _ _ _ _ => .pure trivial

private theorem nativeFunction (within : cursor.left ≤ limit) :
    MayMove cursor (nativeFunction parts) := by
  refine .check ?_
  split
  · rename_i isNative
    refine (Arrives.advanceAt (beq_iff_eq.mp isNative) (by decide)).bind fun _ _ _ passed => ?_
    exact ((Arrives.consume ..).bind fun _ _ _ _ => (Arrives.consume ..).bind fun _ _ _ _ =>
      (Arrives.consume ..).bind fun _ _ _ _ => (Arrives.consume ..).bind fun _ _ _ _ =>
        (ready.params (by omega)).bind fun _ _ _ _ => (Arrives.consume ..).bind fun _ _ _ _ =>
          .pure trivial).mayForward fun _ => passed
  · exact .pure nofun

private theorem constructor (within : cursor.left ≤ limit)
    (isHere : cursor.isAt (.word .constructorWord)) :
    Arrives cursor (constructor parts) fun _ later => later.left < cursor.left := by
  refine (Arrives.advanceAt (beq_iff_eq.mp isHere) (by decide)).bind fun _ _ _ passed => ?_
  exact .behind passed ((ready.params (by omega)).bind fun _ _ _ _ =>
    (ready.bracedBody (by omega) _).bind fun _ _ _ _ => .pure trivial)

private theorem method (within : cursor.left < limit) (isFinal : Bool) :
    Halts cursor (method parts isFinal) :=
  (Arrives.consume ..).bind fun _ _ _ _ => (ready.params (by omega)).bind fun _ _ _ _ =>
    (ready.bracedBody (by omega) _).bind fun _ _ _ _ => .pure trivial

private theorem field (within : cursor.left ≤ limit) (visibility : Option Visibility)
    (isFinal : Bool) :
    Halts cursor (field parts visibility isFinal) :=
  (Arrives.consume ..).bind fun _ _ _ _ => (ready.initialValue (by omega)).bind fun _ _ _ _ =>
    (Arrives.consume ..).bind fun _ _ _ _ => .pure trivial

/-- A member of a class body begins with a token of its own. -/
theorem member (within : cursor.left ≤ limit) : Arrives cursor (member parts)
    fun _ later => later.left < cursor.left := by
  refine .check ?_
  split
  · rename_i isHere
    exact (ready.constructor within isHere).bind fun _ _ _ passed => .pure passed
  · refine visibility?_halts.bind fun visibility _ _ _ => (Arrives.accept (by decide)).bind
      fun isFinal start _ _ => ?_
    have accepted : Arrives start (accept [.word .funWord])
        fun found later => found = true → later.left < start.left := Arrives.accept (by decide)
    refine .either accepted (.pure nofun) fun isMethod middle _ passed => ?_
    cases isMethod with
    | true =>
      have passed := passed rfl
      exact .behind (by omega) ((ready.method (by omega) isFinal).bind fun _ _ _ _ => .pure trivial)
    | false =>
      refine (Arrives.accept (by decide)).bind fun isField _ _ passed => ?_
      cases isField with
      | true =>
        have passed := passed rfl
        exact .behind (by omega) ((ready.field (by omega) visibility isFinal).bind fun _ _ _ _ =>
          .pure trivial)
      | false => exact .peek (.fail _)

private theorem members (within : cursor.left ≤ limit) {bound : Nat} (deep : cursor.left < bound) :
    Halts cursor (members parts bound) := by
  induction bound generalizing cursor with
  | zero => exact absurd deep (Nat.not_lt_zero _)
  | succ bound ih =>
    refine .get ?_
    split
    · exact .pure trivial
    · exact (ready.member within).bind fun _ _ _ passed => (ih (by omega) (by omega)).bind
        fun _ _ _ _ => .pure trivial

private theorem classDecl (within : cursor.left ≤ limit) : MayMove cursor (classDecl parts) := by
  refine .get ?_
  dsimp only
  split
  · refine (Arrives.skip _).bind fun _ start fewer moved => ?_
    have deep := ready.bound
    exact ((Arrives.consume ..).bind fun _ _ _ _ => superclass?_halts.bind fun _ _ _ _ =>
      (Arrives.consume ..).bind fun _ _ _ _ => (ready.members (by omega) (by omega)).bind
        fun _ _ _ _ => (Arrives.consume ..).bind fun _ _ _ _ => .pure trivial).mayForward
          (moved (by split <;> decide))
  · exact .pure nofun

/-! ### Statements -/

private theorem ifElse (within : cursor.left < limit) (location : Location) :
    Halts cursor (ifElse parts location) := by
  refine (ready.parenthesized (by omega) _ _).bind fun _ _ _ _ => (ready.inner (by omega)).bind
    fun _ _ _ _ => (Arrives.accept (by decide)).bind fun found middle _ _ => ?_
  cases found with
  | false => exact .pure trivial
  | true =>
    have another : Halts middle (some <$> parts.statement) :=
      (ready.inner (by omega)).bind fun _ _ _ _ => .pure trivial
    exact another.bind fun _ _ _ _ => .pure trivial

private theorem whileLoop (within : cursor.left < limit) (location : Location) :
    Halts cursor (whileLoop parts location) :=
  (ready.parenthesized (by omega) _ _).bind fun _ _ _ _ => (ready.inner (by omega)).bind
    fun _ _ _ _ => .pure trivial

private theorem doWhile (within : cursor.left < limit) (location : Location) :
    Halts cursor (doWhile parts location) :=
  (ready.inner (by omega)).bind fun _ _ _ _ => (Arrives.consume ..).bind fun _ _ _ _ =>
    (ready.parenthesized (by omega) _ _).bind fun _ _ _ _ => (Arrives.consume ..).bind
      fun _ _ _ _ => .pure trivial

private theorem repeatLoop (within : cursor.left < limit) (location : Location) :
    Halts cursor (repeatLoop parts location) :=
  (ready.parenthesized (by omega) _ _).bind fun _ _ _ _ => (ready.inner (by omega)).bind
    fun _ _ _ _ => .pure trivial

private theorem returning (within : cursor.left ≤ limit) (location : Location) :
    Halts cursor (returning parts location) := by
  refine .check ?_
  split
  · exact (Arrives.consume ..).bind fun _ _ _ _ => .pure trivial
  · have value : Halts cursor (some <$> parts.expression) :=
      (ready.expr within).bind fun _ _ _ _ => .pure trivial
    exact value.bind fun _ _ _ _ => (Arrives.consume ..).bind fun _ _ _ _ => .pure trivial

private theorem print (within : cursor.left ≤ limit) (what : String) (location : Location) :
    Halts cursor (print parts what location) :=
  (ready.expr within).bind fun _ _ _ _ => (Arrives.consume ..).bind fun _ _ _ _ => .pure trivial

private theorem test (within : cursor.left < limit) (location : Location) :
    Halts cursor (test parts location) :=
  (Arrives.consume ..).bind fun _ _ _ _ => (Arrives.consume ..).bind fun _ _ _ _ =>
    (Arrives.consume ..).bind fun _ _ _ _ => (ready.bracedBody (by omega) _).bind
      fun _ _ _ _ => .pure trivial

private theorem builtin (within : cursor.left ≤ limit) (rule : BuiltinRule) :
    MayMove cursor (builtin parts rule) := by
  cases rule with
  | varDecl => exact ready.varDecl within
  | function => exact ready.function within
  | nativeFunction => exact ready.nativeFunction within
  | classDecl => exact ready.classDecl within
  | ifElse => exact afterWord_moves (fun _ location fewer => ready.ifElse fewer location) within
  | whileLoop =>
    exact afterWord_moves (fun _ location fewer => ready.whileLoop fewer location) within
  | doWhile => exact afterWord_moves (fun _ location fewer => ready.doWhile fewer location) within
  | repeatLoop =>
    exact afterWord_moves (fun _ location fewer => ready.repeatLoop fewer location) within
  | block =>
    refine .check ?_
    split
    · rename_i isHere
      refine (Arrives.advanceAt (beq_iff_eq.mp isHere) (by decide)).bind fun _ _ _ passed => ?_
      exact ((ready.blockBody (by omega)).bind fun _ _ _ _ => .pure trivial).mayForward
        fun _ => passed
    · exact .pure nofun
  | returning =>
    exact afterWord_moves (fun _ location fewer => ready.returning (by omega) location) within
  | breaking =>
    unfold Grammar.builtin
    refine afterWord_moves (fun _ _ _ => ?_) within
    exact (Arrives.consume ..).bind fun _ _ _ _ => .pure trivial
  | continuing =>
    unfold Grammar.builtin
    refine afterWord_moves (fun _ _ _ => ?_) within
    exact (Arrives.consume ..).bind fun _ _ _ _ => .pure trivial
  | print =>
    exact afterWord_moves (fun _ location fewer => ready.print (by omega) _ location) within
  | test => exact afterWord_moves (fun _ location fewer => ready.test fewer location) within
  | moduleDecl =>
    exact afterWord_moves (fun _ _ _ => (Arrives.consume ..).bind fun _ _ _ _ =>
      (Arrives.consume ..).bind fun _ _ _ _ => .pure trivial) within

private theorem byRule (within : cursor.left ≤ limit) (rule : StatementRule) :
    MayMove cursor (byRule parts rule) := by
  refine .get ?_
  cases rule with
  | builtin rule => exact ready.builtin within rule
  | decline steps => exact (Arrives.skip steps).bind fun _ _ _ _ => .pure nofun
  | print trigger =>
    dsimp only
    split
    · exact Arrives.advance.bind fun _ _ _ moved =>
        ((ready.print (by omega) _ _).bind fun _ _ _ _ => .pure trivial).mayForward moved
    · exact .pure nofun
  | send trigger =>
    dsimp only
    split
    · exact (Arrives.skip 2).bind fun _ _ _ moved => ((Arrives.consume ..).bind fun _ _ _ _ =>
        (Arrives.consume ..).bind fun _ _ _ _ => .pure trivial).mayForward (moved (by decide))
    · exact .pure nofun
  | block trigger =>
    dsimp only
    split
    · exact Arrives.advance.bind fun _ _ _ moved =>
        ((ready.bracedBody (by omega) _).bind fun _ _ _ _ => .pure trivial).mayForward moved
    · exact .pure nofun
  | refuse trigger =>
    dsimp only
    split
    · exact .fail _
    · exact .pure nofun

/-- A statement passes a token, by a rule or as an expression. -/
theorem statement_moves (within : cursor.left ≤ limit) (grammar : Grammar) :
    Moves cursor (Grammar.statement grammar parts) := by
  have rules (rule : StatementRule) (_ : rule ∈ grammar.statements) (start : Cursor)
      (same : start.left = cursor.left) : MayMove start (Grammar.byRule parts rule) :=
    ready.byRule (by omega) rule
  refine (Arrives.firstOf rules).bind fun result middle fewer known => ?_
  cases result with
  | some result => exact .pure known
  | none =>
    have still : middle.rest = cursor.rest := known.rest.symm
    have begins : Arrives middle (expressionStatement parts) fun _ later => middle.Forward later :=
      .peek ((ready.expression middle (by omega)).bind fun _ _ _ moved =>
        ((Arrives.consume ..).bind fun _ _ _ _ => .pure trivial).forward moved)
    refine begins.weaken fun _ later _ moved more => ?_
    have passed := moved ((Cursor.atEnd_congr still).trans more)
    omega

end Parts.Ready

/-- A depth that is enough for a statement on the tokens to come. -/
theorem statementAt_moves {grammar : Grammar} (proper : .group .endOfInput ∉ grammar.primaries)
    {bound : Nat} (deep : 17 * (cursor.left + 1) ≤ bound) :
    Moves cursor (statementAt grammar bound) := by
  induction bound generalizing cursor with
  | zero => exact absurd deep (Nat.not_succ_le_zero _)
  | succ bound ih =>
    have ready : Parts.Ready (partsAt grammar bound) cursor.left := by
      refine ⟨fun start within => ?_, fun start fewer => ih (by omega), ?_⟩
      · have fits : Level.assignment.Fits start bound := by
          unfold Level.Fits
          change _ ≤ bound + 0
          omega
        exact expressionAt_moves proper fits
      · change cursor.left < bound
        omega
    exact ready.statement_moves (Nat.le_refl _) grammar

/-! ### Whole programs -/

/-- The depth that a parse computes is enough. -/
theorem depthBound_deep (cursor : Cursor) : 17 * (cursor.left + 1) ≤ depthBound cursor := by
  unfold depthBound Cursor.left
  omega

private theorem Level.fits_of_deep {bound : Nat} (deep : 17 * (cursor.left + 1) ≤ bound)
    (level : Level) :
    level.Fits cursor bound := by
  unfold Level.Fits
  omega

/-- The statements of a program are read up to the first end marker, or to the end. -/
theorem parseStatements_ends {grammar : Grammar} (proper : .group .endOfInput ∉ grammar.primaries)
    (tokens : List Token) (nextId : NodeId) : ∃ program later,
      parseStatements grammar (Cursor.ofTokens tokens nextId) = .ok program later ∧
        later.passed.reverse = tokens.takeWhile (·.kind != .endOfInput) ∧
        later.rest = tokens.dropWhile (·.kind != .endOfInput) := by
  let begin := Cursor.ofTokens tokens nextId
  have enough := depthBound_deep begin
  have moves (start : Cursor) (fewer : start.left ≤ begin.left) :
      Moves start (statementAt grammar (depthBound begin)) :=
    statementAt_moves proper (by omega)
  obtain ⟨program, later, ended, ⟨before, passes, more⟩, closes⟩ :=
    statementsUntil_ends .endOfInput moves (show begin.left < depthBound begin by omega)
  have split : tokens = before ++ later.rest := passes.rest
  have all : ∀ token ∈ before, (token.kind != .endOfInput) = true :=
    fun token member => bne_iff_ne.mpr (more token member)
  have atEnd : later.peek.kind = .endOfInput := by simpa [Cursor.isAt, Cursor.atEnd] using closes
  have stops : later.rest.takeWhile (·.kind != .endOfInput) = [] ∧
      later.rest.dropWhile (·.kind != .endOfInput) = later.rest := by
    unfold Cursor.peek at atEnd
    cases rest : later.rest with
    | nil => exact ⟨rfl, rfl⟩
    | cons token others =>
      rw [rest] at atEnd
      simp [atEnd]
  refine ⟨program, later, ended, ?_, ?_⟩
  · rw [split, List.takeWhile_append_of_pos all, stops.1, passes.passed, List.reverse_append,
      List.reverse_reverse, List.append_nil]
    rfl
  · rw [split, List.dropWhile_append_of_pos all, stops.2]

/-- Whatever the tokens are, with end markers among them or without one: a parse comes to an end,
at the first end marker or behind the last token. With depth for the tokens to come (a parse has
more), a statement that begins before this place passes a token, whether it is parsed or given up,
an expression of any level ends no earlier than it begins, and neither passes a token from the first
end marker on. -/
theorem parse_advances (grammar : Grammar) (proper : .group .endOfInput ∉ grammar.primaries)
    (tokens : List Token) :
    (∀ nextId, ∃ program later,
      parseStatements grammar (Cursor.ofTokens tokens nextId) = .ok program later ∧
      later.passed.reverse = tokens.takeWhile (·.kind != .endOfInput) ∧
      later.rest = tokens.dropWhile (·.kind != .endOfInput) ∧
      parse grammar tokens nextId =
        if later.faults.isEmpty then .ok (program, later.nextId)
        else .error later.faults.toList) ∧
    ∀ (cursor : Cursor) bound, cursor.Within tokens → 17 * (cursor.left + 1) ≤ bound →
      (cursor.atEnd = false → ∃ result later,
        recovering (statementAt grammar bound) cursor = .ok result later ∧
        later.Within tokens ∧ cursor.passed.length < later.passed.length) ∧
      ∀ level, ∃ later : Cursor,
        ((∃ expr, expressionAt grammar bound level cursor = .ok expr later) ∨
          ∃ fault, expressionAt grammar bound level cursor = .error (.fault fault) later) ∧
        later.Within tokens ∧ cursor.passed.length ≤ later.passed.length := by
  constructor
  · intro nextId
    obtain ⟨program, later, ended, passed, rest⟩ := parseStatements_ends proper tokens nextId
    refine ⟨program, later, ended, passed, rest, ?_⟩
    unfold parse finish
    rw [ended]
  · intro cursor bound within deep
    constructor
    · intro more
      obtain ⟨result, later, ended, onward, fewer⟩ :=
        recovering_moves (statementAt_moves proper deep) more
      have counted := within.length_eq
      have countedOn := (within.onward onward).length_eq
      exact ⟨result, later, ended, within.onward onward, by omega⟩
    · intro level
      have moves := expressionAt_moves proper (level.fits_of_deep deep)
      have further {later : Cursor} (onward : cursor.Onward later) :
          later.Within tokens ∧ cursor.passed.length ≤ later.passed.length := by
        have counted := within.length_eq
        have countedOn := (within.onward onward).length_eq
        have fewer := onward.left_le
        exact ⟨within.onward onward, by omega⟩
      cases ended : expressionAt grammar bound level cursor with
      | ok expr later => exact ⟨later, .inl ⟨expr, rfl⟩, further (moves.ok ended).1⟩
      | error stop later =>
        obtain ⟨onward, proper⟩ := moves.stop ended
        cases stop with
        | fault fault => exact ⟨later, .inr ⟨fault, rfl⟩, further onward⟩
        | exhausted => exact absurd rfl proper

/-- A name without a semicolon, an end marker, and a semicolon behind it. -/
def earlyEndSample : List Token :=
  [sampleToken .identifier "a" 1, sampleToken .endOfInput "" 2, sampleToken .semicolon ";" 3]

/-- The parse ends with a fault at the end marker, and the semicolon is never passed. -/
theorem parse_advances_earlyEndSample :
    PrimaryRule.group .endOfInput ∉ standard.primaries ∧
    (∃ program later,
      parseStatements standard (Cursor.ofTokens earlyEndSample 0) = .ok program later ∧
      later.passed.reverse = [sampleToken .identifier "a" 1] ∧
      parse standard earlyEndSample 0 =
        if later.faults.isEmpty then .ok (program, later.nextId)
        else .error later.faults.toList) ∧
    (Cursor.ofTokens earlyEndSample 0).Within earlyEndSample ∧
    ∃ result later,
      recovering (statementAt standard 200) (Cursor.ofTokens earlyEndSample 0) = .ok result later ∧
      later.Within earlyEndSample ∧ 0 < later.passed.length := by
  have proper : PrimaryRule.group .endOfInput ∉ standard.primaries := nofun
  have within : (Cursor.ofTokens earlyEndSample 0).Within earlyEndSample :=
    ⟨rfl, List.forall_mem_nil _⟩
  obtain ⟨parses, runs⟩ := parse_advances standard proper earlyEndSample
  obtain ⟨program, later, ended, passed, _, outcome⟩ := parses 0
  exact ⟨proper, ⟨program, later, ended, passed, outcome⟩, within,
    (runs _ 200 within (by decide)).1 rfl⟩

end Grammar

end Scriptlet
