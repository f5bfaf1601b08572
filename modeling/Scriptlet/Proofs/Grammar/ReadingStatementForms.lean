import Scriptlet.Proofs.Grammar.ReadingStatements

/-!
# Reading every form of statement

One lemma for each form of statement but classes says how it is read if its parts are
(`Statement.ReadsFrom`). The names of operators it declares are known from their declaration on.
-/

namespace Scriptlet

open Grammar Parse

/-- No alternative of a condition follows. -/
def NoElse (words : List Word) : Prop :=
  ∀ word ∈ words.head?, ∀ token : Token, token.Shows word.sign → token.kind ≠ .word .elseWord

/-- A statement is read from its words where some operators are known. -/
def Statement.ReadsFrom (statement : Statement) (known : Operators) : Prop :=
  ∀ (cursor : Cursor) (more : List Word) (bound : Nat),
    cursor.At known (statement.flatten ++ more) → (statement.isOpen = true → NoElse more) →
    16 * statement.flatten.length + 32 ≤ bound →
      Reads cursor (statementAt .standard bound) (statement.operators known) more
        (·.bare = statement.bare)

/-- What closes a list of statements: a brace, or the end of the input. -/
def Ends (closing : TokenKind) : Prop :=
  closing = .rightBrace ∨ closing = .endOfInput

/-- Statements are read from their words, up to what closes the list. -/
def Statement.AreReadFrom (body : List Statement) (known : Operators) : Prop :=
  ∀ (cursor : Cursor) (closing : TokenKind) (more : List Word) (bound fuel : Nat), Ends closing →
    cursor.At known (Statement.flattenList body ++ .mark closing :: more) →
    16 * (Statement.flattenList body).length + 32 ≤ bound →
    (Statement.flattenList body).length < fuel →
      Reads cursor (statementsUntil (statementAt .standard bound) closing fuel)
        (Statement.operatorsOf body known) (.mark closing :: more)
        (Program.bare · = Program.bare body)

section Forms

variable {known : Operators}

/-- A statement that a rule of the language reads. -/
theorem Statement.readsFrom_of_builtin (rule : BuiltinRule) {statement : Statement}
    (begins : ∀ (cursor : Cursor) (more : List Word), cursor.At known (statement.flatten ++ more) →
      ruleFor? cursor.peek.kind cursor.peekNext.kind = some rule)
    (reads : ∀ (cursor : Cursor) (more : List Word) (bound : Nat),
      cursor.At known (statement.flatten ++ more) → (statement.isOpen = true → NoElse more) →
      16 * statement.flatten.length + 31 ≤ bound →
        Reads cursor (builtin (partsAt .standard bound) rule) (statement.operators known) more
          fun result => ∃ value, result = some value ∧ value.bare = statement.bare) :
    statement.ReadsFrom known := by
  intro cursor more bound at_ closed enough
  obtain ⟨bound, rfl⟩ : ∃ smaller, bound = smaller + 1 := ⟨bound - 1, by omega⟩
  obtain ⟨_, after, ended, ⟨value, rfl, same⟩, there⟩ :=
    reads cursor more bound at_ closed (by omega)
  have picked := firstOf_picks (begins cursor more at_) ended rule.mem_all
  exact ⟨value, after, bind_of_ok picked, same, there⟩

/-- A statement that begins with the reserved word of a rule. -/
theorem Statement.readsFrom_of_word (rule : BuiltinRule) (word : Keyword) {statement : Statement}
    {tail : List Word} (words : statement.flatten = .word word :: tail)
    (ruled : ∀ second, ruleFor? (.word word) second = some rule)
    (reads : ∀ (cursor : Cursor) (more : List Word) (bound : Nat),
      cursor.At known (.word word :: (tail ++ more)) → (statement.isOpen = true → NoElse more) →
      16 * tail.length + 47 ≤ bound →
        Reads cursor (builtin (partsAt .standard bound) rule) (statement.operators known) more
          fun result => ∃ value, result = some value ∧ value.bare = statement.bare) :
    statement.ReadsFrom known := by
  refine readsFrom_of_builtin rule (fun cursor more at_ => ?_)
    fun cursor more bound at_ closed enough => ?_
  · rw [words] at at_
    rw [show _ = _ from at_.peek]
    exact ruled _
  · rw [words] at at_ enough
    rw [List.length_cons] at enough
    exact reads cursor more bound at_ closed (by omega)

/-- An expression is read as a statement. -/
theorem readsFrom_expression {expr : Expr} (place : Location) (shaped : expr.Shaped known) :
    (Statement.expression expr place).ReadsFrom known := by
  intro cursor more bound at_ _ enough
  obtain ⟨bound, rfl⟩ : ∃ smaller, bound = smaller + 1 := ⟨bound - 1, by omega⟩
  rw [Statement.flatten, List.append_assoc] at at_
  rw [Statement.flatten, List.length_append] at enough
  have begins := ruleFor?_of_startsOperand (Expr.startsOperand_peek at_) cursor.peekNext.kind
  have declined : firstOf (byRule (partsAt .standard bound)) Grammar.standard.statements cursor =
      .ok none cursor := firstOf_declines begins _
  have reads : Reads cursor (expressionStatement (partsAt .standard bound)) known more
      (·.bare = (Statement.expression expr place).bare) :=
    .peek ((shaped.reads bound at_ semicolon_stops (by omega)).bind fun _ _ same there =>
      (Reads.consumeMark there (by decide) _).bind fun _ _ _ ends =>
        .pure ends (congrArg (Statement.expression · .nowhere) same))
  obtain ⟨value, after, ended, same, there⟩ := reads
  exact ⟨value, after, (bind_of_ok declined).trans ended, same, there⟩

/-- The words before a declared name that may be final. -/
theorem final_head (word : Keyword) {words : List Word} {cursor : Cursor} (isFinal : Bool)
    (other : word ≠ .finalWord)
    (at_ : cursor.At known (finalWords isFinal ++ .word word :: words)) :
    (cursor.isAt (.word .finalWord) && cursor.nextIs (.word word)) = isFinal ∧
      (isFinal || cursor.isAt (.word word)) = true ∧
      Reads cursor (skip (if isFinal then 2 else 1)) known words fun _ => True := by
  cases isFinal with
  | false =>
      have here : cursor.peek.kind = .word word := at_.peek
      have notFinal : cursor.isAt (.word .finalWord) = false := by
        refine Cursor.isAt_eq_false ?_
        rw [here]
        exact fun same => other (TokenKind.word.inj same)
      rw [notFinal, Cursor.isAt_eq_true here]
      exact ⟨rfl, rfl, Reads.skipOne at_⟩
  | true =>
      have isNext : cursor.nextIs (.word word) = true := beq_iff_eq.mpr at_.peekNext
      rw [Cursor.isAt_eq_true at_.peek, isNext]
      exact ⟨rfl, rfl, Reads.skipTwo at_⟩

/-- A variable is read, with its initial value if there is one. -/
theorem readsFrom_varDecl {initial : Option Expr} (name : String) (isFinal : Bool)
    (place : Location) (shaped : ∀ expr ∈ initial, Expr.Shaped known expr) :
    (Statement.varDecl name initial isFinal place).ReadsFrom known := by
  refine Statement.readsFrom_of_builtin .varDecl (fun cursor more at_ => ?_)
    fun cursor more bound at_ _ enough => ?_
  · cases isFinal with
    | false =>
        rw [show _ = _ from at_.peek]
        rfl
    | true =>
        rw [show _ = _ from at_.peek, show _ = _ from at_.peekNext]
        rfl
  · simp only [Statement.flatten, List.append_assoc, List.cons_append, List.nil_append] at at_
    simp only [Statement.flatten, List.length_append, List.length_cons] at enough
    obtain ⟨finality, declares, skips⟩ := final_head .varWord isFinal (by decide) at_
    refine .get ?_
    dsimp only
    rw [finality, if_pos declares]
    refine skips.bind fun _ _ _ there => (Reads.consumeName there _).bind
      fun token _ lexeme atInitial => (initialValue_reads shaped atInitial (by omega)).bind
        fun value _ same atEnd => (Reads.consumeMark atEnd (by decide) _).bind fun _ _ _ ends =>
          .pure ends ⟨_, rfl, ?_⟩
    rw [lexeme]
    exact congrArg (Statement.varDecl name · isFinal .nowhere) same

/-! ### Conditions and loops -/

/-- A condition without an alternative is read, if no alternative follows. -/
theorem readsFrom_ifElse_none {condition : Expr} {thenBranch : Statement} (place : Location)
    (shaped : condition.Shaped known) (reads : thenBranch.ReadsFrom known) :
    (Statement.ifElse condition thenBranch none place).ReadsFrom known := by
  refine Statement.readsFrom_of_word .ifElse .ifWord rfl (fun _ => rfl)
    fun cursor more bound at_ closed enough => ?_
  simp only [List.append_assoc, List.cons_append] at at_
  simp only [List.length_append, List.length_cons] at enough
  refine Reads.afterWord at_ fun here middle atParen =>
    (parenthesized_reads shaped atParen (by omega)).bind fun value _ same atThen =>
      (reads _ _ bound atThen (fun _ => closed rfl) (by omega)).bind fun first last alike ends => ?_
  have noElse : last.peek.kind ≠ .word .elseWord := by
    cases more with
    | nil =>
        obtain ⟨passed, rest, faults, prefixNames, infixNames, nextId⟩ := last
        cases ends.shows_
        simp [Cursor.peek, Cursor.missing]
    | cons word others => exact closed rfl word rfl _ ends.peek
  refine (Reads.acceptNot ends noElse).bind fun found _ isFalse there => ?_
  rw [isFalse]
  refine .pure there ?_
  exact congrArg₂ (Statement.ifElse · · none .nowhere) same alike

/-- A condition with an alternative is read, if its first branch leaves the alternative to it. -/
theorem readsFrom_ifElse_some {condition : Expr} {thenBranch elseBranch : Statement}
    (place : Location) (shaped : condition.Shaped known) (closedThen : thenBranch.isOpen = false)
    (thenReads : thenBranch.ReadsFrom known)
    (elseReads : elseBranch.ReadsFrom (thenBranch.operators known)) :
    (Statement.ifElse condition thenBranch (some elseBranch) place).ReadsFrom known := by
  refine Statement.readsFrom_of_word .ifElse .ifWord rfl (fun _ => rfl)
    fun cursor more bound at_ closed enough => ?_
  simp only [List.append_assoc, List.cons_append] at at_
  simp only [List.length_append, List.length_cons] at enough
  refine Reads.afterWord at_ fun here middle atParen =>
    (parenthesized_reads shaped atParen (by omega)).bind fun value _ same atThen =>
      (thenReads _ _ bound atThen (fun isOpen => absurd isOpen (by rw [closedThen]; decide))
        (by omega)).bind fun first _ alike atElse =>
          (Reads.accept atElse atElse.peek (by decide)).bind fun found _ isTrue there => ?_
  rw [isTrue]
  refine (elseReads _ _ bound there closed (by omega)).mapSome.bind ?_
  rintro _ _ ⟨second, rfl, likewise⟩ ends
  refine .pure ends ?_
  unfold Statement.bare Expr.bare at *
  rw [Statement.relabel, Statement.relabel, same, alike, likewise]

/-- A loop with its condition in front is read. -/
theorem readsFrom_whileLoop {condition : Expr} {body : Statement} (place : Location)
    (shaped : condition.Shaped known) (reads : body.ReadsFrom known) :
    (Statement.whileLoop condition body place).ReadsFrom known := by
  refine Statement.readsFrom_of_word .whileLoop .whileWord rfl (fun _ => rfl)
    fun cursor more bound at_ closed enough => ?_
  simp only [List.append_assoc, List.cons_append] at at_
  simp only [List.length_append, List.length_cons] at enough
  exact Reads.afterWord at_ fun here middle atParen =>
    (parenthesized_reads shaped atParen (by omega)).bind fun value _ same atBody =>
      (reads _ _ bound atBody closed (by omega)).bind fun first _ alike ends =>
        .pure ends (congrArg₂ (Statement.whileLoop · · .nowhere) same alike)

/-- A loop of so many rounds is read. -/
theorem readsFrom_repeatLoop {count : Expr} {body : Statement} (place : Location)
    (shaped : count.Shaped known) (reads : body.ReadsFrom known) :
    (Statement.repeatLoop count body place).ReadsFrom known := by
  refine Statement.readsFrom_of_word .repeatLoop .repeatWord rfl (fun _ => rfl)
    fun cursor more bound at_ closed enough => ?_
  simp only [List.append_assoc, List.cons_append] at at_
  simp only [List.length_append, List.length_cons] at enough
  exact Reads.afterWord at_ fun here middle atParen =>
    (parenthesized_reads shaped atParen (by omega)).bind fun value _ same atBody =>
      (reads _ _ bound atBody closed (by omega)).bind fun first _ alike ends =>
        .pure ends (congrArg₂ (Statement.repeatLoop · · .nowhere) same alike)

/-- A loop with its condition behind is read, and the condition may use the operators of the body.
-/
theorem readsFrom_doWhile {condition : Expr} {body : Statement} (place : Location)
    (reads : body.ReadsFrom known) (shaped : condition.Shaped (body.operators known)) :
    (Statement.doWhile body condition place).ReadsFrom known := by
  refine Statement.readsFrom_of_word .doWhile .doWord rfl (fun _ => rfl)
    fun cursor more bound at_ closed enough => ?_
  simp only [List.append_assoc, List.cons_append, List.nil_append] at at_
  simp only [List.length_append, List.length_cons] at enough
  have noElse (words : List Word) : NoElse (.word .whileWord :: words) := by
    rintro _ ⟨⟩ token shows_
    rw [show token.kind = _ from shows_]
    decide
  exact Reads.afterWord at_ fun here middle atBody =>
    (reads _ _ bound atBody (fun _ => noElse _) (by omega)).bind fun first _ alike atWhile =>
      (Reads.consumeMark atWhile (by decide) _).bind fun _ _ _ atParen =>
        (parenthesized_reads shaped atParen (by omega)).bind fun value _ same atEnd =>
          (Reads.consumeMark atEnd (by decide) _).bind fun _ _ _ ends =>
            .pure ends (congrArg₂ (Statement.doWhile · · .nowhere) alike same)

/-! ### Statements without statements inside -/

/-- A return is read, with its value if there is one. -/
theorem readsFrom_returning {value : Option Expr} (place : Location)
    (shaped : ∀ expr ∈ value, Expr.Shaped known expr) :
    (Statement.returning value place).ReadsFrom known := by
  refine Statement.readsFrom_of_word .returning .returnWord rfl (fun _ => rfl)
    fun cursor more bound at_ closed enough => ?_
  simp only [List.append_assoc, List.cons_append, List.nil_append] at at_
  simp only [List.length_append, List.length_cons] at enough
  refine Reads.afterWord at_ fun here middle atValue => ?_
  cases value with
  | none =>
      exact .check atValue.peek ((Reads.consumeMark atValue (by decide) _).bind fun _ _ _ ends =>
        .pure ends rfl)
  | some value =>
      have notEnd : middle.peek.kind ≠ .semicolon := by
        intro same
        have starts := Expr.startsOperand_peek atValue
        rw [same] at starts
        cases starts
      rw [returnedWords] at atValue enough
      refine .checkNot notEnd (((shaped value rfl).reads bound atValue semicolon_stops
        (by omega)).mapSome.bind ?_)
      rintro _ _ ⟨result, rfl, same⟩ atEnd
      exact (Reads.consumeMark atEnd (by decide) _).bind fun _ _ _ ends =>
        .pure ends (congrArg (fun value => Statement.returning (some value) .nowhere) same)

/-- A print statement is read. -/
theorem readsFrom_print {expr : Expr} (place : Location) (shaped : expr.Shaped known) :
    (Statement.print expr place).ReadsFrom known := by
  refine Statement.readsFrom_of_word .print .printWord rfl (fun _ => rfl)
    fun cursor more bound at_ closed enough => ?_
  simp only [List.append_assoc, List.cons_append, List.nil_append] at at_
  simp only [List.length_append, List.length_cons] at enough
  exact Reads.afterWord at_ fun here middle there =>
    (shaped.reads bound there semicolon_stops (by omega)).bind fun result _ same atEnd =>
      (Reads.consumeMark atEnd (by decide) _).bind fun _ _ _ ends =>
        .pure ends (congrArg (Statement.print · .nowhere) same)

/-- A break is read. -/
theorem readsFrom_breaking (place : Location) : (Statement.breaking place).ReadsFrom known := by
  refine Statement.readsFrom_of_word .breaking .breakWord rfl (fun _ => rfl)
    fun cursor more bound at_ closed enough => ?_
  unfold builtin
  exact Reads.afterWord at_ fun here middle there =>
    (Reads.consumeMark there (by decide) _).bind fun _ _ _ ends => .pure ends rfl

/-- A continue is read. -/
theorem readsFrom_continuing (place : Location) : (Statement.continuing place).ReadsFrom known := by
  refine Statement.readsFrom_of_word .continuing .continueWord rfl (fun _ => rfl)
    fun cursor more bound at_ closed enough => ?_
  unfold builtin
  exact Reads.afterWord at_ fun here middle there =>
    (Reads.consumeMark there (by decide) _).bind fun _ _ _ ends => .pure ends rfl

/-- The declaration of a module is read. -/
theorem readsFrom_moduleDecl (name : String) (place : Location) :
    (Statement.moduleDecl name place).ReadsFrom known := by
  refine Statement.readsFrom_of_word .moduleDecl .moduleWord rfl (fun _ => rfl)
    fun cursor more bound at_ closed enough => ?_
  exact Reads.afterWord at_ fun here middle there =>
    (Reads.consumeName there _).bind fun token _ lexeme atEnd =>
      (Reads.consumeMark atEnd (by decide) _).bind fun _ _ _ ends =>
        .pure ends (congrArg (Statement.moduleDecl · .nowhere) lexeme)

/-- The declaration of a native function is read. -/
theorem readsFrom_nativeFunction {params : List Parameter} (moduleName name : String)
    (place : Location) (few : params.length ≤ argumentLimit) :
    (Statement.nativeFunction moduleName name params place).ReadsFrom known := by
  refine Statement.readsFrom_of_word .nativeFunction .nativeWord rfl (fun _ => rfl)
    fun cursor more bound at_ closed enough => ?_
  simp only [List.append_assoc, List.cons_append, List.nil_append] at at_
  simp only [List.length_append, List.length_cons] at enough
  have fits : params.length ≤ bound := by
    have := Parameter.length_le_flattenList params
    omega
  have here : cursor.peek.kind = .word .nativeWord := at_.peek
  refine .check here ((Reads.advance at_ (by rw [here]; decide)).bind fun _ _ _ atFun =>
    (Reads.consumeMark atFun (by decide) _).bind fun _ _ _ atModule =>
      (Reads.consumeName atModule _).bind fun first _ one atDot =>
        (Reads.consumeMark atDot (by decide) _).bind fun _ _ _ atName =>
          (Reads.consumeName atName _).bind fun second _ two atParams =>
            (parameters_reads few atParams fits).bind fun values _ sames atEnd =>
              (Reads.consumeMark atEnd (by decide) _).bind fun _ _ _ ends =>
                .pure ends ⟨_, rfl, ?_⟩)
  rw [one, two]
  exact congrArg (Statement.nativeFunction moduleName name · .nowhere) sames

/-! ### Blocks -/

private theorem blockBody_reads {body : List Statement} {cursor : Cursor} {more : List Word}
    {bound : Nat} (reads : Statement.AreReadFrom body known)
    (at_ : cursor.At known (Statement.flattenList body ++ .mark .rightBrace :: more))
    (enough : 16 * (Statement.flattenList body).length + 32 ≤ bound) :
    Reads cursor (blockBody (partsAt .standard bound)) (Statement.operatorsOf body known) more
      (Program.bare · = Program.bare body) :=
  (reads cursor .rightBrace more bound bound (.inl rfl) at_ enough (by omega)).bind
    fun _ _ same atClose => (Reads.consumeMark atClose (by decide) _).bind fun _ _ _ ends =>
      .pure ends same

/-- A list of statements in braces is read up to the closing brace. -/
theorem bracedBody_reads {body : List Statement} {cursor : Cursor} {more : List Word} {bound : Nat}
    (reads : Statement.AreReadFrom body known) (what : String)
    (at_ : cursor.At known
      (.mark .leftBrace :: (Statement.flattenList body ++ .mark .rightBrace :: more)))
    (enough : 16 * (Statement.flattenList body).length + 32 ≤ bound) :
    Reads cursor (bracedBody (partsAt .standard bound) what) (Statement.operatorsOf body known) more
      (Program.bare · = Program.bare body) :=
  (Reads.consumeMark at_ (by decide) _).bind fun _ _ _ there => blockBody_reads reads there enough

/-- A block is read. -/
theorem readsFrom_block {body : List Statement} (place : Location)
    (reads : Statement.AreReadFrom body known) :
    (Statement.block body place).ReadsFrom known := by
  refine Statement.readsFrom_of_builtin .block (fun cursor more at_ => ?_)
    fun cursor more bound at_ _ enough => ?_
  · rw [show _ = _ from at_.peek]
    rfl
  · simp only [Statement.flatten, List.append_assoc, List.cons_append, List.nil_append] at at_
    simp only [Statement.flatten, List.length_append, List.length_cons] at enough
    have here : cursor.peek.kind = .leftBrace := at_.peek
    exact .check here ((Reads.advance at_ (by rw [here]; decide)).bind fun _ _ _ there =>
      (blockBody_reads reads there (by omega)).bind fun _ _ same ends =>
        .pure ends ⟨_, rfl, congrArg (Statement.block · .nowhere) same⟩)

/-- A test is read. -/
theorem readsFrom_test {body : List Statement} (name : String) (place : Location)
    (reads : Statement.AreReadFrom body known) :
    (Statement.test name body place).ReadsFrom known := by
  refine Statement.readsFrom_of_word .test .testWord rfl (fun _ => rfl)
    fun cursor more bound at_ closed enough => ?_
  simp only [List.append_assoc, List.cons_append, List.nil_append] at at_
  simp only [List.length_append, List.length_cons] at enough
  refine Reads.afterWord at_ fun here middle atParen =>
    (Reads.consumeMark atParen (by decide) _).bind fun _ _ _ atLabel =>
      (Reads.consume atLabel atLabel.peek.1 (by decide) _).bind fun label _ shown atClose =>
        (Reads.consumeMark atClose (by decide) _).bind fun _ _ _ atBody =>
          (bracedBody_reads reads _ atBody (by omega)).bind fun _ _ same ends => .pure ends ?_
  rw [shown, atLabel.peek.2]
  exact congrArg (Statement.test name · .nowhere) same

/-! ### Functions -/

/-- The words before the parameters of a function that is declared as a statement. -/
theorem function_head (kind : FunctionKind) {isFinal : Bool} {name : String} {words : List Word}
    {cursor : Cursor} (notMethod : kind ≠ .method) (notConstructor : kind ≠ .constructor)
    (plain : ∀ arity ∈ operatorArity? kind, isFinal = false)
    (at_ : cursor.At known (functionWords kind isFinal name ++ words)) :
    functionHead? cursor.peek.kind cursor.peekNext.kind = some (kind, isFinal) ∧
      Reads cursor (skip (if cursor.isAt (.word .funWord) then 1 else 2)) known
        (.name name :: words) fun _ => True := by
  have one {words : List Word} (there : cursor.At known (.word .funWord :: words)) :
      functionHead? cursor.peek.kind cursor.peekNext.kind = some (.function, false) ∧
        Reads cursor (skip (if cursor.isAt (.word .funWord) then 1 else 2)) known words
          fun _ => True := by
    rw [Cursor.isAt_eq_true there.peek, show _ = _ from there.peek]
    exact ⟨rfl, Reads.skipOne there⟩
  have two (word : Keyword) {words : List Word} (other : word ≠ .funWord)
      (there : cursor.At known (.word word :: .word .funWord :: words)) :
      cursor.peek.kind = .word word ∧ cursor.peekNext.kind = .word .funWord ∧
        Reads cursor (skip (if cursor.isAt (.word .funWord) then 1 else 2)) known words
          fun _ => True := by
    have here : cursor.peek.kind = .word word := there.peek
    have elsewhere : cursor.isAt (.word .funWord) = false := by
      refine Cursor.isAt_eq_false ?_
      rw [here]
      exact fun same => other (TokenKind.word.inj same)
    rw [elsewhere]
    exact ⟨here, there.peekNext, Reads.skipTwo there⟩
  cases kind with
  | method => exact absurd rfl notMethod
  | constructor => exact absurd rfl notConstructor
  | function =>
      cases isFinal with
      | false => exact one at_
      | true =>
          obtain ⟨first, second, skips⟩ := two .finalWord (by decide) at_
          rw [first, second]
          exact ⟨rfl, skips⟩
  | prefixOperator =>
      obtain ⟨first, second, skips⟩ := two .prefixWord (by decide) at_
      rw [first, second, plain 1 rfl]
      exact ⟨rfl, skips⟩
  | infixOperator =>
      obtain ⟨first, second, skips⟩ := two .infixWord (by decide) at_
      rw [first, second, plain 2 rfl]
      exact ⟨rfl, skips⟩

private theorem ruleFor?_of_functionHead? {first second : TokenKind} {head : FunctionKind × Bool}
    (begins : functionHead? first second = some head) : ruleFor? first second = some .function := by
  by_contra other
  rw [functionHead?_eq_none other] at begins
  cases begins

private theorem Parse.Reads.checkArity {kind : FunctionKind} {found : Nat} {cursor : Cursor}
    {words : List Word} (at_ : cursor.At known words)
    (fits : ∀ arity ∈ operatorArity? kind, found = arity) (place : Location) :
    Reads cursor (checkOperatorArity kind found place) known words fun _ => True := by
  unfold checkOperatorArity
  cases expected : operatorArity? kind with
  | none => exact .pure at_ trivial
  | some arity =>
      have same : ¬ (found != arity) = true := by
        rw [bne_iff_ne, not_not]
        exact fits arity expected
      dsimp only
      rw [if_neg same]
      exact .pure at_ trivial

/-- The parameters and the body of a function, behind what declares its name. -/
theorem functionRest_reads {kind : FunctionKind} {name : String} {params : List Parameter}
    {body : List Statement} {isFinal : Bool} {cursor : Cursor} {more : List Word} {bound : Nat}
    (arity : ∀ arity ∈ operatorArity? kind, params.length = arity)
    (few : params.length ≤ argumentLimit) (reads : Statement.AreReadFrom body known)
    (named location place : Location)
    (at_ : cursor.At known (.mark .leftParen :: (Parameter.flattenList params ++
      .mark .rightParen :: .mark .leftBrace ::
        (Statement.flattenList body ++ .mark .rightBrace :: more))))
    (enough : 16 * ((Parameter.flattenList params).length +
      (Statement.flattenList body).length) + 32 ≤ bound) :
    Reads cursor
      (do
        let params ← parameters bound
        checkOperatorArity kind params.length named
        let body ← bracedBody (partsAt .standard bound) "'\x7b' before function body"
        return some (.function ⟨name, kind, params, body, isFinal, location⟩) :
          Parse (Option Statement))
      (Statement.operatorsOf body known) more fun result => ∃ value, result = some value ∧
        value.bare = (Statement.function ⟨name, kind, params, body, isFinal, place⟩).bare := by
  have fits : params.length ≤ bound := by
    have := Parameter.length_le_flattenList params
    omega
  refine (parameters_reads few at_ fits).bind fun values _ sames there => ?_
  have sameLength : values.length = params.length := by
    simpa using congrArg List.length sames
  refine (Reads.checkArity there (sameLength ▸ arity) _).bind fun _ _ _ atBody =>
    (bracedBody_reads reads _ atBody (by omega)).bind fun statements _ alike ends =>
      .pure ends ⟨_, rfl, ?_⟩
  exact congrArg₂ (fun params body => Statement.function ⟨name, kind, params, body, isFinal,
    .nowhere⟩) sames alike

/-- A function is read, and its body may use it if it is an operator. -/
theorem readsFrom_function {decl : FunctionDecl} (alone : decl.StandsAlone)
    (few : decl.params.length ≤ argumentLimit)
    (reads : Statement.AreReadFrom decl.body (known.declare decl.kind decl.name)) :
    (Statement.function decl).ReadsFrom known := by
  obtain ⟨name, kind, params, body, isFinal, place⟩ := decl
  obtain ⟨notMethod, notConstructor, operator⟩ := alone
  have plain : ∀ arity ∈ operatorArity? kind, isFinal = false :=
    fun arity member => (operator arity member).2
  have arity : ∀ arity ∈ operatorArity? kind, params.length = arity :=
    fun arity member => (operator arity member).1
  refine Statement.readsFrom_of_builtin .function (fun cursor more at_ => ?_)
    fun cursor more bound at_ _ enough => ?_
  · rw [Statement.flatten, List.append_assoc] at at_
    exact ruleFor?_of_functionHead? (function_head kind notMethod notConstructor plain at_).1
  · simp only [Statement.flatten, FunctionDecl.flattenRest, List.append_assoc, List.cons_append,
      List.nil_append] at at_
    simp only [Statement.flatten, FunctionDecl.flattenRest, List.length_append,
      List.length_cons] at enough
    have fits : 16 * ((Parameter.flattenList params).length +
        (Statement.flattenList body).length) + 32 ≤ bound := by
      omega
    obtain ⟨begins, skips⟩ := function_head kind notMethod notConstructor plain at_
    refine .get ?_
    dsimp only
    rw [begins]
    refine skips.bind fun _ _ _ there => (Reads.consumeName there _).bind
      fun token middle lexeme atParams => ?_
    have noDot : middle.peek.kind ≠ .dot := by
      rw [show _ = _ from atParams.peek]
      decide
    rw [lexeme]
    cases kind with
    | method => exact absurd rfl notMethod
    | constructor => exact absurd rfl notConstructor
    | function =>
        refine (Reads.acceptNot atParams noDot).bind fun found _ isFalse atParams => ?_
        rw [isFalse]
        exact functionRest_reads arity few reads _ _ place atParams fits
    | prefixOperator =>
        have declared : (Cursor.mk middle.passed middle.rest middle.faults
            (name :: middle.prefixNames) middle.infixNames middle.nextId).At
            (known.declare .prefixOperator name) _ :=
          ⟨atParams.shows_, atParams.faults, congrArg (name :: ·) atParams.prefixNames,
            atParams.infixNames⟩
        exact functionRest_reads arity few reads _ _ place declared fits
    | infixOperator =>
        have declared : (Cursor.mk middle.passed middle.rest middle.faults middle.prefixNames
            (name :: middle.infixNames) middle.nextId).At (known.declare .infixOperator name) _ :=
          ⟨atParams.shows_, atParams.faults, atParams.prefixNames,
            congrArg (name :: ·) atParams.infixNames⟩
        exact functionRest_reads arity few reads _ _ place declared fits

/-- A method that is added to a class from outside, behind the dot. -/
theorem extensionMethod_reads {params : List Parameter} {body : List Statement} {name : String}
    {cursor : Cursor} {more : List Word} {bound : Nat} (id : NodeId) (className : Token)
    (isFinal : Bool) (place location here : Location) (few : params.length ≤ argumentLimit)
    (reads : Statement.AreReadFrom body known)
    (at_ : cursor.At known (.name name :: .mark .leftParen :: (Parameter.flattenList params ++
      .mark .rightParen :: .mark .leftBrace ::
        (Statement.flattenList body ++ .mark .rightBrace :: more))))
    (enough : 16 * ((Parameter.flattenList params).length +
      (Statement.flattenList body).length) + 32 ≤ bound) :
    Reads cursor (extensionMethod (partsAt .standard bound) className isFinal location)
      (Statement.operatorsOf body known) more fun value => value.bare =
        (Statement.extension id className.lexeme ⟨name, .method, params, body, isFinal, here⟩
          place).bare := by
  have fits : params.length ≤ bound := by
    have := Parameter.length_le_flattenList params
    omega
  have enoughBody : 16 * (Statement.flattenList body).length + 32 ≤ bound := by
    omega
  refine (Reads.consumeName at_ _).bind fun method _ named atParams =>
    (parameters_reads few atParams fits).bind fun values _ sames atBody =>
      (bracedBody_reads reads _ atBody enoughBody).bind fun statements _ alike there =>
        (Reads.fresh there).bind fun number _ _ ends => .pure ends ?_
  rw [named]
  exact congrArg₂ (fun params body => Statement.extension 0 className.lexeme
    ⟨name, .method, params, body, isFinal, .nowhere⟩ .nowhere) sames alike

/-- An extension of a class is read. -/
theorem readsFrom_extension {decl : FunctionDecl} (id : NodeId) (className : String)
    (place : Location) (isMethod : decl.kind = .method)
    (few : decl.params.length ≤ argumentLimit)
    (reads : Statement.AreReadFrom decl.body known) :
    (Statement.extension id className decl place).ReadsFrom known := by
  obtain ⟨name, kind, params, body, isFinal, here⟩ := decl
  cases isMethod
  have words : (Statement.extension id className ⟨name, .method, params, body, isFinal, here⟩
      place).flatten = functionWords .function isFinal className ++ .mark .dot :: .name name ::
        FunctionDecl.flattenRest ⟨name, .method, params, body, isFinal, here⟩ := by
    simp [Statement.flatten, functionWords]
  have plain : ∀ arity ∈ operatorArity? .function, isFinal = false := by
    simp [operatorArity?]
  refine Statement.readsFrom_of_builtin .function (fun cursor more at_ => ?_)
    fun cursor more bound at_ _ enough => ?_
  · rw [words, List.append_assoc] at at_
    exact ruleFor?_of_functionHead?
      (function_head .function (by decide) (by decide) plain at_).1
  · simp only [words, FunctionDecl.flattenRest, List.append_assoc, List.cons_append,
      List.nil_append] at at_
    simp only [words, FunctionDecl.flattenRest, List.length_append, List.length_cons] at enough
    have fits : 16 * ((Parameter.flattenList params).length +
        (Statement.flattenList body).length) + 32 ≤ bound := by
      omega
    obtain ⟨begins, skips⟩ := function_head .function (by decide) (by decide) plain at_
    refine .get ?_
    dsimp only
    rw [begins]
    refine skips.bind fun _ _ _ there => (Reads.consumeName there _).bind
      fun token _ lexeme atDot => (Reads.accept atDot atDot.peek (by decide)).bind
        fun found _ isTrue atName => ?_
    rw [isTrue, ← lexeme]
    exact (extensionMethod_reads id token isFinal place _ here few reads atName fits).bind
      fun value _ same ends => .pure ends ⟨value, rfl, same⟩

end Forms

end Scriptlet
