import Scriptlet.Proofs.Grammar.ReadingStatementForms

/-!
# Programs are read from their words

What is left are classes, whose members are read one after another (`FunctionDecl.AreReadFrom`), and
lists of statements, where no statement begins with what closes the list or prolongs the statement
before. A program that has a text is then parsed from it, up to the numbers and places of its nodes
(`parse_flatten`).
-/

namespace Scriptlet

open Grammar Parse

variable {known : Operators}

/-! ### Classes -/

/-- Members are read from their words, up to the brace behind them. -/
def FunctionDecl.AreReadFrom (methods : List FunctionDecl) (known : Operators) : Prop :=
  ∀ (cursor : Cursor) (more : List Word) (bound fuel : Nat),
    cursor.At known (FunctionDecl.flattenList methods ++ .mark .rightBrace :: more) →
    16 * (FunctionDecl.flattenList methods).length + 32 ≤ bound →
    (FunctionDecl.flattenList methods).length < fuel →
      Reads cursor (members (partsAt .standard bound) fuel)
        (FunctionDecl.operatorsOf methods known) (.mark .rightBrace :: more)
        fun members => fieldsOf members = [] ∧
          FunctionDecl.bareAll (methodsOf members) = FunctionDecl.bareAll methods

private theorem Parse.Reads.acceptFinal (word : Keyword) {words : List Word} {cursor : Cursor}
    {isFinal : Bool} (other : word ≠ .finalWord)
    (at_ : cursor.At known (finalWords isFinal ++ .word word :: words)) :
    Reads cursor (accept [.word .finalWord]) known (.word word :: words) (· = isFinal) := by
  cases isFinal with
  | false =>
      refine Reads.acceptNot at_ ?_
      rw [show _ = _ from at_.peek]
      exact fun same => other (TokenKind.word.inj same)
  | true => exact Reads.accept at_ at_.peek (by decide)

/-- The first token of words that may make a declaration final. -/
theorem finalWords_peek {word : Keyword} {words : List Word} {cursor : Cursor} {isFinal : Bool}
    (at_ : cursor.At known (finalWords isFinal ++ .word word :: words)) {kind : TokenKind}
    (notFinal : kind ≠ .word .finalWord) (other : kind ≠ .word word) :
    cursor.peek.kind ≠ kind := by
  cases isFinal with
  | false =>
      rw [show _ = _ from at_.peek]
      exact other.symm
  | true =>
      rw [show _ = _ from at_.peek]
      exact notFinal.symm

private theorem Parse.Reads.noVisibility {cursor : Cursor} {words : List Word}
    (at_ : cursor.At known words) (notPublic : cursor.peek.kind ≠ .word .publicWord)
    (notPrivate : cursor.peek.kind ≠ .word .privateWord) :
    Reads cursor Grammar.visibility? known words (· = none) := by
  refine .peek ?_
  split
  · exact absurd ‹_› notPublic
  · exact absurd ‹_› notPrivate
  · exact .pure at_ rfl

private theorem Parse.Reads.ownVisibility {cursor : Cursor} {words : List Word}
    (at_ : cursor.At known (.word .privateWord :: words)) :
    Reads cursor Grammar.visibility? known words (· = some .ownClass) := by
  have isPrivate : cursor.peek.kind = .word .privateWord := at_.peek
  refine .peek ?_
  rw [isPrivate]
  exact (Reads.advance at_ (by rw [isPrivate]; decide)).bind fun _ _ _ there => .pure there rfl

/-- The parameters and the body of a member, in braces. -/
theorem memberRest_reads {params : List Parameter} {body : List Statement} {cursor : Cursor}
    {more : List Word} {bound : Nat} (few : params.length ≤ argumentLimit)
    (reads : Statement.AreReadFrom body known) (what : String)
    (make : List Parameter → List Statement → FunctionDecl) (expected : FunctionDecl)
    (makes : ∀ values statements, Parameter.bareAll values = Parameter.bareAll params →
      Program.bare statements = Program.bare body →
        FunctionDecl.bareAll [make values statements] = FunctionDecl.bareAll [expected])
    (at_ : cursor.At known (.mark .leftParen :: (Parameter.flattenList params ++
      .mark .rightParen :: .mark .leftBrace ::
        (Statement.flattenList body ++ .mark .rightBrace :: more))))
    (enough : 16 * ((Parameter.flattenList params).length +
      (Statement.flattenList body).length) + 32 ≤ bound) :
    Reads cursor
      (do
        let params ← parameters bound
        let body ← bracedBody (partsAt .standard bound) what
        return make params body : Parse FunctionDecl)
      (Statement.operatorsOf body known) more
      fun value => FunctionDecl.bareAll [value] = FunctionDecl.bareAll [expected] := by
  have fits : params.length ≤ bound := by
    have := Parameter.length_le_flattenList params
    omega
  exact (parameters_reads few at_ fits).bind fun values _ sames atBody =>
    (bracedBody_reads reads _ atBody (by omega)).bind fun statements _ alike ends =>
      .pure ends (makes values statements sames alike)

/-- A member that is a method or a constructor. -/
theorem member_reads {decl : FunctionDecl} (isMember : decl.IsMember)
    (few : decl.params.length ≤ argumentLimit)
    (reads : Statement.AreReadFrom decl.body known) {cursor : Cursor} {more : List Word}
    {bound : Nat}
    (at_ : cursor.At known
      (functionWords decl.kind decl.isFinal decl.name ++ (decl.flattenRest ++ more)))
    (enough : 16 * decl.flattenRest.length + 32 ≤ bound) :
    Reads cursor (member (partsAt .standard bound)) (decl.operators known) more fun value =>
      ∃ result, value = .method result ∧
        FunctionDecl.bareAll [result] = FunctionDecl.bareAll [decl] := by
  obtain ⟨name, kind, params, body, isFinal, place⟩ := decl
  simp only [FunctionDecl.flattenRest, List.append_assoc, List.cons_append, List.nil_append] at at_
  simp only [FunctionDecl.flattenRest, List.length_append, List.length_cons] at enough
  have fits : 16 * ((Parameter.flattenList params).length +
      (Statement.flattenList body).length) + 32 ≤ bound := by
    omega
  have methodRest (start : Cursor) (there : start.At known (.name name :: .mark .leftParen ::
      (Parameter.flattenList params ++ .mark .rightParen :: .mark .leftBrace ::
        (Statement.flattenList body ++ .mark .rightBrace :: more)))) :
      Reads start (method (partsAt .standard bound) isFinal) (Statement.operatorsOf body known) more
        fun value => FunctionDecl.bareAll [value] =
          FunctionDecl.bareAll [⟨name, .method, params, body, isFinal, place⟩] := by
    refine (Reads.consumeName there _).bind fun token _ lexeme atParams => ?_
    rw [lexeme]
    refine memberRest_reads few reads _ (fun params body => ⟨name, .method, params, body, isFinal,
      token.location⟩) _ (fun values statements sames alike => ?_) atParams fits
    exact congrArg₂ (fun params body => [FunctionDecl.mk name .method params body isFinal .nowhere])
      sames alike
  rcases isMember with isMethod | ⟨isConstructor, named, plain⟩
  · cases isMethod
    simp only [functionWords, List.append_assoc, List.cons_append, List.nil_append] at at_
    refine .checkNot (finalWords_peek at_ (by decide) (by decide)) ((Reads.noVisibility at_
      (finalWords_peek at_ (by decide) (by decide))
      (finalWords_peek at_ (by decide) (by decide))).bind fun visibility _ isNone there => ?_)
    subst isNone
    refine (Reads.acceptFinal .funWord (by decide) there).bind fun finality _ same atFun => ?_
    subst same
    refine (Reads.accept atFun atFun.peek (by decide)).bind fun found start isTrue atName => ?_
    rw [isTrue]
    exact (methodRest start atName).bind fun value _ alike ends => .pure ends ⟨value, rfl, alike⟩
  · cases isConstructor
    cases named
    cases plain
    have here : cursor.peek.kind = .word .constructorWord := at_.peek
    have rest : Reads cursor (constructor (partsAt .standard bound))
        (Statement.operatorsOf body known) more fun value => FunctionDecl.bareAll [value] =
          FunctionDecl.bareAll [⟨constructorName, .constructor, params, body, false, place⟩] := by
      refine (Reads.advance at_ (by rw [here]; decide)).bind fun word _ _ atParams =>
        memberRest_reads few reads _ (fun params body => ⟨constructorName, .constructor, params,
          body, false, word.location⟩) _ (fun values statements sames alike => ?_) atParams fits
      exact congrArg₂ (fun params body => [FunctionDecl.mk constructorName .constructor params body
        false .nowhere]) sames alike
    exact .check here (rest.bind fun value _ same ends => .pure ends ⟨value, rfl, same⟩)

private theorem methods_areRead {first : FunctionDecl} {rest : List FunctionDecl}
    (isMember : first.IsMember) (few : first.params.length ≤ argumentLimit)
    (reads : Statement.AreReadFrom first.body known)
    (others : FunctionDecl.AreReadFrom rest (first.operators known)) :
    FunctionDecl.AreReadFrom (first :: rest) known := by
  intro cursor more bound fuel at_ enough fuelled
  simp only [FunctionDecl.flattenList, List.append_assoc] at at_
  simp only [FunctionDecl.flattenList, List.length_append] at enough fuelled
  have begins : cursor.peek.kind ≠ .rightBrace ∧ cursor.peek.kind ≠ .endOfInput := by
    rcases isMember with isMethod | ⟨isConstructor, _, _⟩
    · rw [isMethod] at at_
      simp only [functionWords, List.append_assoc] at at_
      exact ⟨finalWords_peek at_ (by decide) (by decide),
        finalWords_peek at_ (by decide) (by decide)⟩
    · rw [isConstructor] at at_
      rw [show _ = _ from at_.peek]
      exact ⟨by decide, by decide⟩
  have size : 0 < first.flattenRest.length := by
    cases first
    exact Nat.succ_pos _
  obtain ⟨fuel, rfl⟩ : ∃ smaller, fuel = smaller + 1 := ⟨fuel - 1, by omega⟩
  refine .get ?_
  rw [if_neg]
  · refine (member_reads isMember few reads at_ (by omega)).bind ?_
    rintro _ _ ⟨result, rfl, same⟩ there
    refine (others _ more bound fuel there (by omega) (by omega)).bind
      fun members _ both ends => .pure ends ⟨both.1, ?_⟩
    exact congrArg₂ List.cons (List.head_eq_of_cons_eq same) both.2
  · rw [Cursor.isAt_eq_false begins.1, Cursor.atEnd, beq_eq_false_iff_ne.mpr begins.2]
    decide

private theorem noMethods_areRead : FunctionDecl.AreReadFrom [] known := by
  intro cursor more bound fuel at_ _ fuelled
  obtain ⟨fuel, rfl⟩ : ∃ smaller, fuel = smaller + 1 := ⟨fuel - 1, by omega⟩
  refine .get ?_
  rw [if_pos]
  · exact .pure at_ ⟨rfl, rfl⟩
  · rw [Cursor.isAt_eq_true at_.peek]
    rfl

/-- A member that is a field. -/
theorem field_reads {decl : FieldDecl} (shaped : ∀ expr ∈ decl.initial, Expr.Shaped known expr)
    {cursor : Cursor} {more : List Word} {bound : Nat}
    (at_ : cursor.At known (decl.flatten ++ more))
    (enough : 16 * decl.flatten.length + 32 ≤ bound) :
    Reads cursor (member (partsAt .standard bound)) known more fun value =>
      ∃ result, value = .field result ∧ FieldDecl.bareAll [result] = FieldDecl.bareAll [decl] := by
  obtain ⟨name, visibility, isFinal, initial, place⟩ := decl
  have rest (start : Cursor) (written : Option Visibility)
      (means : written.getD .everyone = visibility)
      (there : start.At known (.name name :: (initialWords initial ++ .mark .semicolon :: more)))
      (fits : 16 * (initialWords initial).length ≤ bound) :
      Reads start (field (partsAt .standard bound) written isFinal) known more fun value =>
        FieldDecl.bareAll [value] =
          FieldDecl.bareAll [⟨name, visibility, isFinal, initial, place⟩] := by
    refine (Reads.consumeName there _).bind fun token _ lexeme atInitial =>
      (initialValue_reads shaped atInitial fits).bind fun value _ same atEnd =>
        (Reads.consumeMark atEnd (by decide) _).bind fun _ _ _ ends => .pure ends ?_
    rw [lexeme, means]
    exact congrArg (fun initial => [FieldDecl.mk name visibility isFinal initial .nowhere]) same
  simp only [FieldDecl.flatten, List.length_append, List.length_cons] at enough
  have fits : 16 * (initialWords initial).length ≤ bound := by
    omega
  cases visibility with
  | everyone =>
      simp only [FieldDecl.flatten, List.append_assoc, List.cons_append, List.nil_append] at at_
      refine .checkNot (finalWords_peek at_ (by decide) (by decide)) ((Reads.noVisibility at_
        (finalWords_peek at_ (by decide) (by decide))
        (finalWords_peek at_ (by decide) (by decide))).bind fun written _ isNone there => ?_)
      subst isNone
      refine (Reads.acceptFinal .varWord (by decide) there).bind fun finality _ same atVar => ?_
      subst same
      refine (Reads.acceptNot atVar (by rw [show _ = _ from atVar.peek]; decide)).bind
        fun found _ isFalse atVar => ?_
      subst isFalse
      refine (Reads.accept atVar atVar.peek (by decide)).bind fun found start isTrue atName => ?_
      subst isTrue
      exact (rest start none rfl atName fits).bind fun value _ alike ends =>
        .pure ends ⟨value, rfl, alike⟩
  | ownClass =>
      simp only [FieldDecl.flatten, List.append_assoc, List.cons_append, List.nil_append] at at_
      have isPrivate : cursor.peek.kind = .word .privateWord := at_.peek
      refine .checkNot (by rw [isPrivate]; decide) ((Reads.ownVisibility at_).bind
        fun written _ isOwn there => ?_)
      subst isOwn
      refine (Reads.acceptFinal .varWord (by decide) there).bind fun finality _ same atVar => ?_
      subst same
      refine (Reads.accept atVar atVar.peek (by decide)).bind fun found start isTrue atName => ?_
      subst isTrue
      exact (rest start (some .ownClass) rfl atName fits).bind fun value _ alike ends =>
        .pure ends ⟨value, rfl, alike⟩

/-- Fields are read before the methods. -/
theorem members_read {fields : List FieldDecl} {methods : List FunctionDecl}
    (shaped : ∀ field ∈ fields, ∀ expr ∈ field.initial, Expr.Shaped known expr)
    (reads : FunctionDecl.AreReadFrom methods known) {cursor : Cursor} {more : List Word}
    {bound fuel : Nat}
    (at_ : cursor.At known (fields.flatMap FieldDecl.flatten ++
      (FunctionDecl.flattenList methods ++ .mark .rightBrace :: more)))
    (enough : 16 * ((fields.flatMap FieldDecl.flatten).length +
      (FunctionDecl.flattenList methods).length) + 32 ≤ bound)
    (fuelled : (fields.flatMap FieldDecl.flatten).length +
      (FunctionDecl.flattenList methods).length < fuel) :
    Reads cursor (members (partsAt .standard bound) fuel) (FunctionDecl.operatorsOf methods known)
      (.mark .rightBrace :: more) fun members =>
        FieldDecl.bareAll (fieldsOf members) = FieldDecl.bareAll fields ∧
          FunctionDecl.bareAll (methodsOf members) = FunctionDecl.bareAll methods := by
  induction fields generalizing cursor fuel with
  | nil =>
      rw [List.flatMap_nil, List.length_nil] at enough fuelled
      refine (reads cursor more bound fuel at_ (by omega) (by omega)).weaken ?_
      rintro members ⟨noFields, sames⟩
      exact ⟨by rw [noFields], sames⟩
  | cons first rest ih =>
      rw [List.flatMap_cons, List.append_assoc] at at_
      rw [List.flatMap_cons, List.length_append] at enough fuelled
      rw [List.forall_mem_cons] at shaped
      have begins : cursor.peek.kind ≠ .rightBrace ∧ cursor.peek.kind ≠ .endOfInput := by
        obtain ⟨name, visibility, isFinal, initial, place⟩ := first
        cases visibility with
        | everyone =>
            simp only [FieldDecl.flatten, List.append_assoc, List.nil_append] at at_
            exact ⟨finalWords_peek at_ (by decide) (by decide),
        finalWords_peek at_ (by decide) (by decide)⟩
        | ownClass =>
            rw [show _ = _ from at_.peek]
            exact ⟨by decide, by decide⟩
      have size : 0 < first.flatten.length := by
        simp only [FieldDecl.flatten, List.length_append, List.length_cons]
        omega
      obtain ⟨fuel, rfl⟩ : ∃ smaller, fuel = smaller + 1 := ⟨fuel - 1, by omega⟩
      refine .get ?_
      rw [if_neg]
      · refine (field_reads shaped.1 at_ (by omega)).bind ?_
        rintro _ _ ⟨result, rfl, same⟩ there
        refine (ih shaped.2 there (by omega) (by omega)).bind
          fun members _ both ends => .pure ends ⟨?_, both.2⟩
        exact congrArg₂ List.cons (List.head_eq_of_cons_eq same) both.1
      · rw [Cursor.isAt_eq_false begins.1, Cursor.atEnd, beq_eq_false_iff_ne.mpr begins.2]
        decide

private theorem superclass_reads {superclass : Option SuperclassRef} {cursor : Cursor}
    {more : List Word}
    (at_ : cursor.At known (superclassWords superclass ++ .mark .leftBrace :: more)) :
    Reads cursor Grammar.superclass? known (.mark .leftBrace :: more)
      fun value => value.map (SuperclassRef.relabel (fun _ => 0) fun _ => .nowhere) =
        superclass.map (SuperclassRef.relabel (fun _ => 0) fun _ => .nowhere) := by
  cases superclass with
  | none =>
      refine (Reads.acceptNot at_ (by rw [show _ = _ from at_.peek]; decide)).bind
        fun found _ isFalse ends => ?_
      rw [isFalse]
      exact .pure ends rfl
  | some superclass =>
      refine (Reads.accept at_ at_.peek (by decide)).bind fun found _ isTrue atName => ?_
      rw [isTrue]
      refine (Reads.consumeName atName _).bind fun token _ lexeme there =>
        (Reads.fresh there).bind fun number _ _ ends => .pure ends ?_
      rw [lexeme]
      rfl

private theorem readsFrom_classDecl {name : String} {superclass : Option SuperclassRef}
    {fields : List FieldDecl} {methods : List FunctionDecl} {isFinal : Bool} {place : Location}
    (shaped : ∀ field ∈ fields, ∀ expr ∈ field.initial, Expr.Shaped known expr)
    (reads : FunctionDecl.AreReadFrom methods known) :
    (Statement.classDecl ⟨name, superclass, fields, methods, isFinal, place⟩).ReadsFrom known := by
  refine Statement.readsFrom_of_builtin .classDecl (fun cursor more at_ => ?_)
    fun cursor more bound at_ _ enough => ?_
  · cases isFinal with
    | false =>
        rw [show _ = _ from at_.peek]
        rfl
    | true =>
        rw [show _ = _ from at_.peek, show _ = _ from at_.peekNext]
        rfl
  · simp only [Statement.flatten, ClassDecl.flatten, List.append_assoc, List.cons_append,
      List.nil_append] at at_
    simp only [Statement.flatten, ClassDecl.flatten, List.length_append, List.length_cons] at enough
    obtain ⟨finality, declares, skips⟩ := final_head .classWord isFinal (by decide) at_
    have fits : 16 * ((fields.flatMap FieldDecl.flatten).length +
        (FunctionDecl.flattenList methods).length) + 32 ≤ bound := by
      omega
    have fuelled : (fields.flatMap FieldDecl.flatten).length +
        (FunctionDecl.flattenList methods).length < bound := by
      omega
    refine .get ?_
    dsimp only
    rw [finality, if_pos declares]
    refine skips.bind fun _ _ _ there => (Reads.consumeName there _).bind
      fun token _ lexeme atSuper => (superclass_reads atSuper).bind fun base _ same atBrace =>
        (Reads.consumeMark atBrace (by decide) _).bind fun _ _ _ atMembers =>
          (members_read shaped reads atMembers fits fuelled).bind
            fun found _ sameMembers atClose =>
              (Reads.consumeMark atClose (by decide) _).bind fun _ _ _ ends =>
                .pure ends ⟨_, rfl, ?_⟩
    unfold Statement.bare FunctionDecl.bareAll FieldDecl.bareAll at *
    rw [Statement.relabel, Statement.relabel, ClassDecl.relabel, ClassDecl.relabel, lexeme, same,
      sameMembers.1, sameMembers.2]

/-! ### Lists of statements -/

/-- No statement begins with what closes a list of statements or prolongs a condition. -/
theorem Statement.flatten_begins (statement : Statement) : ∃ word rest,
    statement.flatten = word :: rest ∧ ∀ token : Token, token.Shows word.sign →
      token.kind ≠ .rightBrace ∧ token.kind ≠ .endOfInput ∧ token.kind ≠ .word .elseWord := by
  have marked {words rest : List Word} {kind : TokenKind} (begins : words = .mark kind :: rest)
      (other : kind ≠ .rightBrace ∧ kind ≠ .endOfInput ∧ kind ≠ .word .elseWord) :
      ∃ word rest, words = word :: rest ∧ ∀ token : Token, token.Shows word.sign →
        token.kind ≠ .rightBrace ∧ token.kind ≠ .endOfInput ∧ token.kind ≠ .word .elseWord :=
    ⟨_, rest, begins, fun token shows_ => by rwa [show token.kind = kind from shows_]⟩
  have final_ {isFinal : Bool} {word : Keyword} {rest : List Word} (other : word ≠ .elseWord) :
      ∃ first others, finalWords isFinal ++ .word word :: rest = first :: others ∧
        ∀ token : Token, token.Shows first.sign →
        token.kind ≠ .rightBrace ∧ token.kind ≠ .endOfInput ∧ token.kind ≠ .word .elseWord := by
    cases isFinal with
    | false => exact marked rfl ⟨by simp, by simp, fun same => other (TokenKind.word.inj same)⟩
    | true => exact marked rfl ⟨by decide, by decide, by decide⟩
  cases statement with
  | expression expr place =>
      obtain ⟨rest, begins⟩ := expr.flatten_eq_cons
      refine ⟨expr.firstWord, rest ++ [.mark .semicolon], by rw [Statement.flatten, begins]; rfl,
        fun token shows_ => ?_⟩
      have starts := expr.firstWord_starts token shows_
      refine ⟨?_, ?_, ?_⟩ <;> intro same <;> rw [same] at starts <;> cases starts
  | varDecl | extension => exact final_ (by decide)
  | classDecl decl =>
      cases decl
      exact final_ (by decide)
  | function decl =>
      obtain ⟨name, kind, params, body, isFinal, place⟩ := decl
      cases kind with
      | function | method =>
          rw [Statement.flatten, functionWords, List.append_assoc]
          exact final_ (by decide)
      | _ => exact marked rfl ⟨by decide, by decide, by decide⟩
  | ifElse condition thenBranch elseBranch place =>
      cases elseBranch <;> exact marked rfl ⟨by decide, by decide, by decide⟩
  | _ => exact marked rfl ⟨by decide, by decide, by decide⟩

private theorem Parse.Reads.recovering {statement : Parse Statement} {holds : Statement → Prop}
    {cursor : Cursor} {words : List Word} (reads : Reads cursor statement known words holds) :
    Reads cursor (Grammar.recovering statement) known words
      fun result => ∃ value, result = some value ∧ holds value := by
  obtain ⟨value, after, ended, good, there⟩ := reads
  refine ⟨some value, after, ?_, ⟨value, rfl, good⟩, there⟩
  have attempted : attempt statement cursor = .ok (.ok value) after := by
    unfold attempt
    rw [ended]
  exact bind_of_ok attempted

private theorem statements_areRead {first : Statement} {rest : List Statement}
    (reads : first.ReadsFrom known)
    (others : Statement.AreReadFrom rest (first.operators known)) :
    Statement.AreReadFrom (first :: rest) known := by
  intro cursor closing more bound fuel closes at_ enough fuelled
  simp only [Statement.flattenList, List.append_assoc] at at_
  simp only [Statement.flattenList, List.length_append] at enough fuelled
  obtain ⟨word, tail, begins, other⟩ := first.flatten_begins
  have here := at_
  rw [begins] at here
  obtain ⟨notBrace, notEnd, _⟩ := other cursor.peek here.peek
  have elsewhere : cursor.peek.kind ≠ closing := by
    rcases closes with rfl | rfl
    · exact notBrace
    · exact notEnd
  have size : 0 < first.flatten.length := by
    rw [begins]
    exact Nat.succ_pos _
  have noElse : NoElse (Statement.flattenList rest ++ .mark closing :: more) := by
    cases rest with
    | nil =>
        rintro _ ⟨⟩ token shows_
        rw [show token.kind = closing from shows_]
        rcases closes with rfl | rfl <;> decide
    | cons second later =>
        obtain ⟨word, tail, begins, other⟩ := second.flatten_begins
        rw [Statement.flattenList, begins]
        rintro _ ⟨⟩ token shows_
        exact (other token shows_).2.2
  obtain ⟨fuel, rfl⟩ : ∃ smaller, fuel = smaller + 1 := ⟨fuel - 1, by omega⟩
  refine .get ?_
  rw [if_neg]
  · refine (reads cursor _ bound at_ (fun _ => noElse) (by omega)).recovering.bind ?_
    rintro _ _ ⟨value, rfl, same⟩ there
    exact (others _ closing more bound fuel closes there (by omega) (by omega)).bind
      fun values _ sames ends => .pure ends (congrArg₂ List.cons same sames)
  · rw [Cursor.isAt_eq_false elsewhere, Cursor.atEnd, beq_eq_false_iff_ne.mpr notEnd]
    decide

private theorem noStatements_areRead : Statement.AreReadFrom [] known := by
  intro cursor closing more bound fuel closes at_ _ fuelled
  obtain ⟨fuel, rfl⟩ : ∃ smaller, fuel = smaller + 1 := ⟨fuel - 1, by omega⟩
  refine .get ?_
  rw [if_pos]
  · exact .pure at_ rfl
  · rw [Cursor.isAt_eq_true at_.peek]
    rfl

/-! ### Every form -/

mutual

/-- A statement that has a text is read from it. -/
theorem Statement.reads : ∀ (statement : Statement) (known : Operators),
    statement.Shaped known → statement.ReadsFrom known
  | .expression _ place, _, shaped => readsFrom_expression place shaped
  | .print _ place, _, shaped => readsFrom_print place shaped
  | .varDecl name _ isFinal place, _, shaped => readsFrom_varDecl name isFinal place shaped
  | .returning _ place, _, shaped => readsFrom_returning place shaped
  | .breaking place, _, _ => readsFrom_breaking place
  | .continuing place, _, _ => readsFrom_continuing place
  | .moduleDecl name place, _, _ => readsFrom_moduleDecl name place
  | .nativeFunction moduleName name _ place, _, few =>
    readsFrom_nativeFunction moduleName name place few
  | .block body place, known, shaped => readsFrom_block place (Statement.areRead body known shaped)
  | .test name body place, known, shaped =>
    readsFrom_test name place (Statement.areRead body known shaped)
  | .ifElse _ thenBranch none place, known, ⟨shaped, shapedThen⟩ =>
    readsFrom_ifElse_none place shaped (thenBranch.reads known shapedThen)
  | .ifElse _ thenBranch (some elseBranch) place, known,
      ⟨shaped, ⟨closed, shapedThen⟩, shapedElse⟩ =>
    readsFrom_ifElse_some place shaped closed (thenBranch.reads known shapedThen)
      (elseBranch.reads (thenBranch.operators known) shapedElse)
  | .whileLoop _ body place, known, ⟨shaped, shapedBody⟩ =>
    readsFrom_whileLoop place shaped (body.reads known shapedBody)
  | .repeatLoop _ body place, known, ⟨shaped, shapedBody⟩ =>
    readsFrom_repeatLoop place shaped (body.reads known shapedBody)
  | .doWhile body _ place, known, ⟨shapedBody, shaped⟩ =>
    readsFrom_doWhile place (body.reads known shapedBody) shaped
  | .function decl, known, ⟨alone, shaped⟩ =>
    readsFrom_function alone (decl.reads (known.declare decl.kind decl.name) shaped).1
      (decl.reads (known.declare decl.kind decl.name) shaped).2
  | .extension id className decl place, known, ⟨isMethod, shaped⟩ =>
    readsFrom_extension id className place isMethod (decl.reads known shaped).1
      (decl.reads known shaped).2
  | .classDecl ⟨_, _, _, methods, _, _⟩, known, ⟨shapedFields, shapedMethods⟩ =>
    readsFrom_classDecl shapedFields (FunctionDecl.areRead methods known shapedMethods)

/-- The body of a function that has a text is read from it. -/
theorem FunctionDecl.reads : ∀ (decl : FunctionDecl) (known : Operators), decl.Shaped known →
    decl.params.length ≤ argumentLimit ∧ Statement.AreReadFrom decl.body known
  | ⟨_, _, _, body, _, _⟩, known, ⟨few, shaped⟩ => ⟨few, Statement.areRead body known shaped⟩

/-- Statements that have a text are read from it. -/
theorem Statement.areRead : ∀ (body : List Statement) (known : Operators),
    Statement.AreShaped body known → Statement.AreReadFrom body known
  | [], _, _ => noStatements_areRead
  | first :: rest, known, ⟨shaped, others⟩ =>
    statements_areRead (first.reads known shaped)
      (Statement.areRead rest (first.operators known) others)

/-- Members that have a text are read from it. -/
theorem FunctionDecl.areRead : ∀ (methods : List FunctionDecl) (known : Operators),
    FunctionDecl.AreShaped methods known → FunctionDecl.AreReadFrom methods known
  | [], _, _ => noMethods_areRead
  | first :: rest, known, ⟨isMember, shaped, others⟩ =>
    methods_areRead isMember (first.reads known shaped).1 (first.reads known shaped).2
      (FunctionDecl.areRead rest (first.operators known) others)

end

/-! ### Programs -/

/-- **Parsing inverts writing out.** Tokens that show the words of a program and end with the end of
the input are parsed without a fault, and give the program back up to the numbers and places of its
nodes. -/
theorem parse_flatten {program : Program} {tokens : List Token} {mark : Token}
    (shaped : Statement.AreShaped program .none)
    (shows_ : List.Forall₂ (fun token word => Token.Shows token word.sign) tokens
      (Statement.flattenList program))
    (ends : mark.kind = .endOfInput) (nextId : NodeId) :
    ∃ parsed later, parse .standard (tokens ++ [mark]) nextId = .ok (parsed, later) ∧
      parsed.bare = program.bare := by
  have at_ : (Cursor.ofTokens (tokens ++ [mark]) nextId).At .none
      (Statement.flattenList program ++ [.mark .endOfInput]) :=
    ⟨List.rel_append shows_ (.cons ends .nil), rfl, rfl, rfl⟩
  have size : tokens.length = (Statement.flattenList program).length := shows_.length_eq
  have bounds : depthBound (Cursor.ofTokens (tokens ++ [mark]) nextId) =
      32 * ((Statement.flattenList program).length + 3) := by
    rw [depthBound, Cursor.ofTokens, List.length_append, size]
    rfl
  obtain ⟨parsed, after, ended, same, there⟩ := Statement.areRead program .none shaped _
    .endOfInput [] (depthBound (Cursor.ofTokens (tokens ++ [mark]) nextId))
    (depthBound (Cursor.ofTokens (tokens ++ [mark]) nextId)) (.inr rfl) at_ (by omega) (by omega)
  refine ⟨parsed, after.nextId, ?_, same⟩
  have parses : parseStatements .standard (Cursor.ofTokens (tokens ++ [mark]) nextId) =
      .ok parsed after := ended
  unfold parse finish
  rw [parses]
  dsimp only
  rw [there.faults]
  rfl

/-- The tree of
`prefix fun neg(x) { return -x; } if (true) print neg 'a'; else y = nil ?: [y];`. -/
def sampleProgram : Program :=
  [.function ⟨"neg", .prefixOperator, [⟨"x", .nowhere⟩],
      [.returning (some (.unary .negate (.var 0 "x" .nowhere) .nowhere)) .nowhere], false,
      .nowhere⟩,
    .ifElse (.literal (.bool true) .nowhere)
      (.print (.prefixCall 0 "neg" (.literal (.char 'a') .nowhere) .nowhere) .nowhere)
      (some (.expression (.assign 0 "y" (.elvis (.literal .nil .nowhere)
        (.array [.var 0 "y" .nowhere] .nowhere) .nowhere) .nowhere) .nowhere)) .nowhere]

private theorem sampleProgram_shaped : Statement.AreShaped sampleProgram .none := by
  refine ⟨⟨⟨by decide, by decide, by rintro _ ⟨⟩; exact ⟨rfl, rfl⟩⟩, by decide, ?_, trivial⟩, ?_,
    trivial⟩
  · rintro _ ⟨⟩
    exact ⟨⟨by decide, trivial⟩, show "x" ∉ ["neg"] by decide⟩
  · refine ⟨⟨trivial, trivial⟩, ⟨rfl, ⟨by decide, trivial⟩, by decide, trivial, ?_⟩, ?_⟩
    · rintro _ ⟨⟩ ⟨⟩
    exact ⟨⟨⟨by decide, trivial⟩, by decide, trivial, trivial⟩, trivial,
      show "y" ∉ ["neg"] by decide, trivial⟩

/-- Every word is shown by some token. -/
theorem Word.tokens_show (words : List Word) :
    List.Forall₂ (fun token word => Token.Shows token word.sign) (words.map Word.token) words :=
  List.forall₂_map_left_iff.mpr (List.forall₂_same.mpr fun word _ => word.token_writes.1)

/-- So it is for a program with an operator of its own. -/
theorem parse_flatten_sample :
    Statement.AreShaped sampleProgram .none ∧
      ∃ parsed later, parse .standard ((Statement.flattenList sampleProgram).map Word.token ++
        [Cursor.missing]) 0 = .ok (parsed, later) ∧ parsed.bare = sampleProgram.bare :=
  ⟨sampleProgram_shaped, parse_flatten sampleProgram_shaped (Word.tokens_show _) rfl 0⟩

end Scriptlet
