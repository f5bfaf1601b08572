import Scriptlet.Proofs.Grammar.BuiltExpressions

/-!
# Programs that are built

By the rules of any grammar, a parser of statements that reports no fault builds the elements of the
statement it gives (`Grammar.BuildsStatement`). So a parse without a fault gives a program that is
well-formed (`Grammar.statementsUntil_builds`): limits and kinds are kept to, an operator is
declared in front of its uses, and no number is given out twice.
-/

namespace Scriptlet

namespace Grammar

open Parse

variable {parts : Parts} {cursor : Cursor}

/-- A parser of statements builds the elements of what it gives. -/
abbrev BuildsStatement (cursor : Cursor) (parser : Parse Statement) : Prop :=
  Builds cursor parser fun statement later => cursor.Spans later statement.elements

/-- The parsers of the parts of a statement build what they give, wherever they begin. -/
structure Parts.Build (parts : Parts) : Prop where
  expression : ∀ cursor, BuildsExpr cursor parts.expression
  statement : ∀ cursor, BuildsStatement cursor parts.statement

/-! ### Statements in a row -/

/-- What is given up is reported, so without a fault there is a statement. -/
theorem recovering_builds {statement : Parse Statement}
    (builds : BuildsStatement cursor statement) :
    Builds cursor (recovering statement) fun result later =>
      ∃ first, result = some first ∧ cursor.Spans later first.elements := by
  unfold Builds
  cases ended : statement cursor with
  | ok result later =>
    have attempted : attempt statement cursor = .ok (.ok result) later := by
      rw [attempt, ended]
    have run : recovering statement cursor = .ok (some result) later := bind_of_ok attempted
    obtain ⟨keeps, known⟩ := builds.ok ended
    rw [run]
    exact ⟨keeps, fun same => ⟨result, rfl, known same⟩⟩
  | error stop later =>
    have keeps := builds.stop ended
    cases stop with
    | exhausted =>
      have attempted : attempt statement cursor = .error .exhausted later := by
        rw [attempt, ended]
      have run : recovering statement cursor = .error .exhausted later := bind_of_error attempted
      rw [run]
      exact keeps
    | fault fault =>
      have attempted : attempt statement cursor = .ok (.error fault) later := by
        rw [attempt, ended]
      let reported : Cursor := { later with faults := later.faults.push fault }
      have run : recovering statement cursor = .ok none reported.synchronize :=
        bind_of_ok attempted
      have grown : reported.synchronize.faults.size = later.faults.size + 1 := by
        change reported.advance.faults.size = _
        rw [reported.faults_advance]
        exact Array.size_push ..
      have before := keeps.faults
      rw [run]
      refine ⟨⟨reported.onward_synchronize.row.trans keeps.row, by omega⟩, fun same => ?_⟩
      omega

/-- Statements up to what closes them are built one after the other. -/
theorem statementsUntil_builds {statement : Parse Statement}
    (builds : ∀ cursor, BuildsStatement cursor statement) (closing : TokenKind) (bound : Nat)
    (cursor : Cursor) :
    Builds cursor (statementsUntil statement closing bound) fun body later =>
      cursor.Spans later (Statement.elementsAll body) := by
  induction bound generalizing cursor with
  | zero => exact .exhausted
  | succ bound ih =>
    refine .get ?_
    split
    · exact .pure .refl
    · refine (recovering_builds (builds cursor)).bind fun result middle => ?_
      cases result with
      | some first =>
        refine (ih middle).bind fun rest _ => .pure ?_
        rintro rest ⟨_, ⟨⟩, first⟩
        exact first.append rest
      | none =>
        refine (ih middle).weaken fun _ _ _ given => ?_
        obtain ⟨_, impossible, _⟩ := given
        cases impossible

/-! ### Parameters -/

/-- Parameters are no more than the limit, or their number was reported. -/
theorem parameterItems_builds (bound count : Nat) (cursor : Cursor) :
    Builds cursor (parameterItems bound count) fun params later =>
      (count ≤ argumentLimit → count + params.length ≤ argumentLimit) ∧ cursor.Spans later [] := by
  induction bound generalizing count cursor with
  | zero => exact .exhausted
  | succ bound ih =>
    have items (start : Cursor) : Builds start
        (do
          let name ← consumeName "parameter name"
          let parameter : Parameter := ⟨name.lexeme, name.location⟩
          if ← accept [.comma] then return parameter :: (← parameterItems bound (count + 1))
          else return [parameter]) fun params later =>
            (count < argumentLimit → count + params.length ≤ argumentLimit) ∧
              start.Spans later [] := by
      refine (Builds.scansConsume ..).bind fun name middle => (Builds.accept _).bind
        fun found behind => ?_
      cases found with
      | false => exact .pure fun passed named => ⟨fun few => few, named.after passed⟩
      | true =>
        refine (ih (count + 1) behind).bind fun rest later => .pure ?_
        rintro ⟨short, rest⟩ passed named
        refine ⟨fun few => ?_, (named.after passed).after rest⟩
        have short := short few
        rw [List.length_cons]
        omega
    unfold parameterItems
    split
    · exact .peek ((Builds.report _).bind fun _ start =>
        (items start).weaken fun _ _ _ impossible => impossible.elim)
    · rename_i unreported
      rw [beq_iff_eq] at unreported
      exact (items cursor).weaken fun _ _ known => ⟨fun few => known.1 (by omega), known.2⟩

private theorem parameters_builds (bound : Nat) (cursor : Cursor) :
    Builds cursor (parameters bound) fun params later =>
      params.length ≤ argumentLimit ∧ cursor.Spans later [] := by
  refine (Builds.scansConsume ..).bind fun _ middle => .check ?_
  split
  · refine (Builds.scansConsume ..).bind fun _ _ => .pure fun closed opened => ?_
    exact ⟨Nat.zero_le _, opened.after closed⟩
  · refine (parameterItems_builds bound 0 middle).bind fun params _ =>
      (Builds.scansConsume ..).bind fun _ _ => .pure ?_
    rintro closed ⟨short, items⟩ opened
    refine ⟨?_, (opened.after items).after closed⟩
    have few := short (Nat.zero_le _)
    omega

private theorem checkOperatorArity_builds (kind : FunctionKind) (found : Nat) (location : Location)
    (cursor : Cursor) :
    Builds cursor (checkOperatorArity kind found location) fun _ later =>
      (∀ arity ∈ operatorArity? kind, found = arity) ∧ cursor.Spans later [] := by
  unfold checkOperatorArity
  cases expects : operatorArity? kind with
  | none => exact .pure ⟨nofun, .refl⟩
  | some arity =>
    dsimp only
    split
    · exact (Builds.report _).weaken fun _ _ => False.elim
    · rename_i right
      refine .pure ⟨?_, .refl⟩
      rintro _ ⟨⟩
      simpa using right

/-! ### The head of a function -/

private theorem kind_of_functionHead? {first second : TokenKind} {kind : FunctionKind}
    {isFinal : Bool}
    (begins : functionHead? first second = some (kind, isFinal)) : Place.statement.Takes kind := by
  unfold functionHead? at begins
  split at begins <;> cases begins <;> simp [Place.Takes]

/-- An operator function begins with two words. -/
theorem words_of_functionHead? {first second : TokenKind} {kind : FunctionKind} {isFinal : Bool}
    (begins : functionHead? first second = some (kind, isFinal))
    (operator : (operatorArity? kind).isSome) :
    first ≠ .endOfInput ∧ first ≠ .word .funWord ∧ second ≠ .endOfInput := by
  unfold functionHead? at begins
  split at begins <;> cases begins
  · cases operator
  · cases operator
  · exact ⟨nofun, nofun, nofun⟩
  · exact ⟨nofun, nofun, nofun⟩

/-- The words for the kind are passed, and for an operator these are two. -/
theorem skipHead_builds {kind : FunctionKind} {isFinal : Bool}
    (begins : functionHead? cursor.peek.kind cursor.peekNext.kind = some (kind, isFinal)) :
    Builds cursor (skip (if cursor.isAt (.word .funWord) then 1 else 2)) fun _ later =>
      cursor.Spans later [] ∧
        ((operatorArity? kind).isSome → later.reached = cursor.reached + 2) := by
  by_cases operator : (operatorArity? kind).isSome
  · obtain ⟨more, another, moreNext⟩ := words_of_functionHead? begins operator
    have apart : ¬ cursor.isAt (.word .funWord) = true :=
      fun isHere => another (beq_iff_eq.mp isHere)
    rw [if_neg apart]
    have passed : cursor.advance.advance.reached = cursor.reached + 2 := by
      rw [Cursor.reached_advance (by rwa [Cursor.peek_advance more]), Cursor.reached_advance more]
    exact ⟨cursor.keeps_advance.trans cursor.advance.keeps_advance, fun _ =>
      ⟨cursor.spans_advance.after cursor.advance.spans_advance, fun _ => passed⟩⟩
  · exact (Builds.skip _).weaken fun _ _ known => ⟨known.1, fun isSome => absurd isSome operator⟩

/-- What is declared behind such a head, with the name that is there, begins where the head does. -/
theorem beginsAt_of_head {kind : FunctionKind} {isFinal : Bool}
    (begins : functionHead? cursor.peek.kind cursor.peekNext.kind = some (kind, isFinal))
    (operator : (operatorArity? kind).isSome) {name : Token}
    (named : cursor.row[cursor.reached + 2]? = some name) (isName : name.kind = .identifier)
    (params : List Parameter) (body : List Statement) :
    FunctionDecl.BeginsAt cursor.row
      ⟨name.lexeme, kind, params, body, isFinal, cursor.peek.location⟩ cursor.reached := by
  obtain ⟨more, -, moreNext⟩ := words_of_functionHead? begins operator
  exact ⟨cursor.peek, cursor.peekNext, name, cursor.row_reached more, cursor.row_next moreNext,
    named, begins, rfl, isName, rfl⟩

/-! ### Members -/

/-- The elements of a member of a class. -/
def Member.elements : Member → List Element
  | .field decl => initialElements decl.initial
  | .method decl => .function .member decl :: decl.elements

/-- A class has the elements of its members, those of the fields first. -/
theorem elements_members_perm (members : List Member) :
    (members.flatMap Member.elements).Perm
      ((fieldsOf members).flatMap (initialElements ·.initial) ++
        FunctionDecl.elementsAll (methodsOf members)) := by
  induction members with
  | nil => exact .refl _
  | cons first rest ih =>
    cases first with
    | field decl =>
      rw [List.flatMap_cons, fieldsOf, methodsOf, List.flatMap_cons, List.append_assoc]
      exact ih.append_left _
    | method decl =>
      rw [List.flatMap_cons, fieldsOf, methodsOf, FunctionDecl.elementsAll]
      exact (ih.append_left (.function .member decl :: decl.elements)).trans
        (List.perm_append_comm_assoc ..)

private theorem visibility?_scans (cursor : Cursor) : Scans cursor visibility? := by
  refine .peek ?_
  split
  · exact Builds.advance.bind fun _ _ => .pure fun known => known.2
  · exact Builds.advance.bind fun _ _ => .pure fun known => known.2
  · exact .pure .refl

private theorem superclass?_builds (cursor : Cursor) :
    Builds cursor superclass? fun superclass later =>
      cursor.Spans later (superclass.toList.map .superclass) := by
  refine (Builds.accept _).bind fun found _ => ?_
  cases found with
  | false => exact .pure id
  | true =>
    refine (Builds.scansConsume ..).bind fun _ _ => Builds.fresh.bind fun _ _ => .pure ?_
    rintro ⟨rfl, rfl⟩ named passed
    exact (passed.after named).consNode trivial rfl rfl

private theorem nativeFunction_offers (parts : Parts) (cursor : Cursor) :
    Offers Statement.elements cursor (nativeFunction parts) := by
  refine .check ?_
  split
  · refine Builds.advance.bind fun _ _ => (Builds.scansConsume ..).bind fun _ _ =>
      (Builds.scansConsume ..).bind fun _ _ => (Builds.scansConsume ..).bind fun _ _ =>
        (Builds.scansConsume ..).bind fun _ middle => (parameters_builds _ middle).bind
          fun _ _ => (Builds.scansConsume ..).bind fun _ _ => .pure ?_
    rintro closed ⟨few, params⟩ named dotted inside worded ⟨-, passed⟩
    have head := (((passed.after worded).after inside).after dotted).after named
    exact ((head.after params).after closed).cons few ⟨rfl, rfl⟩
  · exact Offers.none

/-- A statement behind a reserved word is offered there. -/
theorem afterWord_offers {word : Keyword} {rest : Location → Parse Statement}
    (builds : ∀ location start, BuildsStatement start (rest location)) (cursor : Cursor) :
    Offers Statement.elements cursor (afterWord word rest) := by
  refine .check ?_
  split
  · refine Builds.advance.bind fun _ start => (builds _ start).bind fun _ _ => .pure ?_
    exact fun statement known => known.2.after statement
  · exact Offers.none

/-! ### Parts of statements -/

namespace Parts.Build

variable (build : parts.Build)

include build

private theorem blockBody (cursor : Cursor) :
    Builds cursor (blockBody parts) fun body later =>
      cursor.Spans later (Statement.elementsAll body) :=
  (statementsUntil_builds build.statement _ _ cursor).bind fun _ _ =>
    (Builds.scansConsume ..).bind fun _ _ => .pure fun closed body => body.plain closed

private theorem bracedBody (what : String) (cursor : Cursor) :
    Builds cursor (bracedBody parts what) fun body later =>
      cursor.Spans later (Statement.elementsAll body) :=
  (Builds.scansConsume ..).bind fun _ middle => (build.blockBody middle).weaken
    fun _ _ body opened => opened.after body

private theorem parenthesized (before after : String) (cursor : Cursor) :
    BuildsExpr cursor (parenthesized parts before after) :=
  (Builds.scansConsume ..).bind fun _ middle => (build.expression middle).bind fun _ _ =>
    (Builds.scansConsume ..).bind fun _ _ => .pure fun closed expr opened =>
      (opened.after expr).plain closed

private theorem initialValue (cursor : Cursor) :
    Builds cursor (initialValue parts) fun initial later =>
      cursor.Spans later (initialElements initial) := by
  refine (Builds.accept _).bind fun found middle => ?_
  cases found with
  | false => exact .pure id
  | true => exact (build.expression middle).bind fun _ _ => .pure fun expr passed =>
      passed.after expr

/-! ### Declarations -/

private theorem varDecl (cursor : Cursor) : Offers Statement.elements cursor (varDecl parts) := by
  refine .get ?_
  dsimp only
  split
  · exact (Builds.skip _).bind fun _ _ => (Builds.scansConsume ..).bind fun _ middle =>
      (build.initialValue middle).bind fun _ _ => (Builds.scansConsume ..).bind fun _ _ =>
        .pure fun closed initial named skipped =>
          ((skipped.1.after named).after initial).plain closed
  · exact Offers.none

private theorem extensionMethod (className : Token) (isFinal : Bool) (location : Location)
    (cursor : Cursor) :
    BuildsStatement cursor (extensionMethod parts className isFinal location) := by
  refine (Builds.scansConsume ..).bind fun name middle => (parameters_builds _ middle).bind
    fun params between => (build.bracedBody _ between).bind fun body behind => Builds.fresh.bind
      fun _ _ => .pure ?_
  rintro ⟨rfl, rfl⟩ inside ⟨few, listed⟩ named
  let decl : FunctionDecl := ⟨name.lexeme, .method, params, body, isFinal, name.location⟩
  have method : cursor.Spans behind (.function .extension decl :: decl.elements) :=
    ((named.after listed).after inside).cons ⟨few, rfl, nofun⟩ ⟨rfl, rfl⟩
  exact method.consNode trivial rfl rfl

private theorem function (cursor : Cursor) : Offers Statement.elements cursor (function parts) := by
  refine .get ?_
  cases begins : functionHead? cursor.peek.kind cursor.peekNext.kind with
  | none => exact Offers.none
  | some head =>
    obtain ⟨kind, isFinal⟩ := head
    refine (skipHead_builds begins).bind fun _ start => (Builds.consume ..).bind
      fun name named => ?_
    have dotted : Scans named (accept [.dot]) := .accept _
    refine .either dotted (.pure .refl) fun extends? behind => ?_
    cases extends? with
    | true =>
      refine (build.extensionMethod name isFinal _ behind).bind fun _ _ => .pure ?_
      exact fun extension passed known skipped =>
        ((skipped.1.after known.1).after passed).after extension
    | false =>
      refine .declaring fun declared => (parameters_builds _ declared).bind fun params middle =>
        (checkOperatorArity_builds _ _ _ middle).bind fun _ between =>
          (build.bracedBody _ between).bind fun body _ => .pure ?_
      rintro body ⟨arity, checked⟩ ⟨few, params⟩ declares passed ⟨known, written⟩ ⟨skipped, two⟩
      have head : cursor.Spans behind [] := (skipped.after known).after passed
      refine (head.declare declares ⟨few, kind_of_functionHead? begins, arity⟩ fun operator =>
        ?_).append ((params.after checked).after body)
      obtain ⟨isIdentifier, standsAt, past⟩ := written nofun
      have two := two operator
      have onward := passed.reached
      rw [skipped.row, two] at standsAt
      exact ⟨cursor.reached, beginsAt_of_head begins operator standsAt isIdentifier _ _, by omega⟩

private theorem field (visibility : Option Visibility) (isFinal : Bool) (cursor : Cursor) :
    Builds cursor (field parts visibility isFinal) fun decl later =>
      cursor.Spans later (initialElements decl.initial) :=
  (Builds.scansConsume ..).bind fun _ middle => (build.initialValue middle).bind fun _ _ =>
    (Builds.scansConsume ..).bind fun _ _ => .pure fun closed initial named =>
      (named.after initial).plain closed

private theorem method (isFinal : Bool) (cursor : Cursor) :
    Builds cursor (method parts isFinal) fun decl later =>
      cursor.Spans later (.function .member decl :: decl.elements) := by
  refine (Builds.scansConsume ..).bind fun _ middle => (parameters_builds _ middle).bind
    fun _ between => (build.bracedBody _ between).bind fun _ _ => .pure ?_
  rintro body ⟨few, params⟩ named
  exact ((named.after params).after body).cons ⟨few, .inl rfl, nofun⟩ ⟨rfl, rfl⟩

private theorem constructor (cursor : Cursor) :
    Builds cursor (constructor parts) fun decl later =>
      cursor.Spans later (.function .member decl :: decl.elements) := by
  refine Builds.advance.bind fun _ middle => (parameters_builds _ middle).bind
    fun _ between => (build.bracedBody _ between).bind fun _ _ => .pure ?_
  rintro body ⟨few, params⟩ ⟨-, passed⟩
  exact ((passed.after params).after body).cons ⟨few, .inr rfl, nofun⟩ ⟨rfl, rfl⟩

private theorem member (cursor : Cursor) :
    Builds cursor (member parts) fun member later => cursor.Spans later member.elements := by
  refine .check ?_
  split
  · exact (build.constructor cursor).bind fun _ _ => .pure id
  · refine (visibility?_scans cursor).bind fun visibility _ => (Builds.accept _).bind
      fun isFinal start => ?_
    have accepted : Scans start (accept [.word .funWord]) := .accept _
    refine .either accepted (.pure .refl) fun isMethod middle => ?_
    cases isMethod with
    | true =>
      exact (build.method isFinal middle).bind fun _ _ => .pure fun method passed final seen =>
        ((seen.after final).after passed).after method
    | false =>
      refine (Builds.accept _).bind fun isField behind => ?_
      cases isField with
      | true =>
        exact (build.field visibility isFinal behind).bind fun _ _ => .pure
          fun field worded passed final seen =>
            (((seen.after final).after passed).after worded).after field
      | false => exact .peek (.fail _)

private theorem members (bound : Nat) (cursor : Cursor) :
    Builds cursor (members parts bound) fun members later =>
      cursor.Spans later (members.flatMap Member.elements) := by
  induction bound generalizing cursor with
  | zero => exact .exhausted
  | succ bound ih =>
    refine .get ?_
    split
    · exact .pure .refl
    · exact (build.member cursor).bind fun _ middle => (ih middle).bind fun _ _ => .pure
        fun rest first => first.append rest

private theorem classDecl (cursor : Cursor) :
    Offers Statement.elements cursor (classDecl parts) := by
  refine .get ?_
  dsimp only
  split
  · refine (Builds.skip _).bind fun _ _ => (Builds.scansConsume ..).bind fun _ between =>
      (superclass?_builds between).bind fun superclass _ => (Builds.scansConsume ..).bind
        fun _ middle => (build.members _ middle).bind fun members _ =>
          (Builds.scansConsume ..).bind fun _ _ => .pure ?_
    intro closed members opened superclass named skipped
    have head := ((skipped.1.after named).after superclass).plain opened
    exact head.append ((members.plain closed).perm (elements_members_perm _))
  · exact Offers.none

/-! ### Statements -/

private theorem ifElse (location : Location) (cursor : Cursor) :
    BuildsStatement cursor (ifElse parts location) := by
  refine (build.parenthesized _ _ cursor).bind fun _ middle => (build.statement middle).bind
    fun _ _ => (Builds.accept _).bind fun found behind => ?_
  cases found with
  | false => exact .pure fun passed thenBranch condition =>
      condition.append (thenBranch.plain passed)
  | true =>
    have another : Builds behind (some <$> parts.statement) fun branch later =>
        ∃ statement, branch = some statement ∧ behind.Spans later statement.elements :=
      (build.statement behind).bind fun statement _ => .pure fun known =>
        ⟨statement, rfl, known⟩
    refine another.bind fun _ _ => .pure ?_
    rintro ⟨_, rfl, elseBranch⟩ passed thenBranch condition
    exact condition.append ((thenBranch.plain passed).append elseBranch)

private theorem whileLoop (location : Location) (cursor : Cursor) :
    BuildsStatement cursor (whileLoop parts location) :=
  (build.parenthesized _ _ cursor).bind fun _ middle => (build.statement middle).bind
    fun _ _ => .pure fun body condition => condition.append body

/-- The body is parsed first. -/
theorem doWhile (location : Location) (cursor : Cursor) :
    BuildsStatement cursor (doWhile parts location) := by
  refine (build.statement cursor).bind fun _ _ => (Builds.scansConsume ..).bind fun _ middle =>
    (build.parenthesized _ _ middle).bind fun _ _ => (Builds.scansConsume ..).bind fun _ _ =>
      .pure fun closed condition worded body => ?_
  exact ((body.plain worded).append (condition.plain closed)).perm List.perm_append_comm

private theorem repeatLoop (location : Location) (cursor : Cursor) :
    BuildsStatement cursor (repeatLoop parts location) :=
  (build.parenthesized _ _ cursor).bind fun _ middle => (build.statement middle).bind
    fun _ _ => .pure fun body count => count.append body

private theorem returning (location : Location) (cursor : Cursor) :
    BuildsStatement cursor (returning parts location) := by
  refine .check ?_
  split
  · exact (Builds.scansConsume ..).bind fun _ _ => .pure id
  · have value : Builds cursor (some <$> parts.expression) fun value later =>
        cursor.Spans later (initialElements value) :=
      (build.expression cursor).bind fun _ _ => .pure id
    exact value.bind fun _ _ => (Builds.scansConsume ..).bind fun _ _ => .pure
      fun closed value => value.plain closed

private theorem print (what : String) (location : Location) (cursor : Cursor) :
    BuildsStatement cursor (print parts what location) :=
  (build.expression cursor).bind fun _ _ => (Builds.scansConsume ..).bind fun _ _ => .pure
    fun closed expr => expr.plain closed

private theorem test (location : Location) (cursor : Cursor) :
    BuildsStatement cursor (test parts location) :=
  (Builds.scansConsume ..).bind fun _ _ => (Builds.scansConsume ..).bind fun _ _ =>
    (Builds.scansConsume ..).bind fun _ middle => (build.bracedBody _ middle).bind fun _ _ =>
      .pure fun body closed named opened => ((opened.after named).after closed).after body

private theorem builtin (rule : BuiltinRule) (cursor : Cursor) :
    Offers Statement.elements cursor (builtin parts rule) := by
  cases rule with
  | varDecl => exact build.varDecl cursor
  | function => exact build.function cursor
  | nativeFunction => exact nativeFunction_offers parts cursor
  | classDecl => exact build.classDecl cursor
  | ifElse => exact afterWord_offers build.ifElse cursor
  | whileLoop => exact afterWord_offers build.whileLoop cursor
  | doWhile => exact afterWord_offers build.doWhile cursor
  | repeatLoop => exact afterWord_offers build.repeatLoop cursor
  | block =>
    refine .check ?_
    split
    · exact Builds.advance.bind fun _ middle => (build.blockBody middle).bind fun _ _ => .pure
        fun body known => known.2.after body
    · exact Offers.none
  | returning => exact afterWord_offers build.returning cursor
  | breaking | continuing =>
    unfold Grammar.builtin
    refine afterWord_offers (fun _ _ => ?_) cursor
    exact (Builds.scansConsume ..).bind fun _ _ => .pure id
  | print => exact afterWord_offers (build.print _) cursor
  | test => exact afterWord_offers build.test cursor
  | moduleDecl =>
    refine afterWord_offers (fun _ _ => ?_) cursor
    exact (Builds.scansConsume ..).bind fun _ _ => (Builds.scansConsume ..).bind fun _ _ =>
      .pure fun closed named => named.after closed

private theorem byRule (rule : StatementRule) (cursor : Cursor) :
    Offers Statement.elements cursor (byRule parts rule) := by
  refine .get ?_
  cases rule with
  | builtin rule => exact build.builtin rule cursor
  | decline steps => exact (Builds.skip steps).bind fun _ _ => .pure fun known => known.2
  | print trigger =>
    dsimp only
    split
    · exact Builds.advance.bind fun _ middle => (build.print _ _ middle).bind fun _ _ => .pure
        fun statement known => known.2.after statement
    · exact Offers.none
  | send trigger =>
    dsimp only
    split
    · refine (Builds.skip 2).bind fun _ _ => (Builds.scansConsume ..).bind fun _ _ =>
        (Builds.scansConsume ..).bind fun _ _ => .pure fun closed named skipped => ?_
      exact ((skipped.1.after named).after closed).cons trivial ⟨rfl, rfl⟩
    · exact Offers.none
  | block trigger =>
    dsimp only
    split
    · exact Builds.advance.bind fun _ middle => (build.bracedBody _ middle).bind fun _ _ => .pure
        fun body known => known.2.after body
    · exact Offers.none
  | refuse trigger =>
    dsimp only
    split
    · exact .fail _
    · exact Offers.none

/-- A statement is built by the first rule that applies, or as an expression. -/
theorem statement_builds (grammar : Grammar) (cursor : Cursor) :
    BuildsStatement cursor (Grammar.statement grammar parts) := by
  refine (Offers.firstOf build.byRule).bind fun result middle => ?_
  cases result with
  | some result => exact .pure id
  | none =>
    exact .peek ((build.expression middle).bind fun _ _ => (Builds.scansConsume ..).bind
      fun _ _ => .pure fun closed expr declined => (declined.after expr).plain closed)

end Parts.Build

/-- However deep it may nest, a statement that is parsed is built. -/
theorem statementAt_builds (grammar : Grammar) (bound : Nat) (cursor : Cursor) :
    BuildsStatement cursor (statementAt grammar bound) := by
  induction bound generalizing cursor with
  | zero => exact .exhausted
  | succ bound ih =>
    have build : (partsAt grammar bound).Build :=
      ⟨expressionAt_builds grammar bound .assignment, ih⟩
    exact build.statement_builds grammar cursor

end Grammar

end Scriptlet
