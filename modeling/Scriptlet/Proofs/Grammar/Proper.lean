import Scriptlet.Grammar.Program
import Scriptlet.Proofs.Lexical.Proper
import Scriptlet.Proofs.Outcome

/-!
# Parsed programs are proper

By no rule of a grammar is a constructor declared as a statement: a program that is parsed has
constructors only as members of classes (`Grammar.proper_parse`). What a parser gives
(`Parse.Yields`) is followed through the parsers it is made of. Expressions hold no functions, so
nothing need be known of them.
-/

namespace Scriptlet

namespace Parse

variable {α β γ : Type} {holds : α → Prop} {parser : Parse α}

/-- Whatever a parser gives has a property. -/
def Yields (holds : α → Prop) (parser : Parse α) : Prop :=
  ∀ cursor value later, parser cursor = .ok value later → holds value

/-- So has what it may give. -/
abbrev MayYield (holds : α → Prop) (parser : Parse (Option α)) : Prop :=
  Yields (fun result => ∀ value ∈ result, holds value) parser

namespace Yields

/-- Giving a value gives what is known of it. -/
protected theorem pure {value : α} (known : holds value) : Yields holds (pure value) := by
  intro cursor result later ended
  cases ended
  exact known

/-- A parser that fails gives nothing. -/
protected theorem fail (fault : Located ParseFault) : Yields holds (Parse.fail fault) :=
  fun _ _ _ ended => nomatch ended

/-- A parser that stops for its depth gives nothing. -/
protected theorem exhausted : Yields holds (Parse.exhausted : Parse α) :=
  fun _ _ _ ended => nomatch ended

/-- What comes after a parser whose value has a property. -/
theorem bindKnowing {next : α → Parse β} {onward : β → Prop} (first : Yields holds parser)
    (rest : ∀ value, holds value → Yields onward (next value)) :
    Yields onward (parser >>= next) := by
  intro cursor value later ended
  obtain ⟨middle, between, firstEnded, restEnded⟩ := bind_eq_ok.mp ended
  exact rest middle (first cursor middle between firstEnded) between value later restEnded

/-- What comes after a parser of which nothing is known. -/
theorem bind {next : α → Parse β} {onward : β → Prop}
    (rest : ∀ value, Yields onward (next value)) : Yields onward (parser >>= next) := by
  have nothing : Yields (fun _ => True) parser := fun _ _ _ _ => trivial
  exact nothing.bindKnowing fun value _ => rest value

/-- What comes after either of two parsers of which nothing is known. -/
theorem either {condition : Prop} [Decidable condition] {one other : Parse γ} {next : γ → Parse α}
    (rest : ∀ value, Yields holds (next value)) :
    Yields holds (if condition then one >>= next else other >>= next) := by
  split
  · exact .bind rest
  · exact .bind rest

/-- What comes after the name of an operator is declared, if it is that of one. -/
theorem declaring {kind : FunctionKind} {one other : Parse Unit} {next : Unit → Parse α}
    (rest : ∀ value, Yields holds (next value)) :
    Yields holds (match kind with
      | .prefixOperator => one >>= next
      | .infixOperator => other >>= next
      | _ => next ()) := by
  cases kind with
  | prefixOperator | infixOperator => exact .bind rest
  | _ => exact rest ()

/-- An attempt gives what the parser gives, if it does not fail. -/
protected theorem attempt (yields : Yields holds parser) :
    Yields (fun result => ∀ value, result = .ok value → holds value) (Parse.attempt parser) := by
  intro cursor result later ended value given
  unfold Parse.attempt at ended
  cases outcome : parser cursor with
  | ok known between =>
      rw [outcome] at ended
      cases ended
      cases given
      exact yields cursor value later outcome
  | error stop between =>
      rw [outcome] at ended
      cases stop with
      | fault fault =>
          cases ended
          cases given
      | exhausted => cases ended

end Yields

namespace MayYield

/-- Giving nothing gives nothing of which something would have to be known. -/
protected theorem none : MayYield holds (pure none) := .pure nofun

/-- Giving something gives what is known of it. -/
protected theorem some {value : α} (known : holds value) : MayYield holds (pure (some value)) := by
  refine .pure ?_
  rintro _ ⟨⟩
  exact known

private theorem ofYields (yields : Yields holds parser) :
    MayYield holds (parser >>= fun value => pure (some value)) :=
  yields.bindKnowing fun _ known => MayYield.some known

/-- A parser that gives something with a property may give it. -/
protected theorem map (yields : Yields holds parser) :
    MayYield holds (Option.some <$> parser) :=
  ofYields yields

/-- The first of some alternatives that gives something gives what that alternative may give. -/
protected theorem firstOf {choose : γ → Parse (Option α)}
    (choice : ∀ alternative, MayYield holds (choose alternative)) (alternatives : List γ) :
    MayYield holds (Parse.firstOf choose alternatives) := by
  induction alternatives with
  | nil => exact .none
  | cons alternative others ih =>
      refine .bind fun start => (choice alternative).bindKnowing fun result known => ?_
      cases result with
      | some value => exact .pure known
      | none => exact .bind fun _ => ih

end MayYield

end Parse

namespace Grammar

open Parse

variable {parts : Parts}

/-! ### Blocks -/

private theorem proper_statementsUntil {statement : Parse Statement}
    (proper : Yields (·.isProper = true) statement) (closing : TokenKind) (bound : Nat) :
    Yields (Statement.areProper · = true) (statementsUntil statement closing bound) := by
  have recovered : MayYield (·.isProper = true) (recovering statement) := by
    refine proper.attempt.bindKnowing fun result known => ?_
    cases result with
    | ok statement => exact MayYield.some (known statement rfl)
    | error fault => exact .bind fun _ => .bind fun _ => MayYield.none
  induction bound with
  | zero => exact .exhausted
  | succ bound ih =>
      refine .bind fun cursor => ?_
      split
      · exact .pure rfl
      · refine recovered.bindKnowing fun result known => ?_
        cases result with
        | none => exact ih
        | some first =>
            refine ih.bindKnowing fun rest others => .pure ?_
            rw [Statement.areProper, known first rfl, others]
            rfl

section Parts

variable (proper : Yields (·.isProper = true) parts.statement)

include proper

private theorem proper_blockBody : Yields (Statement.areProper · = true) (blockBody parts) :=
  (proper_statementsUntil proper _ _).bindKnowing fun _ body => .bind fun _ => .pure body

private theorem proper_bracedBody (what : String) :
    Yields (Statement.areProper · = true) (bracedBody parts what) :=
  .bind fun _ => proper_blockBody proper

end Parts

/-! ### Statements without parts -/

private theorem proper_afterWord {word : Keyword} {rest : Location → Parse Statement}
    (known : ∀ location, Yields (·.isProper = true) (rest location)) :
    MayYield (·.isProper = true) (afterWord word rest) := by
  refine .bind fun here => ?_
  split
  · exact .bind fun token => MayYield.ofYields (known token.location)
  · exact MayYield.none

private theorem proper_returning (location : Location) :
    Yields (·.isProper = true) (returning parts location) :=
  .bind fun _ => .either fun _ => .bind fun _ => .pure rfl

private theorem proper_print (what : String) (location : Location) :
    Yields (·.isProper = true) (print parts what location) :=
  .bind fun _ => .bind fun _ => .pure rfl

/-! ### Declarations -/

private theorem proper_varDecl : MayYield (·.isProper = true) (varDecl parts) := by
  refine .bind fun cursor => ?_
  dsimp only
  split
  · exact .bind fun _ => .bind fun _ => .bind fun _ => .bind fun _ => MayYield.some rfl
  · exact MayYield.none

private theorem proper_nativeFunction : MayYield (·.isProper = true) (nativeFunction parts) := by
  refine .bind fun native => ?_
  split
  · exact .bind fun _ => .bind fun _ => .bind fun _ => .bind fun _ => .bind fun _ => .bind fun _ =>
      .bind fun _ => MayYield.some rfl
  · exact MayYield.none

/-- A function declaration does not begin as a constructor does. -/
theorem functionHead?_ne_constructor {first second : TokenKind} {kind : FunctionKind}
    {isFinal : Bool} (head : functionHead? first second = some (kind, isFinal)) :
    kind ≠ .constructor := by
  rintro rfl
  unfold functionHead? at head
  split at head <;> cases head

section Parts

variable (proper : Yields (·.isProper = true) parts.statement)

include proper

private theorem proper_extensionMethod (className : Token) (isFinal : Bool) (location : Location) :
    Yields (·.isProper = true) (extensionMethod parts className isFinal location) :=
  .bind fun _ => .bind fun _ => (proper_bracedBody proper _).bindKnowing fun _ body =>
    .bind fun _ => .pure body

private theorem proper_function : MayYield (·.isProper = true) (function parts) := by
  refine .bind fun cursor => ?_
  cases begins : functionHead? cursor.peek.kind cursor.peekNext.kind with
  | none => exact MayYield.none
  | some head =>
      obtain ⟨kind, isFinal⟩ := head
      have plain := functionHead?_ne_constructor begins
      refine .bind fun _ => .bind fun name => .either fun extends? => ?_
      cases extends? with
      | true => exact MayYield.ofYields (proper_extensionMethod proper name isFinal _)
      | false =>
          refine .declaring fun _ => .bind fun params => .bind fun _ =>
            (proper_bracedBody proper _).bindKnowing fun body known => MayYield.some ?_
          rw [Statement.isProper, FunctionDecl.isProper_eq, known]
          simpa using plain

private theorem proper_method (isFinal : Bool) :
    Yields (·.isProper = true) (method parts isFinal) :=
  .bind fun _ => .bind fun _ => (proper_bracedBody proper _).bindKnowing fun _ body => .pure body

private theorem proper_constructor : Yields (·.isProper = true) (constructor parts) :=
  .bind fun _ => .bind fun _ => (proper_bracedBody proper _).bindKnowing fun _ body => .pure body

/-- The members of a class body are methods or constructors with proper bodies. -/
theorem proper_member :
    Yields (fun member => ∀ decl, member = .method decl → decl.isProper = true) (member parts) := by
  refine .bind fun isConstructor => ?_
  split
  · refine (proper_constructor proper).bindKnowing fun decl known => .pure ?_
    rintro _ ⟨⟩
    exact known
  · refine .bind fun visibility => .bind fun isFinal => .either fun isMethod => ?_
    cases isMethod with
    | true =>
        refine (proper_method proper isFinal).bindKnowing fun decl known => .pure ?_
        rintro _ ⟨⟩
        exact known
    | false =>
        refine .bind fun isField => ?_
        split
        · exact .bind fun _ => .pure nofun
        · exact .bind fun _ => .fail _

private theorem proper_members (bound : Nat) :
    Yields (fun members => FunctionDecl.areProper (methodsOf members) = true)
      (members parts bound) := by
  induction bound with
  | zero => exact .exhausted
  | succ bound ih =>
      refine .bind fun cursor => ?_
      split
      · exact .pure rfl
      · refine (proper_member proper).bindKnowing fun first known => ih.bindKnowing
          fun rest others => .pure ?_
        cases first with
        | field decl => exact others
        | method decl => 
            rw [methodsOf, FunctionDecl.areProper, known decl rfl, others]
            rfl

private theorem proper_classDecl : MayYield (·.isProper = true) (classDecl parts) := by
  refine .bind fun cursor => ?_
  dsimp only
  split
  · exact .bind fun _ => .bind fun _ => .bind fun _ => .bind fun _ =>
      (proper_members proper _).bindKnowing fun _ methods => .bind fun _ => MayYield.some methods
  · exact MayYield.none

/-! ### Statements -/

private theorem proper_ifElse (location : Location) :
    Yields (·.isProper = true) (ifElse parts location) := by
  refine .bind fun condition => proper.bindKnowing fun thenBranch first => .bind fun more => ?_
  have known (elseBranch : Option Statement)
      (second : ∀ statement ∈ elseBranch, statement.isProper = true) :
      Yields (·.isProper = true)
        (pure (.ifElse condition thenBranch elseBranch location) : Parse Statement) := by
    refine .pure ?_
    cases elseBranch with
    | none => exact first
    | some elseBranch => rw [Statement.isProper, first, second elseBranch rfl, Bool.and_self]
  dsimp only
  split
  · exact (MayYield.map proper).bindKnowing known
  · exact MayYield.none.bindKnowing known

private theorem proper_whileLoop (location : Location) :
    Yields (·.isProper = true) (whileLoop parts location) :=
  .bind fun _ => proper.bindKnowing fun _ body => .pure body

private theorem proper_doWhile (location : Location) :
    Yields (·.isProper = true) (doWhile parts location) :=
  proper.bindKnowing fun _ body => .bind fun _ => .bind fun _ => .bind fun _ => .pure body

private theorem proper_repeatLoop (location : Location) :
    Yields (·.isProper = true) (repeatLoop parts location) :=
  .bind fun _ => proper.bindKnowing fun _ body => .pure body

private theorem proper_test (location : Location) :
    Yields (·.isProper = true) (test parts location) :=
  .bind fun _ => .bind fun _ => .bind fun _ =>
    (proper_bracedBody proper _).bindKnowing fun _ body => .pure body

private theorem proper_builtin (rule : BuiltinRule) :
    MayYield (·.isProper = true) (builtin parts rule) := by
  cases rule with
  | varDecl => exact proper_varDecl
  | function => exact proper_function proper
  | nativeFunction => exact proper_nativeFunction
  | classDecl => exact proper_classDecl proper
  | ifElse => exact proper_afterWord (proper_ifElse proper)
  | whileLoop => exact proper_afterWord (proper_whileLoop proper)
  | doWhile => exact proper_afterWord (proper_doWhile proper)
  | repeatLoop => exact proper_afterWord (proper_repeatLoop proper)
  | block =>
      refine .bind fun here => ?_
      split
      · exact .bind fun brace => (proper_blockBody proper).bindKnowing fun _ body =>
          MayYield.some body
      · exact MayYield.none
  | returning => exact proper_afterWord proper_returning
  | breaking =>
      exact proper_afterWord fun location => .bind fun _ =>
        .pure (rfl : (Statement.breaking location).isProper = true)
  | continuing =>
      exact proper_afterWord fun location => .bind fun _ =>
        .pure (rfl : (Statement.continuing location).isProper = true)
  | print => exact proper_afterWord (proper_print _)
  | test => exact proper_afterWord (proper_test proper)
  | moduleDecl => exact proper_afterWord fun _ => .bind fun _ => .bind fun _ => .pure rfl

private theorem proper_byRule (rule : StatementRule) :
    MayYield (·.isProper = true) (byRule parts rule) := by
  refine .bind fun cursor => ?_
  cases rule with
  | builtin rule => exact proper_builtin proper rule
  | decline steps => exact .bind fun _ => MayYield.none
  | print trigger =>
      dsimp only
      split
      · exact .bind fun _ => MayYield.ofYields (proper_print _ _)
      · exact MayYield.none
  | send trigger =>
      dsimp only
      split
      · exact .bind fun _ => .bind fun _ => .bind fun _ => MayYield.some rfl
      · exact MayYield.none
  | block trigger =>
      dsimp only
      split
      · exact .bind fun _ => (proper_bracedBody proper _).bindKnowing fun _ body =>
          MayYield.some body
      · exact MayYield.none
  | refuse trigger =>
      dsimp only
      split
      · exact .fail _
      · exact MayYield.none

private theorem proper_statement (grammar : Grammar) :
    Yields (·.isProper = true) (statement grammar parts) := by
  refine (MayYield.firstOf (proper_byRule proper) grammar.statements).bindKnowing
    fun result known => ?_
  cases result with
  | some result => exact .pure (known result rfl)
  | none => exact .bind fun _ => .bind fun _ => .bind fun _ => .pure rfl

end Parts

/-- However deep it may nest, a statement that is parsed is proper. -/
theorem proper_statementAt (grammar : Grammar) (bound : Nat) :
    Yields (·.isProper = true) (statementAt grammar bound) := by
  induction bound with
  | zero => exact .exhausted
  | succ bound ih => exact proper_statement ih grammar

/-- A program that is parsed is proper. -/
theorem proper_parse {grammar : Grammar} {tokens : List Token} {nextId later : NodeId}
    {program : Program} (parsed : parse grammar tokens nextId = .ok (program, later)) :
    Statement.areProper program = true := by
  have known : Yields (Statement.areProper · = true) (parseStatements grammar) :=
    .bind fun _ => proper_statementsUntil (proper_statementAt grammar _) _ _
  unfold parse finish at parsed
  split at parsed
  · rename_i statements cursor ended
    split at parsed
    · cases parsed
      exact known _ _ _ ended
    · cases parsed
  · cases parsed
  · cases parsed

end Grammar

end Scriptlet
