import Scriptlet.Proofs.Grammar.Extension

/-!
# Statements of an extended grammar

A grammar that is extended by rules that always decline, and by rules that wait for tokens of some
kinds, parses token streams without such tokens as before: the statements are the same up to the
numbers of their nodes (`Statement.later`), and so are the faults (`Grammar.parse_later`).
-/

namespace Scriptlet

/-- A statement whose nodes have later numbers. -/
abbrev Statement.later (shift : Nat) (statement : Statement) : Statement :=
  statement.relabel (· + shift) id

/-- Statements whose nodes have later numbers. -/
abbrev Statement.laterAll (shift : Nat) (statements : List Statement) : List Statement :=
  Statement.relabelAll (· + shift) id statements

/-- A function whose nodes have later numbers. -/
abbrev FunctionDecl.later (shift : Nat) (decl : FunctionDecl) : FunctionDecl :=
  decl.relabel (· + shift) id

/-- A field whose nodes have later numbers. -/
abbrev FieldDecl.later (shift : Nat) (decl : FieldDecl) : FieldDecl :=
  decl.relabel (· + shift) id

namespace Grammar

open Parse

/-- A member whose nodes have later numbers. -/
def Member.later (shift : Nat) : Member → Member
  | .field decl => .field (decl.later shift)
  | .method decl => .method (decl.later shift)

private theorem fieldsOf_later (shift : Nat) (items : List Member) :
    fieldsOf (items.map (Member.later shift)) = (fieldsOf items).map (FieldDecl.later shift) := by
  induction items with
  | nil => rfl
  | cons first rest ih => cases first <;> simp [Member.later, fieldsOf, ih]

private theorem methodsOf_later (shift : Nat) (items : List Member) :
    methodsOf (items.map (Member.later shift)) =
      FunctionDecl.relabelAll (· + shift) id (methodsOf items) := by
  induction items with
  | nil => rfl
  | cons first rest ih =>
      cases first <;> simp [Member.later, methodsOf, FunctionDecl.relabelAll, ih]

variable {kinds : TokenKind → Prop} {shift : Nat} {base extended : Grammar}

private theorem parameterItems_mirrors (bound count : Nat) :
    Mirrors kinds shift (List.map (Parameter.relabel id)) (parameterItems bound count)
      (parameterItems bound count) := by
  induction bound generalizing count with
  | zero => exact .exhausted
  | succ bound ih =>
      have items : Mirrors kinds shift (List.map (Parameter.relabel id))
          (do
            let name ← consumeName "parameter name"
            let parameter : Parameter := ⟨name.lexeme, name.location⟩
            if ← accept [.comma] then return parameter :: (← parameterItems bound (count + 1))
            else return [parameter])
          (do
            let name ← consumeName "parameter name"
            let parameter : Parameter := ⟨name.lexeme, name.location⟩
            if ← accept [.comma] then return parameter :: (← parameterItems bound (count + 1))
            else return [parameter]) :=
        (Mirrors.consumeName _).bind fun name => (Mirrors.accept [.comma]).bind fun _ =>
          .ite ((ih (count + 1)).bind fun rest => .pure (Parameter.mk _ name.location :: rest))
            (.pure [Parameter.mk _ name.location])
      exact .ite (Mirrors.peek.bind fun _ => (Mirrors.report _).bind fun _ => items) items

private theorem parameters_mirrors (bound : Nat) :
    Mirrors kinds shift (List.map (Parameter.relabel id)) (parameters bound)
      (parameters bound) := by
  refine (Mirrors.consume _ _).bind fun _ => (Mirrors.check _).bind fun empty => ?_
  have closed (params : List Parameter) : Mirrors kinds shift (List.map (Parameter.relabel id))
      (consume .rightParen "')' after parameters" >>= fun _ =>
        pure (params.map (Parameter.relabel id)))
      (consume .rightParen "')' after parameters" >>= fun _ => pure params) :=
    (Mirrors.consume _ _).bind fun _ => .pure params
  exact .ite (closed []) ((parameterItems_mirrors bound 0).bind closed)

private theorem superclass?_mirrors :
    Mirrors kinds shift (Option.map (SuperclassRef.relabel (· + shift) id)) superclass?
      superclass? := by
  refine (Mirrors.accept _).bind fun _ => .ite ?_ (.pure none)
  exact (Mirrors.consumeName _).bind fun name => Mirrors.fresh.bind fun id =>
    .pure (some (SuperclassRef.mk id name.lexeme name.location))

private theorem visibility?_mirrors : Mirrors kinds shift id visibility? visibility? := by
  refine Mirrors.peek.bind fun token => ?_
  dsimp only [id]
  split
  · exact Mirrors.advance.bind fun _ => .pure (some _)
  · exact Mirrors.advance.bind fun _ => .pure (some _)
  · exact .pure none

private theorem checkOperatorArity_mirrors (kind : FunctionKind) (found : Nat)
    (location : Location) :
    Mirrors kinds shift id (checkOperatorArity kind found location)
      (checkOperatorArity kind found location) := by
  unfold checkOperatorArity
  split
  · exact .ite (.report _) (.pure ())
  · exact .pure ()

private theorem moduleDecl_mirrors (location : Location) :
    Mirrors kinds shift (Statement.later shift) (moduleDecl location) (moduleDecl location) :=
  (Mirrors.consumeName _).bind fun name => (Mirrors.consume _ _).bind fun _ =>
    .pure (Statement.moduleDecl name.lexeme location)

private theorem nativeFunction_mirrors (parts imageParts : Parts)
    (same : imageParts.bound = parts.bound) :
    Mirrors kinds shift (Option.map (Statement.later shift)) (nativeFunction imageParts)
      (nativeFunction parts) := by
  unfold nativeFunction
  rw [same]
  refine (Mirrors.check _).bind fun _ => .ite ?_ (.pure none)
  exact Mirrors.advance.bind fun word => (Mirrors.consume _ _).bind fun _ =>
    (Mirrors.consumeName _).bind fun moduleName => (Mirrors.consume _ _).bind fun _ =>
      (Mirrors.consumeName _).bind fun name => (parameters_mirrors _).bind fun params =>
        (Mirrors.consume _ _).bind fun _ => .pure
          (some (Statement.nativeFunction moduleName.lexeme name.lexeme params word.location))

/-- A statement that begins with a reserved word. -/
theorem afterWord_mirrors (word : Keyword) {image rest : Location → Parse Statement}
    (mirrors : ∀ location,
      Mirrors kinds shift (Statement.later shift) (image location) (rest location)) :
    Mirrors kinds shift (Option.map (Statement.later shift)) (afterWord word image)
      (afterWord word rest) :=
  (Mirrors.check _).bind fun _ => .ite (Mirrors.advance.bind fun token =>
    (mirrors token.location).bind fun statement => .pure (some statement)) (.pure none)

/-- A statement that has a fault is passed over alike. -/
theorem recovering_mirrors {image statement : Parse Statement}
    (mirrors : Mirrors kinds shift (Statement.later shift) image statement) :
    Mirrors kinds shift (Option.map (Statement.later shift)) (recovering image)
      (recovering statement) := by
  refine mirrors.attempt.bind fun outcome => ?_
  cases outcome with
  | ok result => exact .pure (some result)
  | error fault =>
      exact (Mirrors.report fault).bind fun _ =>
        (Mirrors.modify (fun _ => Cursor.synchronize_later) fun _ => .synchronize).bind
          fun _ => .pure none

private theorem statementsUntil_mirrors {image statement : Parse Statement}
    (mirrors : Mirrors kinds shift (Statement.later shift) image statement) (closing : TokenKind)
    (bound : Nat) :
    Mirrors kinds shift (Statement.laterAll shift) (statementsUntil image closing bound)
      (statementsUntil statement closing bound) := by
  induction bound with
  | zero => exact .exhausted
  | succ bound ih =>
      refine .get fun cursor _ => .ite (.pure []) ?_
      refine (recovering_mirrors mirrors).bind fun found => ?_
      cases found with
      | none => exact ih
      | some first => exact ih.bind fun rest => .pure (first :: rest)

/-- The parsers of the parts of a statement do what others do, at the later numbers. -/
structure PartsMirror (kinds : TokenKind → Prop) (shift : Nat) (image parts : Parts) : Prop where
  expression : Mirrors kinds shift (Expr.later shift) image.expression parts.expression
  statement : Mirrors kinds shift (Statement.later shift) image.statement parts.statement
  bound : image.bound = parts.bound

namespace PartsMirror

variable {image parts : Parts} (mirror : PartsMirror kinds shift image parts)
include mirror

private theorem parameters : Mirrors kinds shift (List.map (Parameter.relabel id))
    (Grammar.parameters image.bound) (Grammar.parameters parts.bound) := by
  rw [mirror.bound]
  exact parameters_mirrors _

private theorem blockBody : Mirrors kinds shift (Statement.laterAll shift) (Grammar.blockBody image)
    (Grammar.blockBody parts) := by
  unfold Grammar.blockBody
  rw [mirror.bound]
  exact (statementsUntil_mirrors mirror.statement _ _).bind fun body =>
    (Mirrors.consume _ _).bind fun _ => .pure body

private theorem bracedBody (what : String) :
    Mirrors kinds shift (Statement.laterAll shift) (Grammar.bracedBody image what)
      (Grammar.bracedBody parts what) :=
  (Mirrors.consume _ _).bind fun _ => mirror.blockBody

private theorem parenthesized (before after : String) :
    Mirrors kinds shift (Expr.later shift) (Grammar.parenthesized image before after)
      (Grammar.parenthesized parts before after) :=
  (Mirrors.consume _ _).bind fun _ => mirror.expression.bind fun expr =>
    (Mirrors.consume _ _).bind fun _ => .pure expr

private theorem initialValue :
    Mirrors kinds shift (Option.map (Expr.later shift)) (Grammar.initialValue image)
      (Grammar.initialValue parts) :=
  (Mirrors.accept _).bind fun _ =>
    .ite (mirror.expression.bind fun value => .pure (some value)) (.pure none)

private theorem varDecl :
    Mirrors kinds shift (Option.map (Statement.later shift)) (Grammar.varDecl image)
      (Grammar.varDecl parts) :=
  .get fun cursor _ => .ite
    ((skip_mirrors _).bind fun _ => (Mirrors.consumeName _).bind fun name =>
      mirror.initialValue.bind fun initial => (Mirrors.consume _ _).bind fun _ =>
        .pure (some (Statement.varDecl name.lexeme initial _ cursor.peek.location)))
    (.pure none)

private theorem extensionMethod (className : Token) (isFinal : Bool) (location : Location) :
    Mirrors kinds shift (Statement.later shift)
      (Grammar.extensionMethod image className isFinal location)
      (Grammar.extensionMethod parts className isFinal location) :=
  (Mirrors.consumeName _).bind fun method => mirror.parameters.bind fun params =>
    (mirror.bracedBody _).bind fun body => Mirrors.fresh.bind fun id =>
      .pure (Statement.extension id className.lexeme
        ⟨method.lexeme, .method, params, body, isFinal, method.location⟩ location)

private theorem function :
    Mirrors kinds shift (Option.map (Statement.later shift)) (Grammar.function image)
      (Grammar.function parts) := by
  refine .get fun cursor _ => ?_
  dsimp only
  have head : functionHead? (cursor.later shift).peek.kind (cursor.later shift).peekNext.kind =
    functionHead? cursor.peek.kind cursor.peekNext.kind := rfl
  rw [head]
  cases functionHead? cursor.peek.kind cursor.peekNext.kind with
  | none => exact .pure none
  | some found =>
      obtain ⟨kind, isFinal⟩ := found
      dsimp only
      refine (skip_mirrors _).bind fun _ => (Mirrors.consumeName _).bind fun name =>
        .ifAsked (.accept _) fun _ => .ite ((mirror.extensionMethod name isFinal _).bind
          fun method => .pure (some method)) ?_
      -- What follows the name is the same for all kinds of functions.
      have onward : Mirrors kinds shift (Option.map (Statement.later shift))
          (do
            let params ← Grammar.parameters image.bound
            checkOperatorArity kind params.length name.location
            let body ← Grammar.bracedBody image "'\x7b' before function body"
            return some (.function ⟨name.lexeme, kind, params, body, isFinal,
              cursor.peek.location⟩))
          (do
            let params ← Grammar.parameters parts.bound
            checkOperatorArity kind params.length name.location
            let body ← Grammar.bracedBody parts "'\x7b' before function body"
            return some
              (.function ⟨name.lexeme, kind, params, body, isFinal, cursor.peek.location⟩)) := by
        refine mirror.parameters.bind fun params => ?_
        rw [List.length_map]
        exact (checkOperatorArity_mirrors _ _ _).bind fun _ => (mirror.bracedBody _).bind
          fun body => .pure (some (Statement.function
            ⟨name.lexeme, kind, params, body, isFinal, cursor.peek.location⟩))
      cases kind with
      | prefixOperator => exact (Mirrors.declarePrefix _).bind fun _ => onward
      | infixOperator => exact (Mirrors.declareInfix _).bind fun _ => onward
      | function => exact onward
      | method => exact onward
      | constructor => exact onward

private theorem method (isFinal : Bool) :
    Mirrors kinds shift (FunctionDecl.later shift) (Grammar.method image isFinal)
      (Grammar.method parts isFinal) :=
  (Mirrors.consumeName _).bind fun name => mirror.parameters.bind fun params =>
    (mirror.bracedBody _).bind fun body =>
      .pure (⟨name.lexeme, .method, params, body, isFinal, name.location⟩ : FunctionDecl)

private theorem constructor :
    Mirrors kinds shift (FunctionDecl.later shift) (Grammar.constructor image)
      (Grammar.constructor parts) :=
  Mirrors.advance.bind fun word => mirror.parameters.bind fun params =>
    (mirror.bracedBody _).bind fun body =>
      .pure (⟨constructorName, .constructor, params, body, false, word.location⟩ : FunctionDecl)

private theorem field (visibility : Option Visibility) (isFinal : Bool) :
    Mirrors kinds shift (FieldDecl.later shift) (Grammar.field image visibility isFinal)
      (Grammar.field parts visibility isFinal) :=
  (Mirrors.consumeName _).bind fun name => mirror.initialValue.bind fun initial =>
    (Mirrors.consume _ _).bind fun _ => .pure
      (⟨name.lexeme, visibility.getD .everyone, isFinal, initial, name.location⟩ : FieldDecl)

private theorem member :
    Mirrors kinds shift (Member.later shift) (Grammar.member image) (Grammar.member parts) := by
  refine (Mirrors.check _).bind fun _ => .ite (mirror.constructor.bind fun decl =>
    .pure (Member.method decl)) ?_
  refine visibility?_mirrors.bind fun visibility => (Mirrors.accept _).bind fun isFinal => ?_
  have fieldOrFault : Mirrors kinds shift (Member.later shift)
      (do
        if ← accept [.word .varWord] then
          return .field (← Grammar.field image visibility isFinal)
        else
          let token ← peek
          fail ⟨.invalidClassMember token.found, token.location⟩)
      (do
        if ← accept [.word .varWord] then
          return .field (← Grammar.field parts visibility isFinal)
        else
          let token ← peek
          fail ⟨.invalidClassMember token.found, token.location⟩) :=
    (Mirrors.accept _).bind fun _ => .ite
      ((mirror.field visibility isFinal).bind fun decl => .pure (Member.field decl))
      (Mirrors.peek.bind fun _ => .fail _)
  have asMethod : Mirrors kinds shift (Member.later shift)
      (Grammar.method image isFinal >>= fun decl => pure (Member.method decl))
      (Grammar.method parts isFinal >>= fun decl => pure (Member.method decl)) :=
    (mirror.method isFinal).bind fun decl => .pure (Member.method decl)
  exact .ifAsked (.accept _) fun _ => .ite asMethod fieldOrFault

private theorem members (bound : Nat) :
    Mirrors kinds shift (List.map (Member.later shift)) (Grammar.members image bound)
      (Grammar.members parts bound) := by
  induction bound with
  | zero => exact .exhausted
  | succ bound ih =>
      exact .get fun _ _ => .ite (.pure []) (mirror.member.bind fun first => ih.bind fun rest =>
        .pure (first :: rest))

private theorem classDecl :
    Mirrors kinds shift (Option.map (Statement.later shift)) (Grammar.classDecl image)
      (Grammar.classDecl parts) := by
  refine .get fun cursor _ => .ite ?_ (.pure none)
  refine (skip_mirrors _).bind fun _ => (Mirrors.consumeName _).bind fun name =>
    superclass?_mirrors.bind fun superclass => (Mirrors.consume _ _).bind fun _ => ?_
  rw [mirror.bound]
  refine (mirror.members _).bind fun members => (Mirrors.consume _ _).bind fun _ => ?_
  rw [fieldsOf_later, methodsOf_later]
  exact .pure (some (Statement.classDecl
    ⟨name.lexeme, superclass, fieldsOf members, methodsOf members, _, cursor.peek.location⟩))

private theorem ifElse (location : Location) :
    Mirrors kinds shift (Statement.later shift) (Grammar.ifElse image location)
      (Grammar.ifElse parts location) := by
  refine (mirror.parenthesized _ _).bind fun condition => mirror.statement.bind fun thenBranch =>
    (Mirrors.accept _).bind fun _ => ?_
  have joined (elseBranch : Option Statement) : Mirrors kinds shift (Statement.later shift)
      (pure (.ifElse (condition.later shift) (thenBranch.later shift)
        (elseBranch.map (Statement.later shift)) location))
      (pure (.ifElse condition thenBranch elseBranch location)) := by
    cases elseBranch with
    | none => exact .pure (Statement.ifElse condition thenBranch none location)
    | some other => exact .pure (Statement.ifElse condition thenBranch (some other) location)
  exact .ite (mirror.statement.mapSome.bind joined) (joined none)

private theorem whileLoop (location : Location) :
    Mirrors kinds shift (Statement.later shift) (Grammar.whileLoop image location)
      (Grammar.whileLoop parts location) :=
  (mirror.parenthesized _ _).bind fun condition => mirror.statement.bind fun body =>
    .pure (Statement.whileLoop condition body location)

private theorem doWhile (location : Location) :
    Mirrors kinds shift (Statement.later shift) (Grammar.doWhile image location)
      (Grammar.doWhile parts location) :=
  mirror.statement.bind fun body => (Mirrors.consume _ _).bind fun _ =>
    (mirror.parenthesized _ _).bind fun condition => (Mirrors.consume _ _).bind fun _ =>
      .pure (Statement.doWhile body condition location)

private theorem repeatLoop (location : Location) :
    Mirrors kinds shift (Statement.later shift) (Grammar.repeatLoop image location)
      (Grammar.repeatLoop parts location) :=
  (mirror.parenthesized _ _).bind fun count => mirror.statement.bind fun body =>
    .pure (Statement.repeatLoop count body location)

private theorem returning (location : Location) :
    Mirrors kinds shift (Statement.later shift) (Grammar.returning image location)
      (Grammar.returning parts location) := by
  have ended (value : Option Expr) : Mirrors kinds shift (Statement.later shift)
      (consume .semicolon "';' after return value" >>= fun _ =>
        pure (.returning (value.map (Expr.later shift)) location))
      (consume .semicolon "';' after return value" >>= fun _ =>
        pure (.returning value location)) :=
    (Mirrors.consume _ _).bind fun _ => .pure (Statement.returning value location)
  refine (Mirrors.check _).bind fun _ => .ite (ended none) ?_
  exact mirror.expression.mapSome.bind ended

private theorem print (what : String) (location : Location) :
    Mirrors kinds shift (Statement.later shift) (Grammar.print image what location)
      (Grammar.print parts what location) :=
  mirror.expression.bind fun expr => (Mirrors.consume _ _).bind fun _ =>
    .pure (Statement.print expr location)

private theorem test (location : Location) :
    Mirrors kinds shift (Statement.later shift) (Grammar.test image location)
      (Grammar.test parts location) :=
  (Mirrors.consume _ _).bind fun _ => (Mirrors.consume _ _).bind fun label =>
    (Mirrors.consume _ _).bind fun _ => (mirror.bracedBody _).bind fun body =>
      .pure (Statement.test (testName label) body location)

private theorem builtin (rule : BuiltinRule) :
    Mirrors kinds shift (Option.map (Statement.later shift)) (Grammar.builtin image rule)
      (Grammar.builtin parts rule) := by
  cases rule with
  | varDecl => exact mirror.varDecl
  | function => exact mirror.function
  | nativeFunction => exact nativeFunction_mirrors _ _ mirror.bound
  | classDecl => exact mirror.classDecl
  | ifElse => exact afterWord_mirrors _ mirror.ifElse
  | whileLoop => exact afterWord_mirrors _ mirror.whileLoop
  | doWhile => exact afterWord_mirrors _ mirror.doWhile
  | repeatLoop => exact afterWord_mirrors _ mirror.repeatLoop
  | block =>
      exact (Mirrors.check _).bind fun _ => .ite (Mirrors.advance.bind fun brace =>
        mirror.blockBody.bind fun body => .pure (some (Statement.block body brace.location)))
        (.pure none)
  | returning => exact afterWord_mirrors _ mirror.returning
  | breaking =>
      unfold Grammar.builtin
      refine afterWord_mirrors _ fun location => ?_
      exact (Mirrors.consume _ _).bind fun _ => .pure (Statement.breaking location)
  | continuing =>
      unfold Grammar.builtin
      refine afterWord_mirrors _ fun location => ?_
      exact (Mirrors.consume _ _).bind fun _ => .pure (Statement.continuing location)
  | print => exact afterWord_mirrors _ (mirror.print _)
  | test => exact afterWord_mirrors _ mirror.test
  | moduleDecl => exact afterWord_mirrors _ moduleDecl_mirrors

private theorem byRule (rule : StatementRule) :
    Mirrors kinds shift (Option.map (Statement.later shift)) (Grammar.byRule image rule)
      (Grammar.byRule parts rule) := by
  refine .get fun cursor _ => ?_
  cases rule with
  | builtin rule => exact mirror.builtin rule
  | decline steps => exact (skip_mirrors steps).bind fun _ => .pure none
  | print trigger =>
      exact .ite (Mirrors.advance.bind fun _ => (mirror.print _ _).bind fun statement =>
        .pure (some statement)) (.pure none)
  | send trigger =>
      exact .ite ((skip_mirrors 2).bind fun _ => (Mirrors.consumeName _).bind fun name =>
        (Mirrors.consume _ _).bind fun _ => .pure (some (Statement.varDecl name.lexeme
          (some (.literal (cursor.peek.literal.getD .nil) cursor.peek.location)) false
            cursor.peek.location))) (.pure none)
  | block trigger =>
      exact .ite (Mirrors.advance.bind fun _ => (mirror.bracedBody _).bind fun body =>
        .pure (some (Statement.block body cursor.peek.location))) (.pure none)
  | refuse trigger => exact .ite (.fail (cursor.expected _)) (.pure none)

private theorem expressionStatement :
    Mirrors kinds shift (Statement.later shift) (Grammar.expressionStatement image)
      (Grammar.expressionStatement parts) :=
  Mirrors.peek.bind fun token => mirror.expression.bind fun expr =>
    (Mirrors.consume _ _).bind fun _ => .pure (Statement.expression expr token.location)

end PartsMirror

/-- A rule that waits for tokens of the kinds declines where there are none. -/
theorem byRule_declines (proper : ¬ kinds .endOfInput) (parts : Parts) (rule : StatementRule)
    (waits : rule.WaitsFor kinds) : Declines kinds (byRule parts rule) := by
  refine .get fun cursor spares => ?_
  have missing {trigger : TokenKind} (waited : kinds trigger) : cursor.isAt trigger = false :=
    beq_eq_false_iff_ne.mpr fun same => spares.peek proper (same ▸ waited)
  cases rule with
  | builtin rule => cases waits
  | decline steps => exact .skip steps
  | print trigger => exact .absent (missing waits)
  | send trigger =>
      exact .absent (beq_eq_false_iff_ne.mpr fun same => spares.peekNext proper (same ▸ waits))
  | block trigger => exact .absent (missing waits)
  | refuse trigger => exact .absent (missing waits)

private theorem statement_mirrors (proper : ¬ kinds .endOfInput)
    (extends_ : base.Extends kinds extended)
    {image parts : Parts} (mirror : PartsMirror kinds shift image parts) :
    Mirrors kinds shift (Statement.later shift) (statement extended image)
      (statement base parts) := by
  refine (Mirrors.firstOf extends_.statements (byRule_declines proper image) mirror.byRule).bind
    fun found => ?_
  cases found with
  | some result => exact .pure result
  | none => exact mirror.expressionStatement

/-- The statement parsers of an extended grammar do what those of the grammar do. -/
theorem statementAt_mirrors (proper : ¬ kinds .endOfInput) (extends_ : base.Extends kinds extended)
    (bound : Nat) :
    Mirrors kinds shift (Statement.later shift) (statementAt extended bound)
      (statementAt base bound) := by
  induction bound with
  | zero => exact .exhausted
  | succ bound ih =>
      exact statement_mirrors proper extends_
        ⟨expressionAt_mirrors proper extends_ bound .assignment, ih, rfl⟩

/-- An extended grammar parses what is spared of the kinds as the grammar does, with the later
numbers. -/
theorem parse_later (proper : ¬ kinds .endOfInput) (extends_ : base.Extends kinds extended)
    {tokens : List Token} (spared : ∀ token ∈ tokens, ¬ kinds token.kind) (start shift : NodeId) :
    parse extended tokens (start + shift) =
      (parse base tokens start).map fun (program, next) =>
        (Statement.laterAll shift program, next + shift) := by
  have mirrors : Mirrors kinds shift (Statement.laterAll shift) (parseStatements extended)
      (parseStatements base) :=
    .get fun cursor _ =>
      statementsUntil_mirrors (statementAt_mirrors proper extends_ _) .endOfInput _
  obtain ⟨same, -⟩ := mirrors (.ofTokens tokens start) spared
  unfold parse finish
  rw [show Cursor.ofTokens tokens (start + shift) = (Cursor.ofTokens tokens start).later shift
    from rfl, same]
  cases parseStatements base (.ofTokens tokens start) with
  | ok program cursor =>
      by_cases sound : cursor.faults.isEmpty <;> simp [laterEnd, Cursor.later, sound, Except.map]
  | error stop cursor => cases stop <;> rfl

/-- The numbers of the nodes of a program do not show where they start. -/
theorem parse_unnumbered (proper : ¬ kinds .endOfInput) (extends_ : base.Extends kinds extended)
    {tokens : List Token} (spared : ∀ token ∈ tokens, ¬ kinds token.kind) (start : NodeId) :
    (parse extended tokens start).map (fun parsed => parsed.1.unnumbered) =
      (parse base tokens 0).map fun parsed => parsed.1.unnumbered := by
  have later := parse_later proper extends_ spared 0 start
  rw [Nat.zero_add] at later
  rw [later]
  cases parse base tokens 0 with
  | error faults => rfl
  | ok parsed => exact congrArg Except.ok (Statement.relabelAll_relabelAll _ _ _ _ parsed.1)

/-- A grammar that is extended, at any places, by rules that decline or that wait for tokens of
some kinds parses tokens of other kinds as before: its statements are the same up to the numbers of
their nodes, and so are its faults. -/
theorem parse_extended (proper : ¬ kinds .endOfInput) (extends_ : base.Extends kinds extended)
    {tokens : List Token} (spared : ∀ token ∈ tokens, ¬ kinds token.kind)
    (start restart : NodeId) :
    (parse extended tokens restart).map (fun parsed => parsed.1.unnumbered) =
      (parse base tokens start).map fun parsed => parsed.1.unnumbered :=
  (parse_unnumbered proper extends_ spared restart).trans
    (parse_unnumbered proper (.refl base) spared start).symm

/-- Tokens of two statements, of which the first has a fault. -/
def sampleTokens : List Token :=
  [⟨.word .printWord, "print", none, ⟨1, 1⟩⟩, ⟨.rightParen, ")", none, ⟨1, 7⟩⟩,
    ⟨.semicolon, ";", none, ⟨1, 8⟩⟩, ⟨.identifier, "x", none, ⟨2, 1⟩⟩,
    ⟨.semicolon, ";", none, ⟨2, 2⟩⟩, ⟨.endOfInput, "", none, ⟨2, 3⟩⟩]

/-- A grammar of variables and print statements, and one with rules of a host among its rules. -/
def sampleBase : Grammar := ⟨[.builtin .varDecl, .builtin .print], [.decline 1]⟩

@[inherit_doc sampleBase]
def sampleExtension : Grammar where
  statements :=
    [.decline 3, .builtin .varDecl, .send (.custom 0), .builtin .print, .block (.custom 1)]
  primaries := [.group (.custom 0), .decline 1, .decline 2]

private theorem sampleBase_extends :
    sampleBase.Extends (fun kind => ∃ id, kind = .custom id) sampleExtension where
  statements :=
    .insert _ trivial (.keep _ (.insert _ ⟨0, rfl⟩ (.keep _ (.insert _ ⟨1, rfl⟩ .nil))))
  primaries := .insert _ ⟨0, rfl⟩ (.keep _ (.insert _ trivial .nil))

/-- So it is with rules of a host that pass tokens before they decline, where a statement has a
fault. -/
theorem parse_extended_sample :
    (∀ token ∈ sampleTokens, ¬ ∃ id, token.kind = .custom id) ∧
      (parse sampleExtension sampleTokens 7).map (fun parsed => parsed.1.unnumbered) =
        (parse sampleBase sampleTokens 0).map fun parsed => parsed.1.unnumbered := by
  have spared : ∀ token ∈ sampleTokens, ¬ ∃ id, token.kind = .custom id := by
    simp [sampleTokens]
  exact ⟨spared, parse_extended (by simp) sampleBase_extends spared 0 7⟩

end Grammar

end Scriptlet
