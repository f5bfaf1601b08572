import Scriptlet.Proofs.Grammar.BuiltStatements

/-!
# Parsed programs are well-formed

Limits of arguments and parameters, the number of parameters of an operator and the kinds of
functions are looked at while a program is parsed, and some faults are only reported. A parse
without faults gives a program in which all of this is in order (`Grammar.parse_well_formed`), and
in which each use of an operator stands behind the name of its declaration.
-/

namespace Scriptlet.Grammar

open Parse

variable {grammar : Grammar} {tokens : List Token} {nextId next : NodeId} {program : Program}

/-- The statements of a program lie between the beginning and the end of a parse without faults. -/
theorem spans_of_parse (parsed : parse grammar tokens nextId = .ok (program, next)) :
    ∃ later, (Cursor.ofTokens tokens nextId).Spans later (Statement.elementsAll program) := by
  let begin := Cursor.ofTokens tokens nextId
  have builds : Builds begin (parseStatements grammar) fun program later =>
      begin.Spans later (Statement.elementsAll program) :=
    .get (statementsUntil_builds (statementAt_builds grammar _) _ _ begin)
  unfold parse finish at parsed
  cases ended : parseStatements grammar (Cursor.ofTokens tokens nextId) with
  | error stop later =>
    rw [ended] at parsed
    cases stop <;> cases parsed
  | ok result later =>
    rw [ended] at parsed
    dsimp only at parsed
    split at parsed
    · rename_i faultless
      cases parsed
      exact ⟨later, (builds.ok ended).2 (Array.isEmpty_iff_size_eq_zero.mp faultless)⟩
    · cases parsed

/-- Before a program no name of an operator is known. -/
theorem not_knows_ofTokens (kind : FunctionKind) (name : String) :
    ¬ (Cursor.ofTokens tokens nextId).Knows kind name := by
  cases kind <;> exact nofun

/-- An operator that an element of a parsed program uses is declared in the program, in front of
the place where its name is used. -/
theorem declared_of_parse (parsed : parse grammar tokens nextId = .ok (program, next))
    {element : Element} (member : element ∈ Statement.elementsAll program) {kind : FunctionKind}
    {name : String} {location : Location} (isUse : element.use? = some (kind, name, location)) :
    ∃ index, WrittenAt tokens name location index ∧
      OperatorDeclared tokens (Statement.elementsAll program) kind name index := by
  obtain ⟨later, spans⟩ := spans_of_parse parsed
  obtain ⟨index, -, written, known | declared⟩ :=
    spans.used element member kind name location isUse
  · exact absurd known (not_knows_ofTokens kind name)
  · exact ⟨index, written, declared⟩

/-- **A parse without faults gives a well-formed program.** No list of arguments or parameters is
longer than eight. Operators have one or two parameters, methods are members or extensions, and
constructors are members. Where the name of an operator is used, the name of its declaration stands
before. No two nodes have the same number. -/
theorem parse_well_formed (parsed : parse grammar tokens nextId = .ok (program, next)) :
    (∀ callee arguments location,
      .expr (.call callee arguments location) ∈ Statement.elementsAll program →
      arguments.length ≤ 8) ∧
    (∀ params, .nativeFunction params ∈ Statement.elementsAll program → params.length ≤ 8) ∧
    (∀ place decl, .function place decl ∈ Statement.elementsAll program →
      decl.params.length ≤ 8 ∧
      (decl.kind = .prefixOperator → decl.params.length = 1) ∧
      (decl.kind = .infixOperator → decl.params.length = 2) ∧
      (decl.kind = .method → place = .member ∨ place = .extension) ∧
      (decl.kind = .constructor → place = .member)) ∧
    (∀ id name operand location,
      .expr (.prefixCall id name operand location) ∈ Statement.elementsAll program →
      ∃ index, WrittenAt tokens name location index ∧
        OperatorDeclared tokens (Statement.elementsAll program) .prefixOperator name index) ∧
    (∀ id name left right location,
      .expr (.infixCall id name left right location) ∈ Statement.elementsAll program →
      ∃ index, WrittenAt tokens name location index ∧
        OperatorDeclared tokens (Statement.elementsAll program) .infixOperator name index) ∧
    program.Numbered := by
  obtain ⟨later, spans⟩ := spans_of_parse parsed
  refine ⟨?calls, ?natives, ?functions, ?prefixCalls, ?infixCalls, ?numbered⟩
  case calls => exact fun _ _ _ member => spans.fit _ member
  case natives => exact fun _ member => spans.fit _ member
  case functions =>
    intro place decl member
    obtain ⟨few, takes, arity⟩ := spans.fit _ member
    refine ⟨few, fun isPrefix => ?_, fun isInfix => ?_, fun isMethod => ?_, fun isConstructor => ?_⟩
    · exact arity 1 (by rw [isPrefix]; rfl)
    · exact arity 2 (by rw [isInfix]; rfl)
    · rw [isMethod] at takes
      cases place with
      | statement => simp [Place.Takes] at takes
      | member => exact .inl rfl
      | extension => exact .inr rfl
    · rw [isConstructor] at takes
      cases place with
      | statement => simp [Place.Takes] at takes
      | member => rfl
      | extension => cases takes
  case prefixCalls => exact fun _ _ _ _ member => declared_of_parse parsed member rfl
  case infixCalls => exact fun _ _ _ _ _ member => declared_of_parse parsed member rfl
  case numbered =>
    rw [Program.Numbered, ← Statement.ids_elementsAll]
    exact spans.numbers.distinct

/-- The tokens of `prefix fun neg(x) { return f(x); } neg a;`. -/
def negationSample : List Token :=
  [sampleToken (.word .prefixWord) "prefix" 1, sampleToken (.word .funWord) "fun" 8,
    sampleToken .identifier "neg" 12, sampleToken .leftParen "(" 15, sampleToken .identifier "x" 16,
    sampleToken .rightParen ")" 17, sampleToken .leftBrace "\x7b" 19,
    sampleToken (.word .returnWord) "return" 21, sampleToken .identifier "f" 28,
    sampleToken .leftParen "(" 29, sampleToken .identifier "x" 30, sampleToken .rightParen ")" 31,
    sampleToken .semicolon ";" 32, sampleToken .rightBrace "\x7d" 34,
    sampleToken .identifier "neg" 36, sampleToken .identifier "a" 40,
    sampleToken .semicolon ";" 41, sampleToken .endOfInput "" 42]

/-- The one use of an operator in this program is behind its declaration. -/
theorem parse_well_formed_negationSample :
    ∃ program next, parse standard negationSample 0 = .ok (program, next) ∧
      (Statement.elementsAll program).filterMap Element.use? =
        [(.prefixOperator, "neg", ⟨1, 36⟩)] ∧
      (∃ index, WrittenAt negationSample "neg" ⟨1, 36⟩ index ∧
        OperatorDeclared negationSample (Statement.elementsAll program) .prefixOperator "neg"
          index) ∧
      program.Numbered := by
  have uses : (parse standard negationSample 0).toOption.map
      (fun result => (Statement.elementsAll result.1).filterMap Element.use?) =
        some [(.prefixOperator, "neg", ⟨1, 36⟩)] := by decide +kernel
  cases parsed : parse standard negationSample 0 with
  | error faults =>
    rw [parsed] at uses
    cases uses
  | ok result =>
    obtain ⟨program, next⟩ := result
    rw [parsed] at uses
    have uses : (Statement.elementsAll program).filterMap Element.use? =
        [(.prefixOperator, "neg", ⟨1, 36⟩)] := Option.some.inj uses
    obtain ⟨_, _, _, prefixCalls, _, numbered⟩ := parse_well_formed parsed
    obtain ⟨element, member, isUse⟩ := List.mem_filterMap.mp (uses ▸ List.mem_singleton_self _)
    refine ⟨program, next, rfl, uses, ?_, numbered⟩
    unfold Element.use? at isUse
    split at isUse <;> cases isUse
    exact prefixCalls _ _ _ _ member

end Scriptlet.Grammar
