import Scriptlet.Proofs.Grammar.ReadingExpressions

/-!
# Reading every form of expression

One lemma for each form of expression says how it is read if its parts are (`Expr.Readable`). The
forms whose operators group to the left take up the run of the loop where their left operand is in
hand.
-/

namespace Scriptlet

namespace Expr

open Grammar Parse

variable {grammar : Grammar} {known : Operators} {level : Level}

/-! ### Forms that go on behind an operand -/

/-- An expression leads a loop if its left operand does and one round of the loop passes what
follows that. -/
theorem LeadsAt.extend {left expr : Expr} {word : Word} {tail : List Word}
    (leads : left.LeadsAt grammar known level)
    (split : expr.flatten = left.flatten ++ word :: tail)
    (unprefixed : ∀ more, (Level.relational.Admits expr → Unprefixed known (expr.flatten ++ more)) →
      Level.relational.Admits left → Unprefixed known (expr.flatten ++ more))
    (joint : ∀ words, level.tighter.Stops known (word :: words))
    (round : ∀ cursor more bound fuel value, cursor.At known (word :: (tail ++ more)) →
      level.tighter.Stops known more →
      16 * expr.flatten.length + 16 ≤ bound + level.tighter.rank → tail.length ≤ fuel →
      value.bare = left.bare → ∃ result after, result.bare = expr.bare ∧ after.At known more ∧
        loopAt (expressionAt grammar bound) level (fuel + 1) value cursor =
          loopAt (expressionAt grammar bound) level fuel result after) :
    expr.LeadsAt grammar known level := by
  intro cursor more bound fuel at_ bare stops enough
  have words : expr.flatten ++ more = left.flatten ++ (word :: (tail ++ more)) := by
    rw [split, List.append_assoc, List.cons_append]
  have size : expr.flatten.length = left.flatten.length + (tail.length + 1) := by
    rw [split, List.length_append, List.length_cons]
  have leftBare := unprefixed more bare
  rw [words] at at_ leftBare
  obtain ⟨value, middle, remaining, same, there, spent, run⟩ :=
    leads cursor (word :: (tail ++ more)) bound (fuel + (tail.length + 1)) at_ leftBare (joint _)
      (by omega)
  obtain ⟨remaining, rfl⟩ : ∃ rest, remaining = rest + 1 := ⟨remaining - 1, by omega⟩
  obtain ⟨result, after, alike, behind, step⟩ :=
    round middle more bound remaining value there stops enough (by omega) same
  refine ⟨result, after, remaining, alike, behind, by omega, ?_⟩
  have fuels : fuel + expr.flatten.length = fuel + (tail.length + 1) + left.flatten.length := by
    omega
  rw [fuels, run, step]

private theorem loopAt_of_combines {kind : TokenKind} {make : Expr → Expr → Location → Expr}
    (combines : level.combine? kind = some make) (parser : Level → Parse Expr) :
    level.loops = true ∧ loopAt parser level = chain level (parser level.tighter) := by
  unfold Level.combine? at combines
  split at combines <;> cases combines <;> exact ⟨rfl, rfl⟩

/-- What an operator makes of alike operands is alike. -/
theorem combine?_bare {kind : TokenKind} {make : Expr → Expr → Location → Expr}
    (combines : level.combine? kind = some make) {left right one other : Expr}
    (first : one.bare = left.bare) (second : other.bare = right.bare) (here there : Location) :
    (make one other here).bare = (make left right there).bare := by
  unfold Expr.bare at *
  unfold Level.combine? at combines
  split at combines <;> cases combines <;> simp only [Expr.relabel, first, second]

/-- Two operands with an operator between them. -/
theorem readable_joined {kind : TokenKind} {make : Expr → Expr → Location → Expr}
    {left right : Expr} (combines : level.combine? kind = some make) (place : Location)
    (leftRead : left.Readable grammar known) (leftShaped : left.Shaped known)
    (rightRead : right.Readable grammar known) (rightShaped : right.Shaped known)
    (leftAdmitted : level.Admits left) (rightAdmitted : level.tighter.Admits right) :
    (make left right place).Readable grammar known := by
  have joins := Level.combine?_joins combines
  obtain ⟨notName, joinsAt⟩ := Level.combine?_joins? combines
  have loops := (loopAt_of_combines combines (expressionAt grammar 0)).1
  have outermost := joins.outermost left right place
  have more : kind ≠ .endOfInput := by
    rintro rfl
    cases joinsAt
  refine readable_of_leads ((joins.laddered ..).mpr ⟨⟨leftAdmitted, leftShaped.laddered⟩,
    rightAdmitted, rightShaped.laddered⟩) (outermost ▸ loops) ?_
  rw [outermost]
  have ranks : level.tighter.rank = level.rank + 1 := by
    refine Level.rank_tighter ?_
    rintro rfl
    cases loops
  refine (leftRead.leads level loops leftAdmitted).extend (joins.flatten ..) ?_ ?_ ?_
  · intro words _ tight
    rw [joins.flatten, List.append_assoc]
    exact left.unprefixed leftShaped.laddered leftShaped.named tight _
  · refine fun words => Level.stops_mark kind notName (fun join found => ?_) _
    rw [joinsAt] at found
    cases found
    omega
  · intro cursor words bound fuel value at_ stops enough _ same
    have here : cursor.peek.kind = kind := at_.peek
    have size := congrArg List.length (joins.flatten left right place)
    rw [List.length_append, List.length_cons] at size
    obtain ⟨result, after, ended, alike, behind⟩ := rightRead.at_ rightShaped rightAdmitted
      bound (at_.advance (here ▸ more)) stops (by omega)
    refine ⟨make value result cursor.peek.location, after,
      combine?_bare combines same alike _ _, behind, ?_⟩
    rw [(loopAt_of_combines combines _).2]
    rw [chain, peek_bind, here, combines]
    exact bind_of_ok ended

/-- Two operands with the name of an operator between them. -/
theorem readable_infixCall {left right : Expr} {name : String} (id : NodeId) (place : Location)
    (declared : name ∈ known.infixNames)
    (leftRead : left.Readable grammar known) (leftShaped : left.Shaped known)
    (rightRead : right.Readable grammar known) (rightShaped : right.Shaped known)
    (leftAdmitted : Level.infixCall.Admits left) (rightAdmitted : Level.unary.Admits right) :
    (Expr.infixCall id name left right place).Readable grammar known := by
  refine readable_of_leads ⟨⟨leftAdmitted, leftShaped.laddered⟩, rightAdmitted,
    rightShaped.laddered⟩ rfl ?_
  refine (leftRead.leads .infixCall rfl leftAdmitted).extend rfl ?_ ?_ ?_
  · intro words _ tight
    rw [Expr.flatten, List.append_assoc]
    exact left.unprefixed leftShaped.laddered leftShaped.named tight _
  · exact fun words => Level.stops_name (by decide)
  · intro cursor words bound fuel value at_ stops enough _ same
    obtain ⟨isName, lexeme⟩ := at_.peek
    rw [Expr.flatten, List.length_append, List.length_cons] at enough
    have ranks : Level.infixCall.tighter.rank = 13 := rfl
    obtain ⟨result, middle, ended, alike, behind⟩ := rightRead.at_ rightShaped rightAdmitted bound
      (at_.advance (by rw [isName]; decide)) stops (show _ ≤ _ + 13 by omega)
    obtain ⟨number, after, numbered, _, there⟩ := Reads.fresh behind
    refine ⟨.infixCall number cursor.peek.lexeme value result cursor.peek.location, after, ?_,
      there, ?_⟩
    · unfold Expr.bare at same alike ⊢
      rw [Expr.relabel, Expr.relabel, same, alike, lexeme]
    · have found : (cursor.peek.kind == .identifier &&
          cursor.infixNames.contains cursor.peek.lexeme) = true := by
        rw [Bool.and_eq_true, beq_iff_eq, List.contains_iff_mem, at_.infixNames, lexeme]
        exact ⟨isName, declared⟩
      change (if cursor.peek.kind == .identifier && cursor.infixNames.contains cursor.peek.lexeme
        then _ else _ : Parse Expr) cursor = _
      rw [if_pos found]
      exact (bind_of_ok ended).trans (bind_of_ok numbered)

/-- An expression with arguments behind it. -/
theorem readable_call {callee : Expr} {arguments : List Expr} (place : Location)
    (calleeRead : callee.Readable grammar known) (calleeLaddered : callee.Laddered)
    (areReadable : AreReadable grammar known arguments) (few : arguments.length ≤ argumentLimit)
    (laddered : Expr.AreLaddered arguments) (admitted : Level.call.Admits callee) :
    (Expr.call callee arguments place).Readable grammar known := by
  refine readable_of_leads ⟨⟨admitted, calleeLaddered⟩, laddered⟩ rfl ?_
  refine (calleeRead.leads .call rfl admitted).extend rfl ?_ ?_ ?_
  · exact fun words bare _ => bare (show 9 ≤ 14 by decide)
  · exact fun words => Level.stops_mark .leftParen (by decide) (by rintro _ ⟨⟩; decide) _
  · intro cursor words bound fuel value at_ stops enough fuelled same
    have isParen : cursor.peek.kind = .leftParen := at_.peek
    have behindParen := at_.advance (by rw [isParen]; decide)
    rw [List.append_assoc] at behindParen
    rw [Expr.flatten, List.length_append, List.length_cons, List.length_append] at enough
    rw [List.length_append] at fuelled
    have ranks : Level.call.tighter.rank = 15 := rfl
    have short := length_le_flattenList arguments
    have size := callee.flatten_length_pos
    obtain ⟨values, after, ended, sames, there⟩ := expressionList_reads areReadable (.inl rfl)
      (fun _ => few) bound fuel "')' after arguments" behindParen (by omega) (by omega)
    refine ⟨.call value values cursor.peek.location, after, ?_, there, ?_⟩
    · exact congrArg₂ (fun callee arguments => Expr.call callee arguments .nowhere) same sames
    · rw [loopAt, suffixes, peek_bind, isParen]
      exact bind_of_ok ended

/-- A member of an expression. -/
theorem leads_get {object : Expr} (name : String) (place : Location)
    (objectRead : object.Readable grammar known) (admitted : Level.call.Admits object) :
    (Expr.get object name place).LeadsAt grammar known .call := by
  refine (objectRead.leads .call rfl admitted).extend rfl ?_ ?_ ?_
  · exact fun words bare _ => bare (show 9 ≤ 14 by decide)
  · exact fun words => Level.stops_mark .dot (by decide) (by rintro _ ⟨⟩; decide) _
  · intro cursor words bound fuel value at_ stops enough fuelled same
    have isDot : cursor.peek.kind = .dot := at_.peek
    obtain ⟨member, after, ended, lexeme, there⟩ := Reads.consumeMember
      (at_.advance (by rw [isDot]; decide)) "property name after '.'"
    refine ⟨.get value member.lexeme member.location, after, ?_, there, ?_⟩
    · rw [lexeme]
      exact congrArg (Expr.get · name .nowhere) same
    · rw [loopAt, suffixes, peek_bind, isDot]
      exact bind_of_ok ended

/-- An element of an expression. -/
theorem leads_getIndex {object index : Expr} (place : Location)
    (objectRead : object.Readable grammar known) (admitted : Level.call.Admits object)
    (indexRead : index.Readable grammar known) (indexShaped : index.Shaped known) :
    (Expr.getIndex object index place).LeadsAt grammar known .call := by
  refine (objectRead.leads .call rfl admitted).extend rfl ?_ ?_ ?_
  · exact fun words bare _ => bare (show 9 ≤ 14 by decide)
  · exact fun words => Level.stops_mark .leftBracket (by decide) (by rintro _ ⟨⟩; decide) _
  · intro cursor words bound fuel value at_ stops enough fuelled same
    have isBracket : cursor.peek.kind = .leftBracket := at_.peek
    have behindBracket := at_.advance (by rw [isBracket]; decide)
    rw [List.append_assoc] at behindBracket
    rw [Expr.flatten, List.length_append, List.length_cons, List.length_append] at enough
    have ranks : Level.call.tighter.rank = 15 := rfl
    have size := object.flatten_length_pos
    obtain ⟨result, middle, ended, alike, behind⟩ := indexRead.whole indexShaped bound behindBracket
      (Closes.stops (.inr rfl) _) (by omega)
    obtain ⟨_, after, closed, _, there⟩ := Reads.consumeMark behind (by decide) "']' after index"
    refine ⟨.getIndex value result cursor.peek.location, after, ?_, there, ?_⟩
    · exact congrArg₂ (Expr.getIndex · · .nowhere) same alike
    · rw [loopAt, suffixes, peek_bind, isBracket]
      exact (bind_of_ok ended).trans (bind_of_ok closed)

/-! ### Forms that begin with an operator -/

private theorem readable_unary {operand : Expr} (op : UnaryOp) (place : Location)
    (operandRead : operand.Readable grammar known) (shaped : operand.Shaped known)
    (admitted : Level.unary.Admits operand) :
    (Expr.unary op operand place).Readable grammar known := by
  refine readable_of_reads ⟨admitted, shaped.laddered⟩ rfl ?_
  intro cursor more bound at_ _ stops enough
  rw [Expr.flatten, List.length_cons] at enough
  have ranks : (Expr.unary op operand place).level.rank = 13 := rfl
  obtain ⟨bound, rfl⟩ : ∃ smaller, bound = smaller + 1 := ⟨bound - 1, by omega⟩
  have here : cursor.peek.kind = op.kind := at_.peek
  have isUnary : unaryOp? cursor.peek.kind = some op := by
    rw [here]
    cases op <;> rfl
  have more : cursor.peek.kind ≠ .endOfInput := by
    rw [here]
    cases op <;> decide
  refine .peek ?_
  rw [isUnary]
  refine (Reads.advance at_ more).bind fun token middle _ there =>
    (operandRead.at_ shaped admitted bound there stops (show _ ≤ _ + 13 by omega)).bind
      fun value after same behind => .pure behind ?_
  exact congrArg (Expr.unary op · .nowhere) same

private theorem readable_prefixCall {operand : Expr} {name : String} (id : NodeId)
    (place : Location) (declared : name ∈ known.prefixNames)
    (unbracketed : ∀ word ∈ operand.flatten.head?, word.sign ≠ .mark .leftParen)
    (operandRead : operand.Readable grammar known) (shaped : operand.Shaped known)
    (admitted : Level.prefixCall.Admits operand) :
    (Expr.prefixCall id name operand place).Readable grammar known := by
  refine readable_of_reads ⟨admitted, shaped.laddered⟩ rfl ?_
  intro cursor more bound at_ _ stops enough
  rw [Expr.flatten, List.length_cons] at enough
  have ranks : (Expr.prefixCall id name operand place).level.rank = 8 := rfl
  obtain ⟨bound, rfl⟩ : ∃ smaller, bound = smaller + 1 := ⟨bound - 1, by omega⟩
  obtain ⟨isName, lexeme⟩ := at_.peek
  have proper : cursor.peek.kind ≠ .endOfInput := by
    rw [isName]
    decide
  have found : (cursor.peek.kind == .identifier && cursor.prefixNames.contains cursor.peek.lexeme
      && cursor.peekNext.kind != .leftParen && startsOperand cursor.peekNext.kind) = true := by
    obtain ⟨rest, begins⟩ := operand.flatten_eq_cons
    rw [Expr.flatten, begins] at at_
    have next := at_.peekNext
    have notParen : cursor.peekNext.kind ≠ .leftParen := by
      intro isParen
      rw [begins] at unbracketed
      exact unbracketed _ rfl (next.mark_of_leftParen isParen)
    have starts := operand.firstWord_starts _ next
    simp [isName, at_.prefixNames, lexeme, declared, notParen, starts]
  refine .get ?_
  dsimp only
  rw [if_pos found]
  refine (Reads.advance at_ proper).bind fun _ middle _ there =>
    (operandRead.at_ shaped admitted bound there stops (show _ ≤ _ + 8 by omega)).bind
      fun value after same behind => (Reads.fresh behind).bind fun number last _ ends =>
        .pure ends ?_
  rw [lexeme]
  exact congrArg (Expr.prefixCall 0 name · .nowhere) same

/-! ### Conditions and assignments -/

private theorem readable_ternary {condition thenBranch elseBranch : Expr} (place : Location)
    (conditionRead : condition.Readable grammar known) (conditionShaped : condition.Shaped known)
    (thenRead : thenBranch.Readable grammar known) (thenShaped : thenBranch.Shaped known)
    (elseRead : elseBranch.Readable grammar known) (elseShaped : elseBranch.Shaped known)
    (first : Level.shift.Admits condition) (second : Level.elvis.Admits thenBranch)
    (third : Level.ternary.Admits elseBranch) :
    (Expr.ternary condition thenBranch elseBranch place).Readable grammar known := by
  refine readable_of_reads ⟨⟨first, conditionShaped.laddered⟩, ⟨second, thenShaped.laddered⟩, third,
    elseShaped.laddered⟩ rfl ?_
  intro cursor more bound at_ _ stops enough
  rw [Expr.flatten, List.append_assoc, List.cons_append, List.append_assoc, List.cons_append] at at_
  rw [Expr.flatten, List.length_append, List.length_cons, List.length_append,
    List.length_cons] at enough
  have ranks : (Expr.ternary condition thenBranch elseBranch place).level.rank = 2 := rfl
  obtain ⟨bound, rfl⟩ : ∃ smaller, bound = smaller + 1 := ⟨bound - 1, by omega⟩
  refine Reads.bind (conditionRead.at_ conditionShaped first bound at_
    (Level.stops_mark .question (by decide) (by rintro _ ⟨⟩; decide) _) (show _ ≤ _ + 3 by omega))
    fun value middle same there => ?_
  refine .check there.peek ?_
  refine (Reads.advance there (by rw [show _ = _ from there.peek]; decide)).bind
    fun mark _ _ behindMark => (thenRead.at_ thenShaped second bound behindMark
      (Level.stops_mark .colon (by decide) (by decide) _) (show _ ≤ _ + 1 by omega)).bind
        fun one _ alike atColon => (Reads.consumeMark atColon (by decide) _).bind
          fun _ _ _ behindColon => (elseRead.at_ elseShaped third bound behindColon stops
            (show _ ≤ _ + 2 by omega)).bind fun other _ likewise ends => .pure ends ?_
  unfold Expr.bare at same alike likewise ⊢
  rw [Expr.relabel, Expr.relabel, same, alike, likewise]

/-- An assignment, once its target has been read as an expression. -/
theorem readable_assignment {target value result : Expr} (laddered : result.Laddered)
    (outermost : result.level = .assignment)
    (words : result.flatten = target.flatten ++ .mark .equal :: value.flatten)
    (targetRead : target.ReadsAt grammar known .elvis)
    (unprefixed : ∀ more, Level.relational.Admits target → Unprefixed known
      (target.flatten ++ .mark .equal :: more))
    (valueRead : value.Readable grammar known) (shaped : value.Shaped known)
    (assigns : ∀ (cursor : Cursor) (more : List Word) (one other : Expr) (place : Location),
      cursor.At known more → one.bare = target.bare → other.bare = value.bare →
      Reads cursor (assignTo one other place) known more (·.bare = result.bare)) :
    result.Readable grammar known := by
  refine readable_of_reads laddered (by rw [outermost]; rfl) ?_
  rw [outermost]
  intro cursor more bound at_ _ stops enough
  rw [words, List.append_assoc] at at_
  rw [words, List.length_append, List.length_cons] at enough
  have ranks : Level.assignment.rank = 0 := rfl
  have tighter : Level.elvis.rank = 1 := rfl
  obtain ⟨bound, rfl⟩ : ∃ smaller, bound = smaller + 1 := ⟨bound - 1, by omega⟩
  refine Reads.bind (targetRead cursor _ bound at_ (unprefixed _)
    (Level.stops_mark .equal (by decide) (by rintro _ ⟨⟩; decide) _) (by omega))
    fun one middle same there => ?_
  refine .check there.peek ?_
  exact (Reads.advance there (by rw [show _ = _ from there.peek]; decide)).bind
    fun sign _ _ behind => (valueRead.whole shaped bound behind stops (by omega)).bind
      fun other last alike ends => assigns last more one other sign.location ends same alike

private theorem readable_assign {value : Expr} (id : NodeId) (name : String) (place : Location)
    (targetRead : (Expr.var id name place).Readable grammar known)
    (valueRead : value.Readable grammar known) (shaped : value.Shaped known) :
    (Expr.assign id name value place).Readable grammar known := by
  refine readable_assignment shaped.laddered rfl rfl
    (targetRead.reads .elvis (show 1 ≤ 15 by decide))
    (fun _ _ => unprefixed_of_next (.inr rfl)) valueRead shaped ?_
  intro cursor more one other here at_ same alike
  cases one with
  | var number text there =>
      cases same
      exact (Reads.fresh at_).bind fun _ _ _ ends =>
        .pure ends (congrArg (Expr.assign 0 name · .nowhere) alike)
  | _ => cases same

private theorem readable_set {object value : Expr} (name : String) (place : Location)
    (objectRead : object.Readable grammar known) (objectShaped : object.Shaped known)
    (admitted : Level.call.Admits object)
    (valueRead : value.Readable grammar known) (shaped : value.Shaped known) :
    (Expr.set object name value place).Readable grammar known := by
  have member : (Expr.get object name place).Readable grammar known :=
    readable_of_leads ⟨admitted, objectShaped.laddered⟩ rfl
      (leads_get name place objectRead admitted)
  refine readable_assignment ⟨⟨admitted, objectShaped.laddered⟩, shaped.laddered⟩ rfl ?_
    (member.reads .elvis (show 1 ≤ 14 by decide)) (fun more tight => ?_) valueRead shaped ?_
  · simp [Expr.flatten]
  · exact (Expr.get object name place).unprefixed ⟨admitted, objectShaped.laddered⟩
      objectShaped.named tight _
  · intro cursor more one other here at_ same alike
    cases one with
    | get first text there =>
        have parts : first.bare = object.bare ∧ text = name := by
          unfold Expr.bare at same ⊢
          simpa [Expr.relabel] using same
        refine .pure at_ ?_
        rw [parts.2]
        exact congrArg₂ (Expr.set · name · .nowhere) parts.1 alike
    | _ => cases same

private theorem readable_setIndex {object index value : Expr} (place : Location)
    (objectRead : object.Readable grammar known) (objectShaped : object.Shaped known)
    (admitted : Level.call.Admits object)
    (indexRead : index.Readable grammar known) (indexShaped : index.Shaped known)
    (valueRead : value.Readable grammar known) (shaped : value.Shaped known) :
    (Expr.setIndex object index value place).Readable grammar known := by
  have element : (Expr.getIndex object index place).Readable grammar known :=
    readable_of_leads ⟨⟨admitted, objectShaped.laddered⟩, indexShaped.laddered⟩ rfl
      (leads_getIndex place objectRead admitted indexRead indexShaped)
  refine readable_assignment ⟨⟨admitted, objectShaped.laddered⟩, indexShaped.laddered,
    shaped.laddered⟩ rfl ?_ (element.reads .elvis (show 1 ≤ 14 by decide)) (fun more tight => ?_)
    valueRead shaped ?_
  · simp [Expr.flatten]
  · exact (Expr.getIndex object index place).unprefixed
      ⟨⟨admitted, objectShaped.laddered⟩, indexShaped.laddered⟩
      ⟨objectShaped.named, indexShaped.named⟩ tight _
  · intro cursor more one other here at_ same alike
    cases one with
    | getIndex first second there =>
        have parts : first.bare = object.bare ∧ second.bare = index.bare := by
          unfold Expr.bare at same ⊢
          simpa [Expr.relabel] using same
        refine .pure at_ ?_
        unfold Expr.bare at parts alike ⊢
        rw [Expr.relabel, Expr.relabel, parts.1, parts.2, alike]
    | _ => cases same

/-! ### Primaries -/

/-- A primary, if the parser of primaries reads it. -/
theorem readable_primary {expr : Expr} (laddered : expr.Laddered)
    (outermost : expr.level = .primary)
    (reads : ∀ (cursor : Cursor) (more : List Word) (bound : Nat),
      cursor.At known (expr.flatten ++ more) → 16 * expr.flatten.length ≤ bound →
        Reads cursor (primary grammar (expressionAt grammar bound .assignment) bound) known more
          (·.bare = expr.bare)) : expr.Readable grammar known := by
  refine readable_of_reads laddered (by rw [outermost]; rfl) ?_
  rw [outermost]
  intro cursor more bound at_ _ _ enough
  have ranks : Level.primary.rank = 15 := rfl
  obtain ⟨bound, rfl⟩ : ∃ smaller, bound = smaller + 1 := ⟨bound - 1, by omega⟩
  exact reads cursor more bound at_ (by omega)

private theorem readable_literal (value : Literal) (place : Location) :
    (Expr.literal value place).Readable grammar known := by
  refine readable_primary trivial rfl fun cursor more bound at_ _ => .peek ?_
  obtain ⟨isLiteral, shown⟩ := at_.peek
  have reading (proper : cursor.peek.kind ≠ .endOfInput) : Reads cursor
      (do
        let _ ← advance
        return .literal (cursor.peek.literal.getD .nil) cursor.peek.location : Parse Expr) known
      more (·.bare = (Expr.literal value place).bare) :=
    (Reads.advance at_ proper).bind fun _ _ _ ends =>
      .pure ends (congrArg (Expr.literal · .nowhere) shown)
  dsimp only
  generalize kinds : cursor.peek.kind = kind at isLiteral reading
  unfold TokenKind.isLiteral at isLiteral
  split at isLiteral
  all_goals first
    | exact reading (by decide)
    | cases isLiteral

private theorem readable_var (id : NodeId) (name : String) (place : Location) :
    (Expr.var id name place).Readable grammar known := by
  refine readable_primary trivial rfl fun cursor more bound at_ _ => .peek ?_
  obtain ⟨isName, lexeme⟩ := at_.peek
  dsimp only
  rw [isName]
  refine (Reads.advance at_ (by rw [isName]; decide)).bind fun _ _ _ there =>
    (Reads.fresh there).bind fun _ _ _ ends => .pure ends ?_
  exact congrArg (Expr.var 0 · .nowhere) lexeme

private theorem readable_thisRef (id : NodeId) (place : Location) :
    (Expr.thisRef id place).Readable grammar known := by
  refine readable_primary trivial rfl fun cursor more bound at_ _ => .peek ?_
  have isThis : cursor.peek.kind = .word .thisWord := at_.peek
  dsimp only
  rw [isThis]
  exact (Reads.advance at_ (by rw [isThis]; decide)).bind fun _ _ _ there =>
    (Reads.fresh there).bind fun _ _ _ ends => .pure ends rfl

private theorem readable_superRef (id : NodeId) (method : String) (place : Location) :
    (Expr.superRef id method place).Readable grammar known := by
  refine readable_primary trivial rfl fun cursor more bound at_ _ => .peek ?_
  have isSuper : cursor.peek.kind = .word .superWord := at_.peek
  dsimp only
  rw [isSuper]
  exact (Reads.advance at_ (by rw [isSuper]; decide)).bind fun _ _ _ atDot =>
    (Reads.consumeMark atDot (by decide) _).bind fun _ _ _ atMember =>
      (Reads.consumeMember atMember _).bind fun _ _ lexeme there =>
        (Reads.fresh there).bind fun _ _ _ ends =>
          .pure ends (congrArg (Expr.superRef 0 · .nowhere) lexeme)

private theorem readable_grouping {inner : Expr} (place : Location)
    (innerRead : inner.Readable grammar known) (shaped : inner.Shaped known) :
    (Expr.grouping inner place).Readable grammar known := by
  refine readable_primary shaped.laddered rfl fun cursor more bound at_ enough => .peek ?_
  have isParen : cursor.peek.kind = .leftParen := at_.peek
  rw [Expr.flatten, List.cons_append, List.append_assoc] at at_
  rw [Expr.flatten, List.length_cons, List.length_append] at enough
  dsimp only
  rw [isParen]
  exact (Reads.advance at_ (by rw [isParen]; decide)).bind fun _ _ _ there =>
    (innerRead.whole shaped bound there (Closes.stops (.inl rfl) _) (by omega)).bind
      fun _ _ same atClose => (Reads.consumeMark atClose (by decide) _).bind fun _ _ _ ends =>
        .pure ends (congrArg (Expr.grouping · .nowhere) same)

private theorem readable_array {elements : List Expr} (place : Location)
    (areReadable : AreReadable grammar known elements) (laddered : Expr.AreLaddered elements) :
    (Expr.array elements place).Readable grammar known := by
  refine readable_primary laddered rfl fun cursor more bound at_ enough => .peek ?_
  have isBracket : cursor.peek.kind = .leftBracket := at_.peek
  rw [Expr.flatten, List.cons_append, List.append_assoc] at at_
  rw [Expr.flatten, List.length_cons, List.length_append] at enough
  have short := length_le_flattenList elements
  dsimp only
  rw [isBracket]
  exact (Reads.advance at_ (by rw [isBracket]; decide)).bind fun _ _ _ there =>
    (expressionList_reads areReadable (.inr rfl) (by simp) bound bound _ there (by omega)
      (by omega)).bind fun _ _ sames ends =>
        .pure ends (congrArg (Expr.array · .nowhere) sames)

/-! ### Every form -/

mutual

/-- An expression that has a text is read from it; so is a name that may not stand alone. -/
theorem readable : ∀ expr : Expr, expr.Laddered → (expr.isVar = true ∨ expr.Named known) →
    expr.Readable grammar known
  | .literal value place, _, _ => readable_literal value place
  | .var id name place, _, _ => readable_var id name place
  | .thisRef id place, _, _ => readable_thisRef id place
  | .superRef id method place, _, _ => readable_superRef id method place
  | .array elements place, laddered, .inr named =>
    readable_array place (areReadable elements laddered named) laddered
  | .grouping inner place, laddered, .inr named =>
    readable_grouping place (readable inner laddered (.inr named)) ⟨laddered, named⟩
  | .assign id name value place, laddered, .inr named =>
    readable_assign id name place (readable_var id name place)
      (readable value laddered (.inr named)) ⟨laddered, named⟩
  | .binary op left right place, ⟨⟨leftAdmitted, leftLaddered⟩, rightAdmitted, rightLaddered⟩,
      .inr ⟨leftNamed, rightNamed⟩ => by
    have combines : op.level.combine? op.kind = some (.binary op) := by cases op <;> rfl
    exact readable_joined combines place (readable left leftLaddered (.inr leftNamed))
      ⟨leftLaddered, leftNamed⟩ (readable right rightLaddered (.inr rightNamed))
      ⟨rightLaddered, rightNamed⟩ leftAdmitted rightAdmitted
  | .logical op left right place, ⟨⟨leftAdmitted, leftLaddered⟩, rightAdmitted, rightLaddered⟩,
      .inr ⟨leftNamed, rightNamed⟩ => by
    have combines : op.level.combine? op.kind = some (.logical op) := by cases op <;> rfl
    exact readable_joined combines place (readable left leftLaddered (.inr leftNamed))
      ⟨leftLaddered, leftNamed⟩ (readable right rightLaddered (.inr rightNamed))
      ⟨rightLaddered, rightNamed⟩ leftAdmitted rightAdmitted
  | .bitwise op left right place, ⟨⟨leftAdmitted, leftLaddered⟩, rightAdmitted, rightLaddered⟩,
      .inr ⟨leftNamed, rightNamed⟩ => by
    have combines : op.level.combine? op.kind = some (.bitwise op) := by cases op <;> rfl
    exact readable_joined combines place (readable left leftLaddered (.inr leftNamed))
      ⟨leftLaddered, leftNamed⟩ (readable right rightLaddered (.inr rightNamed))
      ⟨rightLaddered, rightNamed⟩ leftAdmitted rightAdmitted
  | .elvis left right place, ⟨⟨leftAdmitted, leftLaddered⟩, rightAdmitted, rightLaddered⟩,
      .inr ⟨leftNamed, rightNamed⟩ => by
    have combines : Level.elvis.combine? .elvis = some Expr.elvis := rfl
    exact readable_joined combines place (readable left leftLaddered (.inr leftNamed))
      ⟨leftLaddered, leftNamed⟩ (readable right rightLaddered (.inr rightNamed))
      ⟨rightLaddered, rightNamed⟩ leftAdmitted rightAdmitted
  | .unary op operand place, ⟨admitted, laddered⟩, .inr named =>
    readable_unary op place (readable operand laddered (.inr named)) ⟨laddered, named⟩ admitted
  | .prefixCall id _ operand place, ⟨admitted, laddered⟩, .inr ⟨declared, named, unbracketed⟩ =>
    readable_prefixCall id place declared unbracketed (readable operand laddered (.inr named))
      ⟨laddered, named⟩ admitted
  | .infixCall id _ left right place,
      ⟨⟨leftAdmitted, leftLaddered⟩, rightAdmitted, rightLaddered⟩,
      .inr ⟨declared, leftNamed, rightNamed⟩ =>
    readable_infixCall id place declared (readable left leftLaddered (.inr leftNamed))
      ⟨leftLaddered, leftNamed⟩ (readable right rightLaddered (.inr rightNamed))
      ⟨rightLaddered, rightNamed⟩ leftAdmitted rightAdmitted
  | .ternary condition thenBranch elseBranch place,
      ⟨⟨first, firstLaddered⟩, ⟨second, secondLaddered⟩, third, thirdLaddered⟩,
      .inr ⟨firstNamed, secondNamed, thirdNamed⟩ =>
    readable_ternary place (readable condition firstLaddered (.inr firstNamed))
      ⟨firstLaddered, firstNamed⟩ (readable thenBranch secondLaddered (.inr secondNamed))
      ⟨secondLaddered, secondNamed⟩ (readable elseBranch thirdLaddered (.inr thirdNamed))
      ⟨thirdLaddered, thirdNamed⟩ first second third
  | .call callee arguments place, ⟨⟨admitted, calleeLaddered⟩, laddered⟩,
      .inr ⟨calleeNamed, named, few⟩ =>
    readable_call place (readable callee calleeLaddered calleeNamed) calleeLaddered
      (areReadable arguments laddered named) few laddered admitted
  | .get object name place, ⟨admitted, laddered⟩, .inr named =>
    readable_of_leads ⟨admitted, laddered⟩ rfl
      (leads_get name place (readable object laddered (.inr named)) admitted)
  | .getIndex object index place, ⟨⟨admitted, laddered⟩, indexLaddered⟩,
      .inr ⟨named, indexNamed⟩ =>
    readable_of_leads ⟨⟨admitted, laddered⟩, indexLaddered⟩ rfl
      (leads_getIndex place (readable object laddered (.inr named)) admitted
        (readable index indexLaddered (.inr indexNamed)) ⟨indexLaddered, indexNamed⟩)
  | .set object name value place, ⟨⟨admitted, laddered⟩, valueLaddered⟩,
      .inr ⟨named, valueNamed⟩ =>
    readable_set name place (readable object laddered (.inr named)) ⟨laddered, named⟩ admitted
      (readable value valueLaddered (.inr valueNamed)) ⟨valueLaddered, valueNamed⟩
  | .setIndex object index value place, ⟨⟨admitted, laddered⟩, indexLaddered, valueLaddered⟩,
      .inr ⟨named, indexNamed, valueNamed⟩ =>
    readable_setIndex place (readable object laddered (.inr named)) ⟨laddered, named⟩ admitted
      (readable index indexLaddered (.inr indexNamed)) ⟨indexLaddered, indexNamed⟩
      (readable value valueLaddered (.inr valueNamed)) ⟨valueLaddered, valueNamed⟩

/-- So is every one of some expressions. -/
theorem areReadable : ∀ items : List Expr, Expr.AreLaddered items → Expr.AreNamed known items →
    AreReadable grammar known items
  | [], _, _ => ⟨by simp, by simp⟩
  | first :: rest, ⟨laddered, othersLaddered⟩, ⟨named, othersNamed⟩ => by
    have readFirst : first.Readable grammar known := readable first laddered (.inr named)
    have others : AreReadable grammar known rest := areReadable rest othersLaddered othersNamed
    exact ⟨List.forall_mem_cons.mpr ⟨readFirst, others.readable⟩,
      List.forall_mem_cons.mpr ⟨⟨laddered, named⟩, others.shaped⟩⟩

end

end Expr

end Scriptlet
