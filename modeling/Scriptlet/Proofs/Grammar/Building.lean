import Scriptlet.Proofs.Grammar.Elements
import Scriptlet.Proofs.Grammar.StatementProgress

/-!
# What a parser builds

The elements of what is parsed lie between two places of the cursor (`Cursor.Spans`): their numbers
were free at the first and are given out at the second, an operator known at the second was known at
the first or is declared among them, and so is each operator they use, in front of its use.
Stretches of a parse that follow each other are put together (`Cursor.Spans.plain`,
`Cursor.Spans.after`), and a parser that reports no fault is followed through the parsers it is made
of (`Parse.Builds`).
-/

namespace Scriptlet

open Grammar (functionHead?)

/-- A function declaration begins at an index: with the words for its kind, and with its name. -/
def FunctionDecl.BeginsAt (row : List Token) (decl : FunctionDecl) (start : Nat) : Prop :=
  ∃ word second name, row[start]? = some word ∧ row[start + 1]? = some second ∧
    row[start + 2]? = some name ∧
    functionHead? word.kind second.kind = some (decl.kind, decl.isFinal) ∧
    word.location = decl.location ∧ name.kind = .identifier ∧ name.lexeme = decl.name

/-- A name is written at an index, and there is its place in the source. -/
def WrittenAt (row : List Token) (name : String) (location : Location) (index : Nat) : Prop :=
  ∃ token, row[index]? = some token ∧ token.kind = .identifier ∧ token.lexeme = name ∧
    token.location = location

/-- An operator is declared by one of some elements, its name in front of an index. -/
def OperatorDeclared (row : List Token) (elements : List Element) (kind : FunctionKind)
    (name : String) (index : Nat) : Prop :=
  ∃ decl, .function .statement decl ∈ elements ∧ decl.kind = kind ∧ decl.name = name ∧
    ∃ start, decl.BeginsAt row start ∧ start + 2 < index

private theorem OperatorDeclared.mono {row : List Token} {elements more : List Element}
    {kind : FunctionKind} {name : String} {index later : Nat}
    (declared : OperatorDeclared row elements kind name index)
    (kept : ∀ decl, .function .statement decl ∈ elements → .function .statement decl ∈ more)
    (onward : index ≤ later) : OperatorDeclared row more kind name later := by
  obtain ⟨decl, member, isKind, isName, start, begins, before⟩ := declared
  exact ⟨decl, kept decl member, isKind, isName, start, begins, Nat.lt_of_lt_of_le before onward⟩

/-- Numbers are distinct, and were free between two states of the counter. -/
structure Numbers (first next : NodeId) (ids : List NodeId) : Prop where
  onward : first ≤ next
  distinct : ids.Nodup
  within : ∀ id ∈ ids, first ≤ id ∧ id < next

namespace Numbers

variable {first middle next : NodeId} {ids others : List NodeId}

private theorem append (before : Numbers first middle ids) (behind : Numbers middle next others) :
    Numbers first next (ids ++ others) where
  onward := Nat.le_trans before.onward behind.onward
  distinct := by
    refine List.nodup_append.mpr ⟨before.distinct, behind.distinct, fun id member other found => ?_⟩
    rintro rfl
    exact absurd (behind.within id found).1 (Nat.not_le.mpr (before.within id member).2)
  within := by
    intro id member
    rcases List.mem_append.mp member with member | member
    · exact ⟨(before.within id member).1,
        Nat.lt_of_lt_of_le (before.within id member).2 behind.onward⟩
    · exact ⟨Nat.le_trans before.onward (behind.within id member).1, (behind.within id member).2⟩

private theorem sublist (numbers : Numbers first next ids) (kept : others.Sublist ids) :
    Numbers first next others :=
  ⟨numbers.onward, numbers.distinct.sublist kept, fun id member =>
    numbers.within id (kept.subset member)⟩

private theorem perm (numbers : Numbers first next ids) (same : ids.Perm others) :
    Numbers first next others :=
  ⟨numbers.onward, same.nodup_iff.mp numbers.distinct, fun id member =>
    numbers.within id (same.mem_iff.mpr member)⟩

/-- The next free number is given out. -/
theorem cons (numbers : Numbers first next ids) : Numbers first (next + 1) (next :: ids) where
  onward := Nat.le_succ_of_le numbers.onward
  distinct := List.nodup_cons.mpr ⟨fun member =>
    Nat.lt_irrefl _ (numbers.within next member).2, numbers.distinct⟩
  within := by
    intro id member
    rcases List.mem_cons.mp member with rfl | member
    · exact ⟨numbers.onward, Nat.lt_succ_self _⟩
    · exact ⟨(numbers.within id member).1, Nat.lt_succ_of_lt (numbers.within id member).2⟩

end Numbers

namespace Cursor

/-- The tokens that a cursor moves over. -/
def row (cursor : Cursor) : List Token := cursor.passed.reverse ++ cursor.rest

/-- How many of the tokens are passed. -/
def reached (cursor : Cursor) : Nat := cursor.passed.length

/-- Which names of operators a cursor knows. -/
def Knows (cursor : Cursor) : FunctionKind → String → Prop
  | .prefixOperator, name => name ∈ cursor.prefixNames
  | .infixOperator, name => name ∈ cursor.infixNames
  | _, _ => False

/-- A cursor stands on the same tokens, no fault is taken back. -/
structure Keeps (cursor later : Cursor) : Prop where
  row : later.row = cursor.row
  faults : cursor.faults.size ≤ later.faults.size

/-- A cursor knows the same names and gives out the same number next. -/
structure Still (cursor later : Cursor) : Prop where
  prefixNames : later.prefixNames = cursor.prefixNames
  infixNames : later.infixNames = cursor.infixNames
  nextId : later.nextId = cursor.nextId

/-- A cursor knows one more name, if that is the name of an operator. -/
structure Declares (cursor declared : Cursor) (kind : FunctionKind) (name : String) : Prop where
  row : declared.row = cursor.row
  reached : declared.reached = cursor.reached
  nextId : declared.nextId = cursor.nextId
  names : ∀ otherKind otherName, declared.Knows otherKind otherName →
    cursor.Knows otherKind otherName ∨
      (kind = otherKind ∧ name = otherName ∧ (Grammar.operatorArity? kind).isSome)

/-- An operator is there at an index: a cursor knows it, or one of some elements declares it. -/
def Has (cursor : Cursor) (elements : List Element) (kind : FunctionKind) (name : String)
    (index : Nat) : Prop :=
  cursor.Knows kind name ∨ OperatorDeclared cursor.row elements kind name index

/-- The name of an operator is written behind a cursor, where the operator is there. -/
def Uses (cursor : Cursor) (elements : List Element) (kind : FunctionKind) (name : String)
    (location : Location) : Prop :=
  ∃ index, cursor.reached ≤ index ∧ WrittenAt cursor.row name location index ∧
    cursor.Has elements kind name index

/-- The elements lie between two places of a cursor. -/
structure Spans (cursor later : Cursor) (elements : List Element) : Prop where
  row : later.row = cursor.row
  reached : cursor.reached ≤ later.reached
  fit : ∀ element ∈ elements, element.Fit
  numbers : Numbers cursor.nextId later.nextId (elements.filterMap Element.id?)
  known : ∀ kind name, later.Knows kind name → cursor.Has elements kind name later.reached
  used : ∀ element ∈ elements, ∀ kind name location, element.use? = some (kind, name, location) →
    cursor.Uses elements kind name location

private theorem Still.knows {cursor later : Cursor} (still : cursor.Still later)
    {kind : FunctionKind}
    {name : String} (known : later.Knows kind name) : cursor.Knows kind name := by
  unfold Knows at known ⊢
  rw [← still.prefixNames, ← still.infixNames]
  exact known

section Uses

variable {cursor middle : Cursor} {elements others : List Element} {kind : FunctionKind}
  {name : String} {location : Location} {index later : Nat}

private theorem Has.mono (has : cursor.Has elements kind name index)
    (kept : ∀ decl, .function .statement decl ∈ elements → .function .statement decl ∈ others)
    (onward : index ≤ later) : cursor.Has others kind name later :=
  has.imp_right fun declared => declared.mono kept onward

/-- What a later cursor knows was known before, or is declared before the later cursor. -/
theorem Has.chain (row : middle.row = cursor.row) (has : middle.Has others kind name index)
    (before : middle.Knows kind name → cursor.Has elements kind name index) :
    cursor.Has (elements ++ others) kind name index := by
  rcases has with known | declared
  · exact (before known).mono (fun _ => List.mem_append_left _) (Nat.le_refl _)
  · rw [row] at declared
    exact .inr (declared.mono (fun _ => List.mem_append_right _) (Nat.le_refl _))

/-- An operator that is used where it is declared by some elements is declared by more of them. -/
theorem Uses.mono (uses : cursor.Uses elements kind name location)
    (kept : ∀ decl, .function .statement decl ∈ elements → .function .statement decl ∈ others) :
    cursor.Uses others kind name location := by
  obtain ⟨index, within, written, has⟩ := uses
  exact ⟨index, within, written, has.mono kept (Nat.le_refl _)⟩

end Uses

namespace Spans

variable {cursor middle later : Cursor} {elements others : List Element}

/-- A step that builds nothing. -/
theorem step (row : later.row = cursor.row) (reached : cursor.reached ≤ later.reached)
    (still : cursor.Still later) : cursor.Spans later [] where
  row := row
  reached := reached
  fit := nofun
  numbers := ⟨Nat.le_of_eq still.nextId.symm, .nil, nofun⟩
  known := fun _ _ known => .inl (still.knows known)
  used := nofun

/-- Nothing lies between a cursor and itself. -/
theorem refl : cursor.Spans cursor [] := step rfl (Nat.le_refl _) ⟨rfl, rfl, rfl⟩

/-- What is used behind a stretch was known before it, or is declared in it. -/
theorem append (first : cursor.Spans middle elements) (second : middle.Spans later others) :
    cursor.Spans later (elements ++ others) where
  row := second.row.trans first.row
  reached := Nat.le_trans first.reached second.reached
  fit := List.forall_mem_append.mpr ⟨first.fit, second.fit⟩
  numbers := by
    rw [List.filterMap_append]
    exact first.numbers.append second.numbers
  known := fun kind name known => (second.known kind name known).chain first.row fun known =>
    (first.known kind name known).mono (fun _ => id) second.reached
  used := by
    intro element member kind name location isUse
    rcases List.mem_append.mp member with member | member
    · exact (first.used element member kind name location isUse).mono
        fun _ => List.mem_append_left _
    · obtain ⟨index, within, written, has⟩ := second.used element member kind name location isUse
      rw [first.row] at written
      refine ⟨index, Nat.le_trans first.reached within, written, has.chain first.row ?_⟩
      exact fun known => (first.known kind name known).mono (fun _ => id) within

/-- Elements lie also between the first place and a later one, if nothing lies behind them. -/
theorem plain (first : cursor.Spans middle elements) (second : middle.Spans later []) :
    cursor.Spans later elements := by
  have whole := first.append second
  rwa [List.append_nil] at whole

/-- Elements lie also between an earlier place and the last one, if nothing lies in front of them.
-/
theorem after (first : cursor.Spans middle []) (second : middle.Spans later elements) :
    cursor.Spans later elements :=
  first.append second

/-- Elements can be put in another order, and those other than functions can be left out. -/
theorem rearrange (spans : cursor.Spans later elements)
    (kept : ∀ element ∈ others, element ∈ elements)
    (functions : ∀ decl, .function .statement decl ∈ elements →
      .function .statement decl ∈ others)
    (numbers : Numbers cursor.nextId later.nextId (others.filterMap Element.id?)) :
    cursor.Spans later others where
  row := spans.row
  reached := spans.reached
  fit := fun element member => spans.fit element (kept element member)
  numbers := numbers
  known := fun kind name known => (spans.known kind name known).mono functions (Nat.le_refl _)
  used := fun element member kind name location isUse =>
    (spans.used element (kept element member) kind name location isUse).mono functions

/-- An expression can be left out. -/
theorem tail {expr : Expr} (spans : cursor.Spans later (.expr expr :: elements)) :
    cursor.Spans later elements := by
  have shorter : elements.Sublist (.expr expr :: elements) := List.sublist_cons_self ..
  exact spans.rearrange (fun _ => List.mem_cons_of_mem _)
    (fun _ member => (List.mem_cons.mp member).resolve_left nofun)
    (spans.numbers.sublist (shorter.filterMap _))

/-- The order of the elements between two places does not matter. -/
theorem perm (spans : cursor.Spans later elements) (same : elements.Perm others) :
    cursor.Spans later others :=
  spans.rearrange (fun _ => same.mem_iff.mpr) (fun _ => same.mem_iff.mp)
    (spans.numbers.perm (same.filterMap _))

/-- One more element, at a place where nothing but the next free number is another one. -/
theorem put {element : Element} (spans : cursor.Spans middle elements)
    (row : later.row = middle.row) (reached : later.reached = middle.reached)
    (knows : ∀ kind name, later.Knows kind name → middle.Knows kind name) (fit : element.Fit)
    (numbers : Numbers cursor.nextId later.nextId ((element :: elements).filterMap Element.id?))
    (used : ∀ kind name location, element.use? = some (kind, name, location) →
      cursor.Uses elements kind name location) : cursor.Spans later (element :: elements) where
  row := row.trans spans.row
  reached := by
    rw [reached]
    exact spans.reached
  fit := List.forall_mem_cons.mpr ⟨fit, spans.fit⟩
  numbers := numbers
  known := fun kind name known => (spans.known kind name (knows kind name known)).mono
    (fun _ => List.mem_cons_of_mem _) (Nat.le_of_eq reached.symm)
  used := by
    intro other member kind name location isUse
    have uses : cursor.Uses elements kind name location := by
      rcases List.mem_cons.mp member with rfl | member
      · exact used kind name location isUse
      · exact spans.used other member kind name location isUse
    exact uses.mono fun _ => List.mem_cons_of_mem _

/-- An element that neither carries a number nor uses an operator. -/
theorem cons {element : Element} (spans : cursor.Spans later elements) (fit : element.Fit)
    (plain : element.id? = none ∧ element.use? = none) :
    cursor.Spans later (element :: elements) := by
  refine spans.put rfl rfl (fun _ _ => id) fit ?_ fun _ _ _ isUse => ?_
  · rw [List.filterMap_cons_none plain.1]
    exact spans.numbers
  · rw [plain.2] at isUse
    cases isUse

/-- An element with the next free number. -/
theorem consNumbered {element : Element} (spans : cursor.Spans later elements) (fit : element.Fit)
    (number : element.id? = some later.nextId)
    (used : ∀ kind name location, element.use? = some (kind, name, location) →
      cursor.Uses elements kind name location) :
    cursor.Spans { later with nextId := later.nextId + 1 } (element :: elements) := by
  refine spans.put rfl rfl (fun _ _ => id) fit ?_ used
  rw [List.filterMap_cons_some number]
  exact spans.numbers.cons

/-- A node with the next free number that uses no operator. -/
theorem consNode {element : Element} (spans : cursor.Spans later elements) (fit : element.Fit)
    (number : element.id? = some later.nextId) (plain : element.use? = none) :
    cursor.Spans { later with nextId := later.nextId + 1 } (element :: elements) :=
  spans.consNumbered fit number fun _ _ _ isUse => by
    rw [plain] at isUse
    cases isUse

/-- A function lies where its name is declared: what is used in its body is used behind that. -/
theorem declare {decl : FunctionDecl} (head : cursor.Spans middle [])
    (declares : middle.Declares later decl.kind decl.name)
    (fit : (Element.function .statement decl).Fit)
    (begins : (Grammar.operatorArity? decl.kind).isSome →
      ∃ start, decl.BeginsAt cursor.row start ∧ start + 2 < middle.reached) :
    cursor.Spans later [.function .statement decl] where
  row := declares.row.trans head.row
  reached := by
    rw [declares.reached]
    exact head.reached
  fit := List.forall_mem_singleton.mpr fit
  numbers := by
    rw [declares.nextId]
    exact head.numbers
  known := by
    intro kind name known
    rcases declares.names kind name known with known | ⟨isKind, isName, operator⟩
    · exact (head.known kind name known).mono (fun _ => nofun) (Nat.le_of_eq declares.reached.symm)
    · obtain ⟨start, begins, before⟩ := begins operator
      rw [← declares.reached] at before
      exact .inr ⟨decl, List.mem_singleton_self _, isKind, isName, start, begins, before⟩
  used := by
    intro element member kind name location isUse
    cases List.mem_singleton.mp member
    cases isUse

end Spans

private theorem Still.trans {cursor middle later : Cursor} (first : cursor.Still middle)
    (second : middle.Still later) : cursor.Still later :=
  ⟨second.prefixNames.trans first.prefixNames, second.infixNames.trans first.infixNames,
    second.nextId.trans first.nextId⟩

namespace Keeps

variable {cursor middle later : Cursor}

private theorem refl : cursor.Keeps cursor := ⟨rfl, Nat.le_refl _⟩

/-- A cursor that keeps to the tokens twice keeps to them. -/
theorem trans (first : cursor.Keeps middle) (second : middle.Keeps later) : cursor.Keeps later :=
  ⟨second.row.trans first.row, Nat.le_trans first.faults second.faults⟩

end Keeps

variable {cursor later : Cursor}

/-- The current token stands where the cursor does. -/
theorem row_reached (more : cursor.peek.kind ≠ .endOfInput) :
    cursor.row[cursor.reached]? = some cursor.peek := by
  obtain ⟨passed, rest, faults, prefixNames, infixNames, nextId⟩ := cursor
  cases rest with
  | nil => exact absurd rfl more
  | cons token rest => simp [row, reached, peek]

/-- An operator is used whose name is the current token. -/
theorem Spans.useKnown {elements : List Element} {kind : FunctionKind}
    (spans : cursor.Spans later elements) (isName : later.peek.kind = .identifier)
    (known : later.Knows kind later.peek.lexeme) :
    cursor.Uses elements kind later.peek.lexeme later.peek.location := by
  refine ⟨later.reached, spans.reached, ⟨later.peek, ?_, isName, rfl, rfl⟩, spans.known _ _ known⟩
  rw [← spans.row]
  exact row_reached (by rw [isName]; decide)

/-- The token behind the next one stands one index further. -/
theorem row_next (more : cursor.peekNext.kind ≠ .endOfInput) :
    cursor.row[cursor.reached + 1]? = some cursor.peekNext := by
  obtain ⟨passed, rest, faults, prefixNames, infixNames, nextId⟩ := cursor
  cases rest with
  | nil => exact absurd rfl more
  | cons token rest =>
    cases rest with
    | nil => exact absurd rfl more
    | cons next rest => simp [row, reached, peekNext]

namespace Onward

/-- A cursor that goes onward stays on the same tokens. -/
theorem row (onward : cursor.Onward later) : later.row = cursor.row := by
  obtain ⟨tokens, passes, _⟩ := onward
  rw [Cursor.row, Cursor.row, passes.passed, passes.rest, List.reverse_append, List.reverse_reverse,
    List.append_assoc]

private theorem reached (onward : cursor.Onward later) : cursor.reached ≤ later.reached := by
  obtain ⟨tokens, passes, _⟩ := onward
  rw [Cursor.reached, Cursor.reached, passes.passed, List.length_append]
  exact Nat.le_add_left ..

end Onward

private theorem still_advance : cursor.Still cursor.advance := by
  unfold advance
  split
  · split <;> exact ⟨rfl, rfl, rfl⟩
  · exact ⟨rfl, rfl, rfl⟩

/-- Passing a token builds nothing. -/
theorem spans_advance : cursor.Spans cursor.advance [] :=
  .step Onward.advance.row Onward.advance.reached cursor.still_advance

/-- Passing a token keeps to the tokens. -/
theorem keeps_advance : cursor.Keeps cursor.advance :=
  ⟨Onward.advance.row, Nat.le_of_eq (by rw [cursor.faults_advance])⟩

/-- A token that is passed is counted. -/
theorem reached_advance (more : cursor.peek.kind ≠ .endOfInput) :
    cursor.advance.reached = cursor.reached + 1 := by
  rw [reached, reached, (Passes.advance more).passed]
  rfl

/-- Behind a token that is passed comes the one that came behind it. -/
theorem peek_advance (more : cursor.peek.kind ≠ .endOfInput) :
    cursor.advance.peek = cursor.peekNext := by
  obtain ⟨passed, rest, faults, prefixNames, infixNames, nextId⟩ := cursor
  cases rest with
  | nil => exact absurd rfl more
  | cons token rest =>
    have kept : (token.kind == .endOfInput) = false := beq_eq_false_iff_ne.mpr more
    cases rest <;> simp [advance, peek, peekNext, kept]

end Cursor

namespace Parse

variable {α β γ : Type} {cursor middle : Cursor} {parser : Parse α} {held : α → Cursor → Prop}

/-- A parser stays on the tokens and takes no fault back, and if it reports none, what is known of a
value and the cursor behind it holds. -/
def Builds (cursor : Cursor) (parser : Parse α) (held : α → Cursor → Prop) : Prop :=
  match parser cursor with
  | .ok value later =>
    cursor.Keeps later ∧ (later.faults.size = cursor.faults.size → held value later)
  | .error _ later => cursor.Keeps later

/-- A parser that builds nothing. -/
abbrev Scans (cursor : Cursor) (parser : Parse α) : Prop :=
  Builds cursor parser fun _ later => cursor.Spans later []

/-- A parser that may give something builds its elements, or leaves all but its place as it is. -/
abbrev Offers (elements : α → List Element) (cursor : Cursor) (parser : Parse (Option α)) : Prop :=
  Builds cursor parser fun result later =>
    match result with
    | some value => cursor.Spans later (elements value)
    | none => cursor.Still later

namespace Builds

/-- A parser that gives a value has built it, unless it reported a fault on the way. -/
theorem ok (builds : Builds cursor parser held) {value : α} {later : Cursor}
    (ended : parser cursor = .ok value later) :
    cursor.Keeps later ∧ (later.faults.size = cursor.faults.size → held value later) := by
  unfold Builds at builds
  rw [ended] at builds
  exact builds

/-- A parser that stops has kept to the tokens. -/
theorem stop (builds : Builds cursor parser held) {stop : ParseStop} {later : Cursor}
    (ended : parser cursor = .error stop later) : cursor.Keeps later := by
  unfold Builds at builds
  rw [ended] at builds
  exact builds

/-- Giving a value builds what is known of it. -/
protected theorem pure {value : α} (known : held value cursor) : Builds cursor (pure value) held :=
  ⟨.refl, fun _ => known⟩

/-- A parser that fails builds nothing. -/
protected theorem fail (fault : Located ParseFault) : Builds cursor (Parse.fail fault) held :=
  Cursor.Keeps.refl

/-- A parser that stops for its depth builds nothing. -/
protected theorem exhausted : Builds cursor Parse.exhausted held := Cursor.Keeps.refl

/-- After a report nothing is known. -/
protected theorem report (fault : Located ParseFault) :
    Builds cursor (Parse.report fault) fun _ _ => False := by
  have grown : (cursor.faults.push fault).size = cursor.faults.size + 1 := Array.size_push ..
  refine ⟨⟨rfl, ?_⟩, ?_⟩
  · change _ ≤ (cursor.faults.push fault).size
    omega
  · change (cursor.faults.push fault).size = _ → _
    omega

/-- What comes second may build on what is known of the first. -/
protected theorem bind {next : α → Parse β} {holds : β → Cursor → Prop}
    (first : Builds cursor parser held)
    (rest : ∀ value middle, Builds middle (next value)
      fun result later => held value middle → holds result later) :
    Builds cursor (parser >>= next) holds := by
  unfold Builds
  cases ended : parser cursor with
  | error stop middle =>
    rw [bind_of_error ended]
    exact first.stop ended
  | ok value middle =>
    rw [bind_of_ok ended]
    obtain ⟨keeps, known⟩ := first.ok ended
    cases endedOn : next value middle with
    | error stop later => exact keeps.trans ((rest value middle).stop endedOn)
    | ok result later =>
      obtain ⟨keepsOn, knownOn⟩ := (rest value middle).ok endedOn
      refine ⟨keeps.trans keepsOn, fun same => ?_⟩
      have grown := keeps.faults
      have grownOn := keepsOn.faults
      exact knownOn (by omega) (known (by omega))

/-- Less may be said of what a parser builds. -/
protected theorem weaken {holds : α → Cursor → Prop} (builds : Builds cursor parser held)
    (implied : ∀ value later, held value later → holds value later) :
    Builds cursor parser holds := by
  unfold Builds
  cases ended : parser cursor with
  | error stop later => exact builds.stop ended
  | ok value later =>
    obtain ⟨keeps, known⟩ := builds.ok ended
    exact ⟨keeps, fun same => implied value later (known same)⟩

/-- A look at the cursor builds nothing. -/
protected theorem get {next : Cursor → Parse α} (rest : Builds cursor (next cursor) held) :
    Builds cursor (get >>= next) held :=
  rest

/-- A look at the next token builds nothing. -/
protected theorem peek {next : Token → Parse α} (rest : Builds cursor (next cursor.peek) held) :
    Builds cursor (Parse.peek >>= next) held :=
  rest

/-- Checking the kind of the next token builds nothing. -/
protected theorem check {kind : TokenKind} {next : Bool → Parse α}
    (rest : Builds cursor (next (cursor.isAt kind)) held) :
    Builds cursor (Parse.check kind >>= next) held :=
  rest

/-- A token is passed, and nothing is built. -/
protected theorem advance : Builds cursor Parse.advance
    fun token later => token = cursor.peek ∧ cursor.Spans later [] :=
  ⟨cursor.keeps_advance, fun _ => ⟨rfl, cursor.spans_advance⟩⟩

/-- A fresh number is given out, and the next one is the one after it. -/
protected theorem fresh : Builds cursor Parse.fresh fun id later =>
    id = cursor.nextId ∧ later = { cursor with nextId := cursor.nextId + 1 } :=
  ⟨⟨rfl, Nat.le_refl _⟩, fun _ => ⟨rfl, rfl⟩⟩

/-- Passing a token of some kinds, if there is one, builds nothing. -/
protected theorem accept (kinds : List TokenKind) : Scans cursor (Parse.accept kinds) := by
  refine .peek ?_
  split
  · exact Builds.advance.bind fun _ _ => .pure fun known => known.2
  · exact .pure .refl

/-- A token that is asked for stands where the cursor does. -/
protected theorem consume (kind : TokenKind) (what : String) :
    Builds cursor (Parse.consume kind what) fun token later => cursor.Spans later [] ∧
      (kind ≠ .endOfInput → token.kind = kind ∧ cursor.row[cursor.reached]? = some token ∧
        later.reached = cursor.reached + 1) := by
  refine .check ?_
  split
  · rename_i found
    refine ⟨cursor.keeps_advance, fun _ => ⟨cursor.spans_advance, fun proper => ?_⟩⟩
    have isHere : cursor.peek.kind = kind := beq_iff_eq.mp found
    rw [← isHere] at proper
    exact ⟨isHere, cursor.row_reached proper, cursor.reached_advance proper⟩
  · exact .get (.fail _)

/-- Passing a token that is to be there builds nothing. -/
theorem scansConsume (kind : TokenKind) (what : String) :
    Scans cursor (Parse.consume kind what) :=
  (Builds.consume kind what).weaken fun _ _ known => known.1

/-- Passing the name of a member builds nothing. -/
protected theorem consumeMember (what : String) : Scans cursor (Parse.consumeMember what) := by
  refine .check ?_
  split
  · exact Builds.advance.weaken fun _ _ known => known.2
  · exact scansConsume ..

/-- Passing some tokens builds nothing and makes no operators known. -/
protected theorem skip (steps : Nat) :
    Builds cursor (Grammar.skip steps) fun _ later =>
      cursor.Spans later [] ∧ cursor.Still later := by
  induction steps generalizing cursor with
  | zero => exact .pure ⟨.refl, rfl, rfl, rfl⟩
  | succ steps ih =>
    have passed : Builds cursor Parse.advance
        fun _ later => cursor.Spans later [] ∧ cursor.Still later :=
      ⟨cursor.keeps_advance, fun _ => ⟨cursor.spans_advance, cursor.still_advance⟩⟩
    exact passed.bind fun _ middle => ih.weaken fun _ _ rest known =>
      ⟨known.1.after rest.1, known.2.trans rest.2⟩

/-- What comes after either of two parsers. -/
theorem either {condition : Prop} [Decidable condition] {one other : Parse γ} {next : γ → Parse α}
    {known : γ → Cursor → Prop} (first : Builds cursor one known)
    (second : Builds cursor other known)
    (rest : ∀ value middle, Builds middle (next value)
      fun result later => known value middle → held result later) :
    Builds cursor (if condition then one >>= next else other >>= next) held := by
  split
  · exact first.bind rest
  · exact second.bind rest

/-- What comes after the name of an operator is declared, if it is that of one. -/
theorem declaring {kind : FunctionKind} {name : String} {next : Unit → Parse α}
    (rest : ∀ declared, Builds declared (next ())
      fun result later => cursor.Declares declared kind name → held result later) :
    Builds cursor (match kind with
      | .prefixOperator => declarePrefix name >>= next
      | .infixOperator => declareInfix name >>= next
      | _ => next ()) held := by
  have same (kind : FunctionKind) : cursor.Declares cursor kind name :=
    ⟨rfl, rfl, rfl, fun _ _ known => .inl known⟩
  cases kind with
  | prefixOperator =>
    have declares : Builds cursor (declarePrefix name)
        fun _ declared => cursor.Declares declared .prefixOperator name := by
      refine ⟨⟨rfl, Nat.le_refl _⟩, fun _ => ⟨rfl, rfl, rfl, fun kind other known => ?_⟩⟩
      cases kind with
      | prefixOperator => exact (List.mem_cons.mp known).symm.imp_right fun same =>
          ⟨rfl, same.symm, rfl⟩
      | _ => exact .inl known
    exact declares.bind fun _ declared => rest declared
  | infixOperator =>
    have declares : Builds cursor (declareInfix name)
        fun _ declared => cursor.Declares declared .infixOperator name := by
      refine ⟨⟨rfl, Nat.le_refl _⟩, fun _ => ⟨rfl, rfl, rfl, fun kind other known => ?_⟩⟩
      cases kind with
      | infixOperator => exact (List.mem_cons.mp known).symm.imp_right fun same =>
          ⟨rfl, same.symm, rfl⟩
      | _ => exact .inl known
    exact declares.bind fun _ declared => rest declared
  | function | method | constructor =>
    exact (rest cursor).weaken fun _ _ known => known (same _)

end Builds

namespace Offers

variable {elements : α → List Element}

/-- A parser that gives nothing builds nothing. -/
protected theorem none : Offers elements cursor (pure none) :=
  .pure (show cursor.Still cursor from ⟨rfl, rfl, rfl⟩)

/-- The first of some alternatives that gives something is what builds it. -/
protected theorem firstOf {choose : γ → Parse (Option α)} {alternatives : List γ}
    (choice : ∀ alternative start, Offers elements start (choose alternative)) :
    Builds cursor (Parse.firstOf choose alternatives) fun result later =>
      match result with
      | some value => cursor.Spans later (elements value)
      | none => cursor.Spans later [] := by
  induction alternatives generalizing cursor with
  | nil => exact .pure Cursor.Spans.refl
  | cons alternative others ih =>
    unfold Builds
    cases ended : choose alternative cursor with
    | error stop middle =>
      rw [Parse.firstOf, get_bind, bind_of_error ended]
      exact (choice alternative cursor).stop ended
    | ok result middle =>
      obtain ⟨keeps, known⟩ := (choice alternative cursor).ok ended
      cases result with
      | some value =>
        rw [Parse.firstOf, get_bind, bind_of_ok ended]
        exact ⟨keeps, known⟩
      | none =>
        let back : Cursor := { middle with passed := cursor.passed, rest := cursor.rest }
        have run : Parse.firstOf choose (alternative :: others) cursor =
            Parse.firstOf choose others back := bind_of_ok ended
        have aside : cursor.Keeps back := ⟨rfl, keeps.faults⟩
        -- An alternative that declines without a fault has not changed what is put back.
        have spans (same : middle.faults.size = cursor.faults.size) : cursor.Spans back [] :=
          .step rfl (Nat.le_refl _) ⟨(known same).prefixNames, (known same).infixNames,
            (known same).nextId⟩
        rw [run]
        cases endedOn : Parse.firstOf choose others back with
        | error stop later => exact aside.trans ((@ih back).stop endedOn)
        | ok result later =>
          obtain ⟨keepsOn, knownOn⟩ := (@ih back).ok endedOn
          refine ⟨aside.trans keepsOn, fun same => ?_⟩
          have grown := aside.faults
          have grownOn := keepsOn.faults
          have before := spans (show back.faults.size = _ by omega)
          have behind := knownOn (by omega)
          cases result with
          | some value => exact before.after behind
          | none => exact before.after behind

end Offers

end Parse

end Scriptlet
