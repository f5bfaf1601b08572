import Scriptlet.Grammar.Program
import Scriptlet.Proofs.Lexical.Relabel
import Scriptlet.Proofs.Outcome

/-!
# Parsers that do the same

A parser mirrors another one if it does what the other one does, with node numbers that are given
out from a later one on (`Cursor.later`). The two need to agree only before tokens that are spared
of some kinds (`Cursor.Spares`), and they leave such tokens (`Parse.Mirrors`).
-/

namespace Scriptlet

/-- The cursor that gives out its node numbers from a later one on. -/
def Cursor.later (cursor : Cursor) (shift : Nat) : Cursor :=
  { cursor with nextId := cursor.nextId + shift }

/-- No token to come is of some kinds. -/
def Cursor.Spares (cursor : Cursor) (kinds : TokenKind → Prop) : Prop :=
  ∀ token ∈ cursor.rest, ¬ kinds token.kind

namespace Cursor

variable {cursor : Cursor} {kinds : TokenKind → Prop} {shift : Nat}

private theorem advance_later : (cursor.later shift).advance = cursor.advance.later shift := by
  obtain ⟨passed, rest, faults, prefixNames, infixNames, nextId⟩ := cursor
  cases rest with
  | nil => rfl
  | cons token rest => by_cases last : token.kind == .endOfInput <;> simp [advance, later, last]

/-- Going on to where a statement may begin leaves the numbers alone. -/
theorem synchronize_later :
    (cursor.later shift).synchronize = cursor.synchronize.later shift := by
  unfold synchronize
  rw [advance_later]
  rfl

/-- Passing a token leaves no other tokens to come. -/
theorem advance_rest_subset : cursor.advance.rest ⊆ cursor.rest := by
  obtain ⟨passed, rest, faults, prefixNames, infixNames, nextId⟩ := cursor
  cases rest with
  | nil => simp [advance]
  | cons token rest => by_cases last : token.kind == .endOfInput <;> simp [advance, last]

private theorem resumeFrom_subset (passed rest : List Token) :
    (resumeFrom passed rest).2 ⊆ rest := by
  induction rest generalizing passed with
  | nil => simp [resumeFrom]
  | cons token rest ih =>
      have onward (before : List Token) : (resumeFrom before rest).2 ⊆ token :: rest :=
        List.Subset.trans (ih before) (List.subset_cons_self _ _)
      cases passed <;> simp only [resumeFrom] <;> split <;> first | exact onward _ | simp

private theorem Spares.advance (spares : cursor.Spares kinds) : cursor.advance.Spares kinds :=
  fun token found => spares token (advance_rest_subset found)

/-- Going on to where a statement may begin leaves tokens that are spared. -/
theorem Spares.synchronize (spares : cursor.Spares kinds) : cursor.synchronize.Spares kinds :=
  fun token found => spares.advance token (resumeFrom_subset _ _ found)

/-- The current token is of none of the kinds, unless an end marker is. -/
theorem Spares.peek (spares : cursor.Spares kinds) (proper : ¬ kinds .endOfInput) :
    ¬ kinds cursor.peek.kind := by
  obtain ⟨passed, rest, faults, prefixNames, infixNames, nextId⟩ := cursor
  cases rest with
  | nil => exact proper
  | cons token rest => exact spares token (List.mem_cons_self ..)

/-- The token behind the next one is spared. -/
theorem Spares.peekNext (spares : cursor.Spares kinds) (proper : ¬ kinds .endOfInput) :
    ¬ kinds cursor.peekNext.kind := by
  obtain ⟨passed, rest, faults, prefixNames, infixNames, nextId⟩ := cursor
  rcases rest with _ | ⟨token, _ | ⟨next, rest⟩⟩
  · exact proper
  · exact proper
  · exact spares next (by simp)

end Cursor

namespace Parse

variable {α β : Type}

/-- The end of a parse, moved to where numbers are given out from a later one on. -/
def laterEnd (shift : Nat) (move : α → β) :
    EStateM.Result ParseStop Cursor α → EStateM.Result ParseStop Cursor β
  | .ok value cursor => .ok (move value) (cursor.later shift)
  | .error stop cursor => .error stop (cursor.later shift)

/-- Where a parse leaves the cursor. -/
def endCursor : EStateM.Result ParseStop Cursor α → Cursor
  | .ok _ cursor => cursor
  | .error _ cursor => cursor

/-- Before tokens spared of some kinds a parser does what another one does, at the later numbers,
and such tokens are left. -/
def Mirrors (kinds : TokenKind → Prop) (shift : Nat) (move : α → β) (image : Parse β)
    (parser : Parse α) : Prop :=
  ∀ cursor : Cursor, cursor.Spares kinds →
    image (cursor.later shift) = laterEnd shift move (parser cursor) ∧
      (endCursor (parser cursor)).Spares kinds

namespace Mirrors

variable {γ δ : Type} {kinds : TokenKind → Prop} {shift : Nat} {move : α → β} {onward : γ → δ}
  {image : Parse β} {parser : Parse α}

/-- Giving a value is mirrored. -/
protected theorem pure (value : α) : Mirrors kinds shift move (pure (move value)) (pure value) :=
  fun _ spares => ⟨rfl, spares⟩

/-- A fault is mirrored. -/
protected theorem fail (fault : Located ParseFault) :
    Mirrors kinds shift move (Parse.fail fault) (Parse.fail fault) :=
  fun _ spares => ⟨rfl, spares⟩

/-- Stopping for the depth is mirrored. -/
protected theorem exhausted : Mirrors kinds shift move Parse.exhausted Parse.exhausted :=
  fun _ spares => ⟨rfl, spares⟩

/-- One parser after another is mirrored if both are. -/
protected theorem bind {next : α → Parse γ} {nextImage : β → Parse δ}
    (first : Mirrors kinds shift move image parser)
    (second : ∀ value, Mirrors kinds shift onward (nextImage (move value)) (next value)) :
    Mirrors kinds shift onward (image >>= nextImage) (parser >>= next) := by
  intro cursor spares
  obtain ⟨same, still⟩ := first cursor spares
  cases ended : parser cursor with
  | ok value middle =>
      rw [ended] at same still
      rw [bind_of_ok ended, bind_of_ok same]
      exact second value middle still
  | error stop middle =>
      rw [ended] at same still
      rw [bind_of_error ended, bind_of_error same]
      exact ⟨rfl, still⟩

/-- What comes after a look at the cursor, where that spares the kinds. -/
protected theorem get {next : Cursor → Parse γ} {nextImage : Cursor → Parse δ}
    (second : ∀ cursor : Cursor, cursor.Spares kinds →
      Mirrors kinds shift onward (nextImage (cursor.later shift)) (next cursor)) :
    Mirrors kinds shift onward (get >>= nextImage) (get >>= next) :=
  fun cursor spares => second cursor spares cursor spares

/-- A change of the cursor that does not depend on its numbers. -/
protected theorem modify {update : Cursor → Cursor}
    (same : ∀ cursor, update (cursor.later shift) = (update cursor).later shift)
    (spared : ∀ cursor, cursor.Spares kinds → (update cursor).Spares kinds) :
    Mirrors kinds shift id (modify update) (modify update) := by
  intro cursor spares
  refine ⟨?_, spared cursor spares⟩
  change EStateM.Result.ok _ (update (cursor.later shift)) = _
  rw [same]
  rfl

/-- A choice is mirrored if both of its sides are. -/
protected theorem ite {condition : Prop} [Decidable condition] {first second : Parse α}
    {firstImage secondImage : Parse β} (yes : Mirrors kinds shift move firstImage first)
    (no : Mirrors kinds shift move secondImage second) :
    Mirrors kinds shift move (if condition then firstImage else secondImage)
      (if condition then first else second) := by
  by_cases holds : condition
  · simpa [holds] using yes
  · simpa [holds] using no

/-- What comes after a question that is asked only on a condition. -/
protected theorem ifAsked {condition : Prop} [Decidable condition] {question : Parse Bool}
    (asked : Mirrors kinds shift id question question) {next : Bool → Parse α}
    {nextImage : Bool → Parse β}
    (second : ∀ found, Mirrors kinds shift move (nextImage found) (next found)) :
    Mirrors kinds shift move
      (if condition then question >>= nextImage else pure false >>= nextImage)
      (if condition then question >>= next else pure false >>= next) :=
  .ite (asked.bind second) ((Mirrors.pure false).bind second)

/-- A parser that gives something is mirrored as one that may give it. -/
protected theorem mapSome (mirrors : Mirrors kinds shift move image parser) :
    Mirrors kinds shift (Option.map move) (some <$> image) (some <$> parser) :=
  mirrors.bind fun value => .pure (some value)

/-- A look at the next token is mirrored. -/
protected theorem peek : Mirrors kinds shift id Parse.peek Parse.peek :=
  fun _ spares => ⟨rfl, spares⟩

/-- Checking the kind of the next token is mirrored. -/
protected theorem check (kind : TokenKind) :
    Mirrors kinds shift id (Parse.check kind) (Parse.check kind) :=
  fun _ spares => ⟨rfl, spares⟩

/-- Passing a token is mirrored. -/
protected theorem advance : Mirrors kinds shift id Parse.advance Parse.advance := by
  intro cursor spares
  refine ⟨?_, spares.advance⟩
  change EStateM.Result.ok cursor.peek (cursor.later shift).advance = _
  rw [Cursor.advance_later]
  rfl

/-- Passing a token of some kinds, if there is one, is mirrored. -/
protected theorem accept (allowed : List TokenKind) :
    Mirrors kinds shift id (Parse.accept allowed) (Parse.accept allowed) :=
  Mirrors.peek.bind fun _ => .ite (Mirrors.advance.bind fun _ => .pure true) (.pure false)

/-- Reporting a fault is mirrored. -/
protected theorem report (fault : Located ParseFault) :
    Mirrors kinds shift id (Parse.report fault) (Parse.report fault) :=
  .modify (fun _ => rfl) fun _ spares => spares

/-- Passing a token that is to be there is mirrored. -/
protected theorem consume (kind : TokenKind) (what : String) :
    Mirrors kinds shift id (Parse.consume kind what) (Parse.consume kind what) := by
  refine (Mirrors.check kind).bind fun found => ?_
  cases found with
  | false => exact .get fun cursor _ => .fail (cursor.expected what)
  | true => exact .advance

/-- Passing a name is mirrored. -/
protected theorem consumeName (what : String) :
    Mirrors kinds shift id (Parse.consumeName what) (Parse.consumeName what) :=
  .consume .identifier what

/-- Passing the name of a member is mirrored. -/
protected theorem consumeMember (what : String) :
    Mirrors kinds shift id (Parse.consumeMember what) (Parse.consumeMember what) :=
  (Mirrors.check _).bind fun _ => .ite .advance (.consumeName what)

/-- A number that is given out is moved itself. -/
protected theorem fresh : Mirrors kinds shift (· + shift) Parse.fresh Parse.fresh := by
  intro cursor spares
  refine ⟨?_, spares⟩
  change EStateM.Result.ok (cursor.nextId + shift)
    { cursor.later shift with nextId := cursor.nextId + shift + 1 } = _
  rw [Nat.add_right_comm]
  rfl

/-- Declaring a prefix operator is mirrored. -/
protected theorem declarePrefix (name : String) :
    Mirrors kinds shift id (Parse.declarePrefix name) (Parse.declarePrefix name) :=
  .modify (fun _ => rfl) fun _ spares => spares

/-- Declaring an infix operator is mirrored. -/
protected theorem declareInfix (name : String) :
    Mirrors kinds shift id (Parse.declareInfix name) (Parse.declareInfix name) :=
  .modify (fun _ => rfl) fun _ spares => spares

/-- An attempt is mirrored if the parser is. -/
protected theorem attempt (mirrors : Mirrors kinds shift move image parser) :
    Mirrors kinds shift (Except.map move) (Parse.attempt image) (Parse.attempt parser) := by
  intro cursor spares
  obtain ⟨same, still⟩ := mirrors cursor spares
  unfold Parse.attempt
  rw [same]
  cases ended : parser cursor with
  | ok value after =>
      rw [ended] at still
      exact ⟨rfl, still⟩
  | error stop after =>
      rw [ended] at still
      cases stop <;> exact ⟨rfl, still⟩

end Mirrors

end Parse

end Scriptlet
