import Scriptlet.Grammar.Program
import Scriptlet.Proofs.Grammar.Shape
import Scriptlet.Proofs.Lexical.Relabel
import Scriptlet.Proofs.Outcome

/-!
# Reading words

A cursor stands before words if the tokens to come show them, one token for each word (`Cursor.At`).
What a parser does there is said by the value it gives and the words it leaves: it gives one, and
reports nothing (`Parse.Reads`). A look at the next token is decided by the next word.
-/

namespace Scriptlet

open Grammar (Level)

/-- The tokens to come show some words, some names of operators are known, and no fault was
reported. -/
structure Cursor.At (cursor : Cursor) (known : Operators) (words : List Word) : Prop where
  shows_ : List.Forall₂ (fun token word => Token.Shows token word.sign) cursor.rest words
  faults : cursor.faults = #[]
  prefixNames : cursor.prefixNames = known.prefixNames
  infixNames : cursor.infixNames = known.infixNames

namespace Cursor.At

variable {cursor : Cursor} {known : Operators} {word : Word} {words : List Word}

/-- The current token shows the next word. -/
theorem peek (at_ : cursor.At known (word :: words)) : cursor.peek.Shows word.sign := by
  obtain ⟨passed, rest, faults, prefixNames, infixNames, nextId⟩ := cursor
  cases at_.shows_ with
  | cons first _ => exact first

/-- The token behind the next one shows the second word. -/
theorem peekNext {next : Word} (at_ : cursor.At known (word :: next :: words)) :
    cursor.peekNext.Shows next.sign := by
  obtain ⟨passed, rest, faults, prefixNames, infixNames, nextId⟩ := cursor
  cases at_.shows_ with
  | cons _ others =>
      cases others with
      | cons second _ => exact second

/-- A cursor that passes a token stands before the words behind it. -/
theorem advance (at_ : cursor.At known (word :: words))
    (more : cursor.peek.kind ≠ .endOfInput) : cursor.advance.At known words := by
  obtain ⟨passed, rest, faults, prefixNames, infixNames, nextId⟩ := cursor
  cases at_.shows_ with
  | cons first others =>
      rename_i token tokens
      have kept : (token.kind == .endOfInput) = false := beq_eq_false_iff_ne.mpr more
      have moved : (Cursor.advance ⟨passed, token :: tokens, faults, prefixNames, infixNames,
          nextId⟩) = ⟨token :: passed, tokens, faults, prefixNames, infixNames, nextId⟩ := by
        simp [Cursor.advance, kept]
      rw [moved]
      exact ⟨others, at_.faults, at_.prefixNames, at_.infixNames⟩

end Cursor.At

namespace Parse

variable {α β : Type} {cursor : Cursor} {parser : Parse α} {known later : Operators}
  {word : Word} {words rest : List Word} {holds : α → Prop}

/-- A look at the current token goes on with the token. -/
theorem peek_bind {next : Token → Parse α} :
    (Parse.peek >>= next) cursor = next cursor.peek cursor := rfl

/-- A parser gives a value with some property, and leaves some words to read. -/
def Reads (cursor : Cursor) (parser : Parse α) (known : Operators) (words : List Word)
    (holds : α → Prop) : Prop :=
  ∃ value after, parser cursor = .ok value after ∧ holds value ∧ after.At known words

namespace Reads

/-- Giving a value leaves the words that are there. -/
protected theorem pure {value : α} (at_ : cursor.At known words) (good : holds value) :
    Reads cursor (pure value) known words holds :=
  ⟨value, cursor, rfl, good, at_⟩

/-- What comes second starts where the first ends. -/
protected theorem bind {next : α → Parse β} {onward : β → Prop}
    (first : Reads cursor parser known words holds)
    (second : ∀ value middle, holds value → middle.At known words →
      Reads middle (next value) later rest onward) :
    Reads cursor (parser >>= next) later rest onward := by
  obtain ⟨value, middle, ended, good, at_⟩ := first
  obtain ⟨result, after, restEnded, fine, there⟩ := second value middle good at_
  exact ⟨result, after, by rw [bind_of_ok ended, restEnded], fine, there⟩

/-- Less may be said of the value that is read. -/
protected theorem weaken {looser : α → Prop} (reads : Reads cursor parser known words holds)
    (implied : ∀ value, holds value → looser value) : Reads cursor parser known words looser := by
  obtain ⟨value, after, ended, good, at_⟩ := reads
  exact ⟨value, after, ended, implied value good, at_⟩

/-- A value that is read is read as one that there may be. -/
protected theorem mapSome (reads : Reads cursor parser known words holds) :
    Reads cursor (some <$> parser) known words
      fun result => ∃ value, result = some value ∧ holds value :=
  reads.bind fun value _ good there => .pure there ⟨value, rfl, good⟩

/-- A look at the cursor reads no words. -/
protected theorem get {next : Cursor → Parse α}
    (second : Reads cursor (next cursor) known words holds) :
    Reads cursor (get >>= next) known words holds :=
  second

/-- A look at the next token reads no words. -/
protected theorem peek {next : Token → Parse α}
    (second : Reads cursor (next cursor.peek) known words holds) :
    Reads cursor (Parse.peek >>= next) known words holds :=
  second

/-- If the current token is of a kind, a check for the kind finds it. -/
protected theorem check {kind : TokenKind} {next : Bool → Parse α} (here : cursor.peek.kind = kind)
    (second : Reads cursor (next true) known words holds) :
    Reads cursor (Parse.check kind >>= next) known words holds := by
  have found : cursor.isAt kind = true := beq_iff_eq.mpr here
  change Reads cursor (next (cursor.isAt kind)) known words holds
  rwa [found]

/-- If the current token is of another kind, a check does not find it. -/
protected theorem checkNot {kind : TokenKind} {next : Bool → Parse α}
    (elsewhere : cursor.peek.kind ≠ kind)
    (second : Reads cursor (next false) known words holds) :
    Reads cursor (Parse.check kind >>= next) known words holds := by
  have missed : cursor.isAt kind = false := beq_eq_false_iff_ne.mpr elsewhere
  change Reads cursor (next (cursor.isAt kind)) known words holds
  rwa [missed]

/-- The next word is read with its token. -/
protected theorem advance (at_ : cursor.At known (word :: words))
    (more : cursor.peek.kind ≠ .endOfInput) :
    Reads cursor Parse.advance known words fun token => token = cursor.peek :=
  ⟨cursor.peek, cursor.advance, rfl, rfl, at_.advance more⟩

/-- Giving out a number reads no words. -/
protected theorem fresh (at_ : cursor.At known words) :
    Reads cursor Parse.fresh known words fun _ => True :=
  ⟨cursor.nextId, _, rfl, trivial, at_.shows_, at_.faults, at_.prefixNames, at_.infixNames⟩

/-- A token that is asked for is passed. -/
protected theorem consume {kind : TokenKind} (at_ : cursor.At known (word :: words))
    (here : cursor.peek.kind = kind) (proper : kind ≠ .endOfInput) (what : String) :
    Reads cursor (Parse.consume kind what) known words fun token => token = cursor.peek :=
  .check here (.advance at_ (here ▸ proper))

/-- A reserved word, an operator or a bracket that is asked for is passed. -/
protected theorem consumeMark {kind : TokenKind} (at_ : cursor.At known (.mark kind :: words))
    (proper : kind ≠ .endOfInput) (what : String) :
    Reads cursor (Parse.consume kind what) known words fun _ => True :=
  (Reads.consume at_ at_.peek proper what).weaken fun _ _ => trivial

/-- A name is read. -/
protected theorem consumeName {text : String} {place : Option Location}
    (at_ : cursor.At known (⟨.name text, place⟩ :: words)) (what : String) :
    Reads cursor (Parse.consumeName what) known words fun token => token.lexeme = text :=
  (Reads.consume at_ at_.peek.1 (by decide) what).weaken fun _ same => same ▸ at_.peek.2

/-- The name of a member is read, also where it is a word of another kind. -/
protected theorem consumeMember {text : String} {place : Option Location}
    (at_ : cursor.At known (⟨.member text, place⟩ :: words)) (what : String) :
    Reads cursor (Parse.consumeMember what) known words fun token => token.lexeme = text := by
  obtain ⟨name | constructor, lexeme⟩ := at_.peek
  · exact .checkNot (by rw [name]; decide)
      ((Reads.consume at_ name (by decide) what).weaken fun _ same => same ▸ lexeme)
  · exact .check constructor
      ((Reads.advance at_ (by rw [constructor]; decide)).weaken fun _ same => same ▸ lexeme)

/-- A mark that is there is accepted. -/
protected theorem accept {kind : TokenKind} (at_ : cursor.At known (word :: words))
    (here : cursor.peek.kind = kind) (proper : kind ≠ .endOfInput) :
    Reads cursor (Parse.accept [kind]) known words (· = true) := by
  refine .peek ?_
  rw [if_pos (by simp [here])]
  exact (Reads.advance at_ (here ▸ proper)).bind fun _ _ _ after => .pure after rfl

/-- A mark that is not there is not accepted. -/
protected theorem acceptNot {kind : TokenKind} (at_ : cursor.At known words)
    (elsewhere : cursor.peek.kind ≠ kind) :
    Reads cursor (Parse.accept [kind]) known words (· = false) := by
  refine .peek ?_
  rw [if_neg (by simpa using elsewhere)]
  exact .pure at_ rfl

end Reads

end Parse

end Scriptlet
