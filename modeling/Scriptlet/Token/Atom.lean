import Scriptlet.Number.Reading
import Scriptlet.Token.Registry

/-!
# Atoms

What is not an operator is a blank, a number, a quoted string, a quoted character
or a word. Each recogniser looks at the beginning of an input and says how many
characters the atom takes.
-/

namespace Scriptlet.Atom

/-- The blanks that separate tokens on one line. -/
def isBlank (c : Char) : Bool :=
  c == ' ' || c == '\t' || c == '\r' || c == '\x0c'

/-- The character a backslash and this character stand for. -/
def escaped? : Char → Option Char
  | 'n' => some '\n'
  | 't' => some '\t'
  | 'r' => some '\r'
  | '0' => some '\x00'
  | '\\' => some '\\'
  | '"' => some '"'
  | '\'' => some '\''
  | _ => none

/-- The longest numeral an input begins with, and its length: digits, then a
point and digits if both are there, then an exponent if it is complete. -/
def numeral? (input : List Char) : Option (Number.Numeral × Nat) :=
  let (whole, rest) := Number.spanDigits input
  if whole.isEmpty then none
  else
    let (fraction, rest, length) :=
      match rest with
      | '.' :: tail =>
        let (fraction, after) := Number.spanDigits tail
        if fraction.isEmpty then ([], rest, whole.length)
        else (fraction, after, whole.length + 1 + fraction.length)
      | _ => ([], rest, whole.length)
    match Number.exponent? rest with
    | some (exponent, after) =>
      some (⟨whole ++ fraction, fraction.length, exponent⟩, length + (rest.length - after.length))
    | none => some (⟨whole ++ fraction, fraction.length, 0⟩, length)

/-- The value of a string literal whose opening quote has been read, and how many
characters it takes from there to its closing quote. There is none when the quote
is missing or an escape has no meaning. -/
def stringBody? : List Char → Option (List Char × Nat)
  | [] => none
  | '"' :: _ => some ([], 1)
  | ['\\'] => none
  | '\\' :: escape :: rest =>
    match escaped? escape, stringBody? rest with
    | some c, some (value, length) => some (c :: value, length + 2)
    | _, _ => none
  | c :: rest =>
    match stringBody? rest with
    | some (value, length) => some (c :: value, length + 1)
    | none => none

/-- A string literal that has no value: how many characters it takes after its
opening quote, whether a quote closes it, and the first escape without meaning
with its distance from the opening quote. -/
structure BadString where
  length : Nat
  closed : Bool
  invalid : Option (Nat × Char)
  deriving DecidableEq, Repr

/-- Surveys a string literal from its opening quote on. A backslash takes the next
character with it, whatever it is. -/
def survey (offset : Nat) (invalid : Option (Nat × Char)) : List Char → BadString
  | [] => ⟨offset - 1, false, invalid⟩
  | '"' :: _ => ⟨offset, true, invalid⟩
  | ['\\'] => ⟨offset, false, invalid⟩
  | '\\' :: escape :: rest =>
    let invalid :=
      match invalid, escaped? escape with
      | none, none => some (offset, escape)
      | _, _ => invalid
    survey (offset + 2) invalid rest
  | _ :: rest => survey (offset + 1) invalid rest

/-- The character of a character literal whose opening quote has been read, and
how many characters it takes from there to its closing quote. -/
def charBody? : List Char → Option (Char × Nat)
  | '\\' :: escape :: '\'' :: _ => (escaped? escape).map (·, 3)
  | c :: '\'' :: _ => if c = '\\' ∨ c = '\n' ∨ c = '\'' then none else some (c, 2)
  | _ => none

end Scriptlet.Atom
