import Scriptlet.Text.Extending
import Scriptlet.Text.Unprinted

/-!
# Quoted text

A quoted text shows every character it holds: the quote and the backslash stand
behind a backslash, and what could not be seen between the quotes is written as a
letter or by its code point.
-/

namespace Scriptlet.Text

/-- The letter that stands for a character behind a backslash. -/
def escapeLetter? : Char → Option Char
  | '\x00' => some '0'
  | '\t' => some 't'
  | '\n' => some 'n'
  | '\r' => some 'r'
  | '\\' => some '\\'
  | _ => none

/-- A character by its code point, in hexadecimal digits. -/
def codePoint (c : Char) : List Char :=
  ['\\', 'u', '\x7b'] ++ Nat.toDigits 16 c.toNat ++ ['\x7d']

/-- A character as it is written between the given quotes. -/
def escape (mark c : Char) : List Char :=
  match escapeLetter? c with
  | some letter => ['\\', letter]
  | none =>
    if c = mark then ['\\', c]
    else if isExtending c || isUnprinted c then codePoint c
    else [c]

/-- A text between the given quotes. -/
def quoted (mark : Char) (text : List Char) : String :=
  String.ofList (mark :: text.flatMap (escape mark) ++ [mark])

end Scriptlet.Text
