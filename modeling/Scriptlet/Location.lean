/-!
# Positions in a source text

A location names a character of a source text by line and column, both counted
from one. Everything a script produces, from tokens to diagnostics, carries one.
-/

namespace Scriptlet

/-- A position in a source text. The pair `0:0` is the position of the stand-in
for a token that is not there. -/
structure Location where
  line : Nat
  column : Nat
  deriving DecidableEq, Repr, Inhabited

namespace Location

/-- The position of the first character of a text. -/
def start : Location := ⟨1, 1⟩

/-- The position of nothing in the text. -/
def nowhere : Location := ⟨0, 0⟩

/-- The position after one character: a line feed opens the next line. -/
def step (location : Location) (c : Char) : Location :=
  if c = '\n' then ⟨location.line + 1, 1⟩ else ⟨location.line, location.column + 1⟩

/-- The position after a run of characters. -/
def advance (location : Location) (cs : List Char) : Location :=
  cs.foldl step location

/-- No characters lead nowhere else. -/
@[simp] theorem advance_nil (location : Location) : location.advance [] = location := rfl

/-- Each character of a run leads one step further. -/
@[simp] theorem advance_cons (location : Location) (c : Char) (cs : List Char) :
    location.advance (c :: cs) = (location.step c).advance cs := rfl

/-- One run after another leads where both of them together lead. -/
theorem advance_append (location : Location) (first second : List Char) :
    location.advance (first ++ second) = (location.advance first).advance second := by
  simp [advance, List.foldl_append]

/-- The written form `line:column`. -/
def text (location : Location) : String :=
  toString location.line ++ ":" ++ toString location.column

end Location

/-- What a fault tells: its short name, its wording, and where it points. -/
structure Detail where
  name : String
  message : String
  location : Location
  deriving DecidableEq, Repr

/-- A cause together with the position it points at. -/
structure Located (α : Type) where
  cause : α
  location : Location
  deriving DecidableEq, Repr

end Scriptlet
