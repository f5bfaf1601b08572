import Scriptlet.Location
import Scriptlet.Phase

/-!
# Diagnostics

A diagnostic shows a message, the source line it points at, and a caret under the
column. Tabs before the column are kept, so the caret lines up whatever their
width.
-/

namespace Scriptlet.Diagnostic

/-- Drops a carriage return at the end of a line that a line feed ended. -/
def dropReturn (line : List Char) : List Char :=
  match line.getLast? with
  | some '\r' => line.dropLast
  | _ => line

/-- The stretches of a text between its line feeds. -/
def stretches : List Char → List (List Char)
  | [] => [[]]
  | c :: rest =>
    match stretches rest with
    | [] => [[c]]
    | first :: others => if c = '\n' then [] :: first :: others else (c :: first) :: others

/-- Makes lines of stretches: all but the last were ended by a line feed, and the
last is a line unless it is empty. -/
def linesOf : List (List Char) → List (List Char)
  | [] => []
  | [last] => if last.isEmpty then [] else [last]
  | line :: rest => dropReturn line :: linesOf rest

/-- The lines of a text. A line feed ends a line, together with a carriage return
before it. -/
def lines (text : String) : List (List Char) :=
  linesOf (stretches text.toList)

/-- The source line a location points at, empty where there is none. -/
def excerpt (source : String) (location : Location) : List Char :=
  ((lines source)[location.line - 1]?).getD []

/-- The blanks before the caret: a tab under every tab of the line. -/
def padding (line : List Char) (column : Nat) : List Char :=
  let covered := (line.take (column - 1)).map fun c => if c = '\t' then '\t' else ' '
  covered ++ List.replicate (column - 1 - covered.length) ' '

/-- The text of a diagnostic. -/
def render (source : String) (phase : Phase) (message : String) (location : Location) :
    String :=
  let line := excerpt source location
  phase.name ++ " error at " ++ location.text ++ ": " ++ message ++ "\n" ++
    String.ofList line ++ "\n" ++ String.ofList (padding line location.column) ++ "^"

end Scriptlet.Diagnostic
