import Scriptlet.Session.Basic

/-!
# The command line

The command line names one script, as text or as a file, and says how to run it.
What a run prints and where it fails becomes a report.
-/

namespace Scriptlet.CommandLine

/-- What a command line asks for. -/
structure Arguments where
  isFile : Bool
  resolveOnly : Bool
  permitAmbiguous : Bool
  maxCallDepth : Option Nat
  contents : Option String
  deriving DecidableEq, Repr

/-- The command line that says nothing. -/
def Arguments.none : Arguments := ⟨false, false, false, Option.none, Option.none⟩

/-- What a command leaves behind. -/
structure Report where
  exitCode : Nat
  output : String
  errors : String
  deriving DecidableEq, Repr

/-- The greatest limit on the call depth. -/
def depthLimit : Nat := Nat.pow 2 64 - 1

/-- Reads a limit on the call depth: decimal digits, maybe after a plus sign. -/
def depth? (text : String) : Option Nat :=
  let digits :=
    match text.toList with
    | '+' :: digits => digits
    | digits => digits
  if digits.isEmpty || !digits.all Char.isDigit then Option.none
  else
    let value := digits.foldl (fun value c => 10 * value + (c.toNat - '0'.toNat)) 0
    if value ≤ depthLimit then some value else Option.none

/-- Sets the limit on the call depth, once. -/
def setDepth (arguments : Arguments) (text : String) : Option Arguments :=
  match arguments.maxCallDepth, depth? text with
  | Option.none, some depth => some { arguments with maxCallDepth := some depth }
  | _, _ => Option.none

/-- Sets the script, once. -/
def setContents (arguments : Arguments) (text : String) : Option Arguments :=
  match arguments.contents with
  | Option.none => some { arguments with contents := some text }
  | some _ => Option.none

/-- Sets a flag written as one letter, once. -/
def setLetter (arguments : Arguments) (letter : Char) : Option Arguments :=
  match letter with
  | 'f' => if arguments.isFile then Option.none else some { arguments with isFile := true }
  | 'r' =>
    if arguments.resolveOnly then Option.none else some { arguments with resolveOnly := true }
  | _ => Option.none

/-- Sets flags written as letters. -/
def setLetters (arguments : Arguments) : List Char → Option Arguments
  | [] => some arguments
  | letter :: rest => (setLetter arguments letter).bind (setLetters · rest)

/-- Sets a flag written as a word, once. -/
def setWord (arguments : Arguments) (word : String) : Option Arguments :=
  match word with
  | "--file" => setLetter arguments 'f'
  | "--resolve-only" => setLetter arguments 'r'
  | "--permit-ambiguous" =>
    if arguments.permitAmbiguous then Option.none
    else some { arguments with permitAmbiguous := true }
  | _ =>
    if word.startsWith "--max-call-depth=" then
      setDepth arguments (String.ofList (word.toList.drop "--max-call-depth=".length))
    else Option.none

/-- Reads what stands after the mark that ends all flags. -/
def readPlain (arguments : Arguments) : List String → Option Arguments
  | [] => some arguments
  | text :: rest => (setContents arguments text).bind (readPlain · rest)

/-- Reads the words of a command line. A word that begins with a dash is a flag,
except for the dash alone. -/
def readWords (arguments : Arguments) : List String → Option Arguments
  | [] => some arguments
  | "--" :: rest => readPlain arguments rest
  | "--max-call-depth" :: value :: rest =>
    if value.startsWith "-" && value != "-" then Option.none
    else (setDepth arguments value).bind (readWords · rest)
  | word :: rest =>
    if word.startsWith "--" then (setWord arguments word).bind (readWords · rest)
    else if word.startsWith "-" && word != "-" then
      (setLetters arguments (word.toList.drop 1)).bind (readWords · rest)
    else (setContents arguments word).bind (readWords · rest)

/-- Reads a command line, which must name a script. -/
def read? (words : List String) : Option (Arguments × String) :=
  match readWords .none words with
  | some arguments => arguments.contents.map (arguments, ·)
  | Option.none => Option.none

/-- Ends every line with a line feed. -/
def unlines (lines : List String) : String :=
  String.join (lines.map (· ++ "\n"))

/-- Runs a source as the command line asks. -/
def run (arguments : Arguments) (source : String) : Report :=
  let options : Options :=
    ⟨arguments.maxCallDepth.getD Options.standard.maxCallDepth, arguments.permitAmbiguous⟩
  let session := Session.start ⟨source, .standard, .standard, options⟩
  let step := if arguments.resolveOnly then Session.resolve else Session.evaluate
  match step session with
  | .ok _ session => ⟨0, unlines session.output.toList, ""⟩
  | .error fault session =>
    ⟨65, unlines session.output.toList, unlines (fault.render source)⟩

/-- The report on a file that cannot be read. -/
def unreadable (path : String) : Report :=
  ⟨1, "", "Failed to read the input file '" ++ path ++
    "'. Perhaps this file does not exist?\n"⟩

/-- The report of a command line, where `readFile` gives the contents of a path that
can be read. There is none for a command line that cannot be read itself. -/
def report? (readFile : String → Option String) (words : List String) : Option Report :=
  match read? words with
  | Option.none => Option.none
  | some (arguments, contents) =>
    if arguments.isFile then
      match readFile contents with
      | some source => some (run arguments source)
      | Option.none => some (unreadable contents)
    else some (run arguments contents)

end Scriptlet.CommandLine
