import Scriptlet.Location
import Scriptlet.Token.Kind

/-!
# Tokens, literals and comments
-/

namespace Scriptlet

/-- A value written out in a script. -/
inductive Literal where
  | nil
  | bool (value : Bool)
  | number (value : Float)
  | string (value : String)
  | char (value : Char)
  deriving Repr, Inhabited

/-- A token: its kind, its exact text, the value it writes out if any, and where
it begins. -/
structure Token where
  kind : TokenKind
  lexeme : String
  literal : Option Literal
  location : Location
  deriving Repr, Inhabited

/-- A comment without its markers, otherwise verbatim. -/
structure Comment where
  text : String
  line : Nat
  kind : CommentKind
  deriving DecidableEq, Repr

/-- Why a stretch of source text is no token. -/
inductive LexFault where
  | unexpectedCharacter (character : Char)
  | unknownSequence (sequence : String)
  | unterminatedString
  | invalidEscape (escape : Char)
  | invalidCharLiteral
  | unterminatedComment
  deriving DecidableEq, Repr

/-- The short name of a lexical fault. -/
def LexFault.name : LexFault → String
  | unexpectedCharacter _ => "UnexpectedCharacter"
  | unknownSequence _ => "UnknownSequence"
  | unterminatedString => "UnterminatedString"
  | invalidEscape _ => "InvalidEscape"
  | invalidCharLiteral => "InvalidCharLiteral"
  | unterminatedComment => "UnterminatedComment"

/-- The wording of a lexical fault. -/
def LexFault.message : LexFault → String
  | unexpectedCharacter character => "Unexpected character '" ++ character.toString ++ "'"
  | unknownSequence sequence => "Unrecognized token sequence '" ++ sequence ++ "'"
  | unterminatedString => "Unterminated or malformed string literal"
  | invalidEscape escape => "Invalid escape sequence '\\" ++ escape.toString ++ "'"
  | invalidCharLiteral => "Invalid character literal"
  | unterminatedComment => "Unterminated block comment"

end Scriptlet
