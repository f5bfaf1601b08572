import Scriptlet.Token.Basic
import Scriptlet.Token.Atom
import Scriptlet.Token.Standard

/-!
# Cutting a source into pieces

A source text is cut from left to right into pieces: blanks, tokens, comments and
stretches that are none of these. Every character belongs to exactly one piece, so
the scan always gets to the end and reports all faults of a source together.
-/

namespace Scriptlet

/-- What a piece of source text is. A rejected piece has its fault after the
characters in `before`. -/
inductive PieceMeaning where
  | blank
  | token (kind : TokenKind) (literal : Option Literal)
  | comment (kind : CommentKind) (body : List Char)
  | rejected (fault : LexFault) (before : List Char)

/-- A piece of source text and where it begins. -/
structure Piece where
  text : List Char
  location : Location
  meaning : PieceMeaning

namespace Piece

/-- The first piece of an input: what it is, and how many characters it takes
beyond the first. -/
structure Cut where
  further : Nat
  meaning : PieceMeaning

/-- The characters before the first occurrence of the marker that closes a block
comment. -/
def blockBody? : List Char → Option (List Char)
  | '*' :: '/' :: _ => some []
  | [] => none
  | c :: cs => (blockBody? cs).map (c :: ·)

/-- A comment whose opening marker is the first `marker` characters of the
input. -/
def cutComment (kind : CommentKind) (input : List Char) (marker : Nat) : Cut :=
  let rest := input.drop marker
  match kind with
  | .line =>
    let body := rest.takeWhile (· != '\n')
    ⟨marker + body.length - 1, .comment .line body⟩
  | .block =>
    match blockBody? rest with
    | some body => ⟨marker + body.length + 1, .comment .block body⟩
    | none => ⟨input.length - 1, .rejected .unterminatedComment []⟩

/-- A piece that begins with an operator character. -/
def cutSequence (registry : Registry) (input : List Char) : Cut :=
  match registry.longestMatch input with
  | .matched kind length =>
    match registry.commentKind? kind with
    | some comment => cutComment comment input length
    | none => ⟨length - 1, .token kind none⟩
  | .unmatched length =>
    ⟨length - 1, .rejected (.unknownSequence (String.ofList (input.take length))) []⟩

/-- The kind and value of a word. -/
def wordMeaning (registry : Registry) (word : String) : PieceMeaning :=
  match registry.keyword? word with
  | some (.word .trueWord) => .token (.word .trueWord) (some (.bool true))
  | some (.word .falseWord) => .token (.word .falseWord) (some (.bool false))
  | some (.word .nilWord) => .token (.word .nilWord) (some .nil)
  | some kind => .token kind none
  | none => .token .identifier none

/-- A piece that begins with a double quote. A closed literal with a bad escape is
rejected at that escape, one that is not closed as a whole. -/
def cutString (rest : List Char) : Cut :=
  match Atom.stringBody? rest with
  | some (value, length) => ⟨length, .token .string (some (.string (String.ofList value)))⟩
  | none =>
    let survey := Atom.survey 1 none rest
    match survey.closed, survey.invalid with
    | true, some (offset, escape) =>
      ⟨survey.length, .rejected (.invalidEscape escape) ('"' :: rest.take (offset - 1))⟩
    | _, _ => ⟨survey.length, .rejected .unterminatedString []⟩

/-- A piece that begins with a single quote. What is no character literal loses
its quote only. -/
def cutChar (rest : List Char) : Cut :=
  match Atom.charBody? rest with
  | some (c, length) => ⟨length, .token .char (some (.char c))⟩
  | none => ⟨0, .rejected .invalidCharLiteral []⟩

/-- The first piece of the input `c :: rest`. -/
def cut (registry : Registry) (c : Char) (rest : List Char) : Cut :=
  if registry.startsSequence c then cutSequence registry (c :: rest)
  else if Atom.isBlank c then ⟨(rest.takeWhile Atom.isBlank).length, .blank⟩
  else if c = '\n' then ⟨0, .blank⟩
  else if c = '"' then cutString rest
  else if c = '\'' then cutChar rest
  else if isWordStart c then
    let tail := rest.takeWhile isWordPart
    ⟨tail.length, wordMeaning registry (String.ofList (c :: tail))⟩
  else
    match Atom.numeral? (c :: rest) with
    | some (numeral, length) => ⟨length - 1, .token .number (some (.number numeral.value))⟩
    | none => ⟨0, .rejected (.unexpectedCharacter c) []⟩

/-- The pieces of a source text that begins at the given location. -/
def ofSource (registry : Registry) (location : Location) (source : List Char) : List Piece :=
  match source with
  | [] => []
  | c :: rest =>
    let first := cut registry c rest
    let text := c :: rest.take first.further
    ⟨text, location, first.meaning⟩ ::
      ofSource registry (location.advance text) (rest.drop first.further)
termination_by source.length
decreasing_by
  simp only [List.length_drop, List.length_cons]
  omega

/-- The token a piece is. -/
def token? (piece : Piece) : Option Token :=
  match piece.meaning with
  | .token kind literal => some ⟨kind, String.ofList piece.text, literal, piece.location⟩
  | _ => none

/-- The comment a piece is. -/
def comment? (piece : Piece) : Option Comment :=
  match piece.meaning with
  | .comment kind body => some ⟨String.ofList body, piece.location.line, kind⟩
  | _ => none

/-- The fault of a piece. -/
def fault? (piece : Piece) : Option (Located LexFault) :=
  match piece.meaning with
  | .rejected fault before => some ⟨fault, piece.location.advance before⟩
  | _ => none

end Piece

/-- What a source text reads as. -/
structure Scanned where
  tokens : Array Token
  comments : Array Comment

/-- The token that ends every token stream. -/
def Token.endOfInput (location : Location) : Token :=
  ⟨.endOfInput, "", none, location⟩

/-- Reads a source text: its tokens with an end marker, and its comments; or all
its faults. -/
def scan (registry : Registry) (source : String) : Except (List (Located LexFault)) Scanned :=
  let chars := source.toList
  let pieces := Piece.ofSource registry .start chars
  match pieces.filterMap Piece.fault? with
  | [] =>
    .ok {
      tokens := (pieces.filterMap Piece.token?).toArray.push
        (Token.endOfInput (Location.start.advance chars))
      comments := (pieces.filterMap Piece.comment?).toArray }
  | faults => .error faults

end Scriptlet
