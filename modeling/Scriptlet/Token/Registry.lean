import Scriptlet.Token.Trie

/-!
# The token registry

A registry says which character sequences are operators, which words are
reserved, and which kinds open comments. A host may extend it before a script is
read; an extension never changes what an already bound sequence means.
-/

namespace Scriptlet

/-- Why a registration is refused. -/
inductive RegistryFault where
  | emptySequence
  | notATokenCharacter (character : Char) (sequence : String)
  | conflict (sequence : String) (existing : String)
  | invalidKeyword (word : String)
  | exhausted
  deriving DecidableEq, Repr

/-- The short name of a refused registration. -/
def RegistryFault.name : RegistryFault → String
  | emptySequence => "EmptySequence"
  | notATokenCharacter _ _ => "NotATokenCharacter"
  | conflict _ _ => "Conflict"
  | invalidKeyword _ => "InvalidKeyword"
  | exhausted => "Exhausted"

/-- The wording of a refused registration. -/
def RegistryFault.message : RegistryFault → String
  | emptySequence => "token sequences cannot be empty"
  | notATokenCharacter character sequence =>
    "'" ++ character.toString ++ "' in '" ++ sequence ++ "' is not a token character"
  | conflict sequence existing => "'" ++ sequence ++ "' is already registered as " ++ existing
  | invalidKeyword word => "'" ++ word ++ "' is not a valid keyword"
  | exhausted => "too many custom token types"

/-- What an input begins with: a bound sequence, or a stretch that is none. -/
inductive SequenceMatch where
  | matched (kind : TokenKind) (length : Nat)
  | unmatched (length : Nat)
  deriving DecidableEq, Repr

/-- The characters an operator may consist of. -/
def tokenCharacters : List Char :=
  ['(', ')', '\x7b', '\x7d', '[', ']', ',', '.', ';', ':', '?', '+', '-', '*', '/', '%', '!',
    '=', '<', '>', '&', '|', '^', '~', '#', '@', '$']

/-- Whether a character may begin a word. -/
def isWordStart (c : Char) : Bool := c.isAlpha || c == '_'

/-- Whether a character may continue a word. -/
def isWordPart (c : Char) : Bool := c.isAlphanum || c == '_'

/-- The tables a script is read by. In the association lists the newest entry of
a key comes first and is the one that counts. -/
structure Registry where
  operators : Trie
  sequences : List (TokenKind × String)
  categories : List (TokenKind × TokenCategory)
  comments : List (TokenKind × CommentKind)
  keywords : List (String × TokenKind)
  customNames : Array String
  longestSequence : Nat

namespace Registry

/-- The registry without any token. -/
def empty : Registry where
  operators := Trie.empty
  sequences := []
  categories := []
  comments := []
  keywords := []
  customNames := #[]
  longestSequence := 0

/-- The number of custom kinds a registry can hold. -/
def customLimit : Nat := 65536

/-- The name of a kind; a custom kind has the name it was registered under. -/
def nameOf (registry : Registry) : TokenKind → String
  | .custom id => (registry.customNames[id]?).getD (TokenKind.custom id).label
  | kind => kind.name

/-- The category of a kind. -/
def category? (registry : Registry) : TokenKind → Option TokenCategory
  | .identifier | .string | .char | .number => some .literal
  | .endOfInput => some .endOfInput
  | kind => registry.categories.lookup kind

/-- The sequence last registered for a kind. -/
def sequence? (registry : Registry) (kind : TokenKind) : Option String :=
  registry.sequences.lookup kind

/-- The kind of comment a token kind opens. -/
def commentKind? (registry : Registry) (kind : TokenKind) : Option CommentKind :=
  registry.comments.lookup kind

/-- The kind of a reserved word. -/
def keyword? (registry : Registry) (word : String) : Option TokenKind :=
  registry.keywords.lookup word

/-- Whether some bound sequence begins with this character. -/
def startsSequence (registry : Registry) (c : Char) : Bool :=
  (registry.operators.child? c).isSome

/-- The longest bound sequence an input begins with. Where there is none, the
stretch that begins some sequence, and at least one character, is unmatched. -/
def longestMatch (registry : Registry) (input : List Char) : SequenceMatch :=
  match registry.operators.longest? input with
  | some (kind, length) => .matched kind length
  | none => .unmatched (max 1 (registry.operators.reach input))

/-- Binds a sequence without looking at what it was bound to. -/
def bind (registry : Registry) (kind : TokenKind) (sequence : String)
    (category : TokenCategory) : Registry :=
  { registry with
    operators := registry.operators.insert sequence.toList kind
    sequences := (kind, sequence) :: registry.sequences
    categories := (kind, category) :: registry.categories
    longestSequence := max registry.longestSequence sequence.length }

/-- Refuses a sequence that is empty or holds a character no operator has. -/
def validate (sequence : String) : Except RegistryFault Unit :=
  if sequence.isEmpty then .error .emptySequence
  else
    match sequence.toList.find? (fun c => !tokenCharacters.contains c) with
    | some character => .error (.notATokenCharacter character sequence)
    | none => .ok ()

/-- Binds a sequence to a kind. A sequence that is bound already keeps its kind. -/
def register (registry : Registry) (kind : TokenKind) (sequence : String)
    (category : TokenCategory) : Except RegistryFault Registry := do
  validate sequence
  match registry.operators.find? sequence.toList with
  | some existing =>
    if existing = kind then .ok (registry.bind kind sequence category)
    else .error (.conflict sequence (registry.nameOf existing))
  | none => .ok (registry.bind kind sequence category)

/-- Makes a new custom kind and binds a sequence to it. -/
def registerCustom (registry : Registry) (name sequence : String) :
    Except RegistryFault (TokenKind × Registry) := do
  validate sequence
  let id := registry.customNames.size
  if customLimit ≤ id then .error .exhausted
  else
    let extended ← registry.register (.custom id) sequence .custom
    .ok (.custom id, { extended with customNames := extended.customNames.push name })

/-- Reserves a word. A kind that has no category yet becomes a keyword. -/
def registerKeyword (registry : Registry) (word : String) (kind : TokenKind) :
    Except RegistryFault Registry :=
  let wellFormed :=
    match word.toList with
    | [] => false
    | c :: cs => isWordStart c && cs.all isWordPart
  if wellFormed then
    .ok { registry with
      keywords := (word, kind) :: registry.keywords
      categories :=
        match registry.categories.lookup kind with
        | some _ => registry.categories
        | none => (kind, .keyword) :: registry.categories }
  else .error (.invalidKeyword word)

end Registry

end Scriptlet
