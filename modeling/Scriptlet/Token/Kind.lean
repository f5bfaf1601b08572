/-!
# Kinds of tokens

The built-in kinds form a closed set; a host adds operators of its own as
numbered custom kinds. Each kind has a conventional upper-case name.
-/

namespace Scriptlet

/-- The reserved words of the language. -/
inductive Keyword where
  | varWord | finalWord | funWord | prefixWord | infixWord | nativeWord
  | classWord | extendsWord | constructorWord | thisWord | superWord
  | ifWord | elseWord | whileWord | doWord | repeatWord
  | printWord | returnWord | breakWord | continueWord
  | testWord | moduleWord | publicWord | privateWord
  | trueWord | falseWord | nilWord
  deriving DecidableEq, Repr

/-- The kind of a token. -/
inductive TokenKind where
  | leftParen | rightParen | leftBrace | rightBrace | leftBracket | rightBracket
  | comma | dot | semicolon | colon | question | elvis
  | plus | minus | star | slash | percent
  | bang | bangEqual | equal | equalEqual | greater | greaterEqual | less | lessEqual
  | and | or
  | ampersand | pipe | caret | tilde | shiftLeft | shiftRight | unsignedShiftRight
  | hashComment | lineComment | blockComment
  | identifier | string | char | number
  | word (keyword : Keyword)
  | custom (id : Nat)
  | endOfInput
  deriving DecidableEq, Repr, Inhabited

/-- The role a kind plays in the grammar. -/
inductive TokenCategory where
  | literal | keyword | arithmetic | bitwise | condition | assignment
  | punctuation | comment | custom | endOfInput
  deriving DecidableEq, Repr

/-- The name of a category. -/
def TokenCategory.name : TokenCategory → String
  | literal => "Literal"
  | keyword => "Keyword"
  | arithmetic => "Arithmetic"
  | bitwise => "Bitwise"
  | condition => "Condition"
  | assignment => "Assignment"
  | punctuation => "Punctuation"
  | comment => "Comment"
  | custom => "Custom"
  | endOfInput => "EndOfInput"

/-- Every category. -/
def TokenCategory.all : List TokenCategory :=
  [literal, keyword, arithmetic, bitwise, condition, assignment, punctuation, comment, custom,
    endOfInput]

/-- A comment runs to the end of its line, or to its closing marker. -/
inductive CommentKind where
  | line | block
  deriving DecidableEq, Repr

/-- The name of a kind of comment. -/
def CommentKind.name : CommentKind → String
  | line => "Line"
  | block => "Block"

namespace Keyword

/-- The name of a reserved word. -/
def name : Keyword → String
  | varWord => "VAR"
  | finalWord => "FINAL"
  | funWord => "FUNCTION"
  | prefixWord => "PREFIX"
  | infixWord => "INFIX"
  | nativeWord => "NATIVE"
  | classWord => "CLASS"
  | extendsWord => "EXTENDS"
  | constructorWord => "CONSTRUCTOR"
  | thisWord => "THIS"
  | superWord => "SUPER"
  | ifWord => "IF"
  | elseWord => "ELSE"
  | whileWord => "WHILE"
  | doWord => "DO"
  | repeatWord => "REPEAT"
  | printWord => "PRINT"
  | returnWord => "RETURN"
  | breakWord => "BREAK"
  | continueWord => "CONTINUE"
  | testWord => "TEST"
  | moduleWord => "MODULE"
  | publicWord => "PUBLIC"
  | privateWord => "PRIVATE"
  | trueWord => "TRUE"
  | falseWord => "FALSE"
  | nilWord => "NIL"

/-- Every reserved word. -/
def all : List Keyword :=
  [varWord, finalWord, funWord, prefixWord, infixWord, nativeWord, classWord, extendsWord,
    constructorWord, thisWord, superWord, ifWord, elseWord, whileWord, doWord, repeatWord,
    printWord, returnWord, breakWord, continueWord, testWord, moduleWord, publicWord,
    privateWord, trueWord, falseWord, nilWord]

/-- Whether the word begins a statement. -/
def startsStatement : Keyword → Bool
  | varWord | finalWord | funWord | prefixWord | infixWord | nativeWord | classWord
  | ifWord | whileWord | doWord | repeatWord | printWord | returnWord | breakWord
  | continueWord | testWord | moduleWord => true
  | _ => false

end Keyword

namespace TokenKind

/-- The conventional name of a kind; custom kinds share one. -/
def name : TokenKind → String
  | leftParen => "LEFT_PAREN"
  | rightParen => "RIGHT_PAREN"
  | leftBrace => "LEFT_BRACE"
  | rightBrace => "RIGHT_BRACE"
  | leftBracket => "LEFT_BRACKET"
  | rightBracket => "RIGHT_BRACKET"
  | comma => "COMMA"
  | dot => "DOT"
  | semicolon => "SEMICOLON"
  | colon => "COLON"
  | question => "QUESTION_MARK"
  | elvis => "ELVIS"
  | plus => "PLUS"
  | minus => "MINUS"
  | star => "STAR"
  | slash => "SLASH"
  | percent => "MODULO"
  | bang => "BANG"
  | bangEqual => "BANG_EQUAL"
  | equal => "EQUAL"
  | equalEqual => "EQUAL_EQUAL"
  | greater => "GREATER"
  | greaterEqual => "GREATER_EQUAL"
  | less => "LESS"
  | lessEqual => "LESS_EQUAL"
  | and => "AND"
  | or => "OR"
  | ampersand => "BITWISE_AND"
  | pipe => "BITWISE_OR"
  | caret => "XOR"
  | tilde => "COMPLEMENT"
  | shiftLeft => "SHIFT_LEFT"
  | shiftRight => "SHIFT_RIGHT"
  | unsignedShiftRight => "LOGICAL_SHIFT_RIGHT"
  | hashComment => "HASH_COMMENT"
  | lineComment => "LINE_COMMENT"
  | blockComment => "BLOCK_COMMENT"
  | identifier => "IDENTIFIER"
  | string => "STRING"
  | char => "CHAR"
  | number => "NUMBER"
  | word keyword => keyword.name
  | custom _ => "CUSTOM"
  | endOfInput => "EOF"

/-- The name of a kind, with the number of a custom kind. -/
def label : TokenKind → String
  | custom id => "CUSTOM#" ++ toString id
  | kind => kind.name

/-- Every kind that is not custom. -/
def builtin : List TokenKind :=
  [leftParen, rightParen, leftBrace, rightBrace, leftBracket, rightBracket, comma, dot,
    semicolon, colon, question, elvis, plus, minus, star, slash, percent, bang, bangEqual,
    equal, equalEqual, greater, greaterEqual, less, lessEqual, and, or, ampersand, pipe,
    caret, tilde, shiftLeft, shiftRight, unsignedShiftRight, hashComment, lineComment,
    blockComment, identifier, string, char, number, endOfInput] ++ Keyword.all.map word

/-- The kind with the given label. -/
def ofLabel? (text : String) : Option TokenKind :=
  match builtin.find? (·.name == text) with
  | some kind => some kind
  | none =>
    if text.startsWith "CUSTOM#" then
      let digits := text.toList.drop 7
      if digits.isEmpty || !digits.all Char.isDigit then none
      else some (custom (digits.foldl (fun id c => 10 * id + (c.toNat - '0'.toNat)) 0))
    else none

/-- Whether a token of this kind begins a statement, which is where the parser
takes up again after an error. -/
def startsStatement : TokenKind → Bool
  | word keyword => keyword.startsStatement
  | _ => false

end TokenKind

end Scriptlet
