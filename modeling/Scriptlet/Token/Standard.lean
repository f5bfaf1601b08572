import Scriptlet.Token.Registry

/-!
# The tokens of the language

The operators, comment markers and reserved words a script has before a host
adds any.
-/

namespace Scriptlet.Registry

/-- The operators with their sequences and categories. -/
def standardOperators : List (TokenKind × String × TokenCategory) :=
  [(.leftParen, "(", .punctuation),
    (.rightParen, ")", .punctuation),
    (.leftBrace, "\x7b", .punctuation),
    (.rightBrace, "\x7d", .punctuation),
    (.leftBracket, "[", .punctuation),
    (.rightBracket, "]", .punctuation),
    (.comma, ",", .punctuation),
    (.dot, ".", .punctuation),
    (.semicolon, ";", .punctuation),
    (.colon, ":", .condition),
    (.question, "?", .condition),
    (.elvis, "?:", .condition),
    (.plus, "+", .arithmetic),
    (.minus, "-", .arithmetic),
    (.star, "*", .arithmetic),
    (.slash, "/", .arithmetic),
    (.percent, "%", .arithmetic),
    (.bang, "!", .condition),
    (.bangEqual, "!=", .condition),
    (.equal, "=", .assignment),
    (.equalEqual, "==", .condition),
    (.greater, ">", .condition),
    (.greaterEqual, ">=", .condition),
    (.less, "<", .condition),
    (.lessEqual, "<=", .condition),
    (.and, "&&", .condition),
    (.or, "||", .condition),
    (.ampersand, "&", .bitwise),
    (.pipe, "|", .bitwise),
    (.caret, "^", .bitwise),
    (.tilde, "~", .bitwise),
    (.shiftLeft, "<<", .bitwise),
    (.shiftRight, ">>", .bitwise),
    (.unsignedShiftRight, ">>>", .bitwise)]

/-- The markers that open comments. -/
def standardComments : List (TokenKind × String × CommentKind) :=
  [(.hashComment, "#", .line), (.lineComment, "//", .line), (.blockComment, "/*", .block)]

/-- The spelling of the reserved words; functions may be declared in two. -/
def standardKeywords : List (String × Keyword) :=
  [("var", .varWord), ("final", .finalWord), ("fun", .funWord), ("function", .funWord),
    ("prefix", .prefixWord), ("infix", .infixWord), ("native", .nativeWord),
    ("class", .classWord), ("extends", .extendsWord), ("constructor", .constructorWord),
    ("this", .thisWord), ("super", .superWord), ("if", .ifWord), ("else", .elseWord),
    ("while", .whileWord), ("do", .doWord), ("repeat", .repeatWord), ("print", .printWord),
    ("return", .returnWord), ("break", .breakWord), ("continue", .continueWord),
    ("test", .testWord), ("module", .moduleWord), ("public", .publicWord),
    ("private", .privateWord), ("true", .trueWord), ("false", .falseWord), ("nil", .nilWord)]

/-- The words that write out a value count as literals. -/
def keywordCategory : Keyword → TokenCategory
  | .trueWord | .falseWord | .nilWord => .literal
  | _ => .keyword

/-- The registry of the language itself. -/
def standard : Registry :=
  let operators := standardOperators.foldl
    (fun registry (kind, sequence, category) => registry.bind kind sequence category) empty
  let comments := standardComments.foldl
    (fun registry (kind, sequence, comment) =>
      { registry.bind kind sequence .comment with
        comments := (kind, comment) :: registry.comments }) operators
  standardKeywords.foldl
    (fun registry (word, keyword) =>
      { registry with
        keywords := (word, .word keyword) :: registry.keywords
        categories := (.word keyword, keywordCategory keyword) :: registry.categories }) comments

end Scriptlet.Registry
