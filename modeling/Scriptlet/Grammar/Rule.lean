import Scriptlet.Tree.Statement

/-!
# Grammars

A grammar lists the statement rules in the order they are tried, and the primary
expressions a host adds behind the built-in ones. The built-in statements are
rules like any other, so a host may start from none of them.
-/

namespace Scriptlet

/-- The statements of the language. -/
inductive BuiltinRule where
  | varDecl | function | nativeFunction | classDecl | ifElse | whileLoop | doWhile
  | repeatLoop | block | returning | breaking | continuing | print | test | moduleDecl
  deriving DecidableEq, Repr

/-- The word a statement of the language goes by. -/
def BuiltinRule.name : BuiltinRule → String
  | varDecl => "var"
  | function => "function"
  | nativeFunction => "native"
  | classDecl => "class"
  | ifElse => "if"
  | whileLoop => "while"
  | doWhile => "do"
  | repeatLoop => "repeat"
  | block => "block"
  | returning => "return"
  | breaking => "break"
  | continuing => "continue"
  | print => "print"
  | test => "test"
  | moduleDecl => "module"

/-- Every statement of the language, in the order their rules are tried. -/
def BuiltinRule.all : List BuiltinRule :=
  [varDecl, function, nativeFunction, classDecl, ifElse, whileLoop, doWhile, repeatLoop, block,
    returning, breaking, continuing, print, test, moduleDecl]

/-- A rule for statements. -/
inductive StatementRule where
  /-- A statement of the language. -/
  | builtin (rule : BuiltinRule)
  /-- Passes some tokens and then declines. -/
  | decline (steps : Nat)
  /-- A print statement that begins with the given token. -/
  | print (token : TokenKind)
  /-- A value, the given token and a name: declares the name with that value. -/
  | send (token : TokenKind)
  /-- A block that begins with the given token. -/
  | block (token : TokenKind)
  /-- Refuses the given token. -/
  | refuse (token : TokenKind)
  deriving DecidableEq, Repr

/-- A rule for primary expressions. -/
inductive PrimaryRule where
  /-- Passes some tokens and then declines. -/
  | decline (steps : Nat)
  /-- Refuses the given token. -/
  | refuse (token : TokenKind)
  /-- The given token stands for a value. -/
  | literal (token : TokenKind) (value : Literal)
  /-- The given token before an expression groups it. -/
  | group (token : TokenKind)
  /-- The given token stands for a name. -/
  | reference (token : TokenKind) (name : String)
  deriving Repr

/-- The rules a script is parsed by. -/
structure Grammar where
  statements : List StatementRule
  primaries : List PrimaryRule

namespace Grammar

/-- The grammar without rules: every statement is an expression statement. -/
def empty : Grammar := ⟨[], []⟩

/-- The grammar of the language itself. -/
def standard : Grammar where
  statements := BuiltinRule.all.map .builtin
  primaries := []

end Grammar

end Scriptlet
