/-!
# Operators of the expression language
-/

namespace Scriptlet

/-- Arithmetic and comparison. -/
inductive BinaryOp where
  | add | sub | mul | div | mod
  | equal | notEqual | less | lessEqual | greater | greaterEqual
  deriving DecidableEq, Repr

/-- Connectives that decide from their left operand whether to look at the right
one. -/
inductive LogicalOp where
  | and | or
  deriving DecidableEq, Repr

/-- Operations on the bits of whole numbers, the first three on booleans too. -/
inductive BitwiseOp where
  | and | or | xor | shiftLeft | shiftRight | unsignedShiftRight
  deriving DecidableEq, Repr

/-- Operators written before their one operand. -/
inductive UnaryOp where
  | not | negate | complement
  deriving DecidableEq, Repr

/-- How the operator is written. -/
def BinaryOp.text : BinaryOp → String
  | add => "+"
  | sub => "-"
  | mul => "*"
  | div => "/"
  | mod => "%"
  | equal => "=="
  | notEqual => "!="
  | less => "<"
  | lessEqual => "<="
  | greater => ">"
  | greaterEqual => ">="

/-- How the connective is written. -/
def LogicalOp.text : LogicalOp → String
  | and => "&&"
  | or => "||"

/-- How the operator is written. -/
def BitwiseOp.text : BitwiseOp → String
  | and => "&"
  | or => "|"
  | xor => "^"
  | shiftLeft => "<<"
  | shiftRight => ">>"
  | unsignedShiftRight => ">>>"

/-- How the operator is written. -/
def UnaryOp.text : UnaryOp → String
  | not => "!"
  | negate => "-"
  | complement => "~"

/-- Every binary operator. -/
def BinaryOp.all : List BinaryOp :=
  [add, sub, mul, div, mod, equal, notEqual, less, lessEqual, greater, greaterEqual]

/-- Every bitwise operator. -/
def BitwiseOp.all : List BitwiseOp :=
  [and, or, xor, shiftLeft, shiftRight, unsignedShiftRight]

/-- Every unary operator. -/
def UnaryOp.all : List UnaryOp :=
  [not, negate, complement]

end Scriptlet
