import Scriptlet.Number.Integral
import Scriptlet.Run.Fault
import Scriptlet.Value.Text

/-!
# Operations on values

What the operators do with values of each type. Arithmetic is that of doubles,
bits are those of a signed number of thirty-two bits, and a string on either side
makes `+` join texts.
-/

namespace Scriptlet

/-- How two values of one ordered type compare; two numbers need not compare at
all. -/
inductive Comparison where
  | less | equal | greater | unordered
  deriving DecidableEq, Repr

namespace Comparison

/-- Compares two numbers. -/
def ofNumbers (a b : Float) : Comparison :=
  if a < b then less else if a == b then equal else if b < a then greater else unordered

/-- Compares two texts, character by character. -/
def ofStrings (a b : String) : Comparison :=
  if a < b then less else if a == b then equal else greater

/-- Compares two characters by code point. -/
def ofChars (a b : Char) : Comparison :=
  if a < b then less else if a == b then equal else greater

/-- Whether a comparison operator holds. Nothing holds of values that do not
compare. -/
def satisfies : Comparison → BinaryOp → Bool
  | less, .less | less, .lessEqual => true
  | equal, .lessEqual | equal, .greaterEqual => true
  | greater, .greater | greater, .greaterEqual => true
  | _, _ => false

end Comparison

namespace Value

/-- The fault of a binary operator between values of these types. -/
def binaryMismatch (op : BinaryOp) (left right : Value) : RuntimeFault :=
  .typeMismatch (.binary op left.type right.type)

/-- The comparison of two values of one ordered type. -/
def compare? : Value → Value → Option Comparison
  | number a, number b => some (.ofNumbers a b)
  | string a, string b => some (.ofStrings a b)
  | char a, char b => some (.ofChars a b)
  | _, _ => none

/-- The sum of two numbers, or the joined texts if one side is a string. -/
def add (store : Store) : Value → Value → Except RuntimeFault Value
  | number a, number b => .ok (number (a + b))
  | string a, right => .ok (string (a ++ store.text right))
  | left, string b => .ok (string (store.text left ++ b))
  | left, right => .error (binaryMismatch .add left right)

/-- The arithmetic of two numbers. -/
def arithmetic (op : BinaryOp) (compute : Float → Float → Float) :
    Value → Value → Except RuntimeFault Value
  | number a, number b => .ok (number (compute a b))
  | left, right => .error (binaryMismatch op left right)

/-- Whether a comparison operator holds between two values. -/
def ordering (op : BinaryOp) (left right : Value) : Except RuntimeFault Value :=
  match left.compare? right with
  | some comparison => .ok (bool (comparison.satisfies op))
  | none => .error (binaryMismatch op left right)

/-- The value of a binary operator. -/
def binary (store : Store) (op : BinaryOp) (left right : Value) : Except RuntimeFault Value :=
  match op with
  | .equal => .ok (bool (left.same right))
  | .notEqual => .ok (bool (!left.same right))
  | .add => add store left right
  | .sub => arithmetic .sub (· - ·) left right
  | .mul => arithmetic .mul (· * ·) left right
  | .div => arithmetic .div (· / ·) left right
  | .mod => arithmetic .mod Number.remainder left right
  | op => ordering op left right

/-- The thirty-two bits of the whole part of a number. -/
def bits (value : Float) : BitVec 32 :=
  BitVec.ofInt 32 (Number.toInt32 value)

/-- The number whose thirty-two bits these are. -/
def ofBits (bits : BitVec 32) : Value :=
  number (Float.ofInt bits.toInt)

/-- The bits of an operator's result. Only the lowest five bits of a shift amount
count. -/
def bitwiseBits (op : BitwiseOp) (left right : BitVec 32) : BitVec 32 :=
  match op with
  | .and => left &&& right
  | .or => left ||| right
  | .xor => left ^^^ right
  | .shiftLeft => left <<< (right.toNat % 32)
  | .shiftRight => left.sshiftRight (right.toNat % 32)
  | .unsignedShiftRight => left >>> (right.toNat % 32)

/-- The value of a bitwise operator. -/
def bitwise (op : BitwiseOp) (left right : Value) : Except RuntimeFault Value :=
  match left, right with
  | bool a, bool b =>
    match op with
    | .and => .ok (bool (a && b))
    | .or => .ok (bool (a || b))
    | .xor => .ok (bool (a != b))
    | op => .error (.typeMismatch (.shiftedBooleans op))
  | number a, number b => .ok (ofBits (bitwiseBits op (bits a) (bits b)))
  | left, right => .error (.typeMismatch (.bitwise op left.type right.type))

/-- The value of a unary operator. -/
def unary (op : UnaryOp) (operand : Value) : Except RuntimeFault Value :=
  match op, operand with
  | .not, value => .ok (bool (!value.isTruthy))
  | .negate, number value => .ok (number (-value))
  | .complement, number value => .ok (ofBits (~~~bits value))
  | op, value => .error (.typeMismatch (.unary op value.type))

/-- The number an index is. -/
def indexNumber (index : Value) : Except RuntimeFault Float :=
  match index with
  | number value => .ok value
  | other => .error (.typeMismatch (.index other.type))

/-- The place of a number in a sequence of the given length. -/
def checkedIndex (position : Float) (length : Nat) : Except RuntimeFault Nat :=
  match Number.index? position length with
  | some index => .ok index
  | none => .error (.indexOutOfBounds (Number.toInt64 position) length)

/-- The element of an array or the character of a string at an index. -/
def elementAt (store : Store) (target index : Value) : Except RuntimeFault Value := do
  let position ← indexNumber index
  match target with
  | array ref =>
    let elements := store.elements ref
    let place ← checkedIndex position elements.size
    return (elements[place]?).getD nil
  | string value =>
    let place ← checkedIndex position value.length
    return ((value.toList[place]?).map char).getD nil
  | other => .error (.typeMismatch (.indexed other.type))

/-- The array and the place in it that an assignment by index stores to. -/
def elementPlace (store : Store) (target index : Value) :
    Except RuntimeFault (ArrayRef × Nat) := do
  let position ← indexNumber index
  match target with
  | array ref =>
    let place ← checkedIndex position (store.elements ref).size
    return (ref, place)
  | other => .error (.typeMismatch (.storedByIndex other.type))

end Value

end Scriptlet
