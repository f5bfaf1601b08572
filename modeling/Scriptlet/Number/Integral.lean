import Scriptlet.Number.Binary

/-!
# Whole numbers out of doubles

Bit operations, loop counts and indices read a double as a whole number. A value
out of range goes to the nearest end of the range, and what is not a number
counts as zero.
-/

namespace Scriptlet.Number

/-- The whole part of a value, moved into `low..high`. -/
def truncateInto (low high : Int) (value : Float) : Int :=
  match Binary.classify value with
  | .nan => 0
  | .infinite negative => if negative then low else high
  | .finite number => max low (min high number.truncated)

/-- The whole part as a signed number of thirty-two bits. -/
def toInt32 (value : Float) : Int :=
  truncateInto (-Nat.pow 2 31) (Nat.pow 2 31 - 1) value

/-- The whole part as a signed number of sixty-four bits. -/
def toInt64 (value : Float) : Int :=
  truncateInto (-Nat.pow 2 63) (Nat.pow 2 63 - 1) value

/-- How often a loop of the given count runs: negative counts and counts that are
not numbers run never. -/
def repeatCount (count : Float) : Nat :=
  (truncateInto 0 (Nat.pow 2 64 - 1) count).toNat

/-- The greatest index that a double still tells apart from its successor. -/
def greatestIndex : Nat := Nat.pow 2 53 - 1

/-- The index a value denotes in a sequence of the given length: a whole number
that is neither negative nor past the end. -/
def index? (value : Float) (length : Nat) : Option Nat :=
  match Binary.classify value with
  | .finite number =>
    let index := number.wholePart
    if number.isWhole && (!number.negative || index = 0) && index ≤ greatestIndex
        && index < length then some index else none
  | _ => none

/-- A length as a double. -/
def ofLength (length : Nat) : Float :=
  Float.ofNat length

/-- The remainder of a division that rounds toward zero, with the sign of the
dividend. -/
def remainder (dividend divisor : Float) : Float :=
  match Binary.classify dividend, Binary.classify divisor with
  | .finite left, .finite right =>
    if right.mantissa = 0 then 0.0 / 0.0 else (left.remainder right).toFloat
  | .finite _, .infinite _ => dividend
  | _, _ => 0.0 / 0.0

end Scriptlet.Number
