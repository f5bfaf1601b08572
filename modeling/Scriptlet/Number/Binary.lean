/-!
# Binary numbers taken apart

A finite double is a sign, a natural mantissa and a power of two. Everything the
scripts show of a number (its digits, its whole part, its remainder) is computed
exactly on these three.
-/

namespace Scriptlet

/-- The number `(-1)^negative · mantissa · 2^exponent`. -/
structure Binary where
  negative : Bool
  mantissa : Nat
  exponent : Int
  deriving DecidableEq, Repr

/-- What a double can be. -/
inductive DoubleClass where
  | nan
  | infinite (negative : Bool)
  | finite (value : Binary)
  deriving DecidableEq, Repr

namespace Binary

/-- Takes the sixty-four bits of a double apart: one sign bit, eleven exponent
bits biased by 1023, fifty-two fraction bits below a hidden one. -/
def ofBits (bits : UInt64) : DoubleClass :=
  let word := bits.toNat
  let negative := decide (Nat.pow 2 63 ≤ word)
  let biased : Nat := word / Nat.pow 2 52 % Nat.pow 2 11
  let fraction : Nat := word % Nat.pow 2 52
  if biased = 2047 then
    if fraction = 0 then .infinite negative else .nan
  else if biased = 0 then
    .finite ⟨negative, fraction, -1074⟩
  else
    .finite ⟨negative, Nat.pow 2 52 + fraction, (biased : Int) - 1075⟩

/-- Takes a double apart. -/
def classify (value : Float) : DoubleClass :=
  ofBits value.toBits

/-- The bits of a number that a double represents exactly: the mantissa is moved
until it has fifty-three binary digits, or as many as the least exponent allows. -/
def toBits (value : Binary) : UInt64 :=
  let sign := if value.negative then Nat.pow 2 63 else 0
  if value.mantissa = 0 then (sign : Nat).toUInt64
  else
    let exponent := max (value.exponent + (value.mantissa.log2 : Int) - 52) (-1074)
    let shift := exponent - value.exponent
    let mantissa :=
      if 0 ≤ shift then value.mantissa / Nat.pow 2 shift.toNat
      else value.mantissa * Nat.pow 2 (-shift).toNat
    let biased := if mantissa < Nat.pow 2 52 then 0 else (exponent + 1075).toNat
    (sign + biased * Nat.pow 2 52 + mantissa % Nat.pow 2 52).toUInt64

/-- The double of a number that a double represents exactly. -/
def toFloat (value : Binary) : Float :=
  Float.ofBits value.toBits

/-- The whole part of the magnitude. -/
def wholePart (value : Binary) : Nat :=
  if 0 ≤ value.exponent then value.mantissa * Nat.pow 2 value.exponent.toNat
  else value.mantissa / Nat.pow 2 (-value.exponent).toNat

/-- Whether the number has no fraction. -/
def isWhole (value : Binary) : Bool :=
  0 ≤ value.exponent || value.mantissa % Nat.pow 2 (-value.exponent).toNat = 0

/-- The number with its fraction dropped. -/
def truncated (value : Binary) : Int :=
  if value.negative then -(value.wholePart : Int) else value.wholePart

/-- The remainder of a division that rounds toward zero. Both numbers are
written over the smaller power of two, so the result is exact; it carries the
sign of the dividend. -/
def remainder (dividend divisor : Binary) : Binary :=
  let exponent := min dividend.exponent divisor.exponent
  let scaled := fun (value : Binary) => value.mantissa * Nat.pow 2 (value.exponent - exponent).toNat
  ⟨dividend.negative, scaled dividend % scaled divisor, exponent⟩

end Binary

end Scriptlet
