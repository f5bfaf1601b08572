import Scriptlet.Number.Binary

/-!
# Decimal texts of doubles

A number is written with the fewest decimal digits that read back as the same
double, and of those the nearest to it. `Decimal.ofBinary` finds the digits by
exact arithmetic on the interval of reals that round to the double; the written
forms place the decimal point.
-/

namespace Scriptlet

/-- The number `digits · 10^exponent`. -/
structure Decimal where
  digits : Nat
  exponent : Int
  deriving DecidableEq, Repr

namespace Decimal

/-- A positive rational, kept as numerator and denominator. -/
structure Ratio where
  num : Nat
  den : Nat

/-- The ratio `num/den · 10^power`. -/
def Ratio.scale (ratio : Ratio) (power : Int) : Ratio :=
  if 0 ≤ power then ⟨ratio.num * Nat.pow 10 power.toNat, ratio.den⟩
  else ⟨ratio.num, ratio.den * Nat.pow 10 (-power).toNat⟩

/-- How many decimal digits a natural number has. -/
def digitCount (n : Nat) : Nat :=
  (Nat.toDigits 10 n).length

/-- The least power of ten above a positive ratio, as its exponent. -/
def Ratio.decade (ratio : Ratio) : Int :=
  if ratio.den ≤ ratio.num then digitCount (ratio.num / ratio.den)
  else
    let count := digitCount (ratio.den / ratio.num)
    if ratio.num * Nat.pow 10 (count - 1) < ratio.den then 1 - (count : Int) else 2 - (count : Int)

/-- The reals that round to one double, in quarters of its last place: `low` and
`high` around `value`, the ends included when the mantissa is even. -/
structure Rounding where
  low : Nat
  value : Nat
  high : Nat
  closed : Bool
  unit : Ratio

/-- The interval of reals that round to `mantissa · 2^exponent`. Below a power of
two the spacing of doubles halves, so the lower end is nearer there. -/
def Rounding.around (mantissa : Nat) (exponent : Int) : Rounding where
  low := if mantissa = Nat.pow 2 52 ∧ -1074 < exponent then 4 * mantissa - 1 else 4 * mantissa - 2
  value := 4 * mantissa
  high := 4 * mantissa + 2
  closed := mantissa % 2 = 0
  unit :=
    if 0 ≤ exponent then ⟨Nat.pow 2 exponent.toNat, 4⟩ else ⟨1, 4 * Nat.pow 2 (-exponent).toNat⟩

/-- Whether `point · 10^power` rounds to the double. -/
def Rounding.holds (rounding : Rounding) (point : Nat) (power : Int) : Bool :=
  let unit := rounding.unit.scale (-power)
  let position := point * unit.den
  if rounding.closed then rounding.low * unit.num ≤ position ∧ position ≤ rounding.high * unit.num
  else rounding.low * unit.num < position ∧ position < rounding.high * unit.num

/-- The neighbour of the double on the grid of multiples of `10^power` that
rounds to it: the nearer of the two, the upper one halfway between them. -/
def Rounding.onGrid? (rounding : Rounding) (power : Int) : Option Nat :=
  let unit := rounding.unit.scale (-power)
  let exact := rounding.value * unit.num
  let below := exact / unit.den
  let nearBelow := 2 * (exact % unit.den) < unit.den
  match rounding.holds below power && below != 0, rounding.holds (below + 1) power with
  | true, true => some (if nearBelow then below else below + 1)
  | true, false => some below
  | false, true => some (below + 1)
  | false, false => none

/-- Drops trailing zeros, moving them into the exponent. -/
def trim : Nat → Decimal → Decimal
  | 0, decimal => decimal
  | bound + 1, decimal =>
    if decimal.digits % 10 = 0 ∧ decimal.digits ≠ 0 then
      trim bound ⟨decimal.digits / 10, decimal.exponent + 1⟩
    else decimal

/-- Tries grids of `count`, `count + 1`, … digits until one has a point that
rounds to the double. -/
def Rounding.search (rounding : Rounding) (decade : Int) : Nat → Nat → Decimal
  | 0, count => ⟨0, decade - count⟩
  | bound + 1, count =>
    let power := decade - count
    match rounding.onGrid? power with
    | some point => trim (count + 1) ⟨point, power⟩
    | none => rounding.search decade bound (count + 1)

/-- The fewest digits that round to `mantissa · 2^exponent`. Seventeen always
suffice. -/
def ofBinary (mantissa : Nat) (exponent : Int) : Decimal :=
  if mantissa = 0 then ⟨0, 0⟩
  else
    let rounding := Rounding.around mantissa exponent
    let exact : Ratio := ⟨rounding.value * rounding.unit.num, rounding.unit.den⟩
    rounding.search exact.decade 17 1

/-- Positional text: zeros fill the places up to the decimal point. -/
def positional (decimal : Decimal) : String :=
  let digits := Nat.toDigits 10 decimal.digits
  if 0 ≤ decimal.exponent then
    String.ofList (digits ++ List.replicate decimal.exponent.toNat '0')
  else
    let places := (-decimal.exponent).toNat
    let padded := List.replicate (places + 1 - digits.length) '0' ++ digits
    let whole := padded.take (padded.length - places)
    String.ofList (whole ++ '.' :: padded.drop (padded.length - places))

/-- Text with one digit before the point and an exponent mark. -/
def scientific (decimal : Decimal) : String :=
  match Nat.toDigits 10 decimal.digits with
  | [] => ""
  | lead :: rest =>
    let fraction := if rest.isEmpty then [] else '.' :: rest
    String.ofList (lead :: fraction) ++ "e" ++ toString (decimal.exponent + rest.length)

end Decimal

namespace Number

/-- Puts a minus sign before a text. -/
def signed (negative : Bool) (text : String) : String :=
  if negative then "-" ++ text else text

/-- The text scripts print for a number: positional, whatever its size. -/
def text (value : Float) : String :=
  match Binary.classify value with
  | .nan => "NaN"
  | .infinite negative => signed negative "inf"
  | .finite number =>
    signed number.negative (Decimal.ofBinary number.mantissa number.exponent).positional

/-- The text of an inspected number: a whole number keeps one zero after the
point, and magnitudes below `10^-4` or from `10^16` on take an exponent. -/
def inspected (value : Float) : String :=
  match Binary.classify value with
  | .nan => "NaN"
  | .infinite negative => signed negative "inf"
  | .finite number =>
    let decimal := Decimal.ofBinary number.mantissa number.exponent
    let point := decimal.exponent + Decimal.digitCount decimal.digits
    signed number.negative <|
      if number.mantissa ≠ 0 ∧ (point < -3 ∨ 16 < point) then decimal.scientific
      else if 0 ≤ decimal.exponent then decimal.positional ++ ".0"
      else decimal.positional

end Number

end Scriptlet
