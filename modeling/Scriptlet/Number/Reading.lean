/-!
# Reading decimal numbers

The text of a number is a whole part, a fraction and an exponent. The value is
the double nearest to the decimal; one too large for any double is infinite.
-/

namespace Scriptlet.Number

/-- A decimal numeral taken apart: its digits without the point, how many of
them follow the point, and the written exponent. -/
structure Numeral where
  digits : List Char
  places : Nat
  exponent : Int
  deriving DecidableEq, Repr

/-- The value of a run of decimal digits. -/
def natOfDigits (digits : List Char) : Nat :=
  digits.foldl (fun value c => 10 * value + (c.toNat - '0'.toNat)) 0

/-- Splits a text into the digits it starts with and the rest. -/
def spanDigits (cs : List Char) : List Char × List Char :=
  cs.span Char.isDigit

/-- Reads `e`, an optional sign and at least one digit. -/
def exponent? : List Char → Option (Int × List Char)
  | mark :: rest =>
    if mark = 'e' ∨ mark = 'E' then
      let (negative, unsigned) :=
        match rest with
        | '-' :: unsigned => (true, unsigned)
        | '+' :: unsigned => (false, unsigned)
        | unsigned => (false, unsigned)
      let (digits, rest) := spanDigits unsigned
      if digits.isEmpty then none
      else
        let magnitude : Int := natOfDigits digits
        some (if negative then -magnitude else magnitude, rest)
    else none
  | [] => none

/-- Doubles end below `10^309` and above `10^-324`; past these bounds the value of
a numeral no longer depends on how far past it is. -/
def scaleBound : Nat := 400

/-- The double nearest to a numeral. -/
def Numeral.value (numeral : Numeral) : Float :=
  let digits := natOfDigits numeral.digits
  let scale := numeral.exponent - numeral.places
  let magnitude := scale + numeral.digits.length
  if digits = 0 then 0.0
  else if (scaleBound : Int) + numeral.digits.length < magnitude then 1.0 / 0.0
  else if magnitude < -(scaleBound : Int) then 0.0
  else if scale < 0 then Float.ofScientific digits true (-scale).toNat
  else Float.ofScientific digits false scale.toNat

/-- Reads a whole text as a number: an optional sign, then a numeral that has a
digit on at least one side of an optional point, or the word for infinity or for
no number at all. -/
def read? (text : String) : Option Float :=
  let (negative, body) :=
    match text.toList with
    | '-' :: body => (true, body)
    | '+' :: body => (false, body)
    | body => (false, body)
  let magnitude :=
    match (String.ofList body).toLower with
    | "inf" | "infinity" => some (1.0 / 0.0)
    | "nan" => some (0.0 / 0.0)
    | _ =>
      let (whole, rest) := spanDigits body
      let (fraction, rest) :=
        match rest with
        | '.' :: rest => spanDigits rest
        | rest => ([], rest)
      if whole.isEmpty && fraction.isEmpty then none
      else
        match rest with
        | [] => some (Numeral.value ⟨whole ++ fraction, fraction.length, 0⟩)
        | rest =>
          match exponent? rest with
          | some (exponent, []) =>
            some (Numeral.value ⟨whole ++ fraction, fraction.length, exponent⟩)
          | _ => none
  magnitude.map fun value => if negative then -value else value

end Scriptlet.Number
