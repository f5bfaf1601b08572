import Mathlib.Data.List.TakeDrop
import Mathlib.Data.List.TakeWhile
import Mathlib.Tactic.Common
import Scriptlet.Token.Atom

/-!
# Numerals in other surroundings

A numeral is read as far as it goes. Its text reads as the same numeral wherever something follows
that no numeral goes on with (`Atom.EndsNumeral`), whatever has followed it where it was found
(`Atom.numeral?_again`).
-/

namespace Scriptlet

/-- A text that does not begin with a digit. -/
def Undigited (text : List Char) : Prop :=
  ∀ c ∈ text.head?, c.isDigit = false

namespace Number

private theorem spanDigits_eq (cs : List Char) :
    spanDigits cs = (cs.takeWhile Char.isDigit, cs.dropWhile Char.isDigit) :=
  List.span_eq_takeWhile_dropWhile ..

/-- Some digits end where something else begins. -/
theorem spanDigits_append {digits after : List Char} (all : ∀ c ∈ digits, c.isDigit)
    (stops : Undigited after) : spanDigits (digits ++ after) = (digits, after) := by
  rw [spanDigits_eq, List.takeWhile_append_of_pos all, List.dropWhile_append_of_pos all]
  cases after with
  | nil => simp
  | cons c after => simp [stops c rfl]

/-- The digits a text begins with, and what follows them. -/
theorem exists_digits (cs : List Char) : ∃ digits rest, cs = digits ++ rest ∧
    (∀ c ∈ digits, c.isDigit) ∧ Undigited rest ∧ spanDigits cs = (digits, rest) := by
  refine ⟨_, _, List.takeWhile_append_dropWhile.symm, ?_, ?_, spanDigits_eq cs⟩
  · exact fun c member => List.mem_takeWhile_imp member
  · intro c first
    have stops := List.head?_dropWhile_not Char.isDigit cs
    rw [Option.mem_def.mp first] at stops
    exact stops

/-- The sign of an exponent and what follows it. -/
def exponentSign : List Char → Bool × List Char
  | '-' :: unsigned => (true, unsigned)
  | '+' :: unsigned => (false, unsigned)
  | unsigned => (false, unsigned)

private theorem exponent?_cons {mark : Char} (known : mark = 'e' ∨ mark = 'E') (rest : List Char) :
    exponent? (mark :: rest) =
      let sign := exponentSign rest
      let digits := spanDigits sign.2
      let magnitude : Int := natOfDigits digits.1
      if digits.1.isEmpty then none
      else some (if sign.1 then -magnitude else magnitude, digits.2) :=
  if_pos known

/-- A sign is taken off before digits. -/
theorem exponentSign_append (rest : List Char) : ∃ sign, rest = sign ++ (exponentSign rest).2 ∧
    ∀ digits after, digits ≠ [] → (∀ c ∈ digits, c.isDigit) →
      exponentSign (sign ++ (digits ++ after)) = ((exponentSign rest).1, digits ++ after) := by
  fun_cases exponentSign rest with
  | case1 unsigned => exact ⟨['-'], rfl, fun _ _ _ _ => rfl⟩
  | case2 unsigned => exact ⟨['+'], rfl, fun _ _ _ _ => rfl⟩
  | case3 minus plus =>
    refine ⟨[], rfl, ?_⟩
    rintro (_ | ⟨c, digits⟩) after more all
    · exact absurd rfl more
    · have first := all c List.mem_cons_self
      have other (sign : Char) (wrong : sign.isDigit = false) : c ≠ sign := by
        rintro rfl
        rw [wrong] at first
        cases first
      exact exponentSign.eq_3 _ (fun _ same => other '-' rfl (List.cons.inj same).1)
        fun _ same => other '+' rfl (List.cons.inj same).1

/-- An exponent reads as the same one wherever no digit follows it. -/
theorem exponent?_again {input rest : List Char} {value : Int}
    (read : exponent? input = some (value, rest)) : ∃ mark more, input = mark :: more ++ rest ∧
      (mark = 'e' ∨ mark = 'E') ∧
      ∀ after, Undigited after → exponent? (mark :: more ++ after) = some (value, after) := by
  cases input with
  | nil => cases read
  | cons mark tail =>
    by_cases known : mark = 'e' ∨ mark = 'E'
    · rw [exponent?_cons known] at read
      obtain ⟨sign, signed, unsigned⟩ := exponentSign_append tail
      obtain ⟨digits, remaining, split, all, _, spanned⟩ := exists_digits (exponentSign tail).2
      dsimp only at read
      rw [spanned] at read
      by_cases none : digits.isEmpty
      · rw [if_pos none] at read
        cases read
      · rw [if_neg none] at read
        cases read
        refine ⟨mark, sign ++ digits, by rw [signed, split]; simp, known, ?_⟩
        intro after stops
        rw [List.cons_append, List.append_assoc, exponent?_cons known,
          unsigned digits after (by simpa using none) all]
        dsimp only
        rw [spanDigits_append all stops, if_neg none]
    · have none : exponent? (mark :: tail) = none := if_neg known
      rw [none] at read
      cases read

private theorem exponent?_eq_none {after : List Char}
    (stops : ∀ c ∈ after.head?, c ≠ 'e' ∧ c ≠ 'E') :
    exponent? after = none := by
  cases after with
  | nil => rfl
  | cons c after =>
    obtain ⟨small, large⟩ := stops c rfl
    exact if_neg (not_or.mpr ⟨small, large⟩)

end Number

namespace Atom

open Number

/-- The digits behind a point, if there are any, and what follows them. -/
def fraction (rest : List Char) : List Char × List Char :=
  match rest with
  | '.' :: tail => if (spanDigits tail).1.isEmpty then ([], rest) else spanDigits tail
  | _ => ([], rest)

/-- The exponent that follows a fraction, if there is one, and what follows it. -/
def exponent (rest : List Char) : Int × List Char :=
  (exponent? rest).getD (0, rest)

/-- What is left behind a fraction tells how much it takes. -/
theorem fraction_eq (count : Nat) (rest : List Char) :
    (match rest with
      | '.' :: tail =>
        if (spanDigits tail).1.isEmpty then ([], rest, count)
        else ((spanDigits tail).1, (spanDigits tail).2, count + 1 + (spanDigits tail).1.length)
      | _ => ([], rest, count)) =
      ((fraction rest).1, (fraction rest).2, count + (rest.length - (fraction rest).2.length)) := by
  unfold fraction
  split
  · rename_i tail
    obtain ⟨digits, after, rfl, _, _, spanned⟩ := exists_digits tail
    rw [spanned]
    dsimp only
    split
    · simp
    · simp
      omega
  · simp

private theorem fraction_length_le (rest : List Char) : (fraction rest).2.length ≤ rest.length := by
  unfold fraction
  split
  · rename_i tail
    obtain ⟨digits, after, rfl, _, _, spanned⟩ := exists_digits tail
    rw [spanned]
    split
    · exact Nat.le_refl _
    · simp
      omega
  · exact Nat.le_refl _

private theorem exponent_length_le (rest : List Char) : (exponent rest).2.length ≤ rest.length := by
  unfold exponent
  cases read : exponent? rest with
  | none => exact Nat.le_refl _
  | some entry =>
    obtain ⟨mark, more, split, _⟩ := exponent?_again read
    rw [split, List.length_append]
    exact Nat.le_add_left _ _

/-- What is left behind an exponent tells how much it takes. -/
theorem exponent_eq (digits : List Char) (places count : Nat) (rest : List Char) :
    (match exponent? rest with
      | some (exponent, after) =>
        some ((⟨digits, places, exponent⟩ : Numeral), count + (rest.length - after.length))
      | none => some (⟨digits, places, 0⟩, count)) =
      some (⟨digits, places, (exponent rest).1⟩,
        count + (rest.length - (exponent rest).2.length)) := by
  unfold exponent
  cases exponent? rest with
  | none => simp
  | some entry => rfl

/-- A numeral takes all that its three parts do. -/
theorem numeral?_eq (input : List Char) : numeral? input =
    let whole := spanDigits input
    let decimals := fraction whole.2
    let power := exponent decimals.2
    if whole.1.isEmpty then none
    else
      some (⟨whole.1 ++ decimals.1, decimals.1.length, power.1⟩,
        input.length - power.2.length) := by
  obtain ⟨whole, rest, rfl, _, _, spanned⟩ := exists_digits input
  have decimals := fraction_length_le rest
  have power := exponent_length_le (fraction rest).2
  have taken : whole.length + (rest.length - (fraction rest).2.length) +
      ((fraction rest).2.length - (exponent (fraction rest).2).2.length) =
      (whole ++ rest).length - (exponent (fraction rest).2).2.length := by
    rw [List.length_append]
    omega
  unfold numeral?
  rw [spanned]
  dsimp only
  split
  · rfl
  · refine (congrArg (fun entry : List Char × List Char × Nat =>
      match exponent? entry.2.1 with
      | some (value, after) =>
        some ((⟨whole ++ entry.1, entry.1.length, value⟩ : Numeral),
          entry.2.2 + (entry.2.1.length - after.length))
      | none => some (⟨whole ++ entry.1, entry.1.length, 0⟩, entry.2.2))
      (fraction_eq whole.length rest)).trans ?_
    rw [← taken]
    exact exponent_eq ..

/-- A fraction is a point with digits, or nothing. -/
theorem fraction_again (rest : List Char) : ∃ text, rest = text ++ (fraction rest).2 ∧
    (∀ c ∈ text.head?, c = '.') ∧
    ∀ after, Undigited after → (text = [] → ∀ c ∈ after.head?, c ≠ '.') →
      fraction (text ++ after) = ((fraction rest).1, after) := by
  have nothing (first : (fraction rest) = ([], rest)) : ∃ text, rest = text ++ (fraction rest).2 ∧
      (∀ c ∈ text.head?, c = '.') ∧
      ∀ after, Undigited after → (text = [] → ∀ c ∈ after.head?, c ≠ '.') →
        fraction (text ++ after) = ((fraction rest).1, after) := by
    refine ⟨[], by rw [first]; rfl, nofun, fun after _ pointless => ?_⟩
    rw [first, List.nil_append]
    exact fraction.eq_2 after fun tail same => pointless rfl '.' (by rw [same]; rfl) rfl
  by_cases pointed : ∃ tail, rest = '.' :: tail
  · obtain ⟨tail, rfl⟩ := pointed
    obtain ⟨digits, left, rfl, all, _, spanned⟩ := exists_digits tail
    by_cases none : digits.isEmpty
    · exact nothing (by rw [fraction, spanned, if_pos none])
    · have read (after : List Char) (stops : Undigited after) :
          fraction ('.' :: (digits ++ after)) = (digits, after) := by
        rw [fraction, spanDigits_append all stops, if_neg none]
      have first : fraction ('.' :: (digits ++ left)) = (digits, left) := by
        rw [fraction, spanned, if_neg none]
      rw [first]
      exact ⟨'.' :: digits, rfl, by simp, fun after stops _ => read after stops⟩
  · exact nothing (fraction.eq_2 rest fun tail same => pointed ⟨tail, same⟩)

/-- An exponent is a mark with what follows it, or nothing. -/
theorem exponent_again (rest : List Char) : ∃ text, rest = text ++ (exponent rest).2 ∧
    (∀ c ∈ text.head?, c = 'e' ∨ c = 'E') ∧
    ∀ after, Undigited after → (text = [] → ∀ c ∈ after.head?, c ≠ 'e' ∧ c ≠ 'E') →
      exponent (text ++ after) = ((exponent rest).1, after) := by
  cases read : exponent? rest with
  | none =>
    have first : exponent rest = (0, rest) := by rw [exponent, read]; rfl
    refine ⟨[], by rw [first]; rfl, nofun, fun after _ markless => ?_⟩
    rw [first, List.nil_append, exponent, exponent?_eq_none (markless rfl)]
    rfl
  | some entry =>
    have first : exponent rest = entry := by rw [exponent, read]; rfl
    obtain ⟨mark, more, split, known, again⟩ := exponent?_again read
    refine ⟨mark :: more, by rw [first]; exact split, by simpa using known, fun after stops _ => ?_⟩
    rw [first, exponent, again after stops]
    rfl

/-- A character that no numeral goes on with. -/
def EndsNumeral (c : Char) : Prop :=
  c.isDigit = false ∧ c ≠ '.' ∧ c ≠ 'e' ∧ c ≠ 'E'

/-- The text of a numeral reads as the same numeral before anything that ends it. -/
theorem numeral?_again {input : List Char} {numeral : Numeral} {length : Nat}
    (read : numeral? input = some (numeral, length)) :
    0 < length ∧ length ≤ input.length ∧ ∀ after, (∀ c ∈ after.head?, EndsNumeral c) →
      numeral? (input.take length ++ after) = some (numeral, length) := by
  obtain ⟨whole, rest, rfl, all, _, spanned⟩ := exists_digits input
  obtain ⟨decimals, split, pointed, fractionAgain⟩ := fraction_again rest
  obtain ⟨power, splitOn, marked, exponentAgain⟩ := exponent_again (fraction rest).2
  rw [numeral?_eq, spanned] at read
  by_cases none : whole.isEmpty
  · rw [if_pos none] at read
    cases read
  · rw [if_neg none] at read
    obtain ⟨rfl, rfl⟩ := Prod.mk.inj (Option.some.inj read)
    have more : 0 < whole.length := by
      rw [List.length_pos_iff]
      exact fun empty => none (List.isEmpty_iff.mpr empty)
    have whole_eq : whole ++ rest =
        whole ++ decimals ++ power ++ (exponent (fraction rest).2).2 := by
      rw [List.append_assoc, List.append_assoc, ← splitOn, ← split]
    have taken : (whole ++ rest).length - (exponent (fraction rest).2).2.length =
        (whole ++ decimals ++ power).length := by
      rw [whole_eq, List.length_append, Nat.add_sub_cancel]
    dsimp only
    rw [taken]
    refine ⟨by simp; omega, by rw [whole_eq]; simp, fun after ends => ?_⟩
    rw [whole_eq, List.take_left]
    -- Each part stops where the next one begins, or where what ends the numeral does.
    have undigited : Undigited after := fun c first => (ends c first).1
    have beforePower : Undigited (power ++ after) := by
      cases power with
      | nil => exact undigited
      | cons mark power =>
        rintro c ⟨⟩
        obtain rfl | rfl := marked mark rfl <;> rfl
    have beforeDecimals : Undigited (decimals ++ (power ++ after)) := by
      cases decimals with
      | nil => exact beforePower
      | cons point decimals =>
        rintro c ⟨⟩
        obtain rfl := pointed point rfl
        rfl
    have pointless (_ : decimals = []) : ∀ c ∈ (power ++ after).head?, c ≠ '.' := by
      cases power with
      | nil => exact fun c first => (ends c first).2.1
      | cons mark power =>
        rintro c ⟨⟩
        obtain rfl | rfl := marked mark rfl <;> decide
    rw [List.append_assoc, List.append_assoc, numeral?_eq, spanDigits_append all beforeDecimals]
    dsimp only
    rw [fractionAgain _ beforePower pointless]
    dsimp only
    rw [exponentAgain after undigited fun _ c first => (ends c first).2.2, if_neg none]
    simp only [List.length_append, Option.some.injEq, Prod.mk.injEq, true_and]
    omega

end Atom

end Scriptlet
