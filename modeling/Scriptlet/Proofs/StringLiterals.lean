import Mathlib.Computability.Language
import Scriptlet.Proofs.Carets

/-!
# String literals

The text after a double quote falls into parts: characters that stand for themselves, and
backslashes that each take the next character with them (`Atom.StringPart`). The literal ends at the
first quote that is a part of its own. It is recognised twice, by a pattern whose match is unescaped
(`Atom.stringPattern`) and, where that fails, by a survey that looks for what is wrong. Both see the
same parts, so between them every text is either a value or has exactly one fault
(`string_recognisers_agree`).
-/

namespace Scriptlet

namespace Atom

/-- A part of a string literal: a character that stands for itself, or a backslash with the
character it takes with it. -/
inductive StringPart where
  | plain (c : Char) (ordinary : c ≠ '"' ∧ c ≠ '\\')
  | escape (c : Char)

/-- How a part is written. -/
def StringPart.text : StringPart → List Char
  | plain c _ => [c]
  | escape c => ['\\', c]

/-- The character a part stands for. An escape may have no meaning. -/
def StringPart.value? : StringPart → Option Char
  | plain c _ => some c
  | escape c => escaped? c

/-- How parts are written one after the other. -/
def spell (parts : List StringPart) : List Char :=
  parts.flatMap StringPart.text

/-- The text that parts stand for, if every escape among them has a meaning. -/
def values? : List StringPart → Option (List Char)
  | [] => some []
  | part :: parts => part.value?.bind fun c => (values? parts).map (c :: ·)

variable {c : Char} {parts others : List StringPart} {input rest tail : List Char}

/-- No parts are written as nothing. -/
@[simp] theorem spell_nil : spell [] = [] := rfl

/-- A character that stands for itself is written as itself. -/
@[simp] theorem spell_plain (ordinary : c ≠ '"' ∧ c ≠ '\\') :
    spell (.plain c ordinary :: parts) = c :: spell parts := rfl

/-- An escape is written as a backslash and the character it takes with it. -/
@[simp] theorem spell_escape : spell (.escape c :: parts) = '\\' :: c :: spell parts := rfl

private theorem spell_append : spell (parts ++ others) = spell parts ++ spell others :=
  List.flatMap_append

/-- A text falls into parts, up to its first quote, its end, or a last backslash that has nothing
to take. -/
def FallsApart (input : List Char) : Prop :=
  ∃ parts, (∃ rest, input = spell parts ++ '"' :: rest) ∨ input = spell parts ∨
    input = spell parts ++ ['\\']

private theorem FallsApart.cons (falls : FallsApart rest) (part : StringPart) :
    FallsApart (part.text ++ rest) := by
  obtain ⟨parts, ⟨tail, rfl⟩ | rfl | rfl⟩ := falls
  · exact ⟨part :: parts, .inl ⟨tail, (List.append_assoc ..).symm⟩⟩
  · exact ⟨part :: parts, .inr (.inl rfl)⟩
  · exact ⟨part :: parts, .inr (.inr (List.append_assoc ..).symm)⟩

/-- Every text falls into parts. -/
theorem fallsApart : ∀ input : List Char, FallsApart input
  | [] => ⟨[], .inr (.inl rfl)⟩
  | c :: rest =>
    if quote : c = '"' then ⟨[], .inl ⟨rest, by rw [quote]; rfl⟩⟩
    else if backslash : c = '\\' then
      match rest with
      | [] => ⟨[], .inr (.inr (by rw [backslash]; rfl))⟩
      | escape :: rest => backslash ▸ (fallsApart rest).cons (.escape escape)
    else (fallsApart rest).cons (.plain c ⟨quote, backslash⟩)

/-- The parts before the first quote, and so the quote, are told by the text. -/
theorem spell_injective : ∀ {parts others : List StringPart} {rest tail : List Char},
    spell parts ++ '"' :: rest = spell others ++ '"' :: tail → parts = others ∧ rest = tail := by
  intro parts
  induction parts with
  | nil =>
    rintro (_ | ⟨⟨c, ordinary⟩ | c, others⟩) rest tail same
    · cases same
      exact ⟨rfl, rfl⟩
    · cases same
      exact absurd rfl ordinary.1
    · cases same
  | cons part parts ih =>
    rintro (_ | ⟨other, others⟩) rest tail same
    · rcases part with ⟨c, ordinary⟩ | c
      · cases same
        exact absurd rfl ordinary.1
      · cases same
    · rcases part with ⟨c, ordinary⟩ | c <;> rcases other with ⟨d, unlike⟩ | d <;>
        simp only [spell_plain, spell_escape, List.cons_append, List.cons.injEq] at same
      · obtain ⟨rfl, same⟩ := same
        obtain ⟨rfl, rfl⟩ := ih same
        exact ⟨rfl, rfl⟩
      · exact absurd same.1 ordinary.2
      · exact absurd same.1.symm unlike.2
      · obtain ⟨_, rfl, same⟩ := same
        obtain ⟨rfl, rfl⟩ := ih same
        exact ⟨rfl, rfl⟩

/-! ### What the two recognisers see -/

private theorem stringBody?_plain (ordinary : c ≠ '"' ∧ c ≠ '\\') (rest : List Char) :
    stringBody? (c :: rest) =
      (stringBody? rest).map fun (value, length) => (c :: value, length + 1) := by
  rw [stringBody?.eq_5 c rest ordinary.1 (fun same _ => ordinary.2 same)
    fun _ _ same _ => ordinary.2 same]
  cases stringBody? rest <;> rfl

private theorem stringBody?_escape (c : Char) (rest : List Char) :
    stringBody? ('\\' :: c :: rest) = (escaped? c).bind fun d =>
      (stringBody? rest).map fun (value, length) => (d :: value, length + 2) := by
  rw [stringBody?]
  cases escaped? c <;> cases stringBody? rest <;> rfl

/-- A literal that is closed has the value of its parts. -/
theorem stringBody?_closed (parts : List StringPart) (rest : List Char) :
    stringBody? (spell parts ++ '"' :: rest) =
      (values? parts).map (·, (spell parts).length + 1) := by
  induction parts with
  | nil => rfl
  | cons part parts ih =>
    cases part with
    | plain c ordinary =>
      rw [spell_plain, List.cons_append, stringBody?_plain ordinary, ih, values?]
      cases values? parts <;> rfl
    | escape c =>
      rw [spell_escape, List.cons_append, List.cons_append, stringBody?_escape, ih, values?,
        StringPart.value?]
      cases escaped? c <;> cases values? parts <;> rfl

/-- A literal that is not closed has none. -/
theorem stringBody?_open (parts : List StringPart) {last : List Char}
    (ends : last = [] ∨ last = ['\\']) : stringBody? (spell parts ++ last) = none := by
  induction parts with
  | nil => rcases ends with rfl | rfl <;> rfl
  | cons part parts ih =>
    cases part with
    | plain c ordinary =>
      rw [spell_plain, List.cons_append, stringBody?_plain ordinary, ih]
      rfl
    | escape c =>
      rw [spell_escape, List.cons_append, List.cons_append, stringBody?_escape, ih]
      cases escaped? c <;> rfl

/-- The first escape without meaning among some parts, with its distance. -/
def firstUnknown? (offset : Nat) : List StringPart → Option (Nat × Char)
  | [] => none
  | .plain _ _ :: parts => firstUnknown? (offset + 1) parts
  | .escape c :: parts =>
    if escaped? c = none then some (offset, c) else firstUnknown? (offset + 2) parts

private theorem survey_plain (ordinary : c ≠ '"' ∧ c ≠ '\\') (offset : Nat)
    (invalid : Option (Nat × Char))
    (rest : List Char) : survey offset invalid (c :: rest) = survey (offset + 1) invalid rest :=
  survey.eq_6 offset invalid c rest ordinary.1 (fun same _ => ordinary.2 same)
    fun _ _ same _ => ordinary.2 same

private theorem survey_escape (offset : Nat) (invalid : Option (Nat × Char)) (c : Char)
    (rest : List Char) : survey offset invalid ('\\' :: c :: rest) =
      survey (offset + 2) (invalid.or (if escaped? c = none then some (offset, c) else none))
        rest := by
  cases invalid with
  | none =>
    by_cases unknown : escaped? c = none
    · rw [survey.eq_4 offset c rest unknown, if_pos unknown]
      rfl
    · rw [survey.eq_5 offset c rest none fun _ => unknown, if_neg unknown]
      rfl
  | some noted =>
    exact survey.eq_5 offset c rest (some noted) fun isNone =>
      absurd isNone (Option.some_ne_none noted)

/-- The survey passes over the parts and notes the first escape without meaning. -/
theorem survey_parts (parts : List StringPart) (offset : Nat) (invalid : Option (Nat × Char))
    (rest : List Char) : survey offset invalid (spell parts ++ rest) =
      survey (offset + (spell parts).length) (invalid.or (firstUnknown? offset parts)) rest := by
  induction parts generalizing offset invalid with
  | nil => rw [firstUnknown?, Option.or_none]; rfl
  | cons part parts ih =>
    rcases part with ⟨c, ordinary⟩ | c
    · rw [spell_plain, List.cons_append, survey_plain ordinary, ih, firstUnknown?, List.length_cons,
        Nat.add_assoc, Nat.add_comm 1]
    · rw [spell_escape, List.cons_append, List.cons_append, survey_escape, ih, firstUnknown?,
        List.length_cons, List.length_cons, Nat.add_assoc, Nat.add_comm 2, Option.or_assoc]
      split <;> rfl

/-- Parts without a value have a first escape without meaning. -/
theorem exists_unknown {parts : List StringPart} (unknown : values? parts = none) :
    ∃ known escape others, parts = known ++ .escape escape :: others ∧
      (values? known).isSome ∧ escaped? escape = none := by
  induction parts with
  | nil => cases unknown
  | cons part parts ih =>
    rw [values?] at unknown
    cases value : part.value? with
    | none =>
      rcases part with ⟨c, ordinary⟩ | c
      · cases value
      · exact ⟨[], c, parts, rfl, rfl, value⟩
    | some c =>
      rw [value, Option.bind_some, Option.map_eq_none_iff] at unknown
      obtain ⟨known, escape, others, rfl, before, meaning⟩ := ih unknown
      refine ⟨part :: known, escape, others, rfl, ?_, meaning⟩
      rw [values?, value, Option.bind_some, Option.isSome_map]
      exact before

/-- Behind parts with a value the next escape without meaning is the first. -/
theorem firstUnknown?_append {known others : List StringPart} {escape : Char} (offset : Nat)
    (before : (values? known).isSome) (unknown : escaped? escape = none) :
    firstUnknown? offset (known ++ .escape escape :: others) =
      some (offset + (spell known).length, escape) := by
  induction known generalizing offset with
  | nil => exact if_pos unknown
  | cons part known ih =>
    rw [values?] at before
    cases value : part.value? with
    | none => simp [value] at before
    | some c =>
      rw [value, Option.bind_some, Option.isSome_map] at before
      rcases part with ⟨d, ordinary⟩ | d
      · rw [List.cons_append, firstUnknown?, ih _ before, spell_plain, List.length_cons,
          Nat.add_assoc, Nat.add_comm 1]
      · have known : escaped? d ≠ none := by
          rw [StringPart.value?] at value
          rw [value]
          exact nofun
        rw [List.cons_append, firstUnknown?, if_neg known, ih _ before, spell_escape,
          List.length_cons, List.length_cons, Nat.add_assoc, Nat.add_comm 2]

/-! ### The pattern -/

/-- A character that is neither a quote nor a backslash. -/
def ordinaryCharacter : Language Char := {text | ∃ c, c ≠ '"' ∧ c ≠ '\\' ∧ text = [c]}

/-- A backslash before any character but a line feed. -/
def escapeSequence : Language Char := {text | ∃ c, c ≠ '\n' ∧ text = ['\\', c]}

/-- The pattern of string literals. -/
def stringPattern : Language Char :=
  {['"']} * KStar.kstar (ordinaryCharacter + escapeSequence) * {['"']}

/-- The text that the body of a literal stands for, if every escape in it has a meaning. -/
def unescape? : List Char → Option (List Char)
  | [] => some []
  | ['\\'] => none
  | '\\' :: escape :: rest => (escaped? escape).bind fun c => (unescape? rest).map (c :: ·)
  | c :: rest => (unescape? rest).map (c :: ·)

/-- A text that an input begins with is the longest in a language that it begins with. -/
structure IsLongestMatch (language : Language Char) (input text : List Char) : Prop where
  mem : text ∈ language
  begins : text <+: input
  longest : ∀ other ∈ language, other <+: input → other.length ≤ text.length

private theorem unescape?_spell (parts : List StringPart) :
    unescape? (spell parts) = values? parts := by
  induction parts with
  | nil => rfl
  | cons part parts ih =>
    rcases part with ⟨c, ordinary⟩ | c
    · rw [spell_plain, unescape?.eq_4 c _ (fun same _ => ordinary.2 same)
        fun _ _ same _ => ordinary.2 same, ih]
      rfl
    · rw [spell_escape, unescape?, ih]
      rfl

private theorem mem_stringPattern {text : List Char} : text ∈ stringPattern ↔
    ∃ parts, text = '"' :: spell parts ++ ['"'] ∧ ∀ c, .escape c ∈ parts → c ≠ '\n' := by
  constructor
  · intro member
    obtain ⟨front, ⟨_, rfl, body, starred, rfl⟩, _, rfl, rfl⟩ := Language.mem_mul.mp member
    obtain ⟨texts, rfl, each⟩ := Language.mem_kstar.mp starred
    have written : ∃ parts, texts.flatten = spell parts ∧ ∀ c, .escape c ∈ parts → c ≠ '\n' := by
      clear starred member
      induction texts with
      | nil => exact ⟨[], rfl, nofun⟩
      | cons text texts ih =>
        obtain ⟨parts, spelled, feedless⟩ := ih fun other later => each other (.tail _ later)
        rcases each text List.mem_cons_self with ⟨c, quote, backslash, rfl⟩ | ⟨c, feed, rfl⟩
        · refine ⟨.plain c ⟨quote, backslash⟩ :: parts, by rw [List.flatten_cons, spelled]; rfl, ?_⟩
          intro d member
          exact feedless d (by simpa using member)
        · refine ⟨.escape c :: parts, by rw [List.flatten_cons, spelled]; rfl, ?_⟩
          intro d member
          rcases List.mem_cons.mp member with same | later
          · cases same
            exact feed
          · exact feedless d later
    obtain ⟨parts, spelled, feedless⟩ := written
    exact ⟨parts, by rw [spelled]; rfl, feedless⟩
  · rintro ⟨parts, rfl, feedless⟩
    refine Language.mem_mul.mpr ⟨'"' :: spell parts, ?_, ['"'], rfl, rfl⟩
    refine Language.mem_mul.mpr ⟨['"'], rfl, spell parts, ?_, rfl⟩
    refine Language.mem_kstar.mpr ⟨parts.map StringPart.text, rfl, ?_⟩
    intro text member
    obtain ⟨part, inside, rfl⟩ := List.mem_map.mp member
    rcases part with ⟨c, ordinary⟩ | c
    · exact .inl ⟨c, ordinary.1, ordinary.2, rfl⟩
    · exact .inr ⟨c, feedless c inside, rfl⟩

/-- An escape that stands for a line feed is written with another character. -/
theorem values?_feedless {parts : List StringPart} (known : (values? parts).isSome) :
    ∀ c, .escape c ∈ parts → c ≠ '\n' := by
  rintro c member rfl
  induction parts with
  | nil => cases member
  | cons part parts ih =>
    rw [values?] at known
    cases value : part.value? with
    | none => simp [value] at known
    | some d =>
      rw [value, Option.bind_some, Option.isSome_map] at known
      rcases List.mem_cons.mp member with rfl | later
      · cases value
      · exact ih known later

/-- The first recogniser gives the longest match of the pattern, unescaped. -/
theorem stringBody?_eq_some_iff {value : List Char} {length : Nat} :
    stringBody? rest = some (value, length) ↔
      ∃ body, IsLongestMatch stringPattern ('"' :: rest) ('"' :: body ++ ['"']) ∧
        unescape? body = some value ∧ length = body.length + 1 := by
  constructor
  · intro found
    obtain ⟨parts, ⟨tail, rfl⟩ | rfl | rfl⟩ := fallsApart rest
    · rw [stringBody?_closed] at found
      obtain ⟨known, valued, same⟩ := Option.map_eq_some_iff.mp found
      cases same
      refine ⟨spell parts, ⟨?_, ⟨tail, ?_⟩, ?_⟩, by rw [unescape?_spell, valued], rfl⟩
      · exact mem_stringPattern.mpr ⟨parts, rfl, values?_feedless (by rw [valued]; rfl)⟩
      · simp
      · intro other matching begins
        obtain ⟨parts', rfl, _⟩ := mem_stringPattern.mp matching
        obtain ⟨tail', same⟩ := begins
        have same' : spell parts' ++ '"' :: tail' = spell parts ++ '"' :: tail := by
          simpa using same
        obtain ⟨rfl, _⟩ := spell_injective same'
        exact Nat.le_refl _
    · have none := stringBody?_open parts (.inl rfl)
      rw [List.append_nil] at none
      rw [none] at found
      cases found
    · rw [stringBody?_open parts (.inr rfl)] at found
      cases found
  · rintro ⟨body, ⟨matching, ⟨tail, same⟩, _⟩, valued, rfl⟩
    obtain ⟨parts, spelled, _⟩ := mem_stringPattern.mp matching
    have body : body = spell parts := by simpa using spelled
    subst body
    have rest : rest = spell parts ++ '"' :: tail := by simpa using same.symm
    rw [rest, stringBody?_closed, ← unescape?_spell, valued]
    rfl

/-- A text as a string literal, with a backslash before each quote and backslash. -/
def quoted (text : String) : String :=
  String.ofList
    ('"' :: text.toList.flatMap (fun c => if c = '"' ∨ c = '\\' then ['\\', c] else [c]) ++ ['"'])

/-- The parts of a text in such a literal. -/
def quotedParts : List Char → List StringPart
  | [] => []
  | c :: rest =>
    (if special : c = '"' ∨ c = '\\' then .escape c else .plain c (not_or.mp special)) ::
      quotedParts rest

private theorem spell_quotedParts (text : List Char) :
    spell (quotedParts text) =
      text.flatMap fun c => if c = '"' ∨ c = '\\' then ['\\', c] else [c] := by
  induction text with
  | nil => rfl
  | cons c rest ih =>
    rw [quotedParts, List.flatMap_cons, ← ih]
    by_cases special : c = '"' ∨ c = '\\'
    · rw [dif_pos special, if_pos special]
      rfl
    · rw [dif_neg special, if_neg special]
      rfl

private theorem values?_quotedParts (text : List Char) :
    values? (quotedParts text) = some text := by
  induction text with
  | nil => rfl
  | cons c rest ih =>
    have value : StringPart.value? (if special : c = '"' ∨ c = '\\' then .escape c
        else .plain c (not_or.mp special)) = some c := by
      by_cases special : c = '"' ∨ c = '\\'
      · rw [dif_pos special]
        rcases special with rfl | rfl <;> rfl
      · rw [dif_neg special]
        rfl
    rw [quotedParts, values?, value, ih]
    rfl

end Atom

namespace Piece

open Atom

variable {registry : Registry} {before : List Char}

/-- What a piece adds to the tokens, the comments and the faults of a source. -/
def yields (piece : Piece) : Option Token × Option Comment × Option (Located LexFault) :=
  (piece.token?, piece.comment?, piece.fault?)

/-- No operator begins with a double quote, so a piece that does is cut as a string literal. -/
theorem cut_quote (sound : registry.Sound) (symbols : registry.Symbolic) (rest : List Char) :
    cut registry '"' rest = cutString rest := by
  have plain : ¬ registry.startsSequence '"' := fun starts =>
    absurd (sound.symbol_of_startsSequence symbols starts) (by decide)
  rw [cut, if_neg plain, if_neg (by decide), if_neg (by decide), if_pos rfl]

/-- Parts that all have a value are cut as a string literal, up to the closing quote. -/
theorem cutString_of_values {parts : List StringPart} {value : List Char}
    (valued : values? parts = some value) (tail : List Char) :
    cutString (spell parts ++ '"' :: tail) =
      ⟨(spell parts).length + 1, .token .string (some (.string (String.ofList value)))⟩ := by
  rw [cutString, stringBody?_closed, valued]
  rfl

private theorem survey_closed (parts : List StringPart) (tail : List Char) :
    survey 1 none (spell parts ++ '"' :: tail) =
      ⟨(spell parts).length + 1, true, firstUnknown? 1 parts⟩ := by
  rw [survey_parts, survey, Option.none_or, Nat.add_comm]

private theorem cutString_of_unknown {known others : List StringPart} {escape : Char}
    (before : (values? known).isSome) (unknown : escaped? escape = none)
    (nothing : values? (known ++ .escape escape :: others) = none) (tail : List Char) :
    cutString (spell (known ++ .escape escape :: others) ++ '"' :: tail) =
      ⟨(spell (known ++ .escape escape :: others)).length + 1,
        .rejected (.invalidEscape escape) ('"' :: spell known)⟩ := by
  rw [cutString, stringBody?_closed, nothing, survey_closed, firstUnknown?_append 1 before unknown]
  have taken : (spell (known ++ .escape escape :: others) ++ '"' :: tail).take
      (1 + (spell known).length - 1) = spell known := by
    rw [Nat.add_sub_cancel_left, spell_append, List.append_assoc, List.take_left]
  simp only [Option.map_none, taken]

/-- A literal that is not closed takes the rest of the source. -/
theorem cutString_open {parts : List StringPart} {last : List Char}
    (ends : last = [] ∨ last = ['\\']) : cutString (spell parts ++ last) =
      ⟨(spell parts ++ last).length, .rejected .unterminatedString []⟩ := by
  rw [cutString, stringBody?_open parts ends, survey_parts]
  rcases ends with rfl | rfl
  · simp only [survey, List.append_nil, Nat.add_sub_cancel_left]
  · simp only [survey, List.length_append, List.length_singleton, Nat.add_comm 1]

/-- What the first recogniser rejects is not closed, or the survey finds what is wrong with it. -/
theorem survey_finds {rest : List Char} (rejected : stringBody? rest = none) :
    ¬ ((survey 1 none rest).closed = true ∧ (survey 1 none rest).invalid = none) := by
  rintro ⟨closed, clean⟩
  obtain ⟨parts, ⟨tail, rfl⟩ | rfl | rfl⟩ := fallsApart rest
  · rw [stringBody?_closed, Option.map_eq_none_iff] at rejected
    obtain ⟨known, escape, others, rfl, before, unknown⟩ := exists_unknown rejected
    rw [survey_closed, firstUnknown?_append 1 before unknown] at clean
    cases clean
  · rw [← List.append_nil (spell parts), survey_parts] at closed
    cases closed
  · rw [survey_parts] at closed
    cases closed

/-- What a piece that begins with a double quote is, by the parts of the text behind the quote. -/
theorem reads_cutString_closed {parts : List StringPart} {tail : List Char} {piece : Piece}
    (cut : piece = (cutString (spell parts ++ '"' :: tail)).piece (.behind before)
      ('"' :: (spell parts ++ '"' :: tail))) :
    piece.text = '"' :: spell parts ++ ['"'] ∧
    (∀ value, values? parts = some value → piece.yields =
      (some ⟨.string, String.ofList piece.text, some (.string (String.ofList value)),
        .behind before⟩, none, none)) ∧
    (values? parts = none → ∃ known escape others, parts = known ++ .escape escape :: others ∧
      (values? known).isSome ∧ escaped? escape = none ∧ piece.yields =
        (none, none, some ⟨.invalidEscape escape, .behind (before ++ '"' :: spell known)⟩)) := by
  have taken : ('"' :: (spell parts ++ '"' :: tail)).take ((spell parts).length + 1 + 1) =
      '"' :: spell parts ++ ['"'] := by
    rw [List.take_succ_cons, List.take_length_add_append]
    rfl
  subst cut
  cases valued : values? parts with
  | some value =>
    rw [cutString_of_values valued]
    refine ⟨taken, ?_, nofun⟩
    rintro _ ⟨⟩
    rfl
  | none =>
    obtain ⟨known, escape, others, rfl, earlier, unknown⟩ := exists_unknown valued
    rw [cutString_of_unknown earlier unknown valued]
    refine ⟨taken, nofun, fun _ => ⟨known, escape, others, rfl, earlier, unknown, ?_⟩⟩
    have located : (Location.behind before).advance ('"' :: spell known) =
        .behind (before ++ '"' :: spell known) := by
      rw [← Location.advance_start, ← Location.advance_append, Location.advance_start]
    rw [← located]
    rfl

private theorem reads_cutString_open {parts : List StringPart} {last : List Char}
    (ends : last = [] ∨ last = ['\\']) {piece : Piece}
    (cut : piece = (cutString (spell parts ++ last)).piece (.behind before)
      ('"' :: (spell parts ++ last))) :
    piece.text = '"' :: (spell parts ++ last) ∧
      piece.yields = (none, none, some ⟨.unterminatedString, .behind before⟩) := by
  rw [cutString_open ends] at cut
  subst cut
  refine ⟨?_, rfl⟩
  rw [Cut.piece, List.take_succ_cons, List.take_length]

/-- A quoted text is a source of one piece. -/
theorem ofSource_quoted (sound : registry.Sound) (symbols : registry.Symbolic) (text : String) :
    ofSource registry .start (quoted text).toList =
      [⟨(quoted text).toList, .start, .token .string (some (.string text))⟩] := by
  have written : (quoted text).toList = '"' :: (spell (quotedParts text.toList) ++ '"' :: []) := by
    rw [quoted, String.toList_ofList, spell_quotedParts]
    rfl
  rw [written, ofSource, cut_quote sound symbols, cutString_of_values (values?_quotedParts _),
    String.ofList_toList]
  dsimp only
  rw [List.take_of_length_le (by simp), List.drop_of_length_le (by simp), ofSource]

end Piece

/-- At every double quote that a piece begins with: if a quote follows that no backslash takes, the
piece ends with it, and is a string token of the unescaped text or, where an escape has no meaning,
one fault at the first such escape; otherwise the piece takes the rest of the source, with one fault
at its beginning. The first recogniser is the longest match of the pattern, unescaped; what it
rejects is not closed, or has an escape without meaning. Every text can be written as a literal. -/
theorem string_recognisers_agree (base : Registry) (given : base = .empty ∨ base = .standard)
    (calls : List Registration) :
    let registry := base.afterAll calls
    (∀ (source : String) earlier piece later rest,
      Piece.ofSource registry .start source.toList = earlier ++ piece :: later →
      source.toList = earlier.flatMap Piece.text ++ '"' :: rest →
      let before := earlier.flatMap Piece.text
      (∀ parts tail, rest = Atom.spell parts ++ '"' :: tail →
        piece.text = '"' :: Atom.spell parts ++ ['"'] ∧
        (∀ value, Atom.values? parts = some value → piece.yields =
          (some ⟨.string, String.ofList piece.text, some (.string (String.ofList value)),
            .behind before⟩, none, none)) ∧
        (Atom.values? parts = none → ∃ known escape others,
          parts = known ++ .escape escape :: others ∧ (Atom.values? known).isSome ∧
          Atom.escaped? escape = none ∧ piece.yields =
            (none, none, some ⟨.invalidEscape escape,
              .behind (before ++ '"' :: Atom.spell known)⟩))) ∧
      ((∀ parts tail, rest ≠ Atom.spell parts ++ '"' :: tail) →
        piece.text = '"' :: rest ∧
        piece.yields = (none, none, some ⟨.unterminatedString, .behind before⟩))) ∧
    (∀ rest value length, Atom.stringBody? rest = some (value, length) ↔
      ∃ body, Atom.IsLongestMatch Atom.stringPattern ('"' :: rest) ('"' :: body ++ ['"']) ∧
        Atom.unescape? body = some value ∧ length = body.length + 1) ∧
    (∀ rest, Atom.stringBody? rest = none →
      ¬ ((Atom.survey 1 none rest).closed = true ∧ (Atom.survey 1 none rest).invalid = none)) ∧
    ∀ text, scan registry (Atom.quoted text) = .ok {
      tokens := #[⟨.string, Atom.quoted text, some (.string text), .start⟩,
        Token.endOfInput (.behind (Atom.quoted text).toList)]
      comments := #[] } := by
  intro registry
  have sound : registry.Sound := (Registry.sound_given given).afterAll calls
  have symbols : registry.Symbolic := (Registry.symbolic_given given).afterAll calls
  refine ⟨?_, fun _ _ _ => Atom.stringBody?_eq_some_iff, fun _ => Piece.survey_finds, ?_⟩
  · intro source earlier piece later rest row source_eq before
    have start : Piece.ofSource registry (.behind []) source.toList =
        earlier ++ piece :: later := row
    obtain ⟨c, others, split, cut⟩ := Piece.cut_ofSource start
    rw [source_eq] at split
    obtain ⟨rfl, rfl⟩ := List.cons.inj (List.append_cancel_left split)
    rw [Piece.cut_quote sound symbols, List.nil_append] at cut
    constructor
    · rintro parts tail rfl
      exact Piece.reads_cutString_closed cut
    · intro unclosed
      obtain ⟨parts, ⟨tail, same⟩ | same | same⟩ := Atom.fallsApart rest
      · exact absurd same (unclosed parts tail)
      · rw [← List.append_nil (Atom.spell parts)] at same
        subst same
        exact Piece.reads_cutString_open (.inl rfl) cut
      · subst same
        exact Piece.reads_cutString_open (.inr rfl) cut
  · intro text
    rw [scan, Piece.ofSource_quoted sound symbols, Location.advance_start]
    dsimp only [List.filterMap, Piece.fault?, Piece.token?, Piece.comment?]
    rw [String.ofList_toList]
    rfl

/-- A literal with an escaped quote, and one that is not closed. -/
def literalsSample : String := "\"a\\\"b\" \"c\\"

/-- The first is a token whose text is unescaped, the second a fault where it begins. -/
theorem string_recognisers_agree_literalsSample :
    let registry := Registry.standard.afterAll arrowSample
    (Registry.standard = .empty ∨ Registry.standard = .standard) ∧
    ∃ first blank last,
      Piece.ofSource registry .start literalsSample.toList = [first, blank, last] ∧
      first.yields = (some ⟨.string, "\"a\\\"b\"", some (.string "a\"b"), ⟨1, 1⟩⟩, none, none) ∧
      last.yields = (none, none, some ⟨.unterminatedString, ⟨1, 8⟩⟩) ∧
      scan registry (Atom.quoted "a\"b") = .ok {
        tokens := #[⟨.string, "\"a\\\"b\"", some (.string "a\"b"), ⟨1, 1⟩⟩,
          Token.endOfInput ⟨1, 7⟩]
        comments := #[] } := by
  intro registry
  obtain ⟨strings, _, _, quotes⟩ := string_recognisers_agree .standard (.inr rfl) arrowSample
  have texts : (Piece.ofSource registry .start literalsSample.toList).map Piece.text =
      ["\"a\\\"b\"".toList, [' '], "\"c\\".toList] := by decide +kernel
  obtain ⟨first, others, row, firstText, more⟩ := List.map_eq_cons_iff.mp texts
  obtain ⟨blank, others, rfl, blankText, more⟩ := List.map_eq_cons_iff.mp more
  obtain ⟨last, others, rfl, lastText, none⟩ := List.map_eq_cons_iff.mp more
  obtain rfl := List.map_eq_nil_iff.mp none
  have before : [first, blank].flatMap Piece.text = "\"a\\\"b\" ".toList := by
    simp [firstText, blankText]
  have closed := (strings literalsSample [] first [blank, last] _ row rfl).1
    [.plain 'a' (by decide), .escape '"', .plain 'b' (by decide)] _ rfl
  have opened := (strings literalsSample [first, blank] last [] "c\\".toList row
    (by rw [before]; rfl)).2 ?_
  · refine ⟨.inr rfl, first, blank, last, row, ?_, ?_, quotes "a\"b"⟩
    · rw [closed.2.1 "a\"b".toList rfl, firstText]
      rfl
    · rw [opened.2, before]
      rfl
  · intro parts tail same
    have counted := congrArg (List.count '"') same
    rw [List.count_append, List.count_cons_self] at counted
    have without : "c\\".toList.count '"' = 0 := by decide
    omega

end Scriptlet
