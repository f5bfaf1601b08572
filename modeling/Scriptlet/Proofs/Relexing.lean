import Scriptlet.Proofs.StringLiterals
import Scriptlet.Proofs.Token.Numerals

/-!
# Reading lexemes again

A lexeme is found where nothing longer could be read, and a space ends whatever a lexeme can go on
with. So the lexemes of a source, written one after the other with spaces between them (`Spaced`),
read as the tokens they were taken from (`Piece.Rereads`), and as nothing else.
-/

namespace Scriptlet

/-- A text that goes on with a space, if it goes on at all. -/
def Spaced (text : List Char) : Prop :=
  ∀ c ∈ text.head?, c = ' '

/-- What a token is, wherever it stands. -/
def Token.content (token : Token) : TokenKind × String × Option Literal :=
  (token.kind, token.lexeme, token.literal)

/-- The lexemes of some tokens with a space behind each. -/
def Token.spaced (row : List Token) : List Char :=
  row.flatMap fun token => token.lexeme.toList ++ [' ']

/-- The lexemes of a source with spaces between them. -/
def Scanned.spaced (scanned : Scanned) : String :=
  " ".intercalate (scanned.tokens.toList.map Token.lexeme)

namespace Registry

variable {registry : Registry} {sequence : String} {kind : TokenKind}

private theorem Sound.length_pos (sound : registry.Sound)
    (bound : (kind, sequence) ∈ registry.sequences) :
    0 < sequence.length := by
  rw [← String.length_toList]
  refine List.length_pos_iff.mpr fun none => sound.filled kind ?_
  rw [← String.toList_eq_nil_iff.mp none]
  exact bound

/-- A bound sequence is matched whole where a space follows. -/
theorem Sound.longestMatch_spaced (sound : registry.Sound) (symbols : registry.Symbolic)
    (bound : (kind, sequence) ∈ registry.sequences) {after : List Char} (spaced : Spaced after) :
    registry.longestMatch (sequence.toList ++ after) = .matched kind sequence.length := by
  have longest := sound.isLongest_longestMatch (sequence.toList ++ after)
  generalize registry.longestMatch (sequence.toList ++ after) = found at longest
  cases longest with
  | unmatched none => exact absurd (List.prefix_append ..) (none sequence kind bound)
  | @matched other otherKind otherBound begins maximal =>
    have least := maximal sequence kind bound (List.prefix_append ..)
    rw [← String.length_toList, ← String.length_toList] at least
    obtain ⟨further, longer⟩ : sequence.toList <+: other.toList :=
      List.prefix_of_prefix_length_le (List.prefix_append ..) begins least
    cases further with
    | nil =>
      rw [List.append_nil, String.toList_inj] at longer
      subst longer
      rw [sound.unique bound otherBound]
    | cons c further =>
      rw [← longer, List.prefix_append_right_inj] at begins
      have space : c = ' ' := by
        obtain ⟨tail, rfl⟩ := begins
        exact spaced c rfl
      have symbol : c ∈ tokenCharacters := symbols _ otherBound c (by rw [← longer]; simp)
      rw [space] at symbol
      exact absurd symbol (by decide)

end Registry

namespace Atom

private theorem charBody?_plain {c : Char} (ordinary : ¬ (c = '\\' ∨ c = '\n' ∨ c = '\''))
    (tail : List Char) : charBody? (c :: '\'' :: tail) = some (c, 2) := by
  rw [charBody?.eq_2 c tail fun _ backslash _ => ordinary (.inl backslash), if_neg ordinary]

/-- A quoted character reads as the same one, whatever follows its text. -/
theorem charBody?_again {rest : List Char} {c : Char} {length : Nat}
    (read : charBody? rest = some (c, length)) : length ≤ rest.length ∧
      ∀ after, charBody? (rest.take length ++ after) = some (c, length) := by
  unfold charBody? at read
  split at read
  · obtain ⟨value, known, same⟩ := Option.map_eq_some_iff.mp read
    cases same
    exact ⟨by simp, fun after => by simp [charBody?, known]⟩
  · split at read
    · cases read
    · rename_i ordinary
      cases read
      exact ⟨by simp, fun after => charBody?_plain ordinary after⟩
  · cases read

end Atom

namespace Piece

open Atom

variable {registry : Registry}

/-- What takes a token from an input takes the same one from its text and what a space follows. -/
def Rereads (take : List Char → Cut) : Prop :=
  ∀ rest kind literal, (take rest).meaning = .token kind literal →
    (take rest).further ≤ rest.length ∧
      ∀ after, Spaced after → take (rest.take (take rest).further ++ after) = take rest

/-- What takes no token has nothing to read again. -/
theorem rereads_of_other {take : List Char → Cut}
    (other : ∀ rest kind literal, (take rest).meaning ≠ .token kind literal) : Rereads take :=
  fun rest kind literal token => absurd token (other rest kind literal)

/-- What opens a comment is no token. -/
theorem cutComment_other (comment : CommentKind) (input : List Char) (marker : Nat)
    (kind : TokenKind) (literal : Option Literal) :
    (cutComment comment input marker).meaning ≠ .token kind literal := by
  cases comment with
  | line => exact nofun
  | block =>
    unfold cutComment
    dsimp only
    split <;> exact nofun

private theorem rereads_cutSequence (sound : registry.Sound) (symbols : registry.Symbolic)
    (c : Char) :
    Rereads fun rest => cutSequence registry (c :: rest) := by
  intro rest kind literal token
  have longest := sound.isLongest_longestMatch (c :: rest)
  dsimp only at token ⊢
  cases found : registry.longestMatch (c :: rest) with
  | unmatched length =>
    rw [cutSequence, found] at token
    cases token
  | matched operator length =>
    cases marks : registry.commentKind? operator with
    | some comment =>
      rw [cutSequence, found] at token
      dsimp only at token
      rw [marks] at token
      exact absurd token (cutComment_other comment (c :: rest) length kind literal)
    | none =>
      have cut (input : List Char) (same : registry.longestMatch input = .matched operator length) :
          cutSequence registry input = ⟨length - 1, .token operator none⟩ := by
        rw [cutSequence, same]
        dsimp only
        rw [marks]
      rw [cut _ found]
      rw [found] at longest
      cases longest with
      | @matched sequence _ bound begins _ =>
        have within := begins.length_le
        have filled := sound.length_pos bound
        rw [String.length_toList, List.length_cons] at within
        refine ⟨by dsimp only; omega, fun after spaced => cut _ ?_⟩
        have text : c :: rest.take (sequence.length - 1) = sequence.toList := by
          rw [← List.take_succ_cons, Nat.sub_add_cancel filled, ← String.length_toList]
          exact (List.prefix_iff_eq_take.mp begins).symm
        rw [← List.cons_append, text]
        exact sound.longestMatch_spaced symbols bound spaced

private theorem rereads_cutString : Rereads cutString := by
  intro rest kind literal token
  cases found : stringBody? rest with
  | none =>
    rw [cutString, found] at token
    dsimp only at token
    split at token <;> cases token
  | some entry =>
    obtain ⟨parts, ⟨tail, rfl⟩ | rfl | rfl⟩ := fallsApart rest
    · rw [stringBody?_closed] at found
      obtain ⟨value, valued, _⟩ := Option.map_eq_some_iff.mp found
      rw [cutString_of_values valued]
      refine ⟨by simp, fun after _ => ?_⟩
      have text : (spell parts ++ '"' :: tail).take ((spell parts).length + 1) =
          spell parts ++ ['"'] := List.take_length_add_append 1
      rw [text, List.append_assoc]
      exact cutString_of_values valued after
    · have none := stringBody?_open parts (.inl rfl)
      rw [List.append_nil, found] at none
      cases none
    · rw [stringBody?_open parts (.inr rfl)] at found
      cases found

private theorem rereads_cutChar : Rereads cutChar := by
  intro rest kind literal token
  unfold cutChar at token ⊢
  cases found : charBody? rest with
  | none =>
    rw [found] at token
    cases token
  | some entry =>
    obtain ⟨within, again⟩ := charBody?_again found
    exact ⟨within, fun after _ => by rw [again after]⟩

private theorem rereads_word (c : Char) : Rereads fun rest =>
    ⟨(rest.takeWhile isWordPart).length,
      wordMeaning registry (String.ofList (c :: rest.takeWhile isWordPart))⟩ := by
  intro rest kind literal _
  refine ⟨(List.takeWhile_prefix _).length_le, fun after spaced => ?_⟩
  have stops : after.takeWhile isWordPart = [] := by
    cases after with
    | nil => rfl
    | cons d after =>
      rw [spaced d rfl]
      exact List.takeWhile_cons_of_neg (by decide)
  have again : (rest.takeWhile isWordPart ++ after).takeWhile isWordPart =
      rest.takeWhile isWordPart := by
    rw [List.takeWhile_append_of_pos fun d member => List.mem_takeWhile_imp member, stops,
      List.append_nil]
  dsimp only
  rw [take_takeWhile, again]

private theorem rereads_number (c : Char) : Rereads fun rest =>
    match numeral? (c :: rest) with
    | some (numeral, length) => ⟨length - 1, .token .number (some (.number numeral.value))⟩
    | none => ⟨0, .rejected (.unexpectedCharacter c) []⟩ := by
  intro rest kind literal token
  dsimp only at token ⊢
  cases found : numeral? (c :: rest) with
  | none =>
    rw [found] at token
    cases token
  | some entry =>
    obtain ⟨numeral, length⟩ := entry
    obtain ⟨more, within, again⟩ := numeral?_again found
    rw [List.length_cons] at within
    refine ⟨by dsimp only; omega, fun after spaced => ?_⟩
    have text : (c :: rest).take length = c :: rest.take (length - 1) := by
      obtain ⟨further, rfl⟩ := Nat.exists_eq_add_one.mpr more
      rfl
    have ends : ∀ d ∈ after.head?, EndsNumeral d := by
      intro d first
      rw [spaced d first]
      unfold EndsNumeral
      decide
    have same := again after ends
    rw [text, List.cons_append] at same
    dsimp only
    rw [same]

private theorem Rereads.ite {test : Prop} [Decidable test] {take other : List Char → Cut}
    (yes : test → Rereads take) (no : ¬ test → Rereads other) :
    Rereads fun rest => if test then take rest else other rest := by
  by_cases holds : test
  · simpa only [if_pos holds] using yes holds
  · simpa only [if_neg holds] using no holds

/-- Every token is taken again from its text and what a space follows. -/
theorem rereads_cut (sound : registry.Sound) (symbols : registry.Symbolic) (c : Char) :
    Rereads (cut registry c) := by
  refine .ite (fun _ => ?operator) fun _ => .ite (fun _ => ?blank) fun _ => .ite (fun _ => ?feed)
    fun _ => .ite (fun _ => ?string) fun _ => .ite (fun _ => ?char) fun _ => .ite (fun _ => ?word)
    fun _ => ?number
  case operator => exact rereads_cutSequence sound symbols c
  case blank => exact rereads_of_other fun _ _ _ => nofun
  case feed => exact rereads_of_other fun _ _ _ => nofun
  case string => exact rereads_cutString
  case char => exact rereads_cutChar
  case word => exact rereads_word c
  case number => exact rereads_number c

end Piece

/-- A token whose lexeme is cut as this token wherever a space follows it. -/
def Token.StandsAlone (registry : Registry) (token : Token) : Prop :=
  ∃ c tail, token.lexeme.toList = c :: tail ∧ Atom.isBlank c = false ∧
    ∀ after, Spaced after →
      Piece.cut registry c (tail ++ after) = ⟨tail.length, .token token.kind token.literal⟩

namespace Piece

open Atom

variable {registry : Registry}

/-- No operator begins with a blank. -/
theorem cut_blank (sound : registry.Sound) (symbols : registry.Symbolic) {c : Char}
    (blank : isBlank c) (rest : List Char) :
    cut registry c rest = ⟨(rest.takeWhile isBlank).length, .blank⟩ := by
  have plain : ¬ registry.startsSequence c := by
    intro starts
    have symbol := sound.symbol_of_startsSequence symbols starts
    have visible : tokenCharacters.all (!isBlank ·) := by decide
    have solid := List.all_eq_true.mp visible c symbol
    rw [blank] at solid
    cases solid
  rw [cut, if_neg plain, if_pos blank]

/-- Every token of a source stands alone. -/
theorem standsAlone_of_cut (sound : registry.Sound) (symbols : registry.Symbolic)
    {location : Location} {c : Char} {rest : List Char} {token : Token}
    (found : ((cut registry c rest).piece location (c :: rest)).token? = some token) :
    token.StandsAlone registry := by
  unfold Cut.piece token? at found
  dsimp only at found
  split at found
  · rename_i kind literal meaning
    cases found
    obtain ⟨within, again⟩ := rereads_cut sound symbols c rest kind literal meaning
    refine ⟨c, rest.take (cut registry c rest).further, ?_, ?_, fun after spaced => ?_⟩
    · rw [String.toList_ofList, List.take_succ_cons]
    · by_contra blank
      rw [cut_blank sound symbols (by simpa using blank)] at meaning
      cases meaning
    · rw [again after spaced, List.length_take_of_le within, ← meaning]
  · cases found

/-- The next lexeme begins with no blank. -/
theorem takeWhile_spaced {row : List Token} (alone : ∀ token ∈ row, token.StandsAlone registry) :
    (Token.spaced row).takeWhile isBlank = [] := by
  cases row with
  | nil => rfl
  | cons next row =>
    obtain ⟨c, tail, text, solid, _⟩ := alone next List.mem_cons_self
    rw [Token.spaced, List.flatMap_cons, text]
    exact List.takeWhile_cons_of_neg (by simp [solid])

/-- A token that stands alone is read from its lexeme, and the space behind it as a blank. -/
theorem ofSource_cons_spaced (sound : registry.Sound) (symbols : registry.Symbolic) {token : Token}
    {row : List Token} (alone : ∀ other ∈ token :: row, other.StandsAlone registry)
    (location : Location) : ∃ behind later,
      ofSource registry location (Token.spaced (token :: row)) =
        ⟨token.lexeme.toList, location, .token token.kind token.literal⟩ ::
          ⟨[' '], behind, .blank⟩ :: ofSource registry later (Token.spaced row) := by
  obtain ⟨c, tail, text, _, cuts⟩ := alone token List.mem_cons_self
  have lone := takeWhile_spaced fun other member => alone other (List.mem_cons_of_mem _ member)
  have whole : Token.spaced (token :: row) = c :: (tail ++ ' ' :: Token.spaced row) := by
    rw [Token.spaced, List.flatMap_cons, text, List.append_assoc]
    rfl
  refine ⟨location.advance (c :: tail), (location.advance (c :: tail)).advance [' '], ?_⟩
  rw [whole, ofSource, cuts (' ' :: Token.spaced row) (by rintro d ⟨⟩; rfl)]
  dsimp only
  rw [List.take_left, List.drop_left, ofSource, cut_blank sound symbols rfl, lone, text]
  rfl

/-- Tokens that stand alone are read from their lexemes with a space behind each, and nothing else
is. -/
theorem ofSource_spaced (sound : registry.Sound) (symbols : registry.Symbolic) {row : List Token}
    (alone : ∀ token ∈ row, token.StandsAlone registry) (location : Location) :
    let pieces := ofSource registry location (Token.spaced row)
    pieces.filterMap fault? = [] ∧ pieces.filterMap comment? = [] ∧
      (pieces.filterMap token?).map Token.content = row.map Token.content := by
  induction row generalizing location with
  | nil =>
    rw [Token.spaced, List.flatMap_nil, ofSource]
    exact ⟨rfl, rfl, rfl⟩
  | cons token row ih =>
    obtain ⟨behind, later, split⟩ := ofSource_cons_spaced sound symbols alone location
    obtain ⟨faults, comments, tokens⟩ :=
      ih (fun other member => alone other (List.mem_cons_of_mem _ member)) later
    dsimp only
    rw [split]
    refine ⟨faults, comments, ?_⟩
    have content : (token.kind, String.ofList token.lexeme.toList, token.literal) =
        token.content := by
      rw [String.ofList_toList]
      rfl
    rw [List.map_cons, ← tokens, ← content]
    rfl

end Piece

/-- A mark at the end of some tokens adds nothing to their lexemes. -/
theorem toList_intercalate_lexemes (row : List Token) (location : Location) :
    (" ".intercalate ((row ++ [Token.endOfInput location]).map Token.lexeme)).toList =
      Token.spaced row := by
  rw [String.toList_intercalate]
  induction row with
  | nil => rfl
  | cons token row ih =>
    rw [Token.spaced, List.flatMap_cons, ← Token.spaced, ← ih, List.append_assoc]
    cases row <;> rfl

/-- The lexemes of a source that is read without a fault, written with spaces between them, are read
without a fault too: as no comments, and as tokens that differ from those of the source in nothing
but their places. -/
theorem scan_again (base : Registry) (given : base = .empty ∨ base = .standard)
    (calls : List Registration) (source : String) (scanned : Scanned)
    (read : scan (base.afterAll calls) source = .ok scanned) :
    ∃ again, scan (base.afterAll calls) scanned.spaced = .ok again ∧ again.comments = #[] ∧
      again.tokens.toList.map Token.content = scanned.tokens.toList.map Token.content := by
  have sound := (Registry.sound_given given).afterAll calls
  have symbols := (Registry.symbolic_given given).afterAll calls
  obtain ⟨row, tokens, cut⟩ := tokens_of_scan read
  have alone : ∀ token ∈ row, token.StandsAlone (base.afterAll calls) := by
    intro token member
    obtain ⟨_, c, rest, _, found⟩ := cut token member
    exact Piece.standsAlone_of_cut sound symbols found
  have text : scanned.spaced.toList = Token.spaced row := by
    rw [Scanned.spaced, tokens, toList_intercalate_lexemes]
  obtain ⟨faults, comments, same⟩ := Piece.ofSource_spaced sound symbols alone .start
  refine ⟨_, by rw [scan, text, faults], by rw [comments], ?_⟩
  rw [tokens, Array.toList_push, List.map_append, List.map_append]
  exact congrArg (· ++ _) same

/-- A source that is written without spaces, with a literal over two lines and a comment. -/
def tightSample : String := "let s=\"a\nb\"<==>1.5e3+'\\n';//note"

/-- Its lexemes are read again from a text with spaces, and its comment is gone. -/
theorem scan_again_tightSample :
    let registry := Registry.standard.afterAll arrowSample
    (Registry.standard = .empty ∨ Registry.standard = .standard) ∧
    ∃ scanned, scan registry tightSample = .ok scanned ∧ scanned.comments.size = 1 ∧
      scanned.spaced = "let s = \"a\nb\" <==> 1.5e3 + '\\n' ; " ∧
      ∃ again, scan registry scanned.spaced = .ok again ∧ again.comments = #[] ∧
        again.tokens.toList.map Token.content = scanned.tokens.toList.map Token.content := by
  intro registry
  have found : ((scan registry tightSample).toOption.map fun scanned =>
      (scanned.comments.size, scanned.spaced)) =
      some (1, "let s = \"a\nb\" <==> 1.5e3 + '\\n' ; ") := by decide +kernel
  cases read : scan registry tightSample with
  | error faults =>
    rw [read] at found
    cases found
  | ok scanned =>
    rw [read] at found
    obtain ⟨comments, text⟩ := Prod.mk.inj (Option.some.inj found)
    exact ⟨.inr rfl, scanned, rfl, comments, text,
      scan_again .standard (.inr rfl) arrowSample tightSample scanned read⟩

end Scriptlet
