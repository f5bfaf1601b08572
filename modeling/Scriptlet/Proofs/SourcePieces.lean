import Mathlib.Data.List.TakeWhile
import Scriptlet.Proofs.MaximalMunch
import Scriptlet.Token.Piece

/-!
# The pieces of a source

A source text is read as a row of pieces that lose none of its characters. Each piece is a run of
blanks, a token, a comment or a stretch with one fault (`Piece.Reads`); tokens, comments and faults
stand in the order of their pieces (`tokens_of_scan`, `faults_of_scan`), and they are located by the
characters before them (`Location.behind`).
-/

namespace Scriptlet

/-- The position after some characters at the beginning of a text: the line feeds among them tell
the line, and the characters since the last of these the column. -/
def Location.behind (before : List Char) : Location :=
  ⟨1 + before.count '\n', 1 + (before.reverse.takeWhile (· ≠ '\n')).length⟩

/-- The position after the beginning of a text is told by the characters in it. -/
theorem Location.advance_start (before : List Char) :
    Location.start.advance before = .behind before := by
  induction before using List.reverseRecOn with
  | nil => rfl
  | append_singleton before c ih =>
    rw [advance_append, ih, advance_cons, advance_nil]
    unfold step behind
    by_cases feed : c = '\n'
    · subst feed
      simp [List.count_append]
      omega
    · simp [feed, List.count_append]
      omega

namespace Piece

/-- What a piece is whose first character comes after others: a run of blanks, a token, a comment
between its markers, or a stretch with a fault somewhere in it; and it is nothing else. -/
inductive Reads (registry : Registry) (before : List Char) (piece : Piece) : Prop where
  | blank (run : piece.text = ['\n'] ∨ ∀ c ∈ piece.text, Atom.isBlank c)
      (noToken : piece.token? = none) (noComment : piece.comment? = none)
      (noFault : piece.fault? = none)
  | token {kind : TokenKind} {literal : Option Literal}
      (token : piece.token? = some ⟨kind, String.ofList piece.text, literal, .behind before⟩)
      (noComment : piece.comment? = none) (noFault : piece.fault? = none)
  | lineComment {marker : String} {opening : TokenKind} {body : List Char}
      (opens : (opening, marker) ∈ registry.sequences)
      (marks : registry.commentKind? opening = some .line)
      (text : piece.text = marker.toList ++ body) (short : '\n' ∉ body)
      (comment : piece.comment? = some ⟨String.ofList body, (Location.behind before).line, .line⟩)
      (noToken : piece.token? = none) (noFault : piece.fault? = none)
  | blockComment {marker : String} {opening : TokenKind} {body : List Char}
      (opens : (opening, marker) ∈ registry.sequences)
      (marks : registry.commentKind? opening = some .block)
      (text : piece.text = marker.toList ++ body ++ ['*', '/'])
      (short : ¬ ['*', '/'] <:+: body ++ ['*'])
      (comment : piece.comment? = some ⟨String.ofList body, (Location.behind before).line, .block⟩)
      (noToken : piece.token? = none) (noFault : piece.fault? = none)
  | rejected {cause : LexFault} {skipped : List Char} (inside : skipped <+: piece.text)
      (fault : piece.fault? = some ⟨cause, .behind (before ++ skipped)⟩)
      (noToken : piece.token? = none) (noComment : piece.comment? = none)

variable {registry : Registry} {before text : List Char}

private theorem reads_token (kind : TokenKind) (literal : Option Literal) :
    Reads registry before ⟨text, .behind before, .token kind literal⟩ := .token rfl rfl rfl

private theorem reads_rejected (cause : LexFault) {skipped : List Char}
    (inside : skipped <+: text) :
    Reads registry before ⟨text, .behind before, .rejected cause skipped⟩ := by
  have located : (Location.behind before).advance skipped = .behind (before ++ skipped) := by
    rw [← Location.advance_start, ← Location.advance_append, Location.advance_start]
  have fault : (Piece.mk text (.behind before) (.rejected cause skipped)).fault? =
      some ⟨cause, .behind (before ++ skipped)⟩ := by rw [← located]; rfl
  exact .rejected inside fault rfl rfl

/-! ### Comments -/

/-- The body of a block comment ends where the closing marker stands first. -/
theorem blockBody?_eq_some {body : List Char} : ∀ {input : List Char},
    blockBody? input = some body →
      body ++ ['*', '/'] <+: input ∧ ¬ ['*', '/'] <:+: body ++ ['*'] := by
  intro input
  fun_induction blockBody? input generalizing body with
  | case1 rest =>
    intro found
    cases found
    exact ⟨⟨rest, rfl⟩, by decide⟩
  | case2 => exact nofun
  | case3 c rest distinct ih =>
    intro found
    obtain ⟨inner, foundLater, rfl⟩ := Option.map_eq_some_iff.mp found
    obtain ⟨begins, first⟩ := ih foundLater
    refine ⟨List.cons_prefix_cons.mpr ⟨rfl, begins⟩, ?_⟩
    intro later
    rw [List.cons_append, List.infix_cons_iff] at later
    rcases later with here | later
    · rw [List.cons_prefix_cons] at here
      obtain ⟨rfl, here⟩ := here
      cases inner with
      | nil => simp at here
      | cons d inner =>
        obtain ⟨tail, rfl⟩ := begins
        simp at here
        exact distinct _ rfl (by simp [← here]; rfl)
    · exact first later

/-- As many characters as are taken from the front while they fit are those that fit. -/
theorem take_takeWhile (p : Char → Bool) (rest : List Char) :
    rest.take (rest.takeWhile p).length = rest.takeWhile p :=
  (List.prefix_iff_eq_take.mp (List.takeWhile_prefix p)).symm

/-- A piece whose beginning opens a comment reads as this comment, unless it is never closed. -/
theorem reads_cutComment {kind : CommentKind} {opening : TokenKind} {marker : String}
    {input : List Char} (opens : (opening, marker) ∈ registry.sequences)
    (marks : registry.commentKind? opening = some kind) (filled : marker ≠ "")
    (begins : marker.toList <+: input) :
    Reads registry before ⟨input.take ((cutComment kind input marker.length).further + 1),
      .behind before, (cutComment kind input marker.length).meaning⟩ := by
  obtain ⟨rest, rfl⟩ := begins
  have positive : 0 < marker.length := by
    rw [← String.length_toList]
    exact List.length_pos_iff.mpr fun none => filled (String.toList_eq_nil_iff.mp none)
  have remains : (marker.toList ++ rest).drop marker.length = rest := by
    rw [← String.length_toList, List.drop_left]
  have taken (count further : Nat) (sum : further + 1 = marker.length + count) :
      (marker.toList ++ rest).take (further + 1) = marker.toList ++ rest.take count := by
    rw [sum, ← String.length_toList, List.take_length_add_append]
  cases kind with
  | line =>
    simp only [cutComment, remains]
    have text := taken (rest.takeWhile (· != '\n')).length
      (marker.length + (rest.takeWhile (· != '\n')).length - 1) (by omega)
    rw [take_takeWhile] at text
    have short : '\n' ∉ rest.takeWhile (· != '\n') := by
      intro member
      have other := List.mem_takeWhile_imp member
      simp at other
    exact .lineComment opens marks text short rfl rfl rfl
  | block =>
    simp only [cutComment, remains]
    cases found : blockBody? rest with
    | none => exact reads_rejected .unterminatedComment List.nil_prefix
    | some body =>
      obtain ⟨begins, short⟩ := blockBody?_eq_some found
      have text := taken (body ++ ['*', '/']).length (marker.length + body.length + 1)
        (by simp; omega)
      rw [← List.prefix_iff_eq_take.mp begins, ← List.append_assoc] at text
      exact .blockComment opens marks text short rfl rfl rfl

/-! ### All kinds of pieces -/

/-- What a cut makes of an input: a piece of as many characters as it takes. -/
def Cut.piece (cut : Cut) (location : Location) (input : List Char) : Piece :=
  ⟨input.take (cut.further + 1), location, cut.meaning⟩

/-- What begins with an operator character is matched by the bindings of the registry. -/
theorem reads_cutSequence (sound : registry.Sound) (input : List Char) :
    Reads registry before ((cutSequence registry input).piece (.behind before) input) := by
  have longest := sound.isLongest_longestMatch input
  unfold cutSequence
  cases matched : registry.longestMatch input with
  | matched kind length =>
    rw [matched] at longest
    cases longest with
    | @matched marker _ opens begins _ =>
      have filled : marker ≠ "" := by
        rintro rfl
        exact sound.filled kind opens
      dsimp only
      cases marks : registry.commentKind? kind with
      | some comment => exact reads_cutComment opens marks filled begins
      | none => exact reads_token kind none
  | unmatched length => exact reads_rejected _ List.nil_prefix

/-- A bad escape lies in its literal. -/
theorem survey_invalid {input : List Char} {offset : Nat} {invalid : Option (Nat × Char)}
    (positive : 0 < offset) (within : ∀ place escape, invalid = some (place, escape) →
      place ≤ offset)
    {place : Nat} {escape : Char}
    (found : (Atom.survey offset invalid input).invalid = some (place, escape)) :
    place ≤ (Atom.survey offset invalid input).length + 1 := by
  fun_induction Atom.survey offset invalid input with
  | case1 offset invalid =>
    have inside := within place escape found
    dsimp only
    omega
  | case2 offset invalid rest =>
    have inside := within place escape found
    dsimp only
    omega
  | case3 offset invalid =>
    have inside := within place escape found
    dsimp only
    omega
  | case4 offset invalid c rest later ih =>
    refine ih (by omega) ?_ found
    intro place escape noted
    unfold later at noted
    split at noted
    · cases noted
      omega
    · have inside := within place escape noted
      omega
  | case5 offset invalid c rest _ _ _ ih =>
    refine ih (by omega) ?_ found
    intro place escape noted
    have inside := within place escape noted
    omega

private theorem reads_cutString (rest : List Char) :
    Reads registry before ((cutString rest).piece (.behind before) ('"' :: rest)) := by
  unfold cutString
  cases Atom.stringBody? rest with
  | some entry =>
    obtain ⟨value, length⟩ := entry
    exact reads_token _ _
  | none =>
    dsimp only
    split
    · rename_i place escape _ found
      have inside := survey_invalid Nat.one_pos (fun _ _ none => by cases none) found
      apply reads_rejected
      rw [List.take_succ_cons, List.cons_prefix_cons]
      refine ⟨rfl, ?_⟩
      apply List.take_prefix_take_left
      dsimp only
      omega
    · exact reads_rejected _ List.nil_prefix

/-- The first character of an input says in which way its first piece is cut. -/
theorem cut_cases {motive : Cut → Prop} (c : Char) (rest : List Char)
    (operator : registry.startsSequence c → motive (cutSequence registry (c :: rest)))
    (blank : Atom.isBlank c → motive ⟨(rest.takeWhile Atom.isBlank).length, .blank⟩)
    (feed : c = '\n' → motive ⟨0, .blank⟩)
    (string : c = '"' → motive (cutString rest))
    (char : c = '\'' → motive (cutChar rest))
    (word : motive ⟨(rest.takeWhile isWordPart).length,
      wordMeaning registry (String.ofList (c :: rest.takeWhile isWordPart))⟩)
    (number : ∀ value length, motive ⟨length, .token .number (some (.number value))⟩)
    (other : motive ⟨0, .rejected (.unexpectedCharacter c) []⟩) :
    motive (cut registry c rest) := by
  unfold cut
  by_cases starts : registry.startsSequence c
  · rw [if_pos starts]
    exact operator starts
  rw [if_neg starts]
  by_cases isBlank : Atom.isBlank c
  · rw [if_pos isBlank]
    exact blank isBlank
  rw [if_neg isBlank]
  by_cases isFeed : c = '\n'
  · rw [if_pos isFeed]
    exact feed isFeed
  rw [if_neg isFeed]
  by_cases quote : c = '"'
  · rw [if_pos quote]
    exact string quote
  rw [if_neg quote]
  by_cases single : c = '\''
  · rw [if_pos single]
    exact char single
  rw [if_neg single]
  by_cases starts : isWordStart c
  · rw [if_pos starts]
    exact word
  rw [if_neg starts]
  cases Atom.numeral? (c :: rest) with
  | some entry => exact number _ _
  | none => exact other

/-- Whatever an input begins with, its first piece reads as one of the kinds. -/
theorem reads_cut (sound : registry.Sound) (c : Char) (rest : List Char) :
    Reads registry before ((cut registry c rest).piece (.behind before) (c :: rest)) := by
  refine cut_cases (motive := fun cut =>
    Reads registry before (cut.piece (.behind before) (c :: rest))) c rest
    ?operator ?blank ?feed ?string ?char ?word ?number ?other
  case operator => exact fun _ => reads_cutSequence sound (c :: rest)
  case blank =>
    intro blank
    refine .blank (.inr ?_) rfl rfl rfl
    change ∀ d ∈ c :: rest.take (rest.takeWhile Atom.isBlank).length, Atom.isBlank d
    rw [take_takeWhile]
    intro d member
    rcases List.mem_cons.mp member with rfl | member
    · exact blank
    · exact List.mem_takeWhile_imp member
  case feed =>
    rintro rfl
    exact .blank (.inl rfl) rfl rfl rfl
  case string =>
    rintro rfl
    exact reads_cutString rest
  case char =>
    intro _
    unfold cutChar
    cases Atom.charBody? rest with
    | some entry => exact reads_token _ _
    | none => exact reads_rejected _ List.nil_prefix
  case word =>
    unfold wordMeaning
    split <;> exact reads_token _ _
  case number => exact fun _ _ => reads_token _ _
  case other => exact reads_rejected _ List.nil_prefix

/-! ### The row of pieces -/

private theorem flatMap_ofSource (registry : Registry) (location : Location) (source : List Char) :
    (ofSource registry location source).flatMap Piece.text = source := by
  fun_induction ofSource registry location source with
  | case1 => rfl
  | case2 location c rest first text ih =>
    rw [List.flatMap_cons, ih]
    exact congrArg (c :: ·) (List.take_append_drop _ rest)

/-- Each piece is cut from where the pieces before it end. -/
theorem cut_ofSource {source : List Char} {earlier later : List Piece} {piece : Piece}
    (row : ofSource registry (.behind before) source = earlier ++ piece :: later) :
    ∃ c rest, source = earlier.flatMap Piece.text ++ c :: rest ∧
      piece = (cut registry c rest).piece (.behind (before ++ earlier.flatMap Piece.text))
        (c :: rest) := by
  induction earlier generalizing before source with
  | nil =>
    cases source with
    | nil => simp [ofSource] at row
    | cons c rest =>
      rw [ofSource] at row
      obtain ⟨rfl, _⟩ := List.cons.inj row
      rw [List.flatMap_nil, List.append_nil]
      exact ⟨c, rest, rfl, rfl⟩
  | cons first earlier ih =>
    cases source with
    | nil => simp [ofSource] at row
    | cons c rest =>
      rw [ofSource] at row
      obtain ⟨rfl, behind⟩ := List.cons.inj row
      rw [← Location.advance_start, ← Location.advance_append, Location.advance_start] at behind
      obtain ⟨d, remaining, split, whole⟩ := ih behind
      refine ⟨d, remaining, ?_, ?_⟩
      · rw [List.flatMap_cons, List.append_assoc, ← split]
        exact congrArg (c :: ·) (List.take_append_drop _ rest).symm
      · rw [List.flatMap_cons, ← List.append_assoc]
        exact whole

/-- Each piece reads as one of the kinds behind the pieces before it. -/
theorem reads_ofSource (sound : registry.Sound) {source : List Char} {earlier later : List Piece}
    {piece : Piece} (row : ofSource registry (.behind before) source = earlier ++ piece :: later) :
    piece.text ≠ [] ∧ piece.Reads registry (before ++ earlier.flatMap Piece.text) := by
  obtain ⟨c, rest, _, rfl⟩ := cut_ofSource row
  exact ⟨List.cons_ne_nil _ _, reads_cut sound c rest⟩

/-- Each piece of a source is cut behind some characters of it. -/
theorem cut_of_mem {source : List Char} {piece : Piece}
    (member : piece ∈ ofSource registry .start source) : ∃ before c rest,
      source = before ++ c :: rest ∧
      piece = (cut registry c rest).piece (.behind before) (c :: rest) := by
  obtain ⟨earlier, later, row⟩ := List.append_of_mem member
  have start : ofSource registry (.behind []) source = earlier ++ piece :: later := row
  obtain ⟨c, rest, split, whole⟩ := cut_ofSource start
  exact ⟨_, c, rest, split, whole⟩

end Piece

/-- The tokens of a source, before the mark at its end, are cut from it. -/
theorem tokens_of_scan {registry : Registry} {source : String} {scanned : Scanned}
    (read : scan registry source = .ok scanned) :
    ∃ row, scanned.tokens.toList = row ++ [Token.endOfInput (.behind source.toList)] ∧
      ∀ token ∈ row, ∃ before c rest, source.toList = before ++ c :: rest ∧
        ((Piece.cut registry c rest).piece (.behind before) (c :: rest)).token? = some token := by
  unfold scan at read
  dsimp only at read
  split at read
  · cases read
    refine ⟨_, by simp only [Array.toList_push, Location.advance_start]; rfl, ?_⟩
    intro token member
    obtain ⟨piece, cut, found⟩ := List.mem_filterMap.mp member
    obtain ⟨before, c, rest, split, rfl⟩ := Piece.cut_of_mem cut
    exact ⟨before, c, rest, split, found⟩
  · cases read

/-- The faults of a source are those of pieces that are cut from it. -/
theorem faults_of_scan {registry : Registry} {source : String} {faults : List (Located LexFault)}
    (read : scan registry source = .error faults) {fault : Located LexFault}
    (member : fault ∈ faults) : ∃ before c rest, source.toList = before ++ c :: rest ∧
      ((Piece.cut registry c rest).piece (.behind before) (c :: rest)).fault? = some fault := by
  unfold scan at read
  dsimp only at read
  split at read
  · cases read
  · cases read
    obtain ⟨piece, cut, found⟩ := List.mem_filterMap.mp member
    obtain ⟨before, c, rest, split, rfl⟩ := Piece.cut_of_mem cut
    exact ⟨before, c, rest, split, found⟩

/-- A source text reads as a row of pieces that loses nothing: each holds characters and reads as
one of the kinds, behind the pieces before it. Without faults the reading ends well, with the
tokens and comments of the pieces in order and a mark at the end; otherwise with the faults of
the pieces in order. -/
theorem scan_accounts (base : Registry) (given : base = .empty ∨ base = .standard)
    (calls : List Registration) (source : String) :
    let registry := base.afterAll calls
    ∃ pieces : List Piece, pieces.flatMap Piece.text = source.toList ∧
      (∀ earlier piece later, pieces = earlier ++ piece :: later →
        piece.text ≠ [] ∧ piece.Reads registry (earlier.flatMap Piece.text)) ∧
      ((∀ piece ∈ pieces, piece.fault? = none) → scan registry source = .ok {
        tokens := (pieces.filterMap Piece.token?).toArray.push
          (Token.endOfInput (.behind source.toList))
        comments := (pieces.filterMap Piece.comment?).toArray }) ∧
      ((∃ piece ∈ pieces, piece.fault?.isSome) →
        scan registry source = .error (pieces.filterMap Piece.fault?)) := by
  intro registry
  have start := Registry.sound_given given
  have sound : registry.Sound := start.afterAll calls
  have row : Piece.ofSource registry .start source.toList =
      Piece.ofSource registry (.behind []) source.toList := rfl
  refine ⟨Piece.ofSource registry .start source.toList, Piece.flatMap_ofSource .., ?_, ?_, ?_⟩
  · intro earlier piece later split
    rw [row] at split
    exact Piece.reads_ofSource sound split
  · intro whole
    have none : (Piece.ofSource registry .start source.toList).filterMap Piece.fault? = [] :=
      List.filterMap_eq_nil_iff.mpr whole
    unfold scan
    simp only [none, Location.advance_start]
  · rintro ⟨piece, member, faulty⟩
    obtain ⟨fault, found⟩ := Option.isSome_iff_exists.mp faulty
    have listed := List.mem_filterMap.mpr ⟨piece, member, found⟩
    unfold scan
    dsimp only
    split
    · rename_i none
      rw [none] at listed
      cases listed
    · rfl

/-- A source with an operator of the host, a comment and a literal with a bad escape. -/
def piecesSample : String := "a <==> b; // note\n\"bad \\q\";"

/-- The sample falls into pieces, and scanning fails with the faults of those that have one. -/
theorem scan_accounts_piecesSample :
    let registry := Registry.standard.afterAll arrowSample
    (Registry.standard = .empty ∨ Registry.standard = .standard) ∧
    ∃ pieces : List Piece, pieces.flatMap Piece.text = piecesSample.toList ∧
      (∀ earlier piece later, pieces = earlier ++ piece :: later →
        piece.text ≠ [] ∧ piece.Reads registry (earlier.flatMap Piece.text)) ∧
      ((∃ piece ∈ pieces, piece.fault?.isSome) →
        scan registry piecesSample = .error (pieces.filterMap Piece.fault?)) := by
  obtain ⟨pieces, text, reads, _, faults⟩ :=
    scan_accounts .standard (.inr rfl) arrowSample piecesSample
  exact ⟨.inr rfl, pieces, text, reads, faults⟩

/-- The escape is the only fault of the sample. -/
example : (match scan (Registry.standard.afterAll arrowSample) piecesSample with
    | .ok _ => []
    | .error faults => faults) = [⟨.invalidEscape 'q', ⟨2, 6⟩⟩] := by decide +kernel

end Scriptlet
