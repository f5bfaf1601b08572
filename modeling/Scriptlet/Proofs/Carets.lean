import Scriptlet.Proofs.Excerpt
import Scriptlet.Proofs.Token.Granting

/-!
# Carets under tokens and faults

A token is located where its lexeme begins, and a fault where what it rejects begins
(`LexFault.Rejects`). Neither is a part of what ends a line, so a diagnostic at such a location
points at the first character of the lexeme, or of what is rejected (`caret_on_culprit`). Its header
is one line, unless it quotes an escape that is a line feed.
-/

namespace Scriptlet

/-- What a fault rejects begins with a character, before what follows it in the source. -/
inductive LexFault.Rejects (registry : Registry) : LexFault → Char → List Char → Prop
  | character (c : Char) (rest : List Char) : Rejects registry (.unexpectedCharacter c) c rest
  | sequence {c : Char} {rest : List Char} {sequence : String} : sequence ≠ "" →
      (∀ d ∈ sequence.toList, d ∈ tokenCharacters) → sequence.toList <+: c :: rest →
      Rejects registry (.unknownSequence sequence) c rest
  | string (rest : List Char) : Rejects registry .unterminatedString '"' rest
  | escape (escape : Char) (rest : List Char) :
      Rejects registry (.invalidEscape escape) '\\' (escape :: rest)
  | char (rest : List Char) : Rejects registry .invalidCharLiteral '\'' rest
  | comment {c : Char} {rest : List Char} {opening : TokenKind} {marker : String} :
      (opening, marker) ∈ registry.sequences → marker ≠ "" →
      registry.commentKind? opening = some .block → marker.toList <+: c :: rest →
      Rejects registry .unterminatedComment c rest

private theorem feed_mem_quoted (opening quoted closing : String) (first : '\n' ∉ opening.toList)
    (last : '\n' ∉ closing.toList) :
    '\n' ∈ (opening ++ quoted ++ closing).toList ↔ '\n' ∈ quoted.toList := by
  rw [String.toList_append, String.toList_append, List.mem_append, List.mem_append]
  exact ⟨fun member => (member.resolve_right last).resolve_left first, fun member =>
    .inl (.inr member)⟩

private theorem mem_toString {c d : Char} : c ∈ d.toString.toList ↔ c = d := by
  rw [Char.toString_eq_singleton, String.toList_singleton, List.mem_singleton]

/-- The wording of a fault has a line feed only if it quotes one as an escape. -/
theorem LexFault.Rejects.feed_mem_message {registry : Registry} {cause : LexFault} {culprit : Char}
    {rest : List Char} (rejects : cause.Rejects registry culprit rest) (visible : culprit ≠ '\n') :
    '\n' ∈ cause.message.toList ↔ cause = .invalidEscape '\n' := by
  cases rejects with
  | character =>
    have quoted :=
      feed_mem_quoted "Unexpected character '" culprit.toString "'" (by decide) (by decide)
    rw [iff_false_intro (show unexpectedCharacter culprit ≠ invalidEscape '\n' by simp), iff_false]
    intro member
    exact visible (mem_toString.mp (quoted.mp member)).symm
  | @sequence _ _ sequence _ symbols _ =>
    have quoted := feed_mem_quoted "Unrecognized token sequence '" sequence "'"
      (by decide) (by decide)
    rw [iff_false_intro (show unknownSequence sequence ≠ invalidEscape '\n' by simp), iff_false]
    intro member
    exact absurd (symbols _ (quoted.mp member)) (by decide)
  | escape escape rest =>
    have quoted :=
      feed_mem_quoted "Invalid escape sequence '\\" escape.toString "'" (by decide) (by decide)
    refine quoted.trans (mem_toString.trans ?_)
    rw [invalidEscape.injEq]
    exact eq_comm
  | string rest => decide
  | char rest => decide
  | comment _ _ _ _ => decide

namespace Registry

variable {registry : Registry}

/-- An operator begins with a character that operators have. -/
theorem Sound.symbol_of_startsSequence (sound : registry.Sound) (symbols : registry.Symbolic)
    {c : Char} (starts : registry.startsSequence c) : c ∈ tokenCharacters := by
  obtain ⟨child, found⟩ := Option.isSome_iff_exists.mp starts
  have path : registry.operators.HasPath [c] :=
    Trie.hasPath_cons.mpr ⟨child, found, Trie.hasPath_nil child⟩
  rcases (sound.paths [c]).mp path with none | ⟨kind, sequence, bound, begins⟩
  · cases none
  · exact symbols _ bound c (begins.subset List.mem_cons_self)

end Registry

namespace Piece

variable {registry : Registry} {before : List Char}

/-- The fault of a piece is located where what it rejects begins, at the beginning of the piece or
at a backslash in it. -/
def Locates (registry : Registry) (before input : List Char) (piece : Piece) : Prop :=
  ∀ fault, piece.fault? = some fault → ∃ skipped culprit rest,
    input = skipped ++ culprit :: rest ∧ fault.location = .behind (before ++ skipped) ∧
    fault.cause.Rejects registry culprit rest ∧ (skipped = [] ∨ culprit = '\\')

private theorem locates_of_no_fault {input : List Char} {piece : Piece}
    (none : piece.fault? = none) :
    Locates registry before input piece := by
  intro fault found
  rw [none] at found
  cases found

private theorem locates_rejected {c : Char} {rest text : List Char} {cause : LexFault}
    (rejects : cause.Rejects registry c rest) :
    Locates registry before (c :: rest) ⟨text, .behind before, .rejected cause []⟩ := by
  intro fault found
  cases found
  exact ⟨[], c, rest, rfl, by rw [List.append_nil]; rfl, rejects, .inl rfl⟩

private theorem locates_cutSequence (sound : registry.Sound) (symbols : registry.Symbolic)
    {c : Char} (rest : List Char) (symbol : c ∈ tokenCharacters) :
    Locates registry before (c :: rest)
      ((cutSequence registry (c :: rest)).piece (.behind before) (c :: rest)) := by
  have longest := sound.isLongest_longestMatch (c :: rest)
  unfold cutSequence
  cases matched : registry.longestMatch (c :: rest) with
  | matched kind length =>
    rw [matched] at longest
    cases longest with
    | @matched marker _ bound begins _ =>
      dsimp only
      cases marks : registry.commentKind? kind with
      | none => exact locates_of_no_fault rfl
      | some comment =>
        cases comment with
        | line => exact locates_of_no_fault rfl
        | block =>
          unfold cutComment
          dsimp only
          split
          · exact locates_of_no_fault rfl
          · have filled : marker ≠ "" := by
              rintro rfl
              exact sound.filled kind bound
            exact locates_rejected (.comment bound filled marks begins)
  | unmatched length =>
    rw [matched] at longest
    cases longest with
    | @unmatched path _ begins inside _ =>
      have taken : (c :: rest).take (max 1 path.length) = [c] ∨
          (c :: rest).take (max 1 path.length) = path := by
        cases path with
        | nil => exact .inl rfl
        | cons d more =>
          have length : max 1 (d :: more).length = (d :: more).length := by
            rw [List.length_cons]
            omega
          rw [length]
          exact .inr (List.prefix_iff_eq_take.mp begins).symm
      refine locates_rejected (.sequence ?_ ?_ ?_)
      · intro none
        have length := congrArg String.length none
        rw [String.length_ofList, List.length_take, List.length_cons, String.length_empty] at length
        omega
      · rw [String.toList_ofList]
        intro d member
        rcases taken with first | whole
        · rw [first, List.mem_singleton] at member
          rwa [member]
        · rw [whole] at member
          rcases inside with rfl | ⟨sequence, kind, bound, short⟩
          · cases member
          · exact symbols _ bound d (short.subset member)
      · rw [String.toList_ofList]
        exact List.take_prefix _ _

/-- A bad escape is at its distance from the opening quote. -/
theorem survey_escape {input : List Char} {offset : Nat} {invalid : Option (Nat × Char)}
    {place : Nat} {escape : Char}
    (found : (Atom.survey offset invalid input).invalid = some (place, escape)) :
    invalid = some (place, escape) ∨ ∃ skipped rest,
      input = skipped ++ '\\' :: escape :: rest ∧ place = offset + skipped.length := by
  fun_induction Atom.survey offset invalid input with
  | case1 offset invalid => exact .inl found
  | case2 => exact .inl found
  | case3 => exact .inl found
  | case4 offset invalid other rest later ih =>
    rcases ih found with noted | ⟨skipped, more, rfl, distance⟩
    · unfold later at noted
      split at noted
      · cases noted
        exact .inr ⟨[], rest, rfl, rfl⟩
      · exact .inl noted
    · refine .inr ⟨'\\' :: other :: skipped, more, rfl, ?_⟩
      rw [distance, List.length_cons, List.length_cons]
      omega
  | case5 offset invalid c rest _ _ _ ih =>
    rcases ih found with noted | ⟨skipped, more, rfl, distance⟩
    · exact .inl noted
    · refine .inr ⟨c :: skipped, more, rfl, ?_⟩
      rw [distance, List.length_cons]
      omega

private theorem locates_cutString (rest : List Char) :
    Locates registry before ('"' :: rest)
      ((cutString rest).piece (.behind before) ('"' :: rest)) := by
  unfold cutString
  cases Atom.stringBody? rest with
  | some entry => exact locates_of_no_fault rfl
  | none =>
    dsimp only
    split
    · rename_i place escape _ found
      rcases survey_escape found with none | ⟨skipped, more, rfl, distance⟩
      · cases none
      · intro fault located
        cases located
        have shown : (skipped ++ '\\' :: escape :: more).take (place - 1) = skipped := by
          rw [distance, Nat.add_sub_cancel_left, List.take_left]
        refine ⟨'"' :: skipped, '\\', escape :: more, rfl, ?_, .escape escape more, .inr rfl⟩
        rw [shown, ← Location.advance_start, ← Location.advance_start, Location.advance_append]
        rfl
    · exact locates_rejected (.string rest)

/-- The fault of a piece is located where what it rejects begins. -/
theorem locates_cut (sound : registry.Sound) (symbols : registry.Symbolic) (c : Char)
    (rest : List Char) :
    Locates registry before (c :: rest) ((cut registry c rest).piece (.behind before)
      (c :: rest)) := by
  refine cut_cases (motive := fun cut =>
    Locates registry before (c :: rest) (cut.piece (.behind before) (c :: rest))) c rest
    ?operator ?blank ?feed ?string ?char ?word ?number ?other
  case operator =>
    exact fun starts =>
      locates_cutSequence sound symbols rest (sound.symbol_of_startsSequence symbols starts)
  case blank => exact fun _ => locates_of_no_fault rfl
  case feed => exact fun _ => locates_of_no_fault rfl
  case string =>
    rintro rfl
    exact locates_cutString rest
  case char =>
    rintro rfl
    unfold cutChar
    cases Atom.charBody? rest with
    | some entry => exact locates_of_no_fault rfl
    | none => exact locates_rejected (.char rest)
  case word =>
    unfold wordMeaning
    split <;> exact locates_of_no_fault rfl
  case number => exact fun _ _ => locates_of_no_fault rfl
  case other => exact locates_rejected (.character c rest)

/-- What may end a line is blank, so nothing else begins with it. -/
theorem visible_of_cut (sound : registry.Sound) (symbols : registry.Symbolic)
    {c : Char} {rest : List Char} (seen : (cut registry c rest).meaning ≠ .blank) :
    c ≠ '\n' ∧ c ≠ '\r' := by
  have operator (other : c ∉ tokenCharacters) : ¬ registry.startsSequence c :=
    fun starts => other (sound.symbol_of_startsSequence symbols starts)
  constructor
  · rintro rfl
    apply seen
    rw [cut, if_neg (operator (by decide))]
    rfl
  · rintro rfl
    apply seen
    rw [cut, if_neg (operator (by decide))]
    rfl

/-- A token is located where its lexeme begins. -/
theorem lexeme_of_cut {c : Char} {rest : List Char} {token : Token}
    (found : ((cut registry c rest).piece (.behind before) (c :: rest)).token? = some token) :
    token.location = .behind before ∧
      (∃ more, token.lexeme.toList = c :: more) ∧ token.lexeme.toList <+: c :: rest := by
  unfold token? at found
  split at found
  · cases found
    change Location.behind before = _ ∧ (∃ more, (String.ofList _).toList = _) ∧
      (String.ofList _).toList <+: _
    rw [String.toList_ofList]
    exact ⟨rfl, ⟨_, List.take_succ_cons⟩, List.take_prefix _ _⟩
  · cases found

end Piece

open Diagnostic in
/-- A diagnostic at the location of a token points at the first character of its lexeme, and one at
the location of a fault at the first character of what the fault rejects. Its header is one line if
the message is, and that of a fault is unless it quotes an escape that is a line feed. -/
theorem caret_on_culprit (base : Registry) (given : base = .empty ∨ base = .standard)
    (calls : List Registration) (source : String) (phase : Phase) :
    let registry := base.afterAll calls
    (∀ scanned, scan registry source = .ok scanned → ∀ token ∈ scanned.tokens.toList.dropLast,
      ∃ before culprit rest, source.toList = before ++ culprit :: rest ∧
        (∃ more, token.lexeme.toList = culprit :: more) ∧
        token.lexeme.toList <+: culprit :: rest ∧
        ∀ message, PointsAt source.toList before culprit token.location
            (header phase message token.location)
            (render source phase message token.location).toList ∧
          ('\n' ∈ header phase message token.location ↔ '\n' ∈ message.toList)) ∧
    ∀ faults, scan registry source = .error faults → ∀ fault ∈ faults,
      ∃ before culprit rest, source.toList = before ++ culprit :: rest ∧
        fault.cause.Rejects registry culprit rest ∧
        PointsAt source.toList before culprit fault.location
          (header phase fault.cause.message fault.location)
          (render source phase fault.cause.message fault.location).toList ∧
        ('\n' ∈ header phase fault.cause.message fault.location ↔
          fault.cause = .invalidEscape '\n') := by
  intro registry
  have sound : registry.Sound := (Registry.sound_given given).afterAll calls
  have symbols : registry.Symbolic := (Registry.symbolic_given given).afterAll calls
  constructor
  · intro scanned read token member
    obtain ⟨row, tokens, cut⟩ := tokens_of_scan read
    rw [tokens, List.dropLast_concat] at member
    obtain ⟨before, c, rest, split, found⟩ := cut token member
    obtain ⟨location, first, whole⟩ := Piece.lexeme_of_cut found
    have visible := Piece.visible_of_cut sound symbols fun blank => by
      rw [Piece.token?, Piece.Cut.piece, blank] at found
      cases found
    refine ⟨before, c, rest, split, first, whole, fun message => ?_⟩
    rw [location]
    exact ⟨pointsAt split visible.1 visible.2 phase message, feed_mem_header phase message _⟩
  · intro faults read fault member
    obtain ⟨before, c, rest, split, found⟩ := faults_of_scan read member
    obtain ⟨skipped, culprit, more, input, location, rejects, place⟩ :=
      Piece.locates_cut sound symbols c rest fault found
    have visible : culprit ≠ '\n' ∧ culprit ≠ '\r' := by
      rcases place with rfl | rfl
      · obtain ⟨rfl, _⟩ := List.cons.inj input
        exact Piece.visible_of_cut sound symbols fun blank => by
          rw [Piece.fault?, Piece.Cut.piece, blank] at found
          cases found
      · decide
    rw [input, ← List.append_assoc] at split
    refine ⟨before ++ skipped, culprit, more, split, rejects, ?_, ?_⟩
    · rw [location]
      exact pointsAt split visible.1 visible.2 phase _
    · rw [feed_mem_header]
      exact rejects.feed_mem_message visible.1

/-- A closed literal in which a backslash stands at the end of a line. -/
def escapedFeedSample : String := "\"a\\\nb\""

/-- The header of its fault takes two lines, and the excerpt and the caret come after them. -/
theorem caret_on_culprit_escapedFeedSample :
    let fault : Located LexFault := ⟨.invalidEscape '\n', ⟨1, 3⟩⟩
    let above := Diagnostic.header .tokenizing fault.cause.message fault.location
    (Registry.standard = .empty ∨ Registry.standard = .standard) ∧
    scan .standard escapedFeedSample = .error [fault] ∧ '\n' ∈ above ∧
    Diagnostic.render escapedFeedSample .tokenizing fault.cause.message fault.location =
      "Tokenizing error at 1:3: Invalid escape sequence '\\\n'\n\"a\\\n  ^" ∧
    ∃ before culprit rest, escapedFeedSample.toList = before ++ culprit :: rest ∧
      fault.cause.Rejects .standard culprit rest ∧
      Diagnostic.PointsAt escapedFeedSample.toList before culprit fault.location above
        (Diagnostic.render escapedFeedSample .tokenizing fault.cause.message
          fault.location).toList := by
  have found : (Piece.ofSource .standard .start escapedFeedSample.toList).filterMap Piece.fault? =
      [⟨.invalidEscape '\n', ⟨1, 3⟩⟩] := by decide +kernel
  have read : scan .standard escapedFeedSample = .error [⟨.invalidEscape '\n', ⟨1, 3⟩⟩] := by
    unfold scan
    simp only [found]
  have given : Registry.standard = .empty ∨ Registry.standard = .standard := .inr rfl
  obtain ⟨before, culprit, rest, split, rejects, points, fed⟩ :=
    (caret_on_culprit .standard given [] escapedFeedSample .tokenizing).2 _ read _
      List.mem_cons_self
  exact ⟨given, read, fed.mpr rfl, by decide +kernel, before, culprit, rest, split, rejects, points⟩

end Scriptlet
