import Scriptlet.Proofs.SourcePieces
import Scriptlet.Proofs.Token.Granting

/-!
# Token streams

A token comes from an operator sequence or from an atom. The two ways differ in what they do with
the kind a host has bound (`Token.Spelled`): a sequence of a comment kind opens a comment, but a
word of this kind is a token; a word of a kind with a value writes it out, but a sequence of this
kind has no value. No way looks at whether the kind is the one of the end mark
(`stream_well_formed`).
-/

namespace Scriptlet

/-- The value that a reserved word of this kind writes out. -/
def TokenKind.literal? : TokenKind → Option Literal
  | .word .trueWord => some (.bool true)
  | .word .falseWord => some (.bool false)
  | .word .nilWord => some .nil
  | _ => none

/-- How a token comes out of its lexeme: as an operator, a reserved word, another word, or a
literal. -/
inductive Token.Spelled (registry : Registry) (token : Token) : Prop where
  | operator (bound : (token.kind, token.lexeme) ∈ registry.sequences)
      (silent : registry.commentKind? token.kind = none) (bare : token.literal = none)
  | reserved (word : registry.keyword? token.lexeme = some token.kind)
      (literal : token.literal = token.kind.literal?)
  | name (kind : token.kind = .identifier)
  | literal (kind : token.kind = .string ∨ token.kind = .char ∨ token.kind = .number)

namespace Piece

variable {registry : Registry} {location : Location}

/-- What a piece is read as, if it is a token, is spelled by its text. -/
def Spells (registry : Registry) (piece : Piece) : Prop :=
  ∀ token, piece.token? = some token → token.Spelled registry

private theorem spells_of_no_token {piece : Piece} (other : piece.token? = none) :
    Spells registry piece := by
  intro token found
  rw [other] at found
  cases found

private theorem spells_token {text : List Char} {kind : TokenKind} {literal : Option Literal}
    (spelled : Token.Spelled registry ⟨kind, String.ofList text, literal, location⟩) :
    Spells registry ⟨text, location, .token kind literal⟩ := by
  intro token found
  cases found
  exact spelled

private theorem spells_cutSequence (sound : registry.Sound) (input : List Char) :
    Spells registry ((cutSequence registry input).piece location input) := by
  have longest := sound.isLongest_longestMatch input
  unfold cutSequence
  cases matched : registry.longestMatch input with
  | matched kind length =>
    rw [matched] at longest
    cases longest with
    | @matched marker _ bound begins _ =>
      dsimp only
      cases marks : registry.commentKind? kind with
      | some comment =>
        apply spells_of_no_token
        cases comment with
        | line => rfl
        | block =>
          unfold cutComment
          dsimp only
          split <;> rfl
      | none =>
        have positive : 0 < marker.length := by
          rw [← String.length_toList]
          refine List.length_pos_iff.mpr fun none => sound.filled kind ?_
          rw [← String.toList_eq_nil_iff.mp none]
          exact bound
        have text : input.take (marker.length - 1 + 1) = marker.toList := by
          rw [Nat.sub_add_cancel positive, ← String.length_toList]
          exact (List.prefix_iff_eq_take.mp begins).symm
        apply spells_token
        rw [text, String.ofList_toList]
        exact .operator bound marks rfl
  | unmatched length => exact spells_of_no_token rfl

private theorem spells_wordMeaning (word : List Char) :
    Spells registry ⟨word, location, wordMeaning registry (String.ofList word)⟩ := by
  unfold wordMeaning
  split
  · rename_i found
    exact spells_token (.reserved found rfl)
  · rename_i found
    exact spells_token (.reserved found rfl)
  · rename_i found
    exact spells_token (.reserved found rfl)
  · rename_i kind notTrue notFalse notNil found
    refine spells_token (.reserved found ?_)
    change none = kind.literal?
    unfold TokenKind.literal?
    split
    · exact absurd rfl notTrue
    · exact absurd rfl notFalse
    · exact absurd rfl notNil
    · rfl
  · exact spells_token (.name rfl)

/-- Whatever an input begins with, a token that is cut from it is spelled by its text. -/
theorem spells_cut (sound : registry.Sound) (c : Char) (rest : List Char) :
    Spells registry ((cut registry c rest).piece location (c :: rest)) := by
  refine cut_cases (motive := fun cut => Spells registry (cut.piece location (c :: rest))) c rest
    ?operator ?blank ?feed ?string ?char ?word ?number ?other
  case operator => exact fun _ => spells_cutSequence sound (c :: rest)
  case blank => exact fun _ => spells_of_no_token rfl
  case feed => exact fun _ => spells_of_no_token rfl
  case string =>
    intro _
    unfold cutString
    cases Atom.stringBody? rest with
    | some entry => exact spells_token (.literal (.inl rfl))
    | none =>
      apply spells_of_no_token
      dsimp only
      split <;> rfl
  case char =>
    intro _
    unfold cutChar
    cases Atom.charBody? rest with
    | some entry => exact spells_token (.literal (.inr (.inl rfl)))
    | none => exact spells_of_no_token rfl
  case word =>
    have text : (c :: rest).take ((rest.takeWhile isWordPart).length + 1) =
        c :: rest.takeWhile isWordPart := congrArg (c :: ·) (take_takeWhile _ rest)
    unfold Cut.piece
    dsimp only
    rw [text]
    exact spells_wordMeaning _
  case number => exact fun _ _ => spells_token (.literal (.inr (.inr rfl)))
  case other => exact spells_of_no_token rfl

end Piece

/-! ### What a host may do to a stream -/

namespace Registry

/-- The registries that are given bind nothing to the end mark, no sequence to a kind with a value,
and no word or literal to a kind that opens comments. -/
theorem given_orderly {base : Registry} (given : base = .empty ∨ base = .standard) :
    (∀ entry ∈ base.sequences, entry.1 ≠ .endOfInput ∧ entry.1.literal?.isNone) ∧
    (∀ entry ∈ base.keywords, entry.2 ≠ .endOfInput ∧ base.commentKind? entry.2 = none) ∧
    ∀ kind ∈ [TokenKind.identifier, .string, .char, .number], base.commentKind? kind = none := by
  rcases given with rfl | rfl
  · decide
  · decide +kernel

end Registry

namespace Token.Spelled

variable {base : Registry} {calls : List Registration} {token : Token}

/-- A word is reserved by what is given or by a call. -/
theorem reserved_by {word : String} {kind : TokenKind}
    (found : (base.afterAll calls).keyword? word = some kind) :
    (word, kind) ∈ base.keywords ∨ base.Granted calls (.keyword word kind) := by
  obtain ⟨newer, older, table, _⟩ := List.lookup_eq_some_iff.mp found
  apply Registry.reserved_afterAll
  rw [table]
  exact List.mem_append_right _ List.mem_cons_self

/-- A token before the end has the kind of the end mark only if the host has bound its lexeme to
this kind. -/
theorem stray_end (given : base = .empty ∨ base = .standard)
    (spelled : token.Spelled (base.afterAll calls)) (stray : token.kind = .endOfInput) :
    (∃ category, base.Granted calls (.operator .endOfInput token.lexeme category)) ∨
      base.Granted calls (.keyword token.lexeme .endOfInput) := by
  obtain ⟨sequences, keywords, _⟩ := Registry.given_orderly given
  cases spelled with
  | operator bound _ _ =>
    rw [Registry.mem_sequences_iff (Registry.sound_given given), stray] at bound
    have builtin (id : Nat) : TokenKind.endOfInput ≠ .custom id := by
      intro same
      cases same
    rcases Registry.bound_afterAll builtin bound with member | granted
    · exact absurd rfl (sequences _ member).1
    · exact .inl granted
  | reserved word _ =>
    rw [stray] at word
    rcases reserved_by word with member | granted
    · exact absurd rfl (keywords _ member).1
    · exact .inr granted
  | name kind => cases kind.symm.trans stray
  | literal kind => rcases kind with kind | kind | kind <;> cases kind.symm.trans stray

/-- A token has a kind that opens comments only if the host has reserved its lexeme for it. -/
theorem stray_comment (given : base = .empty ∨ base = .standard)
    (spelled : token.Spelled (base.afterAll calls))
    (marks : ((base.afterAll calls).commentKind? token.kind).isSome) :
    base.Granted calls (.keyword token.lexeme token.kind) := by
  obtain ⟨_, keywords, others⟩ := Registry.given_orderly given
  have same (kind : TokenKind) : (base.afterAll calls).commentKind? kind =
    base.commentKind? kind := by
    rw [Registry.commentKind?, Registry.comments_afterAll]
    rfl
  have open? (kind : TokenKind) (closed : base.commentKind? kind = none) : token.kind ≠ kind := by
    rintro rfl
    rw [same, closed] at marks
    cases marks
  cases spelled with
  | operator _ silent _ =>
    rw [silent] at marks
    cases marks
  | reserved word _ =>
    rcases reserved_by word with member | granted
    · exact absurd rfl (open? _ (keywords _ member).2)
    · exact granted
  | name kind => exact absurd kind (open? _ (others _ (by decide)))
  | literal kind =>
    rcases kind with kind | kind | kind <;> exact absurd kind (open? _ (others _ (by decide)))

/-- A token of a kind with a value writes it out, unless it is an operator of the host. -/
theorem value (given : base = .empty ∨ base = .standard)
    (spelled : token.Spelled (base.afterAll calls)) {written : Literal}
    (valued : token.kind.literal? = some written) :
    (base.afterAll calls).keyword? token.lexeme = some token.kind ∧ token.literal = some written ∨
      token.literal = none ∧
        ∃ category, base.Granted calls (.operator token.kind token.lexeme category) := by
  obtain ⟨sequences, _, _⟩ := Registry.given_orderly given
  cases spelled with
  | operator bound _ bare =>
    have builtin (id : Nat) : token.kind ≠ .custom id := by
      intro custom
      rw [custom] at valued
      cases valued
    rw [Registry.mem_sequences_iff (Registry.sound_given given)] at bound
    rcases Registry.bound_afterAll builtin bound with member | granted
    · have without := (sequences _ member).2
      rw [valued] at without
      cases without
    · exact .inr ⟨bare, granted⟩
  | reserved word literal => exact .inl ⟨word, literal.trans valued⟩
  | name kind =>
    rw [kind] at valued
    cases valued
  | literal kind =>
    rcases kind with kind | kind | kind <;>
    · rw [kind] at valued
      cases valued

end Token.Spelled

/-- A token stream ends with a mark behind the source. Before it, a token is another end mark only
if the host has bound its lexeme to this kind, and of a kind that opens comments only if the host
has reserved its lexeme for this kind; a token of a kind with a value has this value, unless it is
no word but an operator that the host has bound to the kind. -/
theorem stream_well_formed (base : Registry) (given : base = .empty ∨ base = .standard)
    (calls : List Registration) (source : String) (scanned : Scanned)
    (read : scan (base.afterAll calls) source = .ok scanned) :
    let registry := base.afterAll calls
    ∃ row, scanned.tokens.toList = row ++ [Token.endOfInput (.behind source.toList)] ∧
      ∀ token ∈ row,
        (token.kind = .endOfInput →
          (∃ category, base.Granted calls (.operator .endOfInput token.lexeme category)) ∨
            base.Granted calls (.keyword token.lexeme .endOfInput)) ∧
        ((registry.commentKind? token.kind).isSome →
          base.Granted calls (.keyword token.lexeme token.kind)) ∧
        ∀ value, token.kind.literal? = some value →
          registry.keyword? token.lexeme = some token.kind ∧ token.literal = some value ∨
            token.literal = none ∧
              ∃ category, base.Granted calls (.operator token.kind token.lexeme category) := by
  intro registry
  have sound : registry.Sound := (Registry.sound_given given).afterAll calls
  obtain ⟨row, tokens, cut⟩ := tokens_of_scan read
  refine ⟨row, tokens, ?_⟩
  intro token member
  obtain ⟨_, c, rest, _, found⟩ := cut token member
  have spelling := Piece.spells_cut sound c rest token found
  exact ⟨spelling.stray_end given, spelling.stray_comment given, fun _ => spelling.value given⟩

/-- A host that binds each kind in the way its tokens are not made for. -/
def strayingSample : List Registration :=
  [.operator (.word .trueWord) "@" .literal, .keyword "note" .hashComment,
    .keyword "end" .endOfInput]

/-- The sequence has no value, and the words are a comment marker and an end mark in mid-stream. -/
theorem stream_well_formed_strayingSample :
    let registry := Registry.standard.afterAll strayingSample
    (Registry.standard = .empty ∨ Registry.standard = .standard) ∧
    ∃ scanned, scan registry "true @ note end" = .ok scanned ∧
      scanned.tokens.toList.map Token.kind =
        [.word .trueWord, .word .trueWord, .hashComment, .endOfInput, .endOfInput] ∧
      scanned.tokens.toList.map (·.literal.isSome) = [true, false, false, false, false] ∧
      ∃ row, scanned.tokens.toList = row ++ [Token.endOfInput ⟨1, 16⟩] ∧
        ∀ token ∈ row, token.kind = .endOfInput →
          (∃ category, Registry.standard.Granted strayingSample
            (.operator .endOfInput token.lexeme category)) ∨
          Registry.standard.Granted strayingSample (.keyword token.lexeme .endOfInput) := by
  have kinds : ((scan (Registry.standard.afterAll strayingSample) "true @ note end").toOption.map
      fun scanned => (scanned.tokens.toList.map Token.kind,
        scanned.tokens.toList.map (·.literal.isSome))) =
      some ([.word .trueWord, .word .trueWord, .hashComment, .endOfInput, .endOfInput],
        [true, false, false, false, false]) := by decide +kernel
  cases read : scan (Registry.standard.afterAll strayingSample) "true @ note end" with
  | error faults =>
    rw [read] at kinds
    cases kinds
  | ok scanned =>
    rw [read] at kinds
    obtain ⟨kinds, values⟩ := Prod.mk.inj (Option.some.inj kinds)
    obtain ⟨row, tokens, strays⟩ :=
      stream_well_formed .standard (.inr rfl) strayingSample "true @ note end" scanned read
    exact ⟨.inr rfl, scanned, read, kinds, values, row, tokens,
      fun token member => (strays token member).1⟩

end Scriptlet
