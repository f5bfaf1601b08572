import Scriptlet.Proofs.Token.Bindings

/-!
# Longest matches

However a registry was extended, an input is matched with the longest sequence bound to the registry
that the input begins with (`SequenceMatch.IsLongest`). Where there is none, the part of the input
that begins some bound sequence is unmatched.
-/

namespace Scriptlet

/-- How an input is matched, told by nothing but what is bound. -/
inductive SequenceMatch.IsLongest (bound : String → TokenKind → Prop) (input : List Char) :
    SequenceMatch → Prop where
  | matched {sequence : String} {kind : TokenKind} : bound sequence kind →
      sequence.toList <+: input →
      (∀ other otherKind, bound other otherKind → other.toList <+: input →
        other.length ≤ sequence.length) →
      IsLongest bound input (.matched kind sequence.length)
  | unmatched {path : List Char} :
      (∀ sequence kind, bound sequence kind → ¬ sequence.toList <+: input) →
      path <+: input → (path = [] ∨ ∃ sequence kind, bound sequence kind ∧
        path <+: sequence.toList) →
      (∀ longer, longer <+: input →
        (∃ sequence kind, bound sequence kind ∧ longer <+: sequence.toList) →
        longer.length ≤ path.length) →
      IsLongest bound input (.unmatched (max 1 path.length))

namespace Registry

variable {registry : Registry}

/-- A registry matches as its list of bindings tells. -/
theorem Sound.isLongest_longestMatch (sound : registry.Sound) (input : List Char) :
    (registry.longestMatch input).IsLongest
      (fun sequence kind => (kind, sequence) ∈ registry.sequences) input := by
  -- A bound sequence that the input begins with is found at its length.
  have beginning (kind : TokenKind) (sequence : String)
      (bound : (kind, sequence) ∈ registry.sequences) (begins : sequence.toList <+: input) :
      sequence.length ≤ input.length ∧
        registry.operators.find? (input.take sequence.length) = some kind := by
    rw [← String.length_toList]
    refine ⟨begins.length_le, ?_⟩
    rw [← List.prefix_iff_eq_take.mp begins]
    exact (sound.found sequence kind).mpr bound
  have longest := Trie.isLongest_longest? input registry.operators
  unfold longestMatch
  cases matched : registry.operators.longest? input with
  | some entry =>
    obtain ⟨kind, length⟩ := entry
    rw [matched] at longest
    obtain ⟨within, found, maximal⟩ := longest
    have spelled : (String.ofList (input.take length)).length = length := by
      rw [String.length_ofList, List.length_take]
      omega
    dsimp only
    rw [← spelled]
    apply SequenceMatch.IsLongest.matched
    · rw [← sound.found, String.toList_ofList]
      exact found
    · rw [String.toList_ofList]
      exact List.take_prefix length input
    · intro other otherKind bound begins
      obtain ⟨inside, again⟩ := beginning otherKind other bound begins
      rw [spelled]
      by_contra longer
      rw [maximal other.length (by omega) inside] at again
      cases again
  | none =>
    rw [matched] at longest
    have inside := Trie.reach_le_length input registry.operators
    have spelled : (input.take (registry.operators.reach input)).length =
        registry.operators.reach input := by
      rw [List.length_take]
      omega
    dsimp only
    rw [← spelled]
    apply SequenceMatch.IsLongest.unmatched
    · intro sequence kind bound begins
      obtain ⟨within, found⟩ := beginning kind sequence bound begins
      rw [longest sequence.length within] at found
      cases found
    · exact List.take_prefix _ input
    · have has := (Trie.hasPath_take_iff inside registry.operators).mpr (Nat.le_refl _)
      rcases (sound.paths _).mp has with empty | ⟨kind, sequence, bound, short⟩
      · exact .inl empty
      · exact .inr ⟨sequence, kind, bound, short⟩
    · rintro longer begins ⟨sequence, kind, bound, short⟩
      have has := (sound.paths longer).mpr (.inr ⟨kind, sequence, bound, short⟩)
      rw [List.prefix_iff_eq_take.mp begins, Trie.hasPath_take_iff begins.length_le] at has
      rw [spelled]
      exact has

/-- What lies beyond the longest bound sequence never counts. -/
theorem Sound.longestMatch_take (sound : registry.Sound) (input : List Char) :
    registry.longestMatch (input.take registry.longestSequence) = registry.longestMatch input := by
  have deep (path : List Char) (has : registry.operators.HasPath path) :
      path.length ≤ registry.longestSequence := by
    rcases (sound.paths path).mp has with rfl | ⟨kind, sequence, bound, short⟩
    · exact Nat.zero_le _
    · have short := short.length_le
      have bounded := sound.longest kind sequence bound
      rw [String.length_toList] at short
      omega
  obtain ⟨matched, reached⟩ := Trie.match_take input deep
  unfold longestMatch
  rw [matched, reached]

end Registry

/-- After any calls on the registry without tokens or on that of the language: a refused call
changes nothing; what is bound stays bound, and to one kind; and an input is matched as the
bindings tell, whether or not it is cut at the length of the longest sequence. -/
theorem maximal_munch (base : Registry) (given : base = .empty ∨ base = .standard)
    (calls : List Registration) :
    let registry := base.afterAll calls
    (∀ call fault, call.perform registry = .error fault → registry.after call = registry) ∧
    (∀ further sequence kind, base.Bound calls sequence kind →
      base.Bound (calls ++ further) sequence kind) ∧
    (∀ sequence kind other, base.Bound calls sequence kind → base.Bound calls sequence other →
      kind = other) ∧
    (∀ sequence kind, base.Bound calls sequence kind →
      sequence.length ≤ registry.longestSequence) ∧
    (registry.longestSequence = 0 ∨ ∃ sequence kind, base.Bound calls sequence kind ∧
      sequence.length = registry.longestSequence) ∧
    ∀ input, (registry.longestMatch input).IsLongest (base.Bound calls) input ∧
      registry.longestMatch (input.take registry.longestSequence) =
        registry.longestMatch input := by
  intro registry
  have start := Registry.sound_given given
  have sound : registry.Sound := start.afterAll calls
  have told : (fun sequence kind => (kind, sequence) ∈ registry.sequences) = base.Bound calls := by
    funext sequence kind
    exact propext (Registry.mem_sequences_iff start)
  have listed (sequence : String) (kind : TokenKind) :
      (kind, sequence) ∈ registry.sequences ↔ base.Bound calls sequence kind :=
    Registry.mem_sequences_iff start
  refine ⟨?_, fun further sequence kind bound => bound.append further, ?_, ?_, ?_, ?_⟩
  · intro call fault refused
    unfold Registry.after
    rw [refused]
  · intro sequence kind other bound again
    rw [← listed] at bound again
    exact sound.unique bound again
  · intro sequence kind bound
    exact sound.longest kind sequence ((listed sequence kind).mpr bound)
  · rcases sound.attained with none | ⟨kind, sequence, member, length⟩
    · exact .inl none
    · exact .inr ⟨sequence, kind, (listed sequence kind).mp member, length⟩
  · intro input
    rw [← told]
    exact ⟨sound.isLongest_longestMatch input, sound.longestMatch_take input⟩

/-- A four-character operator, one that is refused, and a word. -/
def arrowSample : List Registration :=
  [.custom "LONG_ARROW" "<==>", .custom "PLUS_AGAIN" "+", .keyword "let" (.word .varWord)]

/-- The operator of the host is matched as a whole, and where its last character is missing the
longest beginning that is bound. -/
theorem maximal_munch_arrowSample :
    let registry := Registry.standard.afterAll arrowSample
    (Registry.standard = .empty ∨ Registry.standard = .standard) ∧
    registry.longestMatch "<==> x".toList = .matched (.custom 0) 4 ∧
    registry.longestMatch "<==!".toList = .matched .lessEqual 2 ∧
    (registry.longestMatch "<==> x".toList).IsLongest
      (Registry.standard.Bound arrowSample) "<==> x".toList ∧
    registry.longestMatch ("<==> x".toList.take registry.longestSequence) =
      registry.longestMatch "<==> x".toList := by
  have whole := maximal_munch .standard (.inr rfl) arrowSample
  exact ⟨.inr rfl, by decide +kernel, by decide +kernel, whole.2.2.2.2.2 "<==> x".toList⟩

end Scriptlet
