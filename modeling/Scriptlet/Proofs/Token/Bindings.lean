import Mathlib.Data.List.Nodup
import Scriptlet.Proofs.Token.Paths
import Scriptlet.Token.Standard

/-!
# What a registry binds

The calls that extend a registry (`Registration`) bind sequences to kinds. A registry keeps a list
of all that was bound to it next to the tree that is matched with; the two agree after any calls
(`Registry.Sound`), and no call binds a sequence to a second kind (`Registry.Sound.afterAll`).
-/

namespace Scriptlet

/-- A call that extends a registry. -/
inductive Registration where
  | operator (kind : TokenKind) (sequence : String) (category : TokenCategory)
  | custom (name sequence : String)
  | keyword (word : String) (kind : TokenKind)

namespace Registration

/-- The registry a call makes, or why it is refused. -/
def perform : Registration → Registry → Except RegistryFault Registry
  | operator kind sequence category, registry => registry.register kind sequence category
  | custom name sequence, registry => (registry.registerCustom name sequence).map Prod.snd
  | keyword word kind, registry => registry.registerKeyword word kind

/-- What a call binds if it is not refused. -/
def binding? (registry : Registry) : Registration → Option (TokenKind × String)
  | operator kind sequence _ => some (kind, sequence)
  | custom _ sequence => some (.custom registry.customNames.size, sequence)
  | keyword .. => none

end Registration

namespace Registry

/-- The registry a call leaves. -/
def after (registry : Registry) (call : Registration) : Registry :=
  match call.perform registry with
  | .ok extended => extended
  | .error _ => registry

/-- The registry some calls leave. -/
def afterAll (registry : Registry) (calls : List Registration) : Registry :=
  calls.foldl after registry

/-- The last of some calls is made on the registry that the others leave. -/
theorem afterAll_concat (registry : Registry) (calls : List Registration) (call : Registration) :
    registry.afterAll (calls ++ [call]) = (registry.afterAll calls).after call := by
  rw [afterAll, List.foldl_append]
  rfl

/-- The bindings of a registry: its tree finds what its list has, goes on along the beginnings of
what is bound, and is no deeper than the longest. -/
structure Sound (registry : Registry) : Prop where
  found : ∀ sequence kind, registry.operators.find? sequence.toList = some kind ↔
    (kind, sequence) ∈ registry.sequences
  paths : ∀ path, registry.operators.HasPath path ↔
    path = [] ∨ ∃ kind sequence, (kind, sequence) ∈ registry.sequences ∧ path <+: sequence.toList
  filled : ∀ kind, (kind, "") ∉ registry.sequences
  longest : ∀ kind sequence, (kind, sequence) ∈ registry.sequences →
    sequence.length ≤ registry.longestSequence
  attained : registry.longestSequence = 0 ∨ ∃ kind sequence,
    (kind, sequence) ∈ registry.sequences ∧ sequence.length = registry.longestSequence

variable {registry extended : Registry}

/-- A sequence is bound to one kind only. -/
theorem Sound.unique (sound : registry.Sound) {sequence : String} {kind other : TokenKind}
    (bound : (kind, sequence) ∈ registry.sequences)
    (again : (other, sequence) ∈ registry.sequences) : kind = other := by
  rw [← sound.found] at bound again
  exact Option.some.inj (bound.symm.trans again)

/-- Two registries match alike. -/
structure Alike (registry extended : Registry) : Prop where
  operators : extended.operators = registry.operators
  sequences : extended.sequences = registry.sequences
  longest : extended.longestSequence = registry.longestSequence

private theorem Sound.congr (sound : registry.Sound) (alike : registry.Alike extended) :
    extended.Sound := by
  obtain ⟨found, paths, filled, bounded, attained⟩ := sound
  constructor
  all_goals
    simp only [alike.operators, alike.sequences, alike.longest]
    assumption

private theorem sound_empty : empty.Sound where
  found sequence kind := by simp [empty, Trie.find?_empty]
  paths path := by simp [empty, Trie.hasPath_empty]
  filled kind := by simp [empty]
  longest kind sequence member := by simp [empty] at member
  attained := .inl rfl

/-- A sequence that is not bound, or bound to this kind, may be bound to it. -/
theorem Sound.bind (sound : registry.Sound) {kind : TokenKind} {sequence : String}
    (filled : sequence ≠ "")
    (free : ∀ existing, registry.operators.find? sequence.toList = some existing → existing = kind)
    (category : TokenCategory) : (registry.bind kind sequence category).Sound where
  found other otherKind := by
    change (registry.operators.insert sequence.toList kind).find? other.toList = _ ↔
      (otherKind, other) ∈ (kind, sequence) :: registry.sequences
    rw [Trie.find?_insert, List.mem_cons, Prod.mk.injEq, ← sound.found]
    by_cases same : other = sequence
    · subst same
      rw [if_pos rfl]
      constructor
      · intro equal
        exact .inl ⟨(Option.some.inj equal).symm, rfl⟩
      · rintro (⟨rfl, _⟩ | bound)
        · rfl
        · rw [free otherKind bound]
    · have distinct : other.toList ≠ sequence.toList := fun equal =>
        same (String.toList_inj.mp equal)
      simp [same, distinct]
  paths path := by
    change (registry.operators.insert sequence.toList kind).HasPath path ↔ path = [] ∨
      ∃ otherKind other, (otherKind, other) ∈ (kind, sequence) :: registry.sequences ∧ _
    rw [Trie.hasPath_insert, sound.paths]
    constructor
    · rintro ((rfl | ⟨otherKind, other, member, short⟩) | short)
      · exact .inl rfl
      · exact .inr ⟨otherKind, other, List.mem_cons_of_mem _ member, short⟩
      · exact .inr ⟨kind, sequence, List.mem_cons_self, short⟩
    · rintro (rfl | ⟨otherKind, other, member, short⟩)
      · exact .inl (.inl rfl)
      · rcases List.mem_cons.mp member with same | member
        · cases same
          exact .inr short
        · exact .inl (.inr ⟨otherKind, other, member, short⟩)
  filled otherKind member := by
    rcases List.mem_cons.mp member with same | member
    · cases same
      exact filled rfl
    · exact sound.filled otherKind member
  longest otherKind other member := by
    change other.length ≤ max registry.longestSequence sequence.length
    rcases List.mem_cons.mp member with same | member
    · cases same
      omega
    · have bounded := sound.longest otherKind other member
      omega
  attained := by
    change max registry.longestSequence sequence.length = 0 ∨ ∃ otherKind other,
      (otherKind, other) ∈ (kind, sequence) :: registry.sequences ∧
        other.length = max registry.longestSequence sequence.length
    by_cases longer : registry.longestSequence ≤ sequence.length
    · exact .inr ⟨kind, sequence, List.mem_cons_self, by omega⟩
    · rcases sound.attained with none | ⟨otherKind, other, member, length⟩
      · omega
      · exact .inr ⟨otherKind, other, List.mem_cons_of_mem _ member, by omega⟩

/-! ### The bindings of the language -/

/-- Distinct sequences that are not bound yet may be bound one after the other. -/
theorem Sound.foldl {Entry : Type} (step : Registry → Entry → Registry)
    (read : Entry → TokenKind × String × TokenCategory)
    (binds : ∀ (registry : Registry) entry,
      (registry.bind (read entry).1 (read entry).2.1 (read entry).2.2).Alike
      (step registry entry)) (entries : List Entry) :
    ∀ {registry : Registry}, registry.Sound → (∀ entry ∈ entries, (read entry).2.1 ≠ "") →
      (entries.map (fun entry => (read entry).2.1) ++ registry.sequences.map Prod.snd).Nodup →
      (entries.foldl step registry).Sound := by
  induction entries with
  | nil =>
    intro registry sound _ _
    exact sound
  | cons entry rest ih =>
    intro registry sound filled distinct
    rw [List.map_cons, List.cons_append, List.nodup_cons] at distinct
    obtain ⟨fresh, distinct⟩ := distinct
    have next : (step registry entry).Sound := by
      refine (sound.bind (filled entry List.mem_cons_self) ?_ _).congr (binds registry entry)
      intro existing bound
      have member := List.mem_map_of_mem (f := Prod.snd) ((sound.found _ _).mp bound)
      exact absurd (List.mem_append_right _ member) fresh
    apply ih next (fun later member => filled later (List.mem_cons_of_mem _ member))
    rw [(binds registry entry).sequences]
    change (_ ++ (read entry).2.1 :: registry.sequences.map Prod.snd).Nodup
    exact List.nodup_middle.mpr (List.nodup_cons.mpr ⟨fresh, distinct⟩)

private theorem sound_standard : standard.Sound := by
  have operators := Sound.foldl
    (fun registry (entry : TokenKind × String × TokenCategory) =>
      registry.bind entry.1 entry.2.1 entry.2.2)
    id (fun _ _ => ⟨rfl, rfl, rfl⟩) standardOperators sound_empty (by decide) (by decide)
  have comments := Sound.foldl
    (fun registry (entry : TokenKind × String × CommentKind) =>
      { registry.bind entry.1 entry.2.1 .comment with
        comments := (entry.1, entry.2.2) :: registry.comments })
    (fun entry => (entry.1, entry.2.1, .comment)) (fun _ _ => ⟨rfl, rfl, rfl⟩)
    standardComments operators (by decide) (by decide)
  have alike (words : List (String × Keyword)) : ∀ registry : Registry,
      registry.Alike (words.foldl (fun registry entry =>
        { registry with
          keywords := (entry.1, .word entry.2) :: registry.keywords
          categories := (.word entry.2, keywordCategory entry.2) :: registry.categories })
        registry) := by
    induction words with
    | nil =>
      intro registry
      exact ⟨rfl, rfl, rfl⟩
    | cons word rest ih =>
      intro registry
      obtain ⟨operators, sequences, longest⟩ := ih _
      exact ⟨operators, sequences, longest⟩
  exact comments.congr (alike standardKeywords _)

/-- A registry that is given, before the host calls anything. -/
theorem sound_given {base : Registry} (given : base = .empty ∨ base = .standard) : base.Sound := by
  rcases given with rfl | rfl
  · exact sound_empty
  · exact sound_standard

/-! ### Calls -/

/-- Two checks pass if both do, one after the other. -/
theorem checks_eq_ok {α β : Type} {check : Except RegistryFault α}
    {next : α → Except RegistryFault β} {answer : β} :
    (check >>= next) = .ok answer ↔ ∃ first, check = .ok first ∧ next first = .ok answer := by
  cases check with
  | error fault =>
    constructor
    · intro passed
      cases passed
    · rintro ⟨_, passed, _⟩
      cases passed
  | ok first =>
    constructor
    · intro passed
      exact ⟨first, rfl, passed⟩
    · rintro ⟨_, passed, rest⟩
      cases passed
      exact rest

/-- A sequence passes if it has characters and all may stand in an operator. -/
theorem validate_eq_ok {sequence : String} (valid : validate sequence = .ok ()) :
    sequence ≠ "" ∧ ∀ c ∈ sequence.toList, c ∈ tokenCharacters := by
  refine ⟨?_, ?_⟩
  · rintro rfl
    exact absurd valid (by decide)
  · rw [validate] at valid
    split at valid
    · cases valid
    · split at valid
      · cases valid
      · rename_i allowed
        simpa using allowed

/-- A sequence is bound if it is well formed and not bound to another kind. -/
theorem register_eq_ok {kind : TokenKind} {sequence : String} {category : TokenCategory}
    (made : registry.register kind sequence category = .ok extended) :
    (sequence ≠ "" ∧ ∀ c ∈ sequence.toList, c ∈ tokenCharacters) ∧
      (∀ existing, registry.operators.find? sequence.toList = some existing → existing = kind) ∧
      extended = registry.bind kind sequence category := by
  obtain ⟨_, valid, made⟩ := checks_eq_ok.mp made
  refine ⟨validate_eq_ok valid, ?_⟩
  cases found : registry.operators.find? sequence.toList with
  | none =>
    rw [found] at made
    cases made
    exact ⟨nofun, rfl⟩
  | some existing =>
    simp only [found] at made
    by_cases same : existing = kind
    · simp only [same, ↓reduceIte, Except.ok.injEq] at made
      refine ⟨?_, made.symm⟩
      intro other equal
      exact (Option.some.inj equal).symm.trans same
    · simp [same] at made

/-- A new custom kind is numbered by the names given so far. -/
theorem registerCustom_eq_ok {name sequence : String} {kind : TokenKind}
    (made : registry.registerCustom name sequence = .ok (kind, extended)) :
    kind = .custom registry.customNames.size ∧ ∃ bound,
      registry.register kind sequence .custom = .ok bound ∧
      extended = { bound with customNames := bound.customNames.push name } := by
  obtain ⟨_, _, made⟩ := checks_eq_ok.mp made
  dsimp only at made
  by_cases full : customLimit ≤ registry.customNames.size
  · simp [full] at made
  · rw [if_neg full] at made
    obtain ⟨bound, registered, made⟩ := checks_eq_ok.mp made
    cases made
    exact ⟨rfl, bound, registered, rfl⟩

/-- The call for a new custom kind, as a call that extends a registry. -/
theorem perform_custom_eq_ok {name sequence : String} :
    (Registration.custom name sequence).perform registry = .ok extended ↔
      ∃ kind, registry.registerCustom name sequence = .ok (kind, extended) := by
  rw [Registration.perform]
  cases registry.registerCustom name sequence with
  | error fault =>
    constructor
    · intro made
      cases made
    · rintro ⟨_, made⟩
      cases made
  | ok answer =>
    constructor
    · intro made
      cases made
      exact ⟨answer.1, rfl⟩
    · rintro ⟨_, made⟩
      cases made
      rfl

/-- A reserved word stands before the words reserved so far, and its kind has a category. -/
theorem registerKeyword_eq_ok {word : String} {kind : TokenKind}
    (made : registry.registerKeyword word kind = .ok extended) : ∃ categories,
      extended = { registry with
        keywords := (word, kind) :: registry.keywords, categories := categories } ∧
      ∀ entry ∈ categories, entry.1 = kind ∨ entry ∈ registry.categories := by
  simp only [registerKeyword] at made
  split at made
  · cases made
  · split at made
    · cases made
      refine ⟨_, rfl, ?_⟩
      intro entry member
      cases known : registry.categories.lookup kind with
      | some category =>
        rw [known] at member
        exact .inr member
      | none =>
        rw [known] at member
        rcases List.mem_cons.mp member with rfl | member
        · exact .inl rfl
        · exact .inr member
    · cases made

/-- What a call that is not refused does: it adds its binding to the list, and keeps the tree in
agreement. -/
theorem perform_eq_ok (sound : registry.Sound) {call : Registration}
    (made : call.perform registry = .ok extended) : extended.Sound ∧
      extended.sequences = (call.binding? registry).toList ++ registry.sequences := by
  cases call with
  | operator kind sequence category =>
    obtain ⟨⟨filled, _⟩, free, rfl⟩ := register_eq_ok made
    exact ⟨sound.bind filled free category, rfl⟩
  | custom name sequence =>
    obtain ⟨kind, registered⟩ := perform_custom_eq_ok.mp made
    obtain ⟨rfl, bound, whole, rfl⟩ := registerCustom_eq_ok registered
    obtain ⟨⟨filled, _⟩, free, rfl⟩ := register_eq_ok whole
    exact ⟨(sound.bind filled free .custom).congr ⟨rfl, rfl, rfl⟩, rfl⟩
  | keyword word kind =>
    obtain ⟨_, rfl, _⟩ := registerKeyword_eq_ok made
    exact ⟨sound.congr ⟨rfl, rfl, rfl⟩, rfl⟩

private theorem Sound.after (sound : registry.Sound) (call : Registration) :
    (registry.after call).Sound := by
  unfold Registry.after
  cases made : call.perform registry with
  | ok extended => exact (perform_eq_ok sound made).1
  | error fault => exact sound

/-- A registry stays sound after any calls. -/
theorem Sound.afterAll (calls : List Registration) :
    ∀ {registry : Registry}, registry.Sound → (registry.afterAll calls).Sound := by
  induction calls with
  | nil => exact fun sound => sound
  | cons call rest ih => exact fun sound => ih (sound.after call)

/-- A sequence is bound to a kind after some calls if it was bound before, or one of the calls was
not refused and bound it. -/
def Bound (registry : Registry) (calls : List Registration) (sequence : String)
    (kind : TokenKind) : Prop :=
  (kind, sequence) ∈ registry.sequences ∨ ∃ earlier call later extended,
    calls = earlier ++ call :: later ∧
    call.perform (registry.afterAll earlier) = .ok extended ∧
    call.binding? (registry.afterAll earlier) = some (kind, sequence)

variable {calls : List Registration} {sequence : String} {kind : TokenKind}

/-- What is bound stays bound. -/
theorem Bound.append (bound : registry.Bound calls sequence kind) (further : List Registration) :
    registry.Bound (calls ++ further) sequence kind := by
  rcases bound with member | ⟨earlier, call, later, extended, rfl, made, binds⟩
  · exact .inl member
  · exact .inr ⟨earlier, call, later ++ further, extended, by simp, made, binds⟩

private theorem bound_concat (call : Registration) :
    registry.Bound (calls ++ [call]) sequence kind ↔ registry.Bound calls sequence kind ∨
      ∃ extended, call.perform (registry.afterAll calls) = .ok extended ∧
        call.binding? (registry.afterAll calls) = some (kind, sequence) := by
  constructor
  · rintro (member | ⟨earlier, middle, later, extended, split, made, binds⟩)
    · exact .inl (.inl member)
    · rcases List.eq_nil_or_concat later with rfl | ⟨rest, last, rfl⟩
      · obtain ⟨rfl, same⟩ := List.append_inj' split rfl
        cases same
        exact .inr ⟨extended, made, binds⟩
      · rw [List.concat_eq_append, ← List.cons_append, ← List.append_assoc] at split
        obtain ⟨rfl, _⟩ := List.append_inj' split rfl
        exact .inl (.inr ⟨earlier, middle, rest, extended, rfl, made, binds⟩)
  · rintro (bound | ⟨extended, made, binds⟩)
    · exact bound.append [call]
    · exact .inr ⟨calls, call, [], extended, rfl, made, binds⟩

/-- The list of a registry holds what its calls have bound. -/
theorem mem_sequences_iff (sound : registry.Sound) :
    (kind, sequence) ∈ (registry.afterAll calls).sequences ↔
      registry.Bound calls sequence kind := by
  induction calls using List.reverseRecOn with
  | nil =>
    refine ⟨.inl, ?_⟩
    rintro (member | ⟨earlier, call, later, _, split, _⟩)
    · exact member
    · exact absurd split (by simp)
  | append_singleton calls call ih =>
    rw [afterAll_concat, bound_concat, ← ih, after]
    cases made : call.perform (registry.afterAll calls) with
    | error fault => simp
    | ok extended =>
      rw [(perform_eq_ok (sound.afterAll calls) made).2]
      simp [or_comm]

end Registry

end Scriptlet
