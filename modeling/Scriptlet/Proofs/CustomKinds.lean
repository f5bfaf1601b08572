import Scriptlet.Proofs.Token.Granting

/-!
# New custom kinds

A custom kind is numbered by how many were made before it. So no two are the same, and a kind that
is made keeps its name and its sequence (`custom_kind_new`). The numbers are not hidden, though: a
host may bind a sequence or a word to a custom kind that is not made yet (`Registry.Unused`), and
the kind that is made later is then in use already.
-/

namespace Scriptlet

namespace Registry

variable {registry extended : Registry} {calls : List Registration}

/-- No table of a registry has anything about a kind. -/
structure Unused (registry : Registry) (kind : TokenKind) : Prop where
  sequence : ∀ sequence, (kind, sequence) ∉ registry.sequences
  category : ∀ category, (kind, category) ∉ registry.categories
  comment : ∀ comment, (kind, comment) ∉ registry.comments
  keyword : ∀ word, (word, kind) ∉ registry.keywords

private theorem Unused.bind {kind other : TokenKind} (unused : registry.Unused kind)
    (apart : other ≠ kind) (sequence : String) (category : TokenCategory) :
    (registry.bind other sequence category).Unused kind where
  sequence := by
    intro spelled member
    rcases List.mem_cons.mp member with same | member
    · exact apart (Prod.mk.inj same).1.symm
    · exact unused.sequence spelled member
  category := by
    intro group member
    rcases List.mem_cons.mp member with same | member
    · exact apart (Prod.mk.inj same).1.symm
    · exact unused.category group member
  comment := unused.comment
  keyword := unused.keyword

/-- A call that is about another kind leaves a kind unused. -/
theorem Unused.perform {kind : TokenKind} (unused : registry.Unused kind) {call : Registration}
    (made : call.perform registry = .ok extended)
    (binds : ∀ sequence, call.binding? registry ≠ some (kind, sequence))
    (reserves : ∀ word, call.reservation? ≠ some (word, kind)) : extended.Unused kind := by
  cases call with
  | operator other sequence category =>
    obtain ⟨_, _, rfl⟩ := register_eq_ok made
    refine unused.bind ?_ sequence category
    rintro rfl
    exact binds sequence rfl
  | custom name sequence =>
    obtain ⟨other, registered⟩ := perform_custom_eq_ok.mp made
    obtain ⟨rfl, bound, whole, rfl⟩ := registerCustom_eq_ok registered
    obtain ⟨_, _, rfl⟩ := register_eq_ok whole
    have apart : TokenKind.custom registry.customNames.size ≠ kind := by
      rintro rfl
      exact binds sequence rfl
    have still := unused.bind apart sequence .custom
    exact ⟨still.sequence, still.category, still.comment, still.keyword⟩
  | keyword word other =>
    obtain ⟨categories, rfl, known⟩ := registerKeyword_eq_ok made
    have apart : other ≠ kind := by
      rintro rfl
      exact reserves word rfl
    refine ⟨unused.sequence, ?_, unused.comment, ?_⟩
    · intro category member
      rcases known _ member with same | member
      · exact apart same.symm
      · exact unused.category category member
    · intro spelled member
      rcases List.mem_cons.mp member with same | member
      · exact apart (Prod.mk.inj same).2.symm
      · exact unused.keyword spelled member

/-- The registries that are given have no custom kinds. -/
theorem unused_given {base : Registry} (given : base = .empty ∨ base = .standard) (id : Nat) :
    base.Unused (.custom id) := by
  rcases given with rfl | rfl
  · constructor <;> simp [empty]
  · have named : (∀ entry ∈ standard.sequences, entry.1 ∈ TokenKind.builtin) ∧
        (∀ entry ∈ standard.categories, entry.1 ∈ TokenKind.builtin) ∧
        (∀ entry ∈ standard.comments, entry.1 ∈ TokenKind.builtin) ∧
        ∀ entry ∈ standard.keywords, entry.2 ∈ TokenKind.builtin := by decide +kernel
    obtain ⟨sequences, categories, comments, keywords⟩ := named
    have outside : TokenKind.custom id ∉ TokenKind.builtin := by
      simp [TokenKind.builtin, Keyword.all]
    exact ⟨fun _ member => outside (sequences _ member),
      fun _ member => outside (categories _ member),
      fun _ member => outside (comments _ member),
      fun _ member => outside (keywords _ member)⟩

/-- A custom kind whose number is not reached stays unused as long as no call names it. -/
theorem unused_afterAll {id : Nat} (unused : registry.Unused (.custom id))
    (unnamed : ∀ sequence category,
      ¬ registry.Granted calls (.operator (.custom id) sequence category))
    (unreserved : ∀ word, ¬ registry.Granted calls (.keyword word (.custom id)))
    (ahead : (registry.afterAll calls).customNames.size ≤ id) :
    (registry.afterAll calls).Unused (.custom id) := by
  -- The numbers only grow, so a call before the end cannot have made the kind.
  refine afterAll_invariant (motive := fun current =>
    current.customNames.size ≤ id → current.Unused (.custom id)) (fun _ => unused) ?_ ahead
  intro call current extended granted still made reached
  have written := (tables_of_perform made).2.1
  rw [written, Array.size_append] at reached
  refine (still (by omega)).perform made ?_ ?_
  · intro sequence binds
    cases call with
    | operator kind spelled category =>
      cases binds
      exact unnamed sequence category granted
    | custom name spelled =>
      obtain ⟨same, _⟩ := Prod.mk.inj (Option.some.inj binds)
      have number := TokenKind.custom.inj same
      change current.customNames.size + 1 ≤ id at reached
      omega
    | keyword _ _ => cases binds
  · intro word reserves
    cases call with
    | operator _ _ _ => cases reserves
    | custom _ _ => cases reserves
    | keyword spelled kind =>
      cases reserves
      exact unreserved word granted

/-- The sequence of a custom kind that is made stays its last one until a call names the kind. -/
theorem Sound.sequence?_afterAll (sound : registry.Sound) {id : Nat} {sequence : String}
    (made : id < registry.customNames.size)
    (last : registry.sequence? (.custom id) = some sequence)
    (unnamed : ∀ other category,
      ¬ registry.Granted calls (.operator (.custom id) other category)) :
    (registry.afterAll calls).sequence? (.custom id) = some sequence := by
  have kept : (registry.afterAll calls).Sound ∧ id < (registry.afterAll calls).customNames.size ∧
      (registry.afterAll calls).sequence? (.custom id) = some sequence := by
    apply afterAll_invariant (motive := fun current => current.Sound ∧
      id < current.customNames.size ∧ current.sequence? (.custom id) = some sequence)
    · exact ⟨sound, made, last⟩
    · rintro call current extended granted ⟨sound, made, last⟩ performed
      obtain ⟨soundAfter, bound⟩ := perform_eq_ok sound performed
      have named := (tables_of_perform performed).2.1
      refine ⟨soundAfter, by rw [named, Array.size_append]; omega, ?_⟩
      rw [sequence?, bound]
      cases call with
      | operator kind spelled category =>
        have apart : (TokenKind.custom id == kind) = false := by
          rw [beq_eq_false_iff_ne]
          rintro rfl
          exact unnamed spelled category granted
        change List.lookup _ ((kind, spelled) :: current.sequences) = _
        rw [List.lookup_cons, apart]
        exact last
      | custom name spelled =>
        have apart : (TokenKind.custom id == .custom current.customNames.size) = false := by
          rw [beq_eq_false_iff_ne]
          intro same
          have number := TokenKind.custom.inj same
          omega
        change List.lookup _ ((_, spelled) :: current.sequences) = _
        rw [List.lookup_cons, apart]
        exact last
      | keyword word kind => exact last
  exact kept.2.2

/-- A name that is given stays. -/
theorem nameOf_afterAll {id : Nat} (made : id < registry.customNames.size) :
    (registry.afterAll calls).nameOf (.custom id) = registry.nameOf (.custom id) := by
  obtain ⟨added, whole⟩ := registry.customNames_afterAll calls
  simp [nameOf, whole, Array.getElem?_append, made]

/-- What making a custom kind writes. -/
theorem Sound.made_custom (sound : registry.Sound) {name sequence : String} {kind : TokenKind}
    (made : registry.registerCustom name sequence = .ok (kind, extended)) :
    kind = .custom registry.customNames.size ∧ extended.Sound ∧
      extended.customNames = registry.customNames.push name ∧
      extended.sequence? kind = some sequence := by
  have performed := perform_custom_eq_ok.mpr ⟨kind, made⟩
  obtain ⟨soundAfter, bound⟩ := perform_eq_ok sound performed
  obtain ⟨rfl, _⟩ := registerCustom_eq_ok made
  refine ⟨rfl, soundAfter, (tables_of_perform performed).2.1, ?_⟩
  rw [sequence?, bound]
  exact List.lookup_cons_self

end Registry

/-- A new custom kind was made by no earlier call. If no earlier call has named it, no table of the
registry has it. It gets its name and its sequence; it keeps the name whatever is called later, and
the sequence until a call binds another one to this kind. -/
theorem custom_kind_new (base : Registry) (given : base = .empty ∨ base = .standard)
    (calls : List Registration) (name sequence : String) (kind : TokenKind) (extended : Registry)
    (made : (base.afterAll calls).registerCustom name sequence = .ok (kind, extended)) :
    (∀ earlier otherName otherSequence later other between,
      calls = earlier ++ .custom otherName otherSequence :: later →
      (base.afterAll earlier).registerCustom otherName otherSequence = .ok (other, between) →
      other ≠ kind) ∧
    ((∀ other category, ¬ base.Granted calls (.operator kind other category)) →
      (∀ word, ¬ base.Granted calls (.keyword word kind)) →
      (base.afterAll calls).Unused kind) ∧
    (∀ further, (extended.afterAll further).nameOf kind = name) ∧
    ∀ further, (∀ other category, ¬ extended.Granted further (.operator kind other category)) →
      (extended.afterAll further).sequence? kind = some sequence := by
  have start := Registry.sound_given given
  obtain ⟨rfl, sound, named, last⟩ := (start.afterAll calls).made_custom made
  have reached : (base.afterAll calls).customNames.size < extended.customNames.size := by
    rw [named, Array.size_push]
    omega
  refine ⟨?_, ?_, ?_, ?_⟩
  · rintro earlier otherName otherSequence later other between rfl madeEarlier
    obtain ⟨rfl, _, namedEarlier, _⟩ := (start.afterAll earlier).made_custom madeEarlier
    have next : (base.afterAll earlier).after (.custom otherName otherSequence) = between := by
      rw [Registry.after, Registry.perform_custom_eq_ok.mpr ⟨_, madeEarlier⟩]
    obtain ⟨added, whole⟩ := between.customNames_afterAll later
    have size : (base.afterAll (earlier ++ .custom otherName otherSequence :: later)).customNames =
        between.customNames ++ added := by
      rw [← whole, ← next, Registry.afterAll, List.foldl_append]
      rfl
    intro same
    have number := TokenKind.custom.inj same
    rw [size, namedEarlier, Array.size_append, Array.size_push] at number
    omega
  · intro unnamed unreserved
    exact Registry.unused_afterAll (Registry.unused_given given _) unnamed unreserved
      (Nat.le_refl _)
  · intro further
    rw [Registry.nameOf_afterAll reached]
    simp [Registry.nameOf, named]
  · intro further unnamed
    exact sound.sequence?_afterAll reached last unnamed

/-- A host that binds a sequence to the first custom kind before it is made. -/
def forestalledSample : List Registration := [.operator (.custom 0) "@" .custom]

/-- The kind is made all the same, and is in use already: both sequences now read as it. -/
theorem custom_kind_new_forestalledSample :
    let registry := Registry.standard.afterAll forestalledSample
    (Registry.standard = .empty ∨ Registry.standard = .standard) ∧
    registry.sequence? (.custom 0) = some "@" ∧
    ∃ extended, registry.registerCustom "X" "$" = .ok (.custom 0, extended) ∧
      extended.longestMatch ['@'] = .matched (.custom 0) 1 ∧
      extended.longestMatch ['$'] = .matched (.custom 0) 1 ∧
      (extended.afterAll [.custom "Y" "$$"]).nameOf (.custom 0) = "X" ∧
      (extended.afterAll [.custom "Y" "$$"]).sequence? (.custom 0) = some "$" := by
  have made : ∃ extended,
      (Registry.standard.afterAll forestalledSample).registerCustom "X" "$" =
        .ok (.custom 0, extended) ∧
      extended.longestMatch ['@'] = .matched (.custom 0) 1 ∧
      extended.longestMatch ['$'] = .matched (.custom 0) 1 :=
    ⟨_, rfl, by decide +kernel, by decide +kernel⟩
  obtain ⟨extended, made, first, second⟩ := made
  obtain ⟨_, _, named, bound⟩ :=
    custom_kind_new .standard (.inr rfl) forestalledSample "X" "$" (.custom 0) extended made
  refine ⟨.inr rfl, by decide +kernel, extended, made, first, second, named _, bound _ ?_⟩
  rintro other category ⟨earlier, later, _, split, _⟩
  rcases earlier with _ | ⟨_, _ | _⟩ <;> simp at split

end Scriptlet
