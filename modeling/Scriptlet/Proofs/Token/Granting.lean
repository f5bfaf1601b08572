import Scriptlet.Proofs.Token.Bindings

/-!
# What granted calls write

A call that is not refused adds to the tables of a registry what it names and nothing else
(`Registry.tables_of_perform`). So an entry of a table after some calls was there before them or was
written by one of them that was granted (`Registry.Granted`).
-/

namespace Scriptlet

namespace Registration

/-- The word a call reserves if it is not refused, and the kind it reserves it for. -/
def reservation? : Registration → Option (String × TokenKind)
  | keyword word kind => some (word, kind)
  | _ => none

/-- The name a call gives to a new custom kind if it is not refused. -/
def customName? : Registration → Option String
  | custom name _ => some name
  | _ => none

end Registration

namespace Registry

/-- A call among some that is not refused when its turn comes. -/
def Granted (registry : Registry) (calls : List Registration) (call : Registration) : Prop :=
  ∃ earlier later extended, calls = earlier ++ call :: later ∧
    call.perform (registry.afterAll earlier) = .ok extended

variable {registry extended : Registry} {calls : List Registration}

/-- What was granted among some calls is granted among these and further ones. -/
theorem Granted.append {call : Registration} (granted : registry.Granted calls call)
    (further : List Registration) : registry.Granted (calls ++ further) call := by
  obtain ⟨earlier, later, extended, rfl, made⟩ := granted
  exact ⟨earlier, later ++ further, extended, by simp, made⟩

/-- What holds of a registry and is kept by every granted call holds after all calls. -/
theorem afterAll_invariant {motive : Registry → Prop} (start : motive registry)
    (step : ∀ call current extended, registry.Granted calls call → motive current →
      call.perform current = .ok extended → motive extended) :
    motive (registry.afterAll calls) := by
  induction calls using List.reverseRecOn with
  | nil => exact start
  | append_singleton calls call ih =>
    have before := ih fun other current extended granted holds made =>
      step other current extended (granted.append [call]) holds made
    rw [afterAll_concat, after]
    cases made : call.perform (registry.afterAll calls) with
    | error fault => exact before
    | ok extended => exact step call _ extended ⟨calls, [], extended, rfl, made⟩ before made

/-! ### The tables -/

/-- A call that is not refused writes its reservation and its name, and opens no comments. -/
theorem tables_of_perform {call : Registration} (made : call.perform registry = .ok extended) :
    extended.keywords = call.reservation?.toList ++ registry.keywords ∧
      extended.customNames = registry.customNames ++ call.customName?.toArray ∧
      extended.comments = registry.comments := by
  cases call with
  | operator kind sequence category =>
    obtain ⟨_, _, rfl⟩ := register_eq_ok made
    exact ⟨rfl, Array.append_empty.symm, rfl⟩
  | custom name sequence =>
    obtain ⟨kind, registered⟩ := perform_custom_eq_ok.mp made
    obtain ⟨rfl, bound, whole, rfl⟩ := registerCustom_eq_ok registered
    obtain ⟨_, _, rfl⟩ := register_eq_ok whole
    exact ⟨rfl, Array.push_eq_append, rfl⟩
  | keyword word kind =>
    obtain ⟨_, rfl, _⟩ := registerKeyword_eq_ok made
    exact ⟨rfl, Array.append_empty.symm, rfl⟩

/-- Only the language itself opens comments. -/
theorem comments_afterAll (calls : List Registration) :
    (registry.afterAll calls).comments = registry.comments :=
  afterAll_invariant (motive := fun current => current.comments = registry.comments) rfl
    fun _ _ _ _ same made => (tables_of_perform made).2.2.trans same

/-- Names of custom kinds are added behind those that are given. -/
theorem customNames_afterAll (registry : Registry) (calls : List Registration) :
    ∃ added, (registry.afterAll calls).customNames = registry.customNames ++ added := by
  apply afterAll_invariant (motive := fun current =>
    ∃ added, current.customNames = registry.customNames ++ added)
  · exact ⟨#[], Array.append_empty.symm⟩
  · rintro call current extended _ ⟨added, whole⟩ made
    exact ⟨_, by rw [(tables_of_perform made).2.1, whole, Array.append_assoc]⟩

/-- A word that is reserved after some calls was reserved before, or is by one of them. -/
theorem reserved_afterAll {word : String} {kind : TokenKind}
    (member : (word, kind) ∈ (registry.afterAll calls).keywords) :
    (word, kind) ∈ registry.keywords ∨ registry.Granted calls (.keyword word kind) := by
  refine afterAll_invariant (motive := fun current => (word, kind) ∈ current.keywords →
    (word, kind) ∈ registry.keywords ∨ registry.Granted calls (.keyword word kind)) .inl ?_ member
  intro call current extended granted earlier made later
  rw [(tables_of_perform made).1] at later
  rcases List.mem_append.mp later with written | member
  · cases call with
    | keyword other otherKind =>
      cases List.mem_singleton.mp written
      exact .inr granted
    | operator _ _ _ => cases written
    | custom _ _ => cases written
  · exact earlier member

/-- A sequence that is bound after some calls to a kind that is not custom was bound before, or is
by one of them. -/
theorem bound_afterAll {sequence : String} {kind : TokenKind} (builtin : ∀ id, kind ≠ .custom id)
    (bound : registry.Bound calls sequence kind) : (kind, sequence) ∈ registry.sequences ∨
      ∃ category, registry.Granted calls (.operator kind sequence category) := by
  rcases bound with member | ⟨earlier, call, later, extended, split, made, binds⟩
  · exact .inl member
  · cases call with
    | operator other spelled category =>
      cases Option.some.inj binds
      exact .inr ⟨category, earlier, later, extended, split, made⟩
    | custom name spelled =>
      obtain ⟨rfl, _⟩ := Prod.mk.inj (Option.some.inj binds)
      exact absurd rfl (builtin _)
    | keyword _ _ => cases binds

/-- Whatever is bound is spelled with the characters of operators. -/
def Symbolic (registry : Registry) : Prop :=
  ∀ entry ∈ registry.sequences, ∀ c ∈ entry.2.toList, c ∈ tokenCharacters

private theorem Symbolic.bind (symbols : registry.Symbolic) {sequence : String}
    (allowed : ∀ c ∈ sequence.toList, c ∈ tokenCharacters) (kind : TokenKind)
    (category : TokenCategory) : (registry.bind kind sequence category).Symbolic := by
  intro entry member
  rcases List.mem_cons.mp member with rfl | member
  · exact allowed
  · exact symbols entry member

/-- No call that is not refused binds other characters. -/
theorem Symbolic.afterAll (symbols : registry.Symbolic) (calls : List Registration) :
    (registry.afterAll calls).Symbolic := by
  apply afterAll_invariant (motive := Symbolic) symbols
  intro call current extended _ symbols made
  cases call with
  | operator kind sequence category =>
    obtain ⟨⟨_, allowed⟩, _, rfl⟩ := register_eq_ok made
    exact symbols.bind allowed kind category
  | custom name sequence =>
    obtain ⟨kind, registered⟩ := perform_custom_eq_ok.mp made
    obtain ⟨rfl, bound, whole, rfl⟩ := registerCustom_eq_ok registered
    obtain ⟨⟨_, allowed⟩, _, rfl⟩ := register_eq_ok whole
    exact symbols.bind allowed _ .custom
  | keyword word kind =>
    obtain ⟨_, rfl, _⟩ := registerKeyword_eq_ok made
    exact symbols

/-- What is given is spelled with the characters of operators. -/
theorem symbolic_given {base : Registry} (given : base = .empty ∨ base = .standard) :
    base.Symbolic := by
  rcases given with rfl | rfl
  · exact nofun
  · have allowed : (standard.sequences.all fun entry =>
        entry.2.toList.all tokenCharacters.contains) = true := by decide +kernel
    intro entry member c inside
    have spelled := List.all_eq_true.mp allowed entry member
    exact List.contains_iff_mem.mp (List.all_eq_true.mp spelled c inside)

end Registry

end Scriptlet
