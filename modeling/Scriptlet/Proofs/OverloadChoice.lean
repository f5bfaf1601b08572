import Mathlib.Algebra.GroupWithZero.Nat
import Mathlib.Order.Bounds.Basic
import Scriptlet.Value.Native

/-!
# The choice of an overload

A call of a native function takes the overload that fits its arguments best. What the pass over the
overloads has found is told of every part of the list it has seen: the highest score, the first
overload that reaches it, and how many do (`Selection.Found`). So the choice is told by the scores
alone (`Selection.IsBest`), and where one overload fits better than all others it does not depend on
the order of their declaration (`NativeModule.select_best`).
-/

namespace Scriptlet

namespace Overload

/-- There are as many arguments as parameters, and every parameter accepts its argument. -/
structure Accepts (overload : Overload) (arguments : List Value) : Prop where
  arity : overload.params.length = arguments.length
  each : ∀ pair ∈ overload.params.zip arguments, (pair.1.score pair.2).isSome

/-- The scores of all arguments together. -/
def total (overload : Overload) (arguments : List Value) : Nat :=
  ((overload.params.zip arguments).map fun pair => (pair.1.score pair.2).getD 0).sum

/-- The arguments fit, and so well. -/
structure Reaches (overload : Overload) (arguments : List Value) (score : Nat) : Prop where
  accepts : overload.Accepts arguments
  total : overload.total arguments = score

variable {overload : Overload} {arguments : List Value} {score : Nat}

private theorem scoreAll_eq_some_iff {params : List ParamType} :
    scoreAll params arguments = some score ↔ params.length = arguments.length ∧
      (∀ pair ∈ params.zip arguments, (pair.1.score pair.2).isSome) ∧
      ((params.zip arguments).map fun pair => (pair.1.score pair.2).getD 0).sum = score := by
  induction params generalizing arguments score with
  | nil => cases arguments <;> simp [scoreAll]
  | cons param params ih =>
      cases arguments with
      | nil => simp [scoreAll]
      | cons argument arguments =>
          rw [List.zip_cons_cons, List.forall_mem_cons, List.map_cons, List.sum_cons]
          constructor
          · intro scored
            unfold scoreAll at scored
            split at scored
            · rename_i points further first rest
              obtain ⟨arity, each, sum⟩ := ih.mp rest
              cases scored
              exact ⟨congrArg Nat.succ arity, ⟨by simp [first], each⟩, by simp [first, sum]⟩
            · cases scored
          · rintro ⟨arity, ⟨accepted, each⟩, sum⟩
            obtain ⟨points, first⟩ := Option.isSome_iff_exists.mp accepted
            have rest := ih.mpr ⟨Nat.succ.inj arity, each, rfl⟩
            simp only [scoreAll, first, rest, ← sum, Option.getD_some]

private theorem score_eq_some_iff :
    overload.score arguments = some score ↔ overload.Reaches arguments score := by
  unfold Overload.score
  rw [scoreAll_eq_some_iff]
  exact ⟨fun ⟨arity, each, sum⟩ => ⟨⟨arity, each⟩, sum⟩,
    fun ⟨⟨arity, each⟩, sum⟩ => ⟨arity, each, sum⟩⟩

instance (overload : Overload) (arguments : List Value) (score : Nat) :
    Decidable (overload.Reaches arguments score) :=
  decidable_of_iff _ score_eq_some_iff

end Overload

/-- The highest score that overloads reach, the first of them that reaches it, and how many
do. -/
structure Selection.IsBest (arguments : List Value) (overloads : List Overload)
    (best : Selection) : Prop where
  greatest : IsGreatest {score | ∃ overload ∈ overloads, overload.Reaches arguments score}
    best.score
  first : ∃ before overload after, overloads = before ++ overload :: after ∧
    overload.Reaches arguments best.score ∧
    (∀ earlier ∈ before, ¬earlier.Reaches arguments best.score) ∧ best.place = before.length
  ties : best.ties = overloads.countP fun overload => overload.Reaches arguments best.score

namespace Selection

variable {arguments : List Value} {seen : List Overload} {overload : Overload} {best : Selection}

/-- What a pass over overloads has found. -/
def Found (arguments : List Value) (seen : List Overload) : Option Selection → Prop
  | none => ∀ overload ∈ seen, ¬overload.Accepts arguments
  | some best => best.IsBest arguments seen

/-- An overload that reaches no more than the highest score may be one more that reaches it. -/
theorem IsBest.extend (isBest : best.IsBest arguments seen)
    (bounded : ∀ score, overload.Reaches arguments score → score ≤ best.score) :
    IsBest arguments (seen ++ [overload])
      { best with ties := best.ties + if overload.Reaches arguments best.score then 1 else 0 } := by
  obtain ⟨⟨⟨highest, member, high⟩, bound⟩, ⟨before, first, after, split, reaches, earlier, place⟩,
    ties⟩ := isBest
  refine ⟨⟨⟨highest, List.mem_append_left _ member, high⟩, ?_⟩, ?_, ?_⟩
  · rintro score ⟨other, listed, reached⟩
    rcases List.mem_append.mp listed with old | new
    · exact bound ⟨other, old, reached⟩
    · cases List.mem_singleton.mp new
      exact bounded score reached
  · exact ⟨before, first, after ++ [overload], by simp [split], reaches, earlier, place⟩
  · rw [ties, List.countP_append, List.countP_singleton]
    simp only [decide_eq_true_eq]

/-- An overload that does not reach the highest score changes nothing. -/
theorem IsBest.keep (isBest : best.IsBest arguments seen)
    (lower : ∀ score, overload.Reaches arguments score → score < best.score) :
    best.IsBest arguments (seen ++ [overload]) := by
  have short : ¬overload.Reaches arguments best.score := fun reached =>
    Nat.lt_irrefl _ (lower _ reached)
  simpa [short] using isBest.extend fun score reached => Nat.le_of_lt (lower score reached)

/-- An overload that reaches the highest score is one more that does. -/
theorem IsBest.tie (isBest : best.IsBest arguments seen)
    (reached : overload.Reaches arguments best.score) :
    IsBest arguments (seen ++ [overload]) { best with ties := best.ties + 1 } := by
  simpa [reached] using isBest.extend fun score scored =>
    Nat.le_of_eq (scored.total.symm.trans reached.total)

/-- An overload that reaches more than all before is the only best one. -/
theorem isBest_of_higher {score : Nat} (reached : overload.Reaches arguments score)
    (higher : ∀ other ∈ seen, ∀ lower, other.Reaches arguments lower → lower < score) :
    IsBest arguments (seen ++ [overload]) ⟨score, seen.length, 1⟩ := by
  have short (other : Overload) (member : other ∈ seen) : ¬other.Reaches arguments score :=
    fun reaches => Nat.lt_irrefl _ (higher other member score reaches)
  refine ⟨⟨⟨overload, by simp, reached⟩, ?_⟩, ⟨seen, overload, [], rfl, reached, short, rfl⟩, ?_⟩
  · rintro other ⟨listed, member, scored⟩
    rcases List.mem_append.mp member with old | new
    · exact Nat.le_of_lt (higher listed old other scored)
    · cases List.mem_singleton.mp new
      exact Nat.le_of_eq (scored.total.symm.trans reached.total)
  · have none : seen.countP (fun other => decide (other.Reaches arguments score)) = 0 := by
      rw [List.countP_eq_zero]
      simpa using short
    rw [List.countP_append, List.countP_singleton, none]
    simp [reached]

/-- One more overload is taken into account. -/
theorem found_consider {found : Option Selection} (before : Found arguments seen found)
    (overload : Overload) :
    Found arguments (seen ++ [overload])
      (consider found seen.length (overload.score arguments)) := by
  cases scored : overload.score arguments with
  | none =>
      have refused (score : Nat) : ¬overload.Reaches arguments score := fun reached => by
        rw [← Overload.score_eq_some_iff, scored] at reached
        cases reached
      cases found with
      | none =>
          intro other member accepts
          rcases List.mem_append.mp member with old | new
          · exact before other old accepts
          · cases List.mem_singleton.mp new
            exact refused _ ⟨accepts, rfl⟩
      | some best => exact before.keep fun score reached => absurd reached (refused score)
  | some score =>
      have reached := Overload.score_eq_some_iff.mp scored
      cases found with
      | none =>
          exact isBest_of_higher reached fun other member _ reaches =>
            absurd reaches.accepts (before other member)
      | some best =>
          unfold consider
          dsimp only
          split
          · rename_i lower
            exact before.keep fun other reaches =>
              (reaches.total.symm.trans reached.total).trans_lt lower
          · rename_i higher
            split
            · rename_i same
              exact before.tie (same ▸ reached)
            · rename_i apart
              refine isBest_of_higher reached fun other member lower reaches => ?_
              have within := before.greatest.2 ⟨other, member, reaches⟩
              omega

/-- The pass over the rest of the overloads. -/
theorem found_selectFrom {found : Option Selection} (before : Found arguments seen found)
    (rest : List Overload) :
    Found arguments (seen ++ rest) (selectFrom arguments seen.length found rest) := by
  induction rest generalizing seen found with
  | nil =>
      rw [List.append_nil]
      exact before
  | cons overload rest ih =>
      have further := ih (found_consider before overload)
      rw [List.length_append, List.append_assoc] at further
      exact further

/-- The whole pass over a list of overloads. -/
theorem found_all (arguments : List Value) (overloads : List Overload) :
    Found arguments overloads (selectFrom arguments 0 none overloads) := by
  have before : Found arguments [] none := nofun
  exact found_selectFrom before overloads

/-- The best overload stands at its place. -/
theorem IsBest.getElem?_place (isBest : best.IsBest arguments seen) :
    ∃ overload, seen[best.place]? = some overload ∧ overload.Reaches arguments best.score := by
  obtain ⟨before, overload, after, rfl, reaches, _, place⟩ := isBest.first
  exact ⟨overload, by simp [place], reaches⟩

/-- The only best overload of a list is the only best one in every order. -/
theorem IsBest.of_perm (isBest : best.IsBest arguments seen) (single : best.ties = 1)
    {other : List Overload} (permuted : other.Perm seen) {otherBest : Selection}
    (again : otherBest.IsBest arguments other) :
    otherBest.ties = 1 ∧ other[otherBest.place]? = seen[best.place]? := by
  have high : otherBest.score = best.score := by
    refine again.greatest.unique ?_
    simpa only [permuted.mem_iff] using isBest.greatest
  obtain ⟨overload, found, reaches⟩ := isBest.getElem?_place
  obtain ⟨second, foundSecond, reachesSecond⟩ := again.getElem?_place
  rw [high] at reachesSecond
  have counted := isBest.ties.symm.trans single
  obtain ⟨only, alone⟩ := List.length_eq_one_iff.mp (List.countP_eq_length_filter ▸ counted)
  have is (one : Overload) (member : one ∈ seen) (reached : one.Reaches arguments best.score) :
      one = only := by
    refine List.mem_singleton.mp (alone ▸ List.mem_filter.mpr ⟨member, ?_⟩)
    exact decide_eq_true reached
  refine ⟨?_, ?_⟩
  · rw [again.ties, high, permuted.countP_eq, counted]
  · rw [found, foundSecond, is overload (List.mem_of_getElem? found) reaches,
      is second (permuted.mem_iff.mp (List.mem_of_getElem? foundSecond)) reachesSecond]

end Selection

namespace NativeModule

/-- The overloads of a function, in the order of their declaration. -/
def overloadsOf (native : NativeModule) (name : String) : List Overload :=
  (native.functions.find? name).getD []

/-- A module as hosts build it, of which overloads may have been called. -/
inductive Made : NativeModule → Prop where
  | ofName (name : String) : Made (.ofName name)
  | addOverload {native : NativeModule} (name : String) (params : List ParamType)
      (action : HostAction) : Made native → Made (native.addOverload name params action)
  | countCall {native : NativeModule} (name : String) (place : Nat) :
      Made native → Made (native.countCall name place)

variable {native : NativeModule}

/-- A function of a module has an overload. -/
theorem Made.ne_nil (made : native.Made) {name : String} {overloads : List Overload}
    (listed : native.functions.find? name = some overloads) : overloads ≠ [] := by
  induction made generalizing name overloads with
  | ofName => cases listed
  | addOverload other params action _ ih =>
      rcases Table.find?_put_cases listed with ⟨_, rfl⟩ | before
      · simp
      · exact ih before
  | countCall other place _ ih =>
      unfold NativeModule.countCall at listed
      split at listed
      · rename_i known found
        rcases Table.find?_put_cases listed with ⟨_, rfl⟩ | before
        · intro none
          refine ih found (List.length_eq_zero_iff.mp ?_)
          rw [← List.length_modify, none, List.length_nil]
        · exact ih before
      · exact ih listed

private theorem overload?_eq (native : NativeModule) (name : String) (place : Nat) :
    native.overload? name place = (native.overloadsOf name)[place]? := by
  unfold overload? overloadsOf
  cases native.functions.find? name <;> rfl

/-- A name without overloads is unknown. -/
theorem Made.select_of_eq_nil (made : native.Made) {name : String}
    (none : native.overloadsOf name = []) (arguments : List Value) (permitAmbiguous : Bool) :
    native.select name arguments permitAmbiguous = .error .unknownFunction := by
  unfold overloadsOf at none
  unfold select
  cases listed : native.functions.find? name with
  | none => rfl
  | some overloads => exact absurd (by simpa [listed] using none) (made.ne_nil listed)

/-- What the pass over the overloads of a name finds decides. -/
theorem select_of_ne_nil {name : String} (listed : native.overloadsOf name ≠ [])
    (arguments : List Value) (permitAmbiguous : Bool) :
    native.select name arguments permitAmbiguous =
      match selectFrom arguments 0 none (native.overloadsOf name) with
      | none => .error .noMatch
      | some best =>
        if 1 < best.ties && !permitAmbiguous then .error (.ambiguous best.ties) else .ok best := by
  unfold overloadsOf at listed ⊢
  unfold select
  cases found : native.functions.find? name with
  | none => simp [found] at listed
  | some overloads => rfl

private theorem select_of_refused {name : String} {arguments : List Value}
    (listed : native.overloadsOf name ≠ [])
    (refused : ∀ overload ∈ native.overloadsOf name, ¬overload.Accepts arguments)
    (permitAmbiguous : Bool) :
    native.select name arguments permitAmbiguous = .error .noMatch := by
  have found := Selection.found_all arguments (native.overloadsOf name)
  rw [select_of_ne_nil listed]
  cases passed : selectFrom arguments 0 none (native.overloadsOf name) with
  | none => rfl
  | some best =>
      rw [passed] at found
      obtain ⟨overload, member, reaches⟩ := found.greatest.1
      exact absurd reaches.accepts (refused overload member)

/-- If some overload accepts the arguments there is a best one, which is taken unless others are as
good and that is not permitted. -/
theorem exists_isBest {name : String} {arguments : List Value}
    (accepted : ∃ overload ∈ native.overloadsOf name, overload.Accepts arguments) :
    ∃ best : Selection, best.IsBest arguments (native.overloadsOf name) ∧
      ∀ permitAmbiguous, native.select name arguments permitAmbiguous =
        if 1 < best.ties && !permitAmbiguous then .error (.ambiguous best.ties) else .ok best := by
  obtain ⟨overload, member, accepts⟩ := accepted
  have found := Selection.found_all arguments (native.overloadsOf name)
  cases passed : selectFrom arguments 0 none (native.overloadsOf name) with
  | none =>
      rw [passed] at found
      exact absurd accepts (found overload member)
  | some best =>
      rw [passed] at found
      refine ⟨best, found, fun permitAmbiguous => ?_⟩
      rw [select_of_ne_nil (List.ne_nil_of_mem member), passed]

/-- A call of a function finds it unknown exactly if it has no overloads, and finds no match exactly
if none of them accepts the arguments. Otherwise it takes the first of those with the highest score,
if this is the only one or ambiguous calls are permitted, and tells how many there are if not. The
only one is taken in whatever order the overloads were declared. -/
theorem select_best (made : native.Made) (name : String) (arguments : List Value)
    (permitAmbiguous : Bool) :
    (native.select name arguments permitAmbiguous = .error .unknownFunction ↔
      native.overloadsOf name = []) ∧
    (native.select name arguments permitAmbiguous = .error .noMatch ↔
      native.overloadsOf name ≠ [] ∧
        ∀ overload ∈ native.overloadsOf name, ¬overload.Accepts arguments) ∧
    ((∃ overload ∈ native.overloadsOf name, overload.Accepts arguments) →
      ∃ best : Selection, best.IsBest arguments (native.overloadsOf name) ∧
        (best.ties = 1 ∨ permitAmbiguous = true →
          native.select name arguments permitAmbiguous = .ok best) ∧
        (1 < best.ties → permitAmbiguous = false →
          native.select name arguments permitAmbiguous = .error (.ambiguous best.ties)) ∧
        (best.ties = 1 → ∀ other : NativeModule, ∀ permitOther,
          (other.overloadsOf name).Perm (native.overloadsOf name) →
          ∃ chosen overload, other.select name arguments permitOther = .ok chosen ∧
            other.overload? name chosen.place = some overload ∧
            native.overload? name best.place = some overload)) := by
  by_cases empty : native.overloadsOf name = []
  · have unknown := made.select_of_eq_nil empty arguments permitAmbiguous
    simp [unknown, empty]
  by_cases refused : ∀ overload ∈ native.overloadsOf name, ¬overload.Accepts arguments
  · have unmatched := select_of_refused empty refused permitAmbiguous
    refine ⟨by simp [unmatched, empty], by simp [unmatched, empty]; exact refused, ?_⟩
    rintro ⟨overload, member, accepts⟩
    exact absurd accepts (refused overload member)
  have accepted : ∃ overload ∈ native.overloadsOf name, overload.Accepts arguments := by
    simpa using refused
  obtain ⟨best, isBest, chosen⟩ := exists_isBest accepted
  have other : native.select name arguments permitAmbiguous ≠ .error .unknownFunction ∧
      native.select name arguments permitAmbiguous ≠ .error .noMatch := by
    rw [chosen]
    split <;> simp
  refine ⟨by simp [other.1, empty], by simp [other.2, refused], fun _ => ⟨best, isBest, ?_, ?_, ?_⟩⟩
  · rintro (single | permitted)
    · simp [chosen, single]
    · simp [chosen, permitted]
  · intro several forbidden
    simp [chosen, several, forbidden]
  · intro single other permitOther permuted
    have acceptedToo : ∃ overload ∈ other.overloadsOf name, overload.Accepts arguments := by
      simpa only [permuted.mem_iff] using accepted
    obtain ⟨otherBest, isBestToo, chosenToo⟩ := exists_isBest acceptedToo
    obtain ⟨alone, same⟩ := isBest.of_perm single permuted isBestToo
    obtain ⟨overload, found, _⟩ := isBest.getElem?_place
    refine ⟨otherBest, overload, by simp [chosenToo, alone], ?_, ?_⟩
    · rw [overload?_eq, same, found]
    · rw [overload?_eq, found]

/-- Two overloads that take nil, and before them one that takes anything. -/
def tiedSample : NativeModule :=
  (((ofName "kinds").addOverload "pick" [.any] .joinTypes).addOverload "pick" [.nil]
    .joinTexts).addOverload "pick" [.nil] .collect

/-- Of the two overloads that fit nil best the first is taken, if that is permitted. -/
theorem select_best_tiedSample :
    tiedSample.Made ∧ tiedSample.select "pick" [.nil] true = .ok ⟨2, 1, 2⟩ ∧
      tiedSample.select "pick" [.nil] false = .error (.ambiguous 2) := by
  have made : tiedSample.Made :=
    .addOverload _ _ _ (.addOverload _ _ _ (.addOverload _ _ _ (.ofName _)))
  have accepted : ∃ overload ∈ tiedSample.overloadsOf "pick", overload.Accepts [.nil] :=
    ⟨⟨[.any], .joinTypes, 0⟩, List.mem_cons_self .., rfl, by decide⟩
  have known : Selection.IsBest [.nil] (tiedSample.overloadsOf "pick") ⟨2, 1, 2⟩ :=
    Selection.found_all [.nil] (tiedSample.overloadsOf "pick")
  obtain ⟨best, isBest, -, refused, -⟩ := (select_best made "pick" [.nil] false).2.2 accepted
  have score : best.score = 2 := isBest.greatest.unique known.greatest
  have ties : best.ties = 2 := by rw [isBest.ties, score, ← known.ties]
  refine ⟨made, rfl, ?_⟩
  rw [refused (by rw [ties]; decide) rfl, ties]

end NativeModule

end Scriptlet
