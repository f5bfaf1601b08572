import Scriptlet.Proofs.Outcome

/-!
# Steps that do the same

A step mirrors another one if from related states both end alike (`EndsAlike`): with the same value,
moved, or with the same stop, and in related states again. Two steps may agree only as long as what
the first one comes to stays within some bounds, which it never comes back to once it has left them
(`Mirrors`).
-/

namespace Scriptlet

variable {ε σ τ α β γ δ : Type}

/-- The state a step leaves, however it ends. -/
def endState : EStateM.Result ε σ α → σ
  | .ok _ state => state
  | .error _ state => state

/-- Two ends are alike. -/
inductive EndsAlike (related : σ → τ → Prop) (move : α → β) :
    EStateM.Result ε σ α → EStateM.Result ε τ β → Prop
  | ok (value : α) {state : σ} {image : τ} : related state image →
      EndsAlike related move (.ok value state) (.ok (move value) image)
  | error (stop : ε) {state : σ} {image : τ} : related state image →
      EndsAlike related move (.error stop state) (.error stop image)

/-- A step does what another one does, as long as that stays within some bounds. -/
structure Mirrors (within : σ → Prop) (related : σ → τ → Prop) (move : α → β)
    (image : EStateM ε τ β) (step : EStateM ε σ α) : Prop where
  back : ∀ state, within (endState (step state)) → within state
  ends : ∀ state twin, related state twin → within (endState (step state)) →
    EndsAlike related move (step state) (image twin)

namespace Mirrors

variable {within : σ → Prop} {related : σ → τ → Prop} {move : α → β} {onward : γ → δ}
  {image : EStateM ε τ β} {step : EStateM ε σ α}

/-- A value may be given that is moved. -/
protected theorem pure (value : α) :
    Mirrors within related move (pure (move value) : EStateM ε τ β) (pure value) where
  back _ holds := holds
  ends _ _ met _ := .ok value met

/-- A step stops as the one it mirrors. -/
protected theorem throw (stop : ε) :
    Mirrors within related move (throw stop) (throw stop : EStateM ε σ α) where
  back _ holds := holds
  ends _ _ met _ := .error stop met

/-- What comes second is related if what comes first is. -/
protected theorem bind {next : α → EStateM ε σ γ} {nextImage : β → EStateM ε τ δ}
    (first : Mirrors within related move image step)
    (second : ∀ value, Mirrors within related onward (nextImage (move value)) (next value)) :
    Mirrors within related onward (image >>= nextImage) (step >>= next) where
  back state holds := by
    refine first.back state ?_
    cases ended : step state with
    | ok value middle =>
        rw [bind_of_ok ended] at holds
        exact (second value).back middle holds
    | error stop middle =>
        rw [bind_of_error ended] at holds
        exact holds
  ends state twin met holds := by
    cases ended : step state with
    | ok value middle =>
        rw [bind_of_ok ended] at holds ⊢
        have inside : within (endState (step state)) := by
          rw [ended]
          exact (second value).back middle holds
        have alike := first.ends state twin met inside
        rw [ended] at alike
        generalize imageEnded : image twin = imageEnd at alike
        cases alike with
        | ok _ there =>
            rw [bind_of_ok imageEnded]
            exact (second value).ends middle _ there holds
    | error stop middle =>
        rw [bind_of_error ended] at holds ⊢
        have alike := first.ends state twin met (by rw [ended]; exact holds)
        rw [ended] at alike
        generalize imageEnded : image twin = imageEnd at alike
        cases alike with
        | error _ there =>
            rw [bind_of_error imageEnded]
            exact .error stop there

/-- What comes after a look at what all states have a counterpart of. -/
protected theorem get {near : σ → τ → Prop} {next : σ → EStateM ε σ γ}
    {nextImage : τ → EStateM ε τ δ} (total : ∀ state, ∃ twin, near state twin)
    (weaker : ∀ state twin, related state twin → near state twin)
    (second : ∀ state twin, near state twin →
      Mirrors within related onward (nextImage twin) (next state)) :
    Mirrors within related onward (get >>= nextImage) (get >>= next) where
  back state holds := by
    obtain ⟨twin, met⟩ := total state
    exact (second state twin met).back state holds
  ends state twin met holds := (second state twin (weaker _ _ met)).ends state twin met holds

/-- A change mirrors another one that does not come back within the bounds, if it keeps the states
related. -/
protected theorem modify {update : σ → σ} {updateImage : τ → τ}
    (back : ∀ state, within (update state) → within state)
    (kept : ∀ state twin, related state twin → within (update state) →
      related (update state) (updateImage twin)) :
    Mirrors within related id (modify updateImage : EStateM ε τ Unit) (modify update) where
  back := back
  ends state twin met holds := .ok () (kept state twin met holds)

/-- A change of the state that gives something. -/
protected theorem modifyGet {update : σ → α × σ} {updateImage : τ → β × τ}
    (back : ∀ state, within (update state).2 → within state)
    (same : ∀ state twin, related state twin → within (update state).2 →
      (updateImage twin).1 = move (update state).1)
    (kept : ∀ state twin, related state twin → within (update state).2 →
      related (update state).2 (updateImage twin).2) :
    Mirrors within related move (modifyGet updateImage : EStateM ε τ β) (modifyGet update) where
  back := back
  ends state twin met holds := by
    change EndsAlike related move (.ok (update state).1 (update state).2)
      (.ok (updateImage twin).1 (updateImage twin).2)
    rw [same state twin met holds]
    exact .ok _ (kept state twin met holds)

/-- A choice mirrors another one if both of its sides do. -/
protected theorem ite {condition : Prop} [Decidable condition] {first second : EStateM ε σ α}
    {firstImage secondImage : EStateM ε τ β} (yes : Mirrors within related move firstImage first)
    (no : Mirrors within related move secondImage second) :
    Mirrors within related move (if condition then firstImage else secondImage)
      (if condition then first else second) := by
  by_cases holds : condition
  · simpa [holds] using yes
  · simpa [holds] using no

/-- Where there are no bounds, what comes after a look at related states. -/
protected theorem see {next : σ → EStateM ε σ γ} {nextImage : τ → EStateM ε τ δ}
    (second : ∀ state twin, related state twin →
      Mirrors (fun _ => True) related onward (nextImage twin) (next state)) :
    Mirrors (fun _ => True) related onward (get >>= nextImage) (get >>= next) where
  back _ _ := trivial
  ends state twin met holds := (second state twin met).ends state twin met holds

end Mirrors

end Scriptlet
