import Scriptlet.Proofs.SessionProtocol

/-!
# Steps of two sessions

Two steps go together if, from related sessions, both end well, or both with the same fault, and
what they end with is related again (`Session.Together`). Phases and their hooks go together if
their parts do.
-/

namespace Scriptlet

/-- Two steps end both well or both with the same fault. -/
inductive EndTogether {α : Type} (after : α → α → Session → Session → Prop)
    (failed : Session → Session → Prop) :
    EStateM.Result ScriptFault Session α → EStateM.Result ScriptFault Session α → Prop where
  | ok {value image : α} {first second : Session} : after value image first second →
      EndTogether after failed (.ok value first) (.ok image second)
  | error {first second : Session} (fault : ScriptFault) : failed first second →
      EndTogether after failed (.error fault first) (.error fault second)

namespace Session

variable {α β : Type}

/-- Two steps go together from related sessions. -/
def Together (before : Session → Session → Prop) (after : α → α → Session → Session → Prop)
    (failed : Session → Session → Prop) (step image : SessionM α) : Prop :=
  ∀ first second, before first second → EndTogether after failed (step first) (image second)

variable {before failed wider related : Session → Session → Prop}
  {after later : α → α → Session → Session → Prop} {step image : SessionM α}

namespace Together

/-- Giving a value goes together if what the values end with is related. -/
protected theorem pure {value other : α} (keeps : ∀ first second, before first second →
    after value other first second) : Together before after failed (pure value) (pure other) :=
  fun first second met => .ok (keeps first second met)

/-- Failing with the same fault goes together. -/
protected theorem throw (fault : ScriptFault) (keeps : ∀ first second, before first second →
    failed first second) : Together before after failed (throw fault) (throw fault) :=
  fun first second met => .error fault (keeps first second met)

/-- Changes go together if they keep sessions related. -/
protected theorem modify {update updateImage : Session → Session}
    {after : Unit → Unit → Session → Session → Prop} (keeps : ∀ first second,
      before first second → after () () (update first) (updateImage second)) :
    Together before after failed (modify update) (modify updateImage) :=
  fun first second met => .ok (keeps first second met)

/-- One step after another goes together if both do. -/
protected theorem bind {after : β → β → Session → Session → Prop}
    {middle : α → α → Session → Session → Prop} {next nextImage : α → SessionM β}
    (start : Together before middle failed step image)
    (rest : ∀ value other, Together (middle value other) after failed (next value)
      (nextImage other)) :
    Together before after failed (step >>= next) (image >>= nextImage) := by
  intro first second met
  have ended := start first second met
  generalize one : step first = firstEnd at ended
  generalize two : image second = secondEnd at ended
  cases ended with
  | ok reached =>
    rw [bind_of_ok one, bind_of_ok two]
    exact rest _ _ _ _ reached
  | error fault stopped =>
    rw [bind_of_error one, bind_of_error two]
    exact .error fault stopped

/-- Less may be said of what steps that go together end with. -/
protected theorem weaken (goes : Together before after failed step image)
    (well : ∀ value other first second, after value other first second →
      later value other first second)
    (wide : ∀ first second, failed first second → wider first second) :
    Together before later wider step image := by
  intro first second met
  have ended := goes first second met
  generalize step first = firstEnd at ended ⊢
  generalize image second = secondEnd at ended ⊢
  cases ended with
  | ok reached => exact .ok (well _ _ _ _ reached)
  | error fault stopped => exact .error fault (wide _ _ stopped)

/-- Steps that go together from the sessions of each of several kinds. -/
protected theorem each {ι : Type} {start : ι → Session → Session → Prop}
    {reach : ι → α → α → Session → Session → Prop}
    (goes : ∀ kind, Together (start kind) (reach kind) failed step image) :
    Together (fun first second => ∃ kind, start kind first second)
      (fun value other first second => ∃ kind, reach kind value other first second) failed step
      image := by
  rintro first second ⟨kind, met⟩
  exact (goes kind).weaken (fun _ _ _ _ reached => ⟨kind, reached⟩) (fun _ _ stopped => stopped)
    first second met

/-- Noting how steps end keeps what does not depend on the events but by their growth. -/
protected theorem noting (item : Item) (goes : Together before after failed step image)
    (well : ∀ value other first second, after value other first second →
      later value other { first with events := first.events ++ [⟨item, none⟩] }
        { second with events := second.events ++ [⟨item, none⟩] })
    (ill : ∀ fault first second, failed first second →
      wider { first with events := first.events ++ [⟨item, some fault⟩] }
        { second with events := second.events ++ [⟨item, some fault⟩] }) :
    Together before later wider (noting item step) (noting item image) := by
  intro first second met
  have ended := goes first second met
  unfold Session.noting
  generalize step first = firstEnd at ended ⊢
  generalize image second = secondEnd at ended ⊢
  cases ended with
  | ok reached => exact .ok (well _ _ _ _ reached)
  | error fault stopped => exact .error fault (ill fault _ _ stopped)

/-- Diagnosing how steps end keeps what does not depend on the diagnostics but by their source. -/
protected theorem diagnosing (goes : Together before after failed step image)
    (well : ∀ value other first second, after value other first second →
      later value other { first with diagnostics := [] } { second with diagnostics := [] })
    (ill : ∀ (fault : ScriptFault) first second, failed first second →
      wider { first with diagnostics := fault.render first.setup.source }
        { second with diagnostics := fault.render second.setup.source }) :
    Together before later wider (diagnosing step) (diagnosing image) := by
  intro first second met
  have ended := goes first second met
  unfold Session.diagnosing
  generalize step first = firstEnd at ended ⊢
  generalize image second = secondEnd at ended ⊢
  cases ended with
  | ok reached => exact .ok (well _ _ _ _ reached)
  | error fault stopped => exact .error fault (ill fault _ _ stopped)

/-- The hooks of a slot keep what their actions keep. -/
protected theorem hooksAt (phase : Phase) (timing : Timing)
    (hooks : ∀ first second, related first second → second.hooks = first.hooks)
    (noted : ∀ hook fault first second, related first second →
      related { first with events := first.events ++ [⟨.hook hook, fault⟩] }
        { second with events := second.events ++ [⟨.hook hook, fault⟩] })
    (performs : ∀ first second, related first second → ∀ hook ∈ first.hooks, hook.phase = phase →
      hook.timing = timing → EndTogether (fun _ _ => related) related
        (performAll hook.actions first) (performAll hook.actions second)) :
    Together related (fun _ _ => related) related (hooksAt phase timing)
      (hooksAt phase timing) := by
  -- The hooks of the slot are those of the session all along.
  have runs (listed slot : List Hook) (part : ∀ hook ∈ slot, hook ∈ listed ∧ hook.phase = phase ∧
      hook.timing = timing) :
      Together (fun first second => related first second ∧ first.hooks = listed)
        (fun _ _ => related) related (runHooks slot) (runHooks slot) := by
    induction slot with
    | nil => exact .pure fun _ _ both => both.1
    | cons hook rest ih =>
      obtain ⟨member, inPhase, atTime⟩ := part hook List.mem_cons_self
      have performed : Together (fun first second => related first second ∧ first.hooks = listed)
          (fun _ _ first second => related first second ∧ first.hooks = listed) related
          (performAll hook.actions) (performAll hook.actions) := by
        rintro first second ⟨met, same⟩
        have ended := performs first second met hook (by rw [same]; exact member) inPhase atTime
        have kept := (spares_performAll first hook.actions).hooks
        unfold leftBy at kept
        generalize performAll hook.actions first = firstEnd at ended kept ⊢
        generalize performAll hook.actions second = secondEnd at ended ⊢
        cases ended with
        | ok reached => exact .ok ⟨reached, kept.trans same⟩
        | error fault stopped => exact .error fault stopped
      have noting : Together (fun first second => related first second ∧ first.hooks = listed)
          (fun _ _ first second => related first second ∧ first.hooks = listed) related
          (Session.noting (.hook hook) (performAll hook.actions))
          (Session.noting (.hook hook) (performAll hook.actions)) := by
        refine performed.noting (.hook hook) ?_ ?_
        · rintro _ _ first second ⟨met, same⟩
          exact ⟨noted hook none first second met, same⟩
        · intro fault first second met
          exact noted hook (some fault) first second met
      exact noting.bind fun _ _ => ih fun hook member => part hook (.tail _ member)
  intro first second met
  have slots : second.slot phase timing = first.slot phase timing := by
    unfold slot
    rw [hooks first second met]
  have begun (session : Session) : Session.hooksAt phase timing session =
      runHooks (session.slot phase timing) session := rfl
  rw [begun, begun, slots]
  refine runs first.hooks (first.slot phase timing) (fun hook member => ?_) first second ⟨met, rfl⟩
  obtain ⟨listed, fits⟩ := List.mem_filter.mp member
  simp only [Bool.and_eq_true, decide_eq_true_eq] at fits
  exact ⟨listed, fits⟩

/-- A step between the hooks of its phase. -/
protected theorem inPhase (phase : Phase)
    (opening : Together before (fun _ _ => before) failed (hooksAt phase .before)
      (hooksAt phase .before))
    (within : Together before after failed (Session.noting (.phase phase) step)
      (Session.noting (.phase phase) image))
    (closing : ∀ value other, Together (after value other) (fun _ _ => after value other) failed
      (hooksAt phase .after) (hooksAt phase .after)) :
    Together before after failed (inPhase phase step) (inPhase phase image) :=
  opening.bind fun _ _ => within.bind fun value other => (closing value other).bind fun _ _ =>
    .pure fun _ _ met => met

end Together

end Session

end Scriptlet
