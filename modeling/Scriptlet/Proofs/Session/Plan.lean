import Scriptlet.Proofs.Outcome
import Scriptlet.Session.Basic

/-!
# Plans

What a phase runs at its time is known from the hooks of a session: the plan of the phase
(`planOf`). A step follows a plan if it runs its items in order, up to the first that fails
(`Session.Follows`).
-/

namespace Scriptlet

/-- The events of a plan that is run up to the first item that fails, and its fault. -/
inductive Records : List Item → Option ScriptFault → List Event → Prop
  | done : Records [] none []
  | next {item : Item} {rest : List Item} {fault : Option ScriptFault} {events : List Event} :
      Records rest fault events → Records (item :: rest) fault (⟨item, none⟩ :: events)
  | cut {item : Item} {rest : List Item} {fault : ScriptFault} :
      Records (item :: rest) (some fault) [⟨item, some fault⟩]

namespace Records

variable {plan further : List Item} {events later : List Event}

/-- A plan that is run whole may be carried on. -/
theorem append {fault : Option ScriptFault} (records : Records plan none events)
    (onward : Records further fault later) : Records (plan ++ further) fault (events ++ later) := by
  generalize whole : none = ended at records
  induction records with
  | done => exact onward
  | next _ ih => exact .next (ih whole)
  | cut => cases whole

/-- Nothing runs after an item that fails. -/
theorem extend {fault : ScriptFault} (records : Records plan (some fault) events) :
    Records (plan ++ further) (some fault) events := by
  generalize cut : some fault = ended at records
  induction records with
  | done => cases cut
  | next _ ih => exact .next (ih cut)
  | cut => exact .cut

end Records

namespace Session

variable {α β : Type} {session : Session}

/-- The session a step leaves, however it ends. -/
def leftBy (session : Session) (step : SessionM α) : Session :=
  match step session with
  | .ok _ later => later
  | .error _ later => later

/-- The fault a step ends with. -/
def faultOf (session : Session) (step : SessionM α) : Option ScriptFault :=
  match step session with
  | .ok .. => none
  | .error fault _ => some fault

/-- Two steps leave what the first leaves if it fails, and what the second leaves from there
otherwise. -/
theorem bind_cases (property : Option ScriptFault → Session → Prop) {step : SessionM α}
    {next : α → SessionM β}
    (fails : ∀ fault, session.faultOf step = some fault →
      property (some fault) (session.leftBy step))
    (goes : ∀ value, session.faultOf step = none → step session = .ok value (session.leftBy step) →
      property ((session.leftBy step).faultOf (next value))
        ((session.leftBy step).leftBy (next value))) :
    property (session.faultOf (step >>= next)) (session.leftBy (step >>= next)) := by
  unfold leftBy faultOf at *
  cases result : step session with
  | ok value middle =>
      rw [result] at goes
      rw [bind_of_ok result]
      exact goes value rfl rfl
  | error fault middle =>
      rw [result] at fails
      rw [bind_of_error result]
      exact fails fault rfl

/-- What no step between two hooks changes. -/
structure Steady (session later : Session) : Prop where
  hooks : later.hooks = session.hooks
  resolutions : later.resolutions = session.resolutions
  events : later.events = session.events

private theorem Steady.trans {first second third : Session} (left : first.Steady second)
    (right : second.Steady third) : first.Steady third :=
  ⟨right.hooks.trans left.hooks, right.resolutions.trans left.resolutions,
    right.events.trans left.events⟩

/-- What is kept of the front end by all that is not part of it: the statements are kept
once they are resolved. -/
structure Fixes (session later : Session) : Prop where
  tokens : later.tokens = session.tokens
  comments : later.comments = session.comments
  resolved : later.resolved = session.resolved
  statements : session.resolved = true → later.statements = session.statements

/-- A session that stays as it is keeps its front end. -/
theorem Fixes.refl (session : Session) : session.Fixes session := ⟨rfl, rfl, rfl, fun _ => rfl⟩

/-- What is kept twice is kept. -/
theorem Fixes.trans {first second third : Session} (left : first.Fixes second)
    (right : second.Fixes third) : first.Fixes third where
  tokens := right.tokens.trans left.tokens
  comments := right.comments.trans left.comments
  resolved := right.resolved.trans left.resolved
  statements resolved := (right.statements (left.resolved.trans resolved)).trans
    (left.statements resolved)

/-- What no hook changes. -/
structure Spares (session later : Session) : Prop extends Steady session later,
  Fixes session later

private theorem Spares.refl (session : Session) : session.Spares session :=
  ⟨⟨rfl, rfl, rfl⟩, rfl, rfl, rfl, fun _ => rfl⟩

private theorem Spares.trans {first second third : Session} (left : first.Spares second)
    (right : second.Spares third) : first.Spares third :=
  ⟨left.toSteady.trans right.toSteady, left.toFixes.trans right.toFixes⟩

private theorem spares_editStatements (session : Session) (edit : Program → Program) :
    session.Spares (session.editStatements edit) := by
  unfold editStatements
  split
  · exact ⟨⟨rfl, rfl, rfl⟩, rfl, rfl, rfl, fun _ => rfl⟩
  · rename_i unresolved
    exact ⟨⟨rfl, rfl, rfl⟩, rfl, rfl, rfl, fun resolved => absurd resolved unresolved⟩

mutual

/-- An action of a hook changes nothing that no hook changes. -/
theorem spares_perform (session : Session) :
    ∀ action, session.Spares (session.leftBy (perform action))
  | .log _ | .observe | .showGlobal _ | .define .. | .fail .. | .raise _ | .addOutput _ | .bind ..
  | .report .. | .abort _ => ⟨⟨rfl, rfl, rfl⟩, rfl, rfl, rfl, fun _ => rfl⟩
  | .dropLast => spares_editStatements session List.dropLast
  | .dropFirst => spares_editStatements session List.tail
  | .reverse => spares_editStatements session List.reverse
  | .appendPrint value =>
    spares_editStatements session (· ++ [Statement.print (.literal value .start) .start])
  | .appendPrintVar name =>
    have raised : session.Spares { session with nextId := session.nextId + 1 } :=
      ⟨⟨rfl, rfl, rfl⟩, rfl, rfl, rfl, fun _ => rfl⟩
    raised.trans <| spares_editStatements { session with nextId := session.nextId + 1 }
      (· ++ [Statement.print (.var session.nextId name .start) .start])
  | .appendBreak => spares_editStatements session (· ++ [Statement.breaking .start])
  | .edit change => spares_editStatements session change
  | .depending choose => spares_performAll session (choose session.view)
termination_by structural action => action

/-- Whatever a hook does, it changes nothing it cannot reach. -/
theorem spares_performAll (session : Session) :
    ∀ actions, session.Spares (session.leftBy (performAll actions))
  | [] => .refl session
  | action :: rest =>
    bind_cases (fun _ later => session.Spares later) (fun _ _ => spares_perform session action)
      fun _ _ _ => (spares_perform session action).trans (spares_performAll _ rest)
termination_by structural actions => actions

end

/-- A run touches nothing of the front end. -/
theorem spares_interpret (session : Session) (resolutions : Resolutions) :
    session.Spares (session.leftBy (interpret resolutions)) := by
  unfold leftBy interpret
  dsimp only
  split <;> rename_i ended <;> split at ended <;> cases ended <;>
    exact ⟨⟨rfl, rfl, rfl⟩, rfl, rfl, rfl, fun _ => rfl⟩

/-- A step that is noted leaves one more event, with the fault that it ended with. -/
theorem leftBy_noting (item : Item) (step : SessionM α) (session : Session) :
    session.leftBy (noting item step) = { session.leftBy step with
      events := (session.leftBy step).events ++ [⟨item, session.faultOf step⟩] } := by
  unfold noting leftBy faultOf
  dsimp only
  cases step session <;> rfl

/-- A step that is noted ends as it does without the note. -/
theorem faultOf_noting (item : Item) (step : SessionM α) (session : Session) :
    session.faultOf (noting item step) = session.faultOf step := by
  unfold noting faultOf
  dsimp only
  cases step session <;> rfl

/-- A step ran the items of a plan, up to the first that fails. -/
structure Ran (plan : List Item) (session : Session) (fault : Option ScriptFault)
    (later : Session) : Prop where
  hooks : later.hooks = session.hooks
  resolutions : later.resolutions = session.resolutions
  events : ∃ events, Records plan fault events ∧ later.events = session.events ++ events

/-- A step runs the plan the hooks make. -/
def Follows (step : SessionM α) (plan : List Hook → List Item) : Prop :=
  ∀ session : Session, Ran (plan session.hooks) session (session.faultOf step) (session.leftBy step)

namespace Follows

private theorem bind {step : SessionM α} {next : α → SessionM β}
    {plan further : List Hook → List Item}
    (first : Follows step plan) (rest : ∀ value, Follows (next value) further) :
    Follows (step >>= next) fun hooks => plan hooks ++ further hooks := by
  intro session
  refine bind_cases (Ran _ session) (fun fault failed => ?_) fun value succeeded _ => ?_
  · obtain ⟨hooks, resolutions, events, records, noted⟩ := first session
    rw [failed] at records
    exact ⟨hooks, resolutions, events, records.extend, noted⟩
  · obtain ⟨hooks, resolutions, events, records, noted⟩ := first session
    obtain ⟨hooksLater, resolutionsLater, later, onward, notedLater⟩ :=
      rest value (session.leftBy step)
    rw [succeeded] at records
    rw [hooks] at onward
    refine ⟨hooksLater.trans hooks, resolutionsLater.trans resolutions, events ++ later,
      records.append onward, ?_⟩
    rw [notedLater, noted, List.append_assoc]

/-- A step that only answers runs nothing. -/
protected theorem pure (value : α) : Follows (pure value) fun _ => [] :=
  fun _ => ⟨rfl, rfl, [], .done, (List.append_nil _).symm⟩

/-- A step is noted as the item it is. -/
protected theorem noting (item : Item) {step : SessionM α}
    (steady : ∀ session : Session, session.Steady (session.leftBy step)) :
    Follows (noting item step) fun _ => [item] := by
  intro session
  obtain ⟨hooks, resolutions, events⟩ := steady session
  rw [leftBy_noting, faultOf_noting]
  refine ⟨hooks, resolutions, [⟨item, session.faultOf step⟩], ?_, congrArg (· ++ _) events⟩
  cases session.faultOf step with
  | none => exact .next .done
  | some fault => exact .cut

/-- Hooks that are run one after the other follow the plan that lists them. -/
protected theorem runHooks (hooks : List Hook) :
    Follows (runHooks hooks) fun _ => hooks.map .hook := by
  induction hooks with
  | nil => exact .pure ()
  | cons hook rest ih =>
      exact bind (.noting _ fun session => (spares_performAll session hook.actions).toSteady)
        fun _ => ih

end Follows

end Session

/-- The hooks of a slot, in the order they are in. -/
def slotOf (hooks : List Hook) (phase : Phase) (timing : Timing) : List Item :=
  (hooks.filter fun hook => hook.phase = phase && hook.timing = timing).map .hook

/-- What a phase runs at its time: its hooks before it, itself, and its hooks after it. -/
def planOf (hooks : List Hook) (phase : Phase) : List Item :=
  slotOf hooks phase .before ++ .phase phase :: slotOf hooks phase .after

/-- What is run before a script can be interpreted. -/
def frontPlanOf (hooks : List Hook) : List Item :=
  planOf hooks .tokenizing ++ (planOf hooks .parsing ++ planOf hooks .resolving)

namespace Session

variable {α β : Type} {session : Session}

namespace Follows

/-- The hooks of a slot follow the plan of this slot. -/
protected theorem hooksAt (phase : Phase) (timing : Timing) :
    Follows (hooksAt phase timing) (slotOf · phase timing) :=
  fun session => Follows.runHooks (session.slot phase timing) session

/-- A phase follows its plan: its hooks before it, itself, and its hooks after it. -/
protected theorem inPhase {phase : Phase} {step : SessionM α}
    (steady : ∀ session : Session, session.Steady (session.leftBy step)) :
    Follows (inPhase phase step) (planOf · phase) := by
  have whole : Follows (inPhase phase step) fun hooks => slotOf hooks phase .before ++
      (.phase phase :: (slotOf hooks phase .after ++ [])) :=
    bind (.hooksAt phase .before) fun _ => bind (.noting (.phase phase) steady) fun result =>
      bind (.hooksAt phase .after) fun _ => .pure result
  simp only [List.append_nil] at whole
  exact whole

end Follows

/-- A look at the session leaves it to the step that comes next. -/
theorem leftBy_get_bind (session : Session) (next : Session → SessionM α) :
    session.leftBy (get >>= next) = session.leftBy (next session) := rfl

/-- A look at the session ends with what the step that comes next ends with. -/
theorem faultOf_get_bind (session : Session) (next : Session → SessionM α) :
    session.faultOf (get >>= next) = session.faultOf (next session) := rfl

private theorem steady_tokenize (session : Session) : session.Steady (session.leftBy tokenize) := by
  rw [tokenize, leftBy_get_bind]
  dsimp only
  split <;> exact ⟨rfl, rfl, rfl⟩

private theorem steady_parseTokens (session : Session) :
    session.Steady (session.leftBy parseTokens) := by
  rw [parseTokens, leftBy_get_bind]
  split <;> exact ⟨rfl, rfl, rfl⟩

private theorem steady_resolveStatements (session : Session) :
    session.Steady (session.leftBy resolveStatements) := by
  rw [resolveStatements, leftBy_get_bind]
  split <;> exact ⟨rfl, rfl, rfl⟩

/-- The front end runs its three phases. -/
theorem follows_frontEnd : Follows frontEnd frontPlanOf :=
  .bind (.inPhase steady_tokenize) fun _ => .bind (.inPhase steady_parseTokens) fun _ =>
    .inPhase steady_resolveStatements

end Session

end Scriptlet
