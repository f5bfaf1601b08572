import Scriptlet.Proofs.Session.Plan

/-!
# The protocol of a session

Each call that takes a script through its phases runs the items of its plan in order
(`Session.plan`), up to the first that fails (`Session.Answers`). Once a script has been resolved
the plan holds no phase before the run, and what the front end made stays as it is
(`Session.SameFrontEnd`).
-/

namespace Scriptlet

/-- A call of the host. -/
inductive HostCall where
  | bindGlobal (name : String) (value : HostValue)
  | bindValue (name : String) (value : Value)
  | registerModule (native : NativeModule)
  | customize (hook : Hook)
  | resolve
  | evaluate

namespace HostCall

/-- What a call does. -/
def perform : HostCall → SessionM Unit
  | bindGlobal name value => modify (·.bindGlobal name value false)
  | bindValue name value => modify (·.bindValue name value)
  | registerModule native => modify (·.registerModule native)
  | customize hook => modify (·.addHook hook)
  | resolve => Session.resolve
  | evaluate => Session.evaluate

/-- The hook a call adds. -/
def hook? : HostCall → Option Hook
  | customize hook => some hook
  | _ => none

/-- A call that takes a script through the phases before a run. -/
def Resolves : HostCall → Prop
  | resolve | evaluate => True
  | _ => False

end HostCall

namespace Session

/-- The session a call leaves, however it ends. -/
def after (session : Session) (call : HostCall) : Session :=
  session.leftBy call.perform

/-- The session some calls leave. -/
def afterAll (session : Session) (calls : List HostCall) : Session :=
  calls.foldl after session

/-- What is to be run before a script can be interpreted. -/
def frontPlan (session : Session) : List Item :=
  if session.resolutions.isSome then [] else frontPlanOf session.hooks

/-- What a call is to run. -/
def plan (session : Session) : HostCall → List Item
  | .resolve => session.frontPlan
  | .evaluate => session.frontPlan ++ planOf session.hooks .interpreting
  | _ => []

variable {α : Type} {session : Session}

/-- A step whose fault is reported leaves what it leaves, but for the diagnostics. -/
theorem diagnosing_eq (session : Session) (step : SessionM α) :
    ∃ diagnostics, session.leftBy (diagnosing step) =
        { session.leftBy step with diagnostics := diagnostics } ∧
      session.faultOf (diagnosing step) = session.faultOf step := by
  unfold diagnosing leftBy faultOf
  dsimp only
  cases step session with
  | ok value later => exact ⟨[], rfl, rfl⟩
  | error fault later => exact ⟨_, rfl, rfl⟩

/-! ### What stays -/

private theorem Fixes.noting {item : Item} {step : SessionM α}
    (fixes : ∀ session : Session, session.Fixes (session.leftBy step)) (session : Session) :
    session.Fixes (session.leftBy (noting item step)) := by
  obtain ⟨tokens, comments, resolved, statements⟩ := fixes session
  rw [leftBy_noting]
  exact ⟨tokens, comments, resolved, statements⟩

private theorem Fixes.bind {β : Type} {step : SessionM α} {next : α → SessionM β}
    (first : ∀ session : Session, session.Fixes (session.leftBy step))
    (rest : ∀ value, ∀ session : Session, session.Fixes (session.leftBy (next value)))
    (session : Session) : session.Fixes (session.leftBy (step >>= next)) :=
  bind_cases (fun _ later => session.Fixes later) (fun _ _ => first session)
    fun value _ _ => (first session).trans (rest value _)

private theorem fixes_hooksAt (phase : Phase) (timing : Timing) (session : Session) :
    session.Fixes (session.leftBy (hooksAt phase timing)) := by
  have runs (hooks : List Hook) :
      ∀ session : Session, session.Fixes (session.leftBy (runHooks hooks)) := by
    induction hooks with
    | nil => exact .refl
    | cons hook rest ih =>
        exact .bind (.noting fun session => (spares_performAll session hook.actions).toFixes)
          fun _ => ih
  exact runs (session.slot phase timing) session

private theorem Fixes.inPhase {phase : Phase} {step : SessionM α}
    (fixes : ∀ session : Session, session.Fixes (session.leftBy step)) :
    ∀ session : Session, session.Fixes (session.leftBy (inPhase phase step)) :=
  .bind (fixes_hooksAt phase .before) fun _ => .bind (.noting fixes) fun _ =>
    .bind (fixes_hooksAt phase .after) fun _ => .refl

/-- Two steps end well if both do. -/
theorem whole_of_bind {β : Type} {step : SessionM α} {next : α → SessionM β}
    (whole : session.faultOf (step >>= next) = none) :
    ∃ value, (session.leftBy step).faultOf (next value) = none ∧
      session.faultOf step = none ∧
      session.leftBy (step >>= next) = (session.leftBy step).leftBy (next value) := by
  revert whole
  refine bind_cases (fun fault later => fault = none → ∃ value,
    (session.leftBy step).faultOf (next value) = none ∧ session.faultOf step = none ∧
      later = (session.leftBy step).leftBy (next value)) (fun fault failed whole => ?_)
    fun value succeeded _ whole => ⟨value, whole, succeeded, rfl⟩
  cases whole

private theorem resolved_resolveStatements (whole : session.faultOf resolveStatements = none) :
    (session.leftBy resolveStatements).resolved = true := by
  rw [resolveStatements, leftBy_get_bind]
  rw [resolveStatements, faultOf_get_bind] at whole
  revert whole
  split
  · exact fun _ => rfl
  · exact fun whole => by cases whole

private theorem resolved_resolving
    (whole : session.faultOf (inPhase .resolving resolveStatements) = none) :
    (session.leftBy (inPhase .resolving resolveStatements)).resolved = true := by
  obtain ⟨_, whole, _, leftBefore⟩ := whole_of_bind whole
  obtain ⟨resolutions, whole, resolved, leftResolving⟩ := whole_of_bind whole
  have answered (session : Session) :
      session.Fixes (session.leftBy (pure resolutions : SessionM Resolutions)) := .refl session
  have kept := Fixes.bind (fixes_hooksAt .resolving .after) fun _ => answered
  rw [faultOf_noting] at resolved
  refine (congrArg Session.resolved (leftBefore.trans leftResolving)).trans
    ((kept _).resolved.trans ?_)
  rw [leftBy_noting]
  exact resolved_resolveStatements resolved

/-- The front end leaves a tree that is resolved if no item fails. -/
theorem resolved_frontEnd (whole : session.faultOf frontEnd = none) :
    (session.leftBy frontEnd).resolved = true := by
  obtain ⟨_, whole, _, left⟩ := whole_of_bind whole
  obtain ⟨_, whole, _, leftParsing⟩ := whole_of_bind whole
  exact (congrArg Session.resolved (left.trans leftParsing)).trans (resolved_resolving whole)

/-! ### What runs -/

/-- A call that finds a script resolved does nothing more to resolve it. -/
theorem resolve_of_resolved (resolved : session.resolutions.isSome) :
    resolve session = .ok () session := by
  obtain ⟨resolutions, found⟩ := Option.isSome_iff_exists.mp resolved
  unfold resolve
  rw [get_bind, found]
  rfl

/-- The phases before a run with what they found. -/
def firstResolve : SessionM Unit := do
  let resolutions ← frontEnd
  modify fun session => { session with resolutions := some resolutions }

/-- A call that finds a script unresolved takes it through the phases before a run and reports its
fault. -/
theorem resolve_of_unresolved (absent : session.resolutions = none) :
    resolve session = diagnosing firstResolve session := by
  unfold resolve
  rw [get_bind, absent]
  rfl

/-- How the phases before a run end: their plan was run, and there are resolutions exactly
if no item failed. -/
structure Resolved (session : Session) (fault : Option ScriptFault) (later : Session) : Prop where
  events : ∃ events, Records session.frontPlan fault events ∧ later.events =
    session.events ++ events
  hooks : later.hooks = session.hooks
  whole : fault = none ↔ later.resolutions.isSome
  resolved : later.resolutions.isSome → later.resolved = true

private theorem resolved_firstResolve (absent : session.resolutions = none) :
    Resolved session (session.faultOf firstResolve) (session.leftBy firstResolve) := by
  obtain ⟨hooks, resolutions, events, records, noted⟩ := follows_frontEnd session
  have planned : session.frontPlan = frontPlanOf session.hooks := by
    rw [frontPlan, absent]
    rfl
  rw [← planned] at records
  refine bind_cases (Resolved session) (fun fault failed => ?_) fun value succeeded _ => ?_
  · rw [failed] at records
    refine ⟨⟨events, records, noted⟩, hooks, ⟨nofun, fun found => ?_⟩, fun found => ?_⟩
    all_goals
      rw [resolutions, absent] at found
      cases found
  · rw [succeeded] at records
    exact ⟨⟨events, records, noted⟩, hooks, ⟨fun _ => rfl, fun _ => rfl⟩,
      fun _ => resolved_frontEnd succeeded⟩

private theorem resolved_resolve
    (consistent : session.resolutions.isSome → session.resolved = true) :
    Resolved session (session.faultOf resolve) (session.leftBy resolve) := by
  cases found : session.resolutions with
  | some resolutions =>
      have resolved : session.resolutions.isSome := by rw [found]; rfl
      rw [leftBy, faultOf, resolve_of_resolved resolved]
      refine ⟨⟨[], ?_, (List.append_nil _).symm⟩, rfl,
        ⟨fun _ => resolved, fun _ => rfl⟩, consistent⟩
      rw [frontPlan, if_pos resolved]
      exact .done
  | none =>
      obtain ⟨diagnostics, left, ended⟩ := diagnosing_eq session firstResolve
      obtain ⟨events, hooks, whole, resolved⟩ := resolved_firstResolve found
      rw [leftBy, faultOf, resolve_of_unresolved found]
      change Resolved session (session.faultOf (diagnosing firstResolve))
        (session.leftBy (diagnosing firstResolve))
      rw [left, ended]
      exact ⟨events, hooks, whole, resolved⟩

/-- What runs after the phases before a run. -/
def interpretResolved : SessionM Unit := do
  match (← get).resolutions with
  | some resolutions => diagnosing (inPhase .interpreting (interpret resolutions))
  | none => return ()

private theorem interpretResolved_ran (resolved : session.resolutions.isSome) :
    Ran (planOf session.hooks .interpreting) session (session.faultOf interpretResolved)
        (session.leftBy interpretResolved) ∧
      session.Fixes (session.leftBy interpretResolved) := by
  obtain ⟨resolutions, found⟩ := Option.isSome_iff_exists.mp resolved
  rw [interpretResolved, leftBy_get_bind, faultOf_get_bind, found]
  obtain ⟨diagnostics, left, ended⟩ :=
    diagnosing_eq session (inPhase .interpreting (interpret resolutions))
  have follows : Follows (inPhase .interpreting (interpret resolutions)) (planOf · .interpreting) :=
    .inPhase fun session => (spares_interpret session resolutions).toSteady
  have fixes : ∀ session : Session, session.Fixes
      (session.leftBy (inPhase .interpreting (interpret resolutions))) :=
    .inPhase fun session => (spares_interpret session resolutions).toFixes
  obtain ⟨hooks, same, events⟩ := follows session
  obtain ⟨tokens, comments, stays, statements⟩ := fixes session
  dsimp only
  rw [left, ended]
  exact ⟨⟨hooks, same, events⟩, tokens, comments, stays, statements⟩

/-! ### Calls -/

/-- What holds of every session: the tree of a script with resolutions is resolved. -/
def Consistent (session : Session) : Prop :=
  session.resolutions.isSome → session.resolved = true

/-- How a call ends: its plan was run, and what had been resolved is as it was. -/
structure Answers (session : Session) (call : HostCall) (fault : Option ScriptFault)
    (later : Session) : Prop where
  events : ∃ events, Records (session.plan call) fault events ∧
    later.events = session.events ++ events
  hooks : later.hooks = session.hooks ++ call.hook?.toList
  consistent : later.Consistent
  settles : later.resolutions.isSome ↔
    session.resolutions.isSome ∨ call.Resolves ∧ session.faultOf resolve = none
  stays : session.resolutions.isSome →
    later.resolutions = session.resolutions ∧ session.Fixes later

/-- A call that resolves a script answers with its plan. -/
theorem answers_resolve (consistent : session.Consistent) :
    Answers session .resolve (session.faultOf resolve) (session.leftBy resolve) := by
  obtain ⟨events, hooks, whole, resolved⟩ := resolved_resolve consistent
  have same (found : session.resolutions.isSome) : session.leftBy resolve = session := by
    rw [leftBy, resolve_of_resolved found]
  refine ⟨events, hooks.trans (List.append_nil _).symm, resolved, ?_, fun found => ?_⟩
  · rw [← whole]
    refine ⟨fun ended => .inr ⟨trivial, ended⟩, fun either => ?_⟩
    rcases either with found | ⟨_, ended⟩
    · rw [faultOf, resolve_of_resolved found]
    · exact ended
  · rw [same found]
    exact ⟨rfl, .refl session⟩

private theorem answers_evaluate (consistent : session.Consistent) :
    Answers session .evaluate (session.faultOf evaluate) (session.leftBy evaluate) := by
  obtain ⟨⟨events, records, noted⟩, hooks, resolved, settles, stays⟩ := answers_resolve consistent
  change Answers session .evaluate (session.faultOf (resolve >>= fun _ => interpretResolved))
    (session.leftBy (resolve >>= fun _ => interpretResolved))
  refine bind_cases (Answers session .evaluate) (fun fault failed => ?_) fun _ succeeded _ => ?_
  · rw [failed] at records
    exact ⟨⟨events, records.extend, noted⟩, hooks, resolved, settles, stays⟩
  · rw [succeeded] at records
    have found : (session.leftBy resolve).resolutions.isSome :=
      settles.mpr (.inr ⟨trivial, succeeded⟩)
    obtain ⟨⟨hooksLater, same, later, onward, notedLater⟩, fixes⟩ := interpretResolved_ran found
    have kept : (session.leftBy resolve).hooks = session.hooks := hooks.trans (List.append_nil _)
    rw [kept] at onward
    refine ⟨⟨events ++ later, records.append onward, ?_⟩, hooksLater.trans hooks, fun _ => ?_, ?_,
      fun before => ?_⟩
    · rw [notedLater, noted, List.append_assoc]
    · exact fixes.resolved.trans (resolved found)
    · rw [same]
      exact settles
    · obtain ⟨resolutions, fixesBefore⟩ := stays before
      exact ⟨same.trans resolutions, fixesBefore.trans fixes⟩

/-- A call that only prepares a script runs nothing. -/
theorem answers_prepare {call : HostCall} {prepare : Session → Session}
    (performs : call.perform = modify prepare) (planned : session.plan call = [])
    (quiet : ¬ call.Resolves) (hooks : (prepare session).hooks = session.hooks ++ call.hook?.toList)
    (resolutions : (prepare session).resolutions = session.resolutions)
    (events : (prepare session).events = session.events) (fixes : session.Fixes (prepare session))
    (consistent : session.Consistent) :
    Answers session call (session.faultOf call.perform) (session.leftBy call.perform) := by
  rw [performs]
  refine ⟨⟨[], ?_, events.trans (List.append_nil _).symm⟩, hooks, fun found => ?_, ?_,
    fun _ => ⟨resolutions, fixes⟩⟩
  · rw [planned]
    exact .done
  · exact fixes.resolved.trans (consistent (resolutions ▸ found))
  · change (prepare session).resolutions.isSome ↔ _
    rw [resolutions]
    exact ⟨.inl, fun either => either.resolve_right fun ⟨resolves, _⟩ => quiet resolves⟩

/-- Every call runs its plan. -/
theorem answers (consistent : session.Consistent) (call : HostCall) :
    Answers session call (session.faultOf call.perform) (session.after call) := by
  have still : session.hooks = session.hooks ++ [] := (List.append_nil _).symm
  have kept (prepared : Session) (tokens : prepared.tokens = session.tokens)
      (comments : prepared.comments = session.comments)
      (resolved : prepared.resolved = session.resolved)
      (statements : prepared.statements = session.statements) : session.Fixes prepared :=
    ⟨tokens, comments, resolved, fun _ => statements⟩
  cases call with
  | bindGlobal name value =>
      exact answers_prepare rfl rfl id still rfl rfl (kept _ rfl rfl rfl rfl) consistent
  | bindValue name value =>
      exact answers_prepare rfl rfl id still rfl rfl (kept _ rfl rfl rfl rfl) consistent
  | registerModule native =>
      exact answers_prepare rfl rfl id still rfl rfl (kept _ rfl rfl rfl rfl) consistent
  | customize hook =>
      exact answers_prepare rfl rfl id rfl rfl rfl (kept _ rfl rfl rfl rfl) consistent
  | resolve => exact answers_resolve consistent
  | evaluate => exact answers_evaluate consistent

/-! ### Successive calls -/

private theorem afterAll_concat (session : Session) (calls : List HostCall) (call : HostCall) :
    session.afterAll (calls ++ [call]) = (session.afterAll calls).after call := by
  rw [afterAll, List.foldl_append]
  rfl

end Session

/-- Some calls have resolved a script if the phases before a run have all gone well in one of
them. -/
def HaveResolved (setup : Setup) (calls : List HostCall) : Prop :=
  ∃ earlier call later, calls = earlier ++ call :: later ∧ call.Resolves ∧
    ((Session.start setup).afterAll earlier).faultOf Session.resolve = none

private theorem haveResolved_concat (setup : Setup) (calls : List HostCall) (call : HostCall) :
    HaveResolved setup (calls ++ [call]) ↔ HaveResolved setup calls ∨
      call.Resolves ∧ ((Session.start setup).afterAll calls).faultOf Session.resolve = none := by
  constructor
  · rintro ⟨earlier, middle, later, split, resolves, whole⟩
    rcases List.eq_nil_or_concat later with rfl | ⟨rest, last, rfl⟩
    · obtain ⟨rfl, same⟩ := List.append_inj' split rfl
      cases same
      exact .inr ⟨resolves, whole⟩
    · rw [List.concat_eq_append, ← List.cons_append, ← List.append_assoc] at split
      obtain ⟨rfl, _⟩ := List.append_inj' split rfl
      exact .inl ⟨earlier, middle, rest, rfl, resolves, whole⟩
  · rintro (⟨earlier, middle, later, rfl, resolves, whole⟩ | ⟨resolves, whole⟩)
    · exact ⟨earlier, middle, later ++ [call], by simp, resolves, whole⟩
    · exact ⟨calls, call, [], rfl, resolves, whole⟩

namespace Session

variable {session : Session}

/-- What is known of a session some calls have led to. -/
structure Reached (setup : Setup) (calls : List HostCall) (session : Session) : Prop where
  consistent : session.Consistent
  hooks : session.hooks = calls.filterMap HostCall.hook?
  resolved : session.resolutions.isSome ↔ HaveResolved setup calls

/-- What is known of a session holds after any calls. -/
theorem reached (setup : Setup) (calls : List HostCall) :
    Reached setup calls ((start setup).afterAll calls) := by
  suffices every : ∀ latest : List HostCall,
      Reached setup latest.reverse ((start setup).afterAll latest.reverse) by
    simpa only [List.reverse_reverse] using every calls.reverse
  intro latest
  induction latest with
  | nil =>
      refine ⟨nofun, rfl, nofun, fun ⟨earlier, _, _, split, _⟩ => ?_⟩
      exact absurd split (by simp)
  | cons call calls ih =>
      obtain ⟨_, hooks, consistent, settles, _⟩ := answers ih.consistent call
      rw [List.reverse_cons, afterAll_concat]
      refine ⟨consistent, ?_, ?_⟩
      · rw [hooks, ih.hooks, List.filterMap_append]
        cases call <;> rfl
      · rw [settles, ih.resolved, haveResolved_concat]

end Session

end Scriptlet
