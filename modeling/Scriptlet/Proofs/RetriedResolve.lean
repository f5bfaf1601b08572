import Scriptlet.Proofs.Session.Abreast

/-!
# Resolving once more after a failure

A call that fails to resolve a script (`Session.FailsWith`) may be made again. With hooks that do
not look at the session the next calls run the same items, fail with the same fault and leave the
same front end (`Session.Agrees`), except in two ways: a hook that fails after the tree was resolved
leaves a tree that no hook can edit any more, and edits of the statements that come before the parse
add up if the parse is not reached.
-/

namespace Scriptlet

namespace Session

variable {session first second third : Session} {fault : ScriptFault} {events : List Event}

/-- A call that does not resolve a script of plain hooks: it fails with a fault after some events,
and leaves the flag of the tree as it was. -/
structure FailsWith (session : Session) (fault : ScriptFault) (events : List Event) : Prop where
  plain : ∀ hook ∈ session.hooks, hook.Plain
  fails : session.faultOf resolve = some fault
  resolved : (session.leftBy resolve).resolved = session.resolved
  events : (session.leftBy resolve).events = session.events ++ events

/-- Two calls that ran the same events leave the same front end; the statements may differ if they
were edited and never parsed. -/
structure Agrees (events : List Event) (first second : Session) : Prop where
  hooks : second.hooks = first.hooks
  resolved : second.resolved = first.resolved
  tokens : second.tokens = first.tokens
  comments : second.comments = first.comments
  diagnostics : second.diagnostics = first.diagnostics
  statements : ⟨.phase .parsing, none⟩ ∈ events ∨ first.resolved = true ∨
    (∀ hook ∈ first.hooks, ¬ hook.EditsEarly) → second.statements = first.statements

private theorem Agrees.refl (events : List Event) (session : Session) :
    Agrees events session session :=
  ⟨rfl, rfl, rfl, rfl, rfl, fun _ => rfl⟩

private theorem Agrees.trans (left : Agrees events first second)
    (right : Agrees events second third) :
    Agrees events first third where
  hooks := right.hooks.trans left.hooks
  resolved := right.resolved.trans left.resolved
  tokens := right.tokens.trans left.tokens
  comments := right.comments.trans left.comments
  diagnostics := right.diagnostics.trans left.diagnostics
  statements fixed := by
    have later := right.statements
    rw [left.resolved, left.hooks] at later
    exact (later fixed).trans (left.statements fixed)

/-- What a call that fails makes of the session it stopped in. -/
structure Blames (fault : ScriptFault) (left later : Session) : Prop where
  setup : later.setup = left.setup
  hooks : later.hooks = left.hooks
  resolved : later.resolved = left.resolved
  tokens : later.tokens = left.tokens
  comments : later.comments = left.comments
  statements : later.statements = left.statements
  events : later.events = left.events
  resolutions : later.resolutions = left.resolutions
  diagnostics : later.diagnostics = fault.render left.setup.source

/-- A script is not resolved exactly if one of the phases before a run fails, and with its fault. -/
theorem faultOf_of_frontEnd (absent : session.resolutions = none) {left : Session}
    (ended : frontEnd session = .error fault left) :
    session.faultOf resolve = some fault ∧ Blames fault left (session.leftBy resolve) := by
  have failed := resolve_eq absent
  rw [ended] at failed
  rw [faultOf, leftBy, failed]
  exact ⟨rfl, rfl, rfl, rfl, rfl, rfl, rfl, rfl, rfl, rfl⟩

private theorem frontEnd_of_faultOf (fails : session.faultOf resolve = some fault) :
    ∃ left, frontEnd session = .error fault left ∧ left.hooks = session.hooks ∧
      left.resolutions = none := by
  have absent := resolutions_of_faultOf fails
  obtain ⟨hooks, resolutions, _⟩ := follows_frontEnd session
  rw [faultOf, resolve_eq absent] at fails
  rw [leftBy] at hooks resolutions
  cases ended : frontEnd session with
  | ok resolved left =>
    rw [ended] at fails
    cases fails
  | error cause left =>
    rw [ended] at fails hooks resolutions
    cases fails
    exact ⟨left, rfl, hooks, resolutions.trans absent⟩

/-- The session a failed call leaves goes along with the one it began with. -/
theorem FailsWith.unread (fails : FailsWith session fault events) :
    Unread session (session.leftBy resolve) session (session.leftBy resolve) := by
  obtain ⟨left, ended, hooks, _⟩ := frontEnd_of_faultOf fails.fails
  obtain ⟨_, blames⟩ := faultOf_of_frontEnd (resolutions_of_faultOf fails.fails) ended
  have setup : (session.leftBy resolve).setup = session.setup :=
    (lasting_setup session.setup).resolve session rfl
  have nothing (session : Session) : session.events = session.events ++ [] :=
    (List.append_nil _).symm
  exact ⟨⟨⟨setup, blames.hooks.trans hooks, fails.plain, fails.resolved, [], nothing _, nothing _⟩,
    ⟨[], nothing _, nofun⟩, fun _ => rfl⟩, rfl, rfl⟩

/-- The next call fails alike and leaves the same front end. -/
theorem FailsWith.again (fails : FailsWith session fault events) :
    FailsWith (session.leftBy resolve) fault events ∧
      Agrees events (session.leftBy resolve) ((session.leftBy resolve).leftBy resolve) := by
  have ended := abreast_frontEnd _ _ fails.unread
  obtain ⟨left, one, _, absent⟩ := frontEnd_of_faultOf fails.fails
  obtain ⟨_, blames⟩ := faultOf_of_frontEnd (resolutions_of_faultOf fails.fails) one
  have ran := fails.events
  generalize session.leftBy resolve = first at ended blames ran ⊢
  generalize two : frontEnd first = secondEnd at ended
  rw [one] at ended
  cases ended with
  | @error _ left2 _ repeats =>
    obtain ⟨failsAgain, blames2⟩ := faultOf_of_frontEnd (blames.resolutions.trans absent) two
    obtain ⟨later, ranFirst, ranSecond⟩ := repeats.events
    -- The events of the first call are known, so the second call has run the same.
    obtain rfl : later = events :=
      List.append_cancel_left (ranFirst.symm.trans (blames.events.symm.trans ran))
    have resolved : left2.resolved = first.resolved := repeats.resolved.trans blames.resolved.symm
    have hooks : left2.hooks = first.hooks := repeats.hooks.trans blames.hooks.symm
    constructor
    · constructor
      · rw [blames.hooks]
        exact repeats.plain
      · exact failsAgain
      · exact blames2.resolved.trans resolved
      · exact blames2.events.trans ranSecond
    · constructor
      · exact blames2.hooks.trans hooks
      · exact blames2.resolved.trans resolved
      · rw [blames2.tokens]
        rcases repeats.tokens with same | same
        · exact same
        · exact same.trans blames.tokens.symm
      · rw [blames2.comments]
        rcases repeats.comments with same | same
        · exact same
        · exact same.trans blames.comments.symm
      · rw [blames2.diagnostics, blames.diagnostics, repeats.setup]
      · intro fixed
        rw [blames2.statements]
        rcases repeats.statements with unparsed | same
        · rcases fixed with parsed | fixed
          · obtain ⟨ranUnparsed, ranBefore, missing⟩ := unparsed.missing
            obtain rfl := List.append_cancel_left (ranBefore.symm.trans ranFirst)
            exact absurd parsed missing
          · apply unparsed.statements
            rw [resolved, hooks]
            exact fixed
        · exact same.trans blames.statements.symm

/-- So do all further calls. -/
theorem FailsWith.repeated (fails : FailsWith session fault events) (count : Nat) :
    FailsWith ((session.leftBy resolve).afterAll (List.replicate count .resolve)) fault events ∧
      Agrees events (session.leftBy resolve)
        ((session.leftBy resolve).afterAll (List.replicate count .resolve)) := by
  induction count generalizing session with
  | zero => exact ⟨fails.again.1, .refl _ _⟩
  | succ count ih =>
    obtain ⟨failsAgain, agrees⟩ := fails.again
    obtain ⟨failsLater, agreesLater⟩ := ih failsAgain
    exact ⟨failsLater, agrees.trans agreesLater⟩

/-- A tree becomes resolved only by the phase that resolves it. -/
theorem Flagged.resolved_eq (flagged : first.Flagged) (later : second.Flagged)
    (ran : second.events = first.events ++ events)
    (settled : first.resolved = true ∨ ⟨.phase .resolving, none⟩ ∉ events) :
    second.resolved = first.resolved := by
  unfold Flagged at flagged later
  rw [Bool.eq_iff_iff, later, ran, List.mem_append, flagged]
  rcases settled with resolved | missing
  · exact ⟨fun _ => flagged.mp resolved, .inl⟩
  · exact or_iff_left missing

end Session

/-- A script of plain hooks that cannot be resolved, and any number of further calls with nothing
in between. Its tree counts as resolved from the time the phase that resolves it went well, so not
if that phase failed but still if a hook after it did. Unless it was this call that resolved the
tree, the further calls all fail with the same fault and leave the same tokens, comments and
diagnostics. They leave the same statements if the script was parsed, if its tree was resolved
before, or if no hook edits the statements before they are parsed. -/
theorem failed_resolve_repeats (setup : Setup) (calls : List HostCall) (fault : ScriptFault)
    (plain : ∀ hook ∈ calls.filterMap HostCall.hook?, hook.Plain)
    (fails : ((Session.start setup).afterAll calls).faultOf Session.resolve = some fault) :
    let session := (Session.start setup).afterAll calls
    let first := session.after .resolve
    ∃ events, Records (frontPlanOf session.hooks) (some fault) events ∧
      first.events = session.events ++ events ∧
      ∀ count, let later := first.afterAll (List.replicate count .resolve)
        (later.resolved = true ↔ ⟨.phase .resolving, none⟩ ∈ later.events) ∧
        (session.resolved = true ∨ ⟨.phase .resolving, none⟩ ∉ events →
          later.faultOf Session.resolve = some fault ∧ Session.Agrees events first later) := by
  intro session first
  obtain ⟨consistent, hooks, _⟩ := Session.reached setup calls
  have flagged (further : List HostCall) : (session.afterAll further).Flagged := by
    have joined : session.afterAll further = (Session.start setup).afterAll (calls ++ further) :=
      List.foldl_append.symm
    rw [joined]
    exact Session.flagged_afterAll setup (calls ++ further)
  obtain ⟨events, records, ran⟩ := (Session.answers_resolve consistent).events
  have planned : session.plan .resolve = frontPlanOf session.hooks := by
    rw [Session.plan, Session.frontPlan, Session.resolutions_of_faultOf fails]
    rfl
  rw [fails, planned] at records
  refine ⟨events, records, ran, fun count => ⟨flagged (.resolve :: List.replicate count .resolve),
    fun settled => ?_⟩⟩
  have resolved : first.resolved = session.resolved :=
    (flagged []).resolved_eq (flagged [.resolve]) ran settled
  have failing : Session.FailsWith session fault events :=
    ⟨by rw [hooks]; exact plain, fails, resolved, ran⟩
  obtain ⟨failsLater, agrees⟩ := failing.repeated count
  exact ⟨failsLater.fails, agrees⟩

/-- A script with a hook that adds a statement after the parse and one that stops the next phase. -/
def retriedSample : List HostCall :=
  [.customize ⟨.parsing, .after, [.appendPrint (.bool true)]⟩,
    .customize ⟨.resolving, .before, [.fail .resolving "not yet"]⟩]

/-- The hook of the next phase stops the call and all its repetitions, which leave the front end
that the first one left. -/
theorem failed_resolve_repeats_sample :
    let session := (Session.start ⟨"print 1;", .standard, .standard, .standard⟩).afterAll
      retriedSample
    (session.faultOf Session.resolve).map ScriptFault.message =
        some "Resolving customizer failed: not yet" ∧
      ∃ events, ∀ count, Session.Agrees events (session.after .resolve)
        ((session.after .resolve).afterAll (List.replicate count .resolve)) := by
  intro session
  have message : (session.faultOf Session.resolve).map ScriptFault.message =
      some "Resolving customizer failed: not yet" := by decide +kernel
  obtain ⟨fault, fails, _⟩ := Option.map_eq_some_iff.mp message
  have plain : ∀ hook ∈ retriedSample.filterMap HostCall.hook?, hook.Plain := by
    simp [retriedSample, HostCall.hook?, Hook.Plain, HookAction.Plain]
  have unresolved : (session.after .resolve).resolved = false := by decide +kernel
  obtain ⟨events, _, ran, repeats⟩ := failed_resolve_repeats _ retriedSample fault plain fails
  refine ⟨message, events, fun count => ((repeats count).2 (.inr fun member => ?_)).2⟩
  have resolved := (repeats 0).1.mpr (ran ▸ List.mem_append_right _ member)
  exact absurd resolved (Bool.eq_false_iff.mp unresolved)

end Scriptlet
