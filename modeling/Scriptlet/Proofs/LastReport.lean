import Scriptlet.Proofs.Session.Abreast

/-!
# What a call reports

The diagnostics a session shows are those of its last call (`diagnosticsOf`), but for a call that
finds the script resolved and has nothing more to do. What it shows as printed and tested begins
anew where a run begins (`Session.lastMachine`), so a call that fails before that still shows what
an earlier run printed (`calls_report`).
-/

namespace Scriptlet

/-- The diagnostics of a call that ends with a fault, or with none. -/
def diagnosticsOf (source : String) : Option ScriptFault → List String
  | none => []
  | some fault => fault.render source

namespace Session

variable {α : Type} {session : Session} {hooks : List Hook}
  {property : Array String → Array TestOutcome → Prop}

/-- What a call that runs a script does before the run. -/
def approach : SessionM Unit := do
  resolve
  hooksAt .interpreting .before

/-- The machine a run of the statements ends with. It is begun with nothing printed or tested. -/
def lastMachine (session : Session) (resolutions : Resolutions) : Machine :=
  let setting : Setting :=
    ⟨resolutions, session.modules, session.globals, session.setup.options⟩
  match Run.interpret setting session.statements (.start session.store session.globals) with
  | .ok _ machine => machine
  | .error _ machine => machine

/-- The hooks of a session keep a property of what was printed and tested. -/
def HooksKeep (session : Session) (property : Array String → Array TestOutcome → Prop) : Prop :=
  ∀ hook ∈ session.hooks,
    Maintains (fun later => property later.output later.tests) (performAll hook.actions)

/-! ### Diagnostics -/

private theorem diagnostics_diagnosing (session : Session) (step : SessionM α) :
    (session.leftBy (diagnosing step)).diagnostics =
      diagnosticsOf (session.leftBy (diagnosing step)).setup.source
        (session.faultOf (diagnosing step)) := by
  unfold diagnosing leftBy faultOf
  dsimp only
  cases step session <;> rfl

private theorem diagnostics_resolve (absent : session.resolutions = none) :
    (session.leftBy resolve).diagnostics =
      diagnosticsOf session.setup.source (session.faultOf resolve) := by
  have setup : (session.leftBy resolve).setup = session.setup :=
    (lasting_setup session.setup).resolve session rfl
  have reported := diagnostics_diagnosing session firstResolve
  rw [leftBy, faultOf, ← resolve_of_unresolved absent] at reported
  rw [← setup]
  exact reported

private theorem diagnostics_evaluate (consistent : session.Consistent) :
    (session.leftBy evaluate).diagnostics =
      diagnosticsOf session.setup.source (session.faultOf evaluate) := by
  change (session.leftBy (resolve >>= fun _ => interpretResolved)).diagnostics =
    diagnosticsOf session.setup.source (session.faultOf (resolve >>= fun _ => interpretResolved))
  refine bind_cases
    (fun fault later => later.diagnostics = diagnosticsOf session.setup.source fault)
    (fun fault failed => ?_) fun _ succeeded _ => ?_
  · rw [← failed]
    exact diagnostics_resolve (resolutions_of_faultOf failed)
  · have found : (session.leftBy resolve).resolutions.isSome :=
      (answers_resolve consistent).settles.mpr (.inr ⟨trivial, succeeded⟩)
    obtain ⟨resolutions, found⟩ := Option.isSome_iff_exists.mp found
    have lasting := lasting_setup session.setup
    have setup := lasting.interpretResolved _ (lasting.resolve session rfl)
    rw [interpretResolved, leftBy_get_bind, faultOf_get_bind, found] at *
    rw [diagnostics_diagnosing, setup]

/-! ### What was printed and tested -/

/-- What was printed and tested has a property the hooks keep. -/
structure Carries (hooks : List Hook) (property : Array String → Array TestOutcome → Prop)
    (session : Session) : Prop where
  report : property session.output session.tests
  hooks : session.hooks = hooks

private theorem report_interpret (session : Session) (resolutions : Resolutions) :
    (session.leftBy (interpret resolutions)).output = (session.lastMachine resolutions).output ∧
      (session.leftBy (interpret resolutions)).tests =
        (session.lastMachine resolutions).tests := by
  unfold leftBy interpret lastMachine
  dsimp only
  split <;> rename_i ended <;> split at ended <;> rename_i ran <;> cases ended <;> rw [ran] <;>
    exact ⟨rfl, rfl⟩

/-- Hooks that keep a property are no obstacle to it. -/
theorem carries_hooksAt (keeps : session.HooksKeep property) (phase : Phase) (timing : Timing) :
    Maintains (Carries session.hooks property) (hooksAt phase timing) := by
  apply Maintains.hooksAt
  · intro later carries hook member
    rw [carries.hooks] at member
    exact ⟨keeps hook member later carries.report,
      (spares_performAll later hook.actions).hooks.trans carries.hooks⟩
  · exact fun _ _ _ carries => ⟨carries.report, carries.hooks⟩

/-- Nothing before the hooks of a run prints or tests. -/
theorem carries_resolve (keeps : session.HooksKeep property) :
    Maintains (Carries session.hooks property) resolve := by
  have phase {α : Type} {phase : Phase} {step : SessionM α}
      (kept : Maintains (Carries session.hooks property) step) :
      Maintains (Carries session.hooks property) (noting (.phase phase) step) :=
    kept.noting fun _ _ carries => ⟨carries.report, carries.hooks⟩
  have tokenizing : Maintains (Carries session.hooks property) tokenize :=
    .tokenize fun _ _ _ carries => ⟨carries.report, carries.hooks⟩
  have parsing : Maintains (Carries session.hooks property) parseTokens :=
    .parseTokens fun _ _ _ _ carries => ⟨carries.report, carries.hooks⟩
  have resolving : Maintains (Carries session.hooks property) resolveStatements :=
    .resolveStatements fun _ carries => ⟨carries.report, carries.hooks⟩
  exact .resolve
    (.frontEnd (carries_hooksAt keeps) (phase tokenizing) (phase parsing) (phase resolving))
    (fun _ _ carries => ⟨carries.report, carries.hooks⟩)
    fun _ _ carries => ⟨carries.report, carries.hooks⟩

/-- What happens once a script is resolved. -/
theorem leftBy_evaluate {first : Session} (consistent : session.Consistent)
    (resolved : resolve session = .ok () first) :
    ∃ resolutions diagnostics, first.resolutions = some resolutions ∧
      session.leftBy evaluate = { first.leftBy (inPhase .interpreting (interpret resolutions)) with
        diagnostics := diagnostics } := by
  have succeeded : session.faultOf resolve = none := by rw [faultOf, resolved]
  have found := (answers_resolve consistent).settles.mpr (.inr ⟨trivial, succeeded⟩)
  rw [leftBy, resolved] at found
  obtain ⟨resolutions, found⟩ := Option.isSome_iff_exists.mp found
  obtain ⟨diagnostics, left, _⟩ := diagnosing_eq first
    (inPhase .interpreting (interpret resolutions))
  refine ⟨resolutions, diagnostics, found, ?_⟩
  have ran : session.leftBy evaluate = first.leftBy interpretResolved := by
    change session.leftBy (resolve >>= fun _ => interpretResolved) = _
    rw [leftBy, bind_of_ok resolved]
    rfl
  rw [ran, interpretResolved, leftBy_get_bind, found]
  exact left

/-- A call that fails before its run shows what was shown before, as its hooks left it. -/
theorem report_of_approach_error {left : Session} {fault : ScriptFault}
    (consistent : session.Consistent) (failed : approach session = .error fault left)
    (keeps : session.HooksKeep property) (report : property session.output session.tests) :
    property (session.leftBy evaluate).output (session.leftBy evaluate).tests := by
  have approached : Maintains (Carries session.hooks property) approach :=
    (carries_resolve keeps).bind fun _ => carries_hooksAt keeps _ _
  have carries := approached session ⟨report, rfl⟩
  rw [leftBy, failed] at carries
  cases resolved : resolve session with
  | error cause first =>
    rw [approach, bind_of_error resolved] at failed
    cases failed
    change property (session.leftBy (resolve >>= fun _ => interpretResolved)).output
      (session.leftBy (resolve >>= fun _ => interpretResolved)).tests
    rw [leftBy, bind_of_error resolved]
    exact carries.report
  | ok _ first =>
    obtain ⟨resolutions, diagnostics, _, ran⟩ := leftBy_evaluate consistent resolved
    rw [approach, bind_of_ok resolved] at failed
    rw [ran, leftBy, inPhase, bind_of_error failed]
    exact carries.report

/-- Once a run has begun nothing is shown but what it printed and tested, as the hooks after it
left it. -/
theorem report_of_approach_ok {ready : Session} (consistent : session.Consistent)
    (began : approach session = .ok () ready) :
    ∃ resolutions, ready.resolutions = some resolutions ∧ ∀ property, session.HooksKeep property →
      property (ready.lastMachine resolutions).output (ready.lastMachine resolutions).tests →
      property (session.leftBy evaluate).output (session.leftBy evaluate).tests := by
  cases resolved : resolve session with
  | error cause first =>
    rw [approach, bind_of_error resolved] at began
    cases began
  | ok _ first =>
    obtain ⟨resolutions, diagnostics, found, ran⟩ := leftBy_evaluate consistent resolved
    rw [approach, bind_of_ok resolved] at began
    obtain ⟨hooks, same, _⟩ := Follows.hooksAt .interpreting .before first
    rw [leftBy, began] at hooks same
    refine ⟨resolutions, same.trans found, fun property keeps printed => ?_⟩
    have kept : ready.hooks = session.hooks := by
      obtain ⟨_, hooksFirst, _⟩ := answers_resolve consistent
      rw [leftBy, resolved] at hooksFirst
      exact hooks.trans (hooksFirst.trans (List.append_nil _))
    have afterwards : Carries session.hooks property
        (ready.leftBy (noting (.phase .interpreting) (interpret resolutions))) := by
      obtain ⟨output, tests⟩ := report_interpret ready resolutions
      rw [leftBy_noting]
      refine ⟨?_, (spares_interpret ready resolutions).hooks.trans kept⟩
      change property (ready.leftBy (interpret resolutions)).output
        (ready.leftBy (interpret resolutions)).tests
      rw [output, tests]
      exact printed
    have ended : Carries session.hooks property
        (ready.leftBy (noting (.phase .interpreting) (interpret resolutions) >>= fun result =>
          hooksAt .interpreting .after >>= fun _ => pure result)) := by
      refine bind_cases (fun _ later => Carries session.hooks property later)
        (fun _ _ => afterwards) fun _ _ _ => ?_
      exact ((carries_hooksAt keeps .interpreting .after).bind fun _ => .pure _) _ afterwards
    rw [ran]
    change property (first.leftBy (hooksAt .interpreting .before >>= _)).output
      (first.leftBy (hooksAt .interpreting .before >>= _)).tests
    rw [leftBy, bind_of_ok began]
    exact ended.report

/-! ### Plain hooks -/

/-- Output and tests that differ from others by lines that plain hooks may add. -/
structure Extends (hooks : List Hook) (output : Array String) (tests : Array TestOutcome)
    (outputLater : Array String) (testsLater : Array TestOutcome) : Prop where
  output : ∃ lines, outputLater.toList = output.toList ++ lines ∧
    ∀ line ∈ lines, ∃ hook ∈ hooks, .addOutput line ∈ hook.actions
  tests : testsLater = tests

private theorem Extends.refl (hooks : List Hook) (output : Array String)
    (tests : Array TestOutcome) :
    Extends hooks output tests output tests :=
  ⟨⟨[], (List.append_nil _).symm, nofun⟩, rfl⟩

/-- A plain action prints no more than the line it adds. -/
theorem Extends.perform {output : Array String} {tests : Array TestOutcome} {hook : Hook}
    {action : HookAction} (extended : Extends hooks output tests session.output session.tests)
    (plain : action.Plain) (member : hook ∈ hooks) (listed : action ∈ hook.actions) :
    Extends hooks output tests (session.leftBy (perform action)).output
      (session.leftBy (perform action)).tests := by
  have edited (session : Session) (edit : Program → Program) :
      (session.editStatements edit).output = session.output ∧
        (session.editStatements edit).tests = session.tests := by
    unfold editStatements
    split <;> exact ⟨rfl, rfl⟩
  cases edits : action.edit? with
  | some edit =>
    rw [leftBy_edit edits]
    obtain ⟨same, sameTests⟩ := edited { session with nextId := session.nextId + edit.2 }
      (edit.1 session.nextId)
    rw [same, sameTests]
    exact extended
  | none =>
    cases action with
    | bind | edit | report | abort | depending => exact plain.elim
    | dropLast | dropFirst | reverse | appendPrint | appendPrintVar | appendBreak => cases edits
    | addOutput text =>
      obtain ⟨⟨lines, added, named⟩, same⟩ := extended
      refine ⟨⟨lines ++ [text], ?_, ?_⟩, same⟩
      · change (session.output.push text).toList = _
        rw [Array.toList_push, added, List.append_assoc]
      · intro line either
        rcases List.mem_append.mp either with early | last
        · exact named line early
        · rw [List.mem_singleton.mp last]
          exact ⟨hook, member, listed⟩
    | _ => exact extended

/-- Plain hooks only add lines. -/
theorem hooksKeep_extends (plain : ∀ hook ∈ session.hooks, hook.Plain) (output : Array String)
    (tests : Array TestOutcome) : session.HooksKeep (Extends session.hooks output tests) := by
  intro hook member
  have performed (actions : List HookAction) (part : ∀ action ∈ actions, action ∈ hook.actions) :
      Maintains (fun later => Extends session.hooks output tests later.output later.tests)
        (performAll actions) := by
    induction actions with
    | nil => exact .pure ()
    | cons action rest ih =>
      have listed : action ∈ hook.actions := part action List.mem_cons_self
      have one : Maintains
          (fun later => Extends session.hooks output tests later.output later.tests)
          (perform action) :=
        fun later extended => extended.perform (plain hook member action listed) member listed
      exact one.bind fun _ => ih fun action listed => part action (.tail _ listed)
  exact performed hook.actions fun _ listed => listed

end Session

/-- After a call that takes a script through its phases the diagnostics are those of the fault it
ended with, and none if it ended well, unless it was a call that found the script resolved and
changed nothing. After a call that runs a script, whatever the hooks keep holds of what was printed
and tested if it holds of what this run printed and tested, once the run has begun; and if it held
before the call, when the call failed before the run. -/
theorem calls_report (setup : Setup) (calls : List HostCall) :
    let session := (Session.start setup).afterAll calls
    (∀ call : HostCall, call.Resolves → let later := session.after call
      later.diagnostics = diagnosticsOf setup.source (session.faultOf call.perform) ∨
        call = .resolve ∧ session.resolutions.isSome ∧ later = session) ∧
    let later := session.after .evaluate
    match Session.approach session with
    | .ok _ ready => ∃ resolutions, ready.resolutions = some resolutions ∧
      ∀ property, session.HooksKeep property →
        property (ready.lastMachine resolutions).output (ready.lastMachine resolutions).tests →
        property later.output later.tests
    | .error _ _ => ∀ property, session.HooksKeep property →
      property session.output session.tests → property later.output later.tests := by
  intro session
  obtain ⟨consistent, _, _⟩ := Session.reached setup calls
  have setup_eq : session.setup = setup := Session.setup_afterAll (Session.start setup) calls
  constructor
  · intro call resolves
    rw [← setup_eq]
    cases call with
    | resolve =>
      cases found : session.resolutions with
      | none => exact .inl (Session.diagnostics_resolve found)
      | some resolutions =>
        have still : session.leftBy Session.resolve = session := by
          rw [Session.leftBy, Session.resolve_of_resolved (by rw [found]; rfl)]
        exact .inr ⟨rfl, rfl, still⟩
    | evaluate => exact .inl (Session.diagnostics_evaluate consistent)
    | _ => exact resolves.elim
  · dsimp only
    split
    · rename_i began
      exact Session.report_of_approach_ok consistent began
    · rename_i failed
      exact fun property => Session.report_of_approach_error consistent failed

/-- A script with a test that passes. -/
def testedSample : Setup :=
  ⟨"test (\"kept\") \x7b return true; \x7d", .standard, .standard, .standard⟩

/-- Calls that run a script and then give it a hook that stops every run. -/
def stoppedSample : List HostCall :=
  [.evaluate, .customize ⟨.interpreting, .before, [.fail .interpreting "not yet"]⟩]

/-- A script that has run and is then stopped by a hook shows the fault of the hook, and still what
its run printed and tested. -/
theorem calls_report_stoppedSample :
    let session := (Session.start testedSample).afterAll stoppedSample
    (session.after .evaluate).diagnostics =
        diagnosticsOf testedSample.source (session.faultOf Session.evaluate) ∧
      (session.after .evaluate).tests = #[⟨"kept", true⟩] := by
  intro session
  obtain ⟨diagnostics, shows⟩ := calls_report testedSample stoppedSample
  refine ⟨(diagnostics .evaluate trivial).resolve_right nofun, ?_⟩
  have stopped : (session.faultOf Session.approach).isSome := by decide +kernel
  have tested : session.tests = #[⟨"kept", true⟩] := by decide +kernel
  dsimp only at shows
  split at shows
  · rename_i began
    rw [Session.faultOf, began] at stopped
    cases stopped
  · refine shows (fun _ tests => tests = #[⟨"kept", true⟩]) ?_ tested
    intro hook member
    have only : hook = ⟨.interpreting, .before, [.fail .interpreting "not yet"]⟩ := by
      rw [(Session.reached testedSample stoppedSample).hooks] at member
      exact List.mem_singleton.mp member
    subst only
    exact fun _ kept => kept

/-- A script of plain hooks shows after a call that runs it what this run printed and tested, with
lines the hooks added, and if the call failed before the run what was shown before, with such
lines. -/
theorem evaluate_shows (setup : Setup) (calls : List HostCall)
    (plain : ∀ hook ∈ calls.filterMap HostCall.hook?, hook.Plain) :
    let session := (Session.start setup).afterAll calls
    let later := session.after .evaluate
    match Session.approach session with
    | .ok _ ready => ∃ resolutions, ready.resolutions = some resolutions ∧
      Session.Extends session.hooks (ready.lastMachine resolutions).output
        (ready.lastMachine resolutions).tests later.output later.tests
    | .error _ _ =>
      Session.Extends session.hooks session.output session.tests later.output later.tests := by
  intro session
  obtain ⟨consistent, hooks, _⟩ := Session.reached setup calls
  rw [← hooks] at plain
  dsimp only
  split
  · rename_i ready began
    obtain ⟨resolutions, found, shows⟩ := Session.report_of_approach_ok consistent began
    have keeps := Session.hooksKeep_extends plain (ready.lastMachine resolutions).output
      (ready.lastMachine resolutions).tests
    exact ⟨resolutions, found, shows _ keeps (.refl _ _ _)⟩
  · rename_i failed
    exact Session.report_of_approach_error consistent failed
      (Session.hooksKeep_extends plain session.output session.tests) (.refl _ _ _)

end Scriptlet
