import Scriptlet.Proofs.Grammar.Proper
import Scriptlet.Proofs.Rerun.Echoing
import Scriptlet.Proofs.Session.Keeping

/-!
# Running a script again

A script may be run any number of times. The globals of a run stay for the next one, but they change
nothing: without hooks, native modules and globals of the host (`Session.Unaided`), if the first run
ends well then so do all others, and each prints, tests and leaves what the first did
(`Session.Reruns`).
-/

namespace Scriptlet

namespace Session

variable {α : Type} {store : Store} {session later : Session} {resolutions : Resolutions}

/-- The text of a global. -/
def globalText? (session : Session) (name : String) : Option String :=
  (session.global? name).map session.store.text

/-- A script for which the host has set up nothing but how its source is read, with what its runs
have left so far. -/
structure Unaided (store : Store) (session : Session) : Prop where
  hooks : session.hooks = []
  modules : session.modules = []
  globals : session.globals = ⟨0⟩
  proper : Statement.areProper session.statements = true
  store : session.store = store

/-! ### The phases before a run -/

private theorem unaided_hooksAt (phase : Phase) (timing : Timing) :
    Maintains (Unaided store) (hooksAt phase timing) := by
  refine .hooksAt (fun session unaided hook member => ?_) (fun _ _ _ unaided => { unaided with })
    phase timing
  rw [unaided.hooks] at member
  cases member

private theorem unaided_resolve : Maintains (Unaided store) resolve := by
  have phase {α : Type} {phase : Phase} {step : SessionM α}
      (kept : Maintains (Unaided store) step) :
      Maintains (Unaided store) (noting (.phase phase) step) :=
    kept.noting fun _ _ unaided => { unaided with }
  have tokenizing : Maintains (Unaided store) tokenize :=
    .tokenize fun _ _ _ unaided => { unaided with }
  -- The statements are those the tokens are parsed into: no hook edits them.
  have parsing : Maintains (Unaided store) parseTokens :=
    .parseTokens fun _ _ _ parsed unaided =>
      { unaided with proper := Grammar.proper_parse parsed }
  have resolving : Maintains (Unaided store) resolveStatements :=
    .resolveStatements fun _ unaided => { unaided with }
  exact .resolve (.frontEnd unaided_hooksAt (phase tokenizing) (phase parsing) (phase resolving))
    (fun _ _ unaided => { unaided with }) fun _ _ unaided => { unaided with }

/-! ### A run -/

/-- The session a run leaves that ends well. -/
def ranBy (session : Session) (machine : Machine) : Session :=
  { session with
    store := machine.store
    output := machine.output
    tests := machine.tests
    diagnostics := []
    events := session.events ++ [⟨.phase .interpreting, none⟩] }

private theorem diagnosing_eq_ok {step : SessionM α} {value : α} :
    diagnosing step session = .ok value later ↔
      ∃ left, step session = .ok value left ∧ later = { left with diagnostics := [] } := by
  unfold diagnosing
  cases step session <;> simp [eq_comm]

private theorem noting_eq_ok {item : Item} {step : SessionM α} {value : α} :
    noting item step session = .ok value later ↔ ∃ left, step session = .ok value left ∧
      later = { left with events := left.events ++ [⟨item, none⟩] } := by
  unfold noting
  cases step session <;> simp [eq_comm]

private theorem hooksAt_of_unhooked (unhooked : session.hooks = []) (phase : Phase)
    (timing : Timing) :
    hooksAt phase timing session = .ok () session := by
  change runHooks (session.slot phase timing) session = _
  rw [slot, unhooked]
  rfl

/-- Without hooks a phase is what it does itself. -/
theorem inPhase_of_unhooked {phase : Phase} {step : SessionM α}
    (unhooked : session.hooks = []) (kept : (session.leftBy step).hooks = session.hooks) :
    inPhase phase step session = noting (.phase phase) step session := by
  unfold inPhase
  rw [bind_of_ok (hooksAt_of_unhooked unhooked phase .before)]
  cases ended : noting (.phase phase) step session with
  | error fault left => rw [bind_of_error ended]
  | ok value left =>
      obtain ⟨later, stepped, rfl⟩ := noting_eq_ok.mp ended
      rw [leftBy, stepped, unhooked] at kept
      rw [bind_of_ok ended]
      refine bind_of_ok (hooksAt_of_unhooked ?_ phase .after)
      exact kept

private theorem interpret_eq_ok :
    interpret resolutions session = .ok () later ↔ ∃ machine,
      Run.interpret ⟨resolutions, session.modules, session.globals, session.setup.options⟩
        session.statements (.start session.store session.globals) = .ok () machine ∧
      later = { session with
        store := machine.store, output := machine.output, tests := machine.tests } := by
  unfold interpret
  dsimp only
  cases Run.interpret ⟨resolutions, session.modules, session.globals, session.setup.options⟩
      session.statements (.start session.store session.globals) with
  | ok _ machine => simp [eq_comm]
  | error stop machine => cases stop <;> simp

/-- A script that is resolved ends well if its statements do. -/
theorem evaluate_eq_ok (unaided : Unaided store session)
    (found : session.resolutions = some resolutions) :
    evaluate session = .ok () later ↔ ∃ machine,
      Run.interpret ⟨resolutions, [], ⟨0⟩, session.setup.options⟩ session.statements
        (.start store ⟨0⟩) = .ok () machine ∧ later = session.ranBy machine := by
  have ready : evaluate session =
      diagnosing (inPhase .interpreting (interpret resolutions)) session := by
    change (resolve >>= fun _ => interpretResolved) session = _
    rw [bind_of_ok (resolve_of_resolved (by rw [found]; rfl))]
    unfold interpretResolved
    rw [get_bind, found]
  have kept := (spares_interpret session resolutions).hooks
  obtain ⟨hooks, modules, globals, _, rfl⟩ := unaided
  rw [ready, diagnosing_eq_ok, inPhase_of_unhooked hooks kept]
  simp only [noting_eq_ok, interpret_eq_ok, modules, globals]
  constructor
  · rintro ⟨_, ⟨_, ⟨machine, ran, rfl⟩, rfl⟩, rfl⟩
    exact ⟨machine, ran, by rw [← modules, ← globals]; rfl⟩
  · rintro ⟨machine, ran, rfl⟩
    exact ⟨_, ⟨_, ⟨machine, ran, rfl⟩, rfl⟩, by rw [← modules, ← globals]; rfl⟩

private theorem unaided_ranBy (unaided : Unaided store session) (machine : Machine) :
    Unaided machine.store (session.ranBy machine) :=
  { unaided with store := rfl }

/-! ### Runs after the first -/

/-- A session in which the same statements have been run, once or more, and the first run has
ended with a machine. -/
structure Reruns (setting : Setting) (program : Program) (machine : Machine) (session : Session) :
    Prop where
  unaided : Unaided session.store session
  resolutions : session.resolutions = some setting.resolutions
  statements : session.statements = program
  options : session.setup.options = setting.options
  echoes : machine.store.Echoes session.store

section Globals

variable {setting : Setting} {program : Program} {machine : Machine}

private theorem Reruns.names (reruns : Reruns setting program machine session) :
    session.globalBindings.names = (machine.store.bindingsOf ⟨0⟩).names := by
  unfold globalBindings
  rw [reruns.unaided.globals]
  exact reruns.echoes.names

private theorem Reruns.text (reruns : Reruns setting program machine session) (name : String) :
    session.globalText? name = machine.store.globalText? name := by
  unfold globalText? global?
  rw [reruns.unaided.globals]
  exact reruns.echoes.text name

end Globals

private theorem eq_ok_of_faultOf {step : SessionM Unit} (whole : session.faultOf step = none) :
    step session = .ok () (session.leftBy step) := by
  unfold faultOf leftBy at *
  cases ended : step session with
  | ok value left => rfl
  | error fault left =>
      rw [ended] at whole
      cases whole

section Again

variable {setting : Setting} {program : Program} {machine : Machine}
  (outermost : setting.globals = ⟨0⟩) (isolated : setting.modules = [])
  (proper : Statement.areProper program = true)
  (ran : Run.interpret setting program (.start .bare ⟨0⟩) = .ok () machine)

include outermost isolated proper ran

/-- One more run ends well, and ends as the first did. -/
theorem Reruns.evaluate (reruns : Reruns setting program machine session) :
    evaluate session = .ok () (session.ranBy (machine.atop session.store)) ∧
      Reruns setting program machine (session.ranBy (machine.atop session.store)) := by
  obtain ⟨properLater, again⟩ := Run.interpret_again outermost isolated proper ran
  obtain ⟨resolutions, modules, globals, options⟩ := setting
  cases outermost
  cases isolated
  obtain ⟨unaided, found, statements, rfl, echoes⟩ := reruns
  refine ⟨?_, unaided_ranBy unaided _, found, statements, rfl, echoes.again properLater⟩
  refine (evaluate_eq_ok unaided found).mpr ⟨_, ?_, rfl⟩
  rw [statements]
  exact again session.store echoes.rooted echoes.modules

/-- Whatever calls are made between two runs, if they add nothing of the host. -/
theorem Reruns.afterAll (calls : List HostCall) (resolving : ∀ call ∈ calls, call.Resolves) :
    ∀ session, Reruns setting program machine session →
      Reruns setting program machine (session.afterAll calls) := by
  induction calls with
  | nil => exact fun _ reruns => reruns
  | cons call rest ih =>
      intro session reruns
      refine ih (fun call member => resolving call (.tail _ member)) _ ?_
      cases call with
      | resolve =>
          change Reruns setting program machine (session.leftBy Session.resolve)
          rw [leftBy, resolve_of_resolved (by rw [reruns.resolutions]; rfl)]
          exact reruns
      | evaluate =>
          obtain ⟨ended, later⟩ := reruns.evaluate outermost isolated proper ran
          change Reruns setting program machine (session.leftBy Session.evaluate)
          rw [leftBy, ended]
          exact later
      | _ => exact (resolving _ List.mem_cons_self).elim

end Again

/-- Before its first run nothing has been made of a script. -/
theorem unaided_start (setup : Setup) (count : Nat) :
    Unaided .bare ((start setup).afterAll (List.replicate count .resolve)) := by
  have calls (session : Session) (unaided : Unaided .bare session) :
      Unaided .bare (session.afterAll (List.replicate count .resolve)) := by
    induction count generalizing session with
    | zero => exact unaided
    | succ count ih => exact ih _ (unaided_resolve session unaided)
  exact calls (start setup) ⟨rfl, rfl, rfl, rfl, rfl⟩

/-- The first run, if it ends well. -/
theorem reruns_first (unaided : Unaided .bare session) (consistent : session.Consistent)
    (whole : session.faultOf evaluate = none) : ∃ resolutions machine,
      let setting : Setting := ⟨resolutions, [], ⟨0⟩, session.setup.options⟩
      let first := session.after .evaluate
      Run.interpret setting first.statements (.start .bare ⟨0⟩) = .ok () machine ∧
        Reruns setting first.statements machine first ∧
        first.output = machine.output ∧ first.tests = machine.tests := by
  change session.faultOf (resolve >>= fun _ => interpretResolved) = none at whole
  obtain ⟨_, wholeLater, succeeded, left⟩ := whole_of_bind whole
  have resolved := (answers_resolve consistent).settles.mpr (.inr ⟨trivial, succeeded⟩)
  obtain ⟨resolutions, found⟩ := Option.isSome_iff_exists.mp resolved
  have unaidedReady := unaided_resolve session unaided
  have setup : (session.leftBy resolve).setup = session.setup :=
    (lasting_setup session.setup).resolve session rfl
  change session.after .evaluate = _ at left
  generalize session.leftBy resolve = ready at *
  have ended : evaluate ready = .ok () (ready.leftBy interpretResolved) := by
    change (resolve >>= fun _ => interpretResolved) ready = _
    rw [bind_of_ok (resolve_of_resolved resolved)]
    exact eq_ok_of_faultOf wholeLater
  obtain ⟨machine, ran, same⟩ := (evaluate_eq_ok unaidedReady found).mp ended
  refine ⟨resolutions, machine, ?_⟩
  rw [left, same, ← setup]
  have properLater := (Run.interpret_again rfl rfl unaidedReady.proper ran).1
  exact ⟨ran, ⟨unaided_ranBy unaidedReady machine, found, rfl, rfl, .refl properLater⟩, rfl, rfl⟩

end Session

/-- Whatever the source of a script and whatever tables it is read by, without hooks, native
modules and globals of the host: if the first run ends well, then every later one ends well too,
prints the same lines, has the same outcomes of tests, and leaves the same globals with the same
texts. A later run begins with the globals the one before it has left. -/
theorem evaluation_restarts (setup : Setup) (count : Nat) (calls : List HostCall)
    (resolving : ∀ call ∈ calls, call.Resolves)
    (whole : ((Session.start setup).afterAll (List.replicate count .resolve)).faultOf
      Session.evaluate = none) :
    let first := ((Session.start setup).afterAll (List.replicate count .resolve)).after .evaluate
    let session := first.afterAll calls
    let later := session.after .evaluate
    session.faultOf Session.evaluate = none ∧
      later.output = first.output ∧ later.tests = first.tests ∧
      later.globalBindings.names = first.globalBindings.names ∧
      ∀ name, later.globalText? name = first.globalText? name := by
  intro first session later
  have consistent := (Session.reached setup (List.replicate count .resolve)).consistent
  obtain ⟨resolutions, machine, ran, reruns, output, tests⟩ :=
    Session.reruns_first (Session.unaided_start setup count) consistent whole
  have between := Session.Reruns.afterAll rfl rfl reruns.unaided.proper ran calls resolving _ reruns
  obtain ⟨ended, again⟩ := between.evaluate rfl rfl reruns.unaided.proper ran
  have left : later = session.ranBy (machine.atop session.store) := by
    change session.leftBy Session.evaluate = _
    rw [Session.leftBy, ended]
  have whole : session.faultOf Session.evaluate = none := by
    rw [Session.faultOf, ended]
  rw [left]
  exact ⟨whole, output.symm, tests.symm, again.names.trans reruns.names.symm,
    fun name => (again.text name).trans (reruns.text name).symm⟩

/-- A script with a final global, a class and a function that closes over it. -/
def restartSample : Setup :=
  ⟨"final var names = [\"a\"]; class Box { var held = names; } var box = Box(); " ++
    "fun held() { return box.held; } print held();", .standard, .standard, .standard⟩

/-- A further run of the sample prints what the first did and leaves the same globals. -/
theorem evaluation_restarts_sample :
    let first := (Session.start restartSample).after .evaluate
    let later := (first.afterAll [.resolve, .evaluate]).after .evaluate
    first.output.size = 1 ∧ later.output = first.output ∧
      first.globalBindings.names = ["names", "Box", "box", "held"] ∧
      later.globalBindings.names = first.globalBindings.names ∧
      later.globalText? "names" = first.globalText? "names" := by
  intro first later
  obtain ⟨whole, printed, names⟩ :
      (Session.start restartSample).faultOf Session.evaluate = none ∧ first.output.size = 1 ∧
        first.globalBindings.names = ["names", "Box", "box", "held"] := by
    decide +kernel
  have resolving : ∀ call ∈ [HostCall.resolve, .evaluate], call.Resolves := by
    simp [HostCall.Resolves]
  obtain ⟨_, output, _, same, text⟩ :=
    evaluation_restarts restartSample 0 [.resolve, .evaluate] resolving whole
  exact ⟨printed, output, names, same, text "names"⟩

end Scriptlet
