import Scriptlet.Proofs.SessionProtocol

/-!
# What all calls keep

A property of sessions that the actions of hooks and the phases keep is kept by every call
(`Session.Maintains`). The setup of a session never changes (`Session.lasting_setup`), and its tree
is resolved exactly if the phase that resolves it has once gone well (`Session.Flagged`).
-/

namespace Scriptlet.Session

variable {α β : Type} {property : Session → Prop} {step : SessionM α}

/-- A step keeps a property however it ends. -/
def Maintains (property : Session → Prop) (step : SessionM α) : Prop :=
  ∀ session, property session → property (session.leftBy step)

namespace Maintains

/-- One step after another keeps a property if both do. -/
theorem bind {next : α → SessionM β} (first : Maintains property step)
    (rest : ∀ value, Maintains property (next value)) : Maintains property (step >>= next) := by
  intro session holds
  refine bind_cases (fun _ later => property later) (fun _ _ => first session holds) ?_
  intro value _ _
  exact rest value _ (first session holds)

/-- Giving a value keeps every property. -/
protected theorem pure (value : α) : Maintains property (pure value) :=
  fun _ holds => holds

/-- A step that is noted keeps a property that it keeps and that no event ends. -/
protected theorem noting {item : Item} (keeps : Maintains property step)
    (noted : ∀ fault session, property session →
      property { session with events := session.events ++ [⟨item, fault⟩] }) :
    Maintains property (noting item step) := by
  intro session holds
  rw [leftBy_noting]
  exact noted _ _ (keeps session holds)

/-- The hooks of a slot keep a property that their actions keep and that no event ends. -/
protected theorem hooksAt
    (actions : ∀ session, property session → ∀ hook ∈ session.hooks,
      property (session.leftBy (performAll hook.actions)))
    (noted : ∀ hook fault session, property session →
      property { session with events := session.events ++ [⟨.hook hook, fault⟩] })
    (phase : Phase) (timing : Timing) : Maintains property (hooksAt phase timing) := by
  intro session holds
  -- The hooks of the slot are those of the session all along.
  have runs (slot : List Hook) (part : ∀ hook ∈ slot, hook ∈ session.hooks) :
      Maintains (fun later => property later ∧ later.hooks = session.hooks) (runHooks slot) := by
    induction slot with
    | nil => exact .pure ()
    | cons hook rest ih =>
      refine .bind (.noting ?_ ?_) fun _ => ih fun hook member => part hook (.tail _ member)
      · rintro later ⟨holds, same⟩
        have member : hook ∈ later.hooks := by
          rw [same]
          exact part hook List.mem_cons_self
        exact ⟨actions later holds hook member,
          (spares_performAll later hook.actions).hooks.trans same⟩
      · rintro fault later ⟨holds, same⟩
        exact ⟨noted hook fault later holds, same⟩
  have part (hook : Hook) (member : hook ∈ session.slot phase timing) : hook ∈ session.hooks :=
    (List.mem_filter.mp member).1
  exact (runs (session.slot phase timing) part session ⟨holds, rfl⟩).1

/-- A phase keeps a property that its hooks keep and that it keeps itself. -/
protected theorem inPhase {phase : Phase}
    (hooks : ∀ timing, Maintains property (hooksAt phase timing))
    (noted : Maintains property (noting (.phase phase) step)) :
    Maintains property (inPhase phase step) :=
  .bind (hooks .before) fun _ => .bind noted fun result =>
    .bind (hooks .after) fun _ => .pure result

/-- The phases before a run keep a property that each of them keeps, and their hooks. -/
protected theorem frontEnd
    (hooks : ∀ phase timing, Maintains property (Session.hooksAt phase timing))
    (tokenizing : Maintains property (Session.noting (.phase .tokenizing) tokenize))
    (parsing : Maintains property (Session.noting (.phase .parsing) parseTokens))
    (resolving : Maintains property (Session.noting (.phase .resolving) resolveStatements)) :
    Maintains property Session.frontEnd :=
  .bind (.inPhase (hooks _) tokenizing) fun _ => .bind (.inPhase (hooks _) parsing) fun _ =>
    .inPhase (hooks _) resolving

/-- A step whose fault is reported keeps a property that it keeps and that no diagnostics end. -/
protected theorem diagnosing (keeps : Maintains property step)
    (reported : ∀ session diagnostics, property session →
      property { session with diagnostics := diagnostics }) :
    Maintains property (Session.diagnosing step) := by
  intro session holds
  obtain ⟨diagnostics, left, _⟩ := diagnosing_eq session step
  rw [left]
  exact reported (session.leftBy step) diagnostics (keeps session holds)

/-- A call that resolves a script keeps a property that the phases before a run keep. -/
protected theorem resolve (frontEnd : Maintains property Session.frontEnd)
    (cached : ∀ session resolutions, property session →
      property { session with resolutions := resolutions })
    (reported : ∀ session diagnostics, property session →
      property { session with diagnostics := diagnostics }) :
    Maintains property Session.resolve := by
  intro session holds
  cases found : session.resolutions with
  | some resolutions =>
    rw [leftBy, resolve_of_resolved (by rw [found]; rfl)]
    exact holds
  | none =>
    have first : Maintains property firstResolve :=
      .bind frontEnd fun resolutions session holds => cached session resolutions holds
    rw [leftBy, resolve_of_unresolved found]
    exact first.diagnosing reported session holds

end Maintains

/-! ### How the phases end -/

/-- Tokenizing reads the source into tokens and comments, or fails with the faults found there. -/
theorem tokenize_eq (session : Session) : tokenize session =
    match scan session.setup.registry session.setup.source with
    | .ok scanned => .ok () { session with tokens := scanned.tokens, comments := scanned.comments }
    | .error faults => .error (.lex faults) session := by
  unfold tokenize
  rw [get_bind]
  dsimp only
  cases scan session.setup.registry session.setup.source <;> rfl

/-- Parsing makes statements of the tokens, or fails with the faults found there. -/
theorem parseTokens_eq (session : Session) : parseTokens session =
    match Grammar.parse session.setup.grammar session.tokens.toList 0 with
    | .ok (program, nextId) => .ok () { session with statements := program, nextId := nextId }
    | .error faults => .error (.parse faults) session := by
  unfold parseTokens
  rw [get_bind]
  cases Grammar.parse session.setup.grammar session.tokens.toList 0 <;> rfl

/-- Resolving flags the tree as resolved, or fails with the fault found there. -/
theorem resolveStatements_eq (session : Session) : resolveStatements session =
    match Scriptlet.resolve session.statements with
    | .ok resolutions => .ok resolutions { session with resolved := true }
    | .error fault => .error (.resolve fault) session := by
  unfold resolveStatements
  rw [get_bind]
  cases Scriptlet.resolve session.statements <;> rfl

namespace Maintains

/-- Tokenizing keeps a property that goes on whatever the source is read into. -/
protected theorem tokenize (read : ∀ session tokens comments, property session →
    property { session with tokens := tokens, comments := comments }) :
    Maintains property tokenize := by
  intro session holds
  rw [leftBy, tokenize_eq]
  cases scan session.setup.registry session.setup.source with
  | ok scanned => exact read session _ _ holds
  | error faults => exact holds

/-- Parsing keeps a property that goes on whatever program is parsed. -/
protected theorem parseTokens (parsed : ∀ session program nextId,
    Grammar.parse session.setup.grammar session.tokens.toList 0 = .ok (program, nextId) →
    property session → property { session with statements := program, nextId := nextId }) :
    Maintains property parseTokens := by
  intro session holds
  rw [leftBy, parseTokens_eq]
  cases answer : Grammar.parse session.setup.grammar session.tokens.toList 0 with
  | ok result => exact parsed session _ _ answer holds
  | error faults => exact holds

/-- Resolving keeps a property that goes on when the tree is flagged. -/
protected theorem resolveStatements (resolved : ∀ session, property session →
    property { session with resolved := true }) : Maintains property resolveStatements := by
  intro session holds
  rw [leftBy, resolveStatements_eq]
  cases Scriptlet.resolve session.statements with
  | ok resolutions => exact resolved session holds
  | error fault => exact holds

end Maintains

variable {session : Session}

/-- A script that is not resolved yet is taken through the phases before a run. -/
theorem resolve_eq (absent : session.resolutions = none) : resolve session =
    match frontEnd session with
    | .ok resolutions left =>
      .ok () { left with resolutions := some resolutions, diagnostics := [] }
    | .error fault left =>
      .error fault { left with diagnostics := fault.render left.setup.source } := by
  rw [resolve_of_unresolved absent]
  unfold diagnosing firstResolve
  cases ended : frontEnd session with
  | ok resolutions left =>
    rw [bind_of_ok ended]
    rfl
  | error fault left => rw [bind_of_error ended]

/-- A call that fails to resolve a script has found it without resolutions. -/
theorem resolutions_of_faultOf {fault : ScriptFault}
    (fails : session.faultOf resolve = some fault) :
    session.resolutions = none := by
  cases found : session.resolutions with
  | none => rfl
  | some resolutions =>
    rw [faultOf, resolve_of_resolved (by rw [found]; rfl)] at fails
    cases fails

/-! ### The setup -/

private theorem setup_editStatements (session : Session) (edit : Program → Program) :
    (session.editStatements edit).setup = session.setup := by
  unfold editStatements
  split <;> rfl

mutual

/-- An action of a hook leaves the setup of a session as it is. -/
theorem setup_perform (session : Session) :
    ∀ action, (session.leftBy (perform action)).setup = session.setup
  | .log _ | .observe | .showGlobal _ | .define .. | .fail .. | .raise _ | .addOutput _ | .bind ..
  | .report .. | .abort _ => rfl
  | .dropLast => setup_editStatements session List.dropLast
  | .dropFirst => setup_editStatements session List.tail
  | .reverse => setup_editStatements session List.reverse
  | .appendPrint value =>
    setup_editStatements session (· ++ [Statement.print (.literal value .start) .start])
  | .appendPrintVar name =>
    setup_editStatements { session with nextId := session.nextId + 1 }
      (· ++ [Statement.print (.var session.nextId name .start) .start])
  | .appendBreak => setup_editStatements session (· ++ [Statement.breaking .start])
  | .edit change => setup_editStatements session change
  | .depending choose => setup_performAll session (choose session.view)
termination_by structural action => action

private theorem setup_performAll (session : Session) :
    ∀ actions, (session.leftBy (performAll actions)).setup = session.setup
  | [] => rfl
  | action :: rest =>
    bind_cases (fun _ later => later.setup = session.setup)
      (fun _ _ => setup_perform session action)
      fun _ _ _ => (setup_performAll _ rest).trans (setup_perform session action)
termination_by structural actions => actions

end

private theorem setup_interpret (session : Session) (resolutions : Resolutions) :
    (session.leftBy (interpret resolutions)).setup = session.setup := by
  unfold leftBy interpret
  dsimp only
  split <;> rename_i ended <;> split at ended <;> cases ended <;> rfl

/-! ### All calls -/

/-- A property of what a session was set up with, what it ran, and whether its tree is resolved,
that does not end when an item is run. -/
structure Lasting (property : Session → Prop) : Prop where
  depends : ∀ session later, later.setup = session.setup →
    later.resolved = session.resolved → later.events = session.events → property session →
    property later
  noted : ∀ session item fault, item ≠ .phase .resolving → property session →
    property { session with events := session.events ++ [⟨item, fault⟩] }
  resolving : Maintains property (noting (.phase .resolving) resolveStatements)

namespace Lasting

variable {property : Session → Prop}

private theorem phase (lasting : Lasting property) {phase : Phase} (other : phase ≠ .resolving)
    (setup : ∀ session : Session, (session.leftBy step).setup = session.setup)
    (resolved : ∀ session : Session, (session.leftBy step).resolved = session.resolved)
    (events : ∀ session : Session, (session.leftBy step).events = session.events) :
    Maintains property (noting (.phase phase) step) := by
  refine .noting (fun session => ?_) fun fault session => ?_
  · exact lasting.depends _ _ (setup session) (resolved session) (events session)
  · exact lasting.noted session _ fault fun same => other (Item.phase.inj same)

private theorem hooksAt (lasting : Lasting property) (phase : Phase) (timing : Timing) :
    Maintains property (hooksAt phase timing) := by
  refine .hooksAt (fun session holds hook _ => ?_) (fun hook fault session => ?_) phase timing
  · have spares := spares_performAll session hook.actions
    exact lasting.depends _ _ (setup_performAll session hook.actions) spares.resolved spares.events
      holds
  · exact lasting.noted session _ fault nofun

private theorem frontEnd (lasting : Lasting property) : Maintains property frontEnd := by
  have tokenizing : Maintains property (noting (.phase .tokenizing) tokenize) := by
    apply lasting.phase (by decide : _ ≠ Phase.resolving)
    all_goals
      intro session
      rw [leftBy, tokenize_eq]
      cases scan session.setup.registry session.setup.source <;> rfl
  have parsing : Maintains property (noting (.phase .parsing) parseTokens) := by
    apply lasting.phase (by decide : _ ≠ Phase.resolving)
    all_goals
      intro session
      rw [leftBy, parseTokens_eq]
      cases Grammar.parse session.setup.grammar session.tokens.toList 0 <;> rfl
  exact .frontEnd lasting.hooksAt tokenizing parsing lasting.resolving

private theorem reported (lasting : Lasting property) (session : Session)
    (diagnostics : List String)
    (holds : property session) : property { session with diagnostics := diagnostics } :=
  lasting.depends session _ rfl rfl rfl holds

/-- A lasting property is kept by a call that resolves a script. -/
theorem resolve (lasting : Lasting property) : Maintains property resolve :=
  .resolve lasting.frontEnd (fun session _ => lasting.depends session _ rfl rfl rfl)
    lasting.reported

/-- A lasting property is kept by a run. -/
theorem interpretResolved (lasting : Lasting property) :
    Maintains property interpretResolved := by
  intro session holds
  rw [Session.interpretResolved, leftBy_get_bind]
  split
  · rename_i resolutions _
    have noted : Maintains property (noting (.phase .interpreting) (interpret resolutions)) :=
      lasting.phase (by decide) (setup_interpret · resolutions)
        (fun session => (spares_interpret session resolutions).resolved)
        fun session => (spares_interpret session resolutions).events
    exact (Maintains.inPhase (lasting.hooksAt _) noted).diagnosing lasting.reported session holds
  · exact holds

private theorem perform (lasting : Lasting property) (call : HostCall) :
    Maintains property call.perform := by
  cases call with
  | bindGlobal | bindValue | registerModule | customize =>
    intro session holds
    exact lasting.depends session _ rfl rfl rfl holds
  | resolve => exact lasting.resolve
  | evaluate => exact .bind lasting.resolve fun _ => lasting.interpretResolved

private theorem afterAll (lasting : Lasting property) (calls : List HostCall) :
    ∀ session : Session, property session → property (session.afterAll calls) := by
  induction calls with
  | nil => exact fun _ holds => holds
  | cons call rest ih => exact fun session holds => ih _ (lasting.perform call session holds)

end Lasting

/-- What a session was set up with lasts. -/
theorem lasting_setup (setup : Setup) : Lasting (fun session => session.setup = setup) where
  depends _ _ same _ _ holds := same.trans holds
  noted _ _ _ _ holds := holds
  resolving := (Maintains.resolveStatements fun _ holds => holds).noting fun _ _ holds => holds

/-- No call changes the setup. -/
theorem setup_afterAll (session : Session) (calls : List HostCall) :
    (session.afterAll calls).setup = session.setup :=
  (lasting_setup session.setup).afterAll calls session rfl

/-- The tree is resolved exactly if the phase that resolves it has gone well. -/
def Flagged (session : Session) : Prop :=
  session.resolved = true ↔ ⟨.phase .resolving, none⟩ ∈ session.events

private theorem lasting_flagged : Lasting Flagged where
  depends _ _ _ resolved events flagged := by
    unfold Flagged
    rw [resolved, events]
    exact flagged
  noted session item fault other flagged := by
    unfold Flagged at flagged ⊢
    have distinct : (⟨.phase .resolving, none⟩ : Event) ≠ ⟨item, fault⟩ :=
      fun same => other (congrArg Event.item same).symm
    simp only [List.mem_append, List.mem_singleton, flagged, distinct, or_false]
  resolving := by
    intro session flagged
    unfold Flagged at flagged ⊢
    rw [leftBy_noting, faultOf, leftBy, resolveStatements_eq]
    cases Scriptlet.resolve session.statements with
    | ok resolutions => simp
    | error fault => simp [flagged]

/-- Whatever calls have led to a session, its tree is resolved exactly if the phase that resolves
it has gone well. -/
theorem flagged_afterAll (setup : Setup) (calls : List HostCall) :
    ((start setup).afterAll calls).Flagged :=
  lasting_flagged.afterAll calls (start setup) ⟨nofun, nofun⟩

end Scriptlet.Session
