import Scriptlet.Proofs.Grammar.Conservativity
import Scriptlet.Proofs.Renumbering.Sessions

/-!
# Phases with other numbers

A script whose nodes and classes get other numbers than in a session of its own goes through its
phases as in that session, and a host that does not look at numbers sees the same of both
(`Session.Similar`).
-/

namespace Scriptlet

namespace Session

variable {stage : Stage} {session twin : Session}

/-! ### Phases -/

private theorem together_tokenize :
    Together (Alike stage) (fun _ _ => Alike stage) (Alike stage) tokenize tokenize := by
  intro first second alike
  have same : scan second.setup.registry second.setup.source =
      scan first.setup.registry first.setup.source := by rw [alike.setup]
  rw [tokenize_eq, tokenize_eq, same]
  cases scan first.setup.registry first.setup.source with
  | ok scanned => exact .ok { alike with tokens := rfl, comments := rfl }
  | error faults => exact .error (.lex faults) alike

/-- A tree that is parsed has nodes that are later by what the counter had reached. -/
theorem together_parseTokens :
    Together (Alike .unparsed) (fun _ _ first second => ∃ shift, Alike (.parsed shift) first second)
      (Alike .unparsed) parseTokens parseTokensOnward := by
  intro first second alike
  obtain ⟨unnumbered, absent, absentTwin⟩ := alike.draft
  have later : Grammar.parse first.setup.grammar first.tokens.toList (0 + second.nextId) =
      (Grammar.parse first.setup.grammar first.tokens.toList 0).map fun result =>
        (Statement.laterAll second.nextId result.1, result.2 + second.nextId) :=
    have unextended : first.setup.grammar.Extends (fun _ => False) first.setup.grammar := .refl _
    Grammar.parse_later id unextended (fun _ _ => id) 0 second.nextId
  rw [Nat.zero_add] at later
  have same : Grammar.parse second.setup.grammar second.tokens.toList second.nextId =
      Grammar.parse first.setup.grammar first.tokens.toList second.nextId := by
    rw [alike.setup, alike.tokens]
  rw [parseTokens_eq]
  cases parsed : Grammar.parse first.setup.grammar first.tokens.toList 0 with
  | ok result =>
    rw [parsed] at later
    rw [parseTokensOnward_of_ok (same.trans later)]
    exact .ok ⟨second.nextId, { alike with draft := .parsed rfl rfl absent absentTwin }⟩
  | error faults =>
    rw [parsed] at later
    obtain ⟨next, refused⟩ := parseTokensOnward_of_error (same.trans later)
    rw [refused]
    exact .error (.parse faults) { alike with draft := .unparsed unnumbered absent absentTwin }

private theorem together_resolveStatements (shift : Nat) :
    Together (Alike (.parsed shift))
      (fun resolutions image first second => Alike (.checked shift) first second ∧
        resolutions.Renumbers (· + shift) image)
      (Alike (.parsed shift)) resolveStatements resolveStatements := by
  intro first second alike
  have relates := alike.draft
  cases relates with | parsed statements _ absent absentTwin => ?_
  have same : Scriptlet.resolve second.statements =
      Scriptlet.resolve (Statement.renumberAll (· + shift) first.statements) :=
    congrArg _ statements
  rw [resolveStatements_eq, resolveStatements_eq, same]
  have apart : Function.Injective fun id : NodeId => id + shift := fun _ _ => Nat.add_right_cancel
  obtain ⟨fault, refused, refusedTwin⟩ | ⟨resolutions, image, found, foundTwin, renumbers⟩ :=
    resolve_renumberAll apart first.statements
  · rw [refused, refusedTwin]
    exact .error (.resolve fault) alike
  · rw [found, foundTwin]
    have draft : (Stage.checked shift).Relates { first.draft with resolved := true }
        { second.draft with resolved := true } :=
      .checked rfl statements absent absentTwin
    exact .ok ⟨{ alike with resolved := rfl, draft := draft }, renumbers⟩

/-- Sessions that stop before they are resolved. -/
theorem Alike.stopped (alike : Alike stage session twin) (absent : session.resolutions = none)
    (absentTwin : twin.resolutions = none) : Alike .unparsed session twin :=
  { alike with
    store := alike.store.restrict fun onNode _ => alike.draft.allows absent onNode
    draft := .unparsed alike.draft.unnumbered absent absentTwin }

private theorem Alike.of_parsed {shift : Nat} (alike : Alike (.parsed shift) session twin) :
    Alike .unparsed session twin := by
  have relates := alike.draft
  cases relates with
  | parsed _ _ absent absentTwin => exact alike.stopped absent absentTwin

private theorem Alike.of_checked {shift : Nat} (alike : Alike (.checked shift) session twin) :
    Alike .unparsed session twin := by
  have relates := alike.draft
  cases relates with
  | checked _ _ absent absentTwin => exact alike.stopped absent absentTwin

/-- The phases before a run. -/
theorem together_frontEnd :
    Together (Alike .unparsed)
      (fun resolutions image first second => ∃ shift, Alike (.checked shift) first second ∧
        resolutions.Renumbers (· + shift) image)
      (Alike .unparsed) frontEnd (frontEndBy parseTokensOnward) := by
  have tokenizing : Together (Alike .unparsed) (fun _ _ => Alike .unparsed) (Alike .unparsed)
      (inPhase .tokenizing tokenize) (inPhase .tokenizing tokenize) :=
    .inPhase _ (together_hooksAt _ _)
      (together_tokenize.noting _ (fun _ _ _ _ alike => alike.noted _ _)
        fun _ _ _ alike => alike.noted _ _)
      fun _ _ => together_hooksAt _ _
  have parsing : Together (Alike .unparsed)
      (fun _ _ first second => ∃ shift, Alike (.parsed shift) first second) (Alike .unparsed)
      (inPhase .parsing parseTokens) (inPhase .parsing parseTokensOnward) := by
    refine .inPhase _ (together_hooksAt _ _) ?_ fun _ _ => .each fun shift => ?_
    · refine together_parseTokens.noting _ ?_ fun _ _ _ alike => alike.noted _ _
      rintro _ _ first second ⟨shift, alike⟩
      exact ⟨shift, alike.noted _ _⟩
    · exact (together_hooksAt _ _).weaken (fun _ _ _ _ alike => alike)
        fun _ _ alike => alike.of_parsed
  have resolving (shift : Nat) : Together (Alike (.parsed shift))
      (fun resolutions image first second => Alike (.checked shift) first second ∧
        resolutions.Renumbers (· + shift) image)
      (Alike .unparsed) (inPhase .resolving resolveStatements)
      (inPhase .resolving resolveStatements) := by
    refine .inPhase _ ?_ ?_ fun resolutions image => ?_
    · exact (together_hooksAt _ _).weaken (fun _ _ _ _ alike => alike)
        fun _ _ alike => alike.of_parsed
    · refine (together_resolveStatements shift).noting _ ?_
        fun _ _ _ alike => alike.of_parsed.noted _ _
      rintro _ _ first second ⟨alike, renumbers⟩
      exact ⟨alike.noted _ _, renumbers⟩
    · rintro first second ⟨alike, renumbers⟩
      exact (together_hooksAt _ _).weaken (fun _ _ _ _ alike => ⟨alike, renumbers⟩)
        (fun _ _ alike => alike.of_checked) first second alike
  exact tokenizing.bind fun _ _ => parsing.bind fun _ _ => .each resolving

/-- A run. -/
theorem together_interpret {shift : Nat} {resolutions image : Resolutions}
    (renumbers : resolutions.Renumbers (· + shift) image) :
    Together (Alike (.settled shift)) (fun _ _ => Alike (.settled shift)) (Alike (.settled shift))
      (interpret resolutions) (interpret image) := by
  intro first second alike
  have relates := alike.draft
  cases relates with | settled _ kept _ _ _ => ?_
  have statements : second.statements = Statement.renumberAll (· + shift) first.statements := kept
  have same : Setting.Twin (· + shift)
      ⟨resolutions, first.modules, first.globals, first.setup.options⟩
      ⟨image, second.modules, second.globals, second.setup.options⟩ :=
    ⟨renumbers, alike.modules, alike.globals, congrArg Setup.options alike.setup⟩
  have ends := Run.interpret_kin same alike.store alike.classless first.statements
    first.globals
  have left {machine machineTwin : Machine}
      (leaves : Run.LeavesKin (· + shift) machine machineTwin) : Alike (.settled shift)
        { first with
          store := machine.store, output := machine.output, tests := machine.tests }
        { second with
          store := machineTwin.store, output := machineTwin.output
          tests := machineTwin.tests } :=
    { alike with
      output := leaves.output
      tests := leaves.tests
      classless := leaves.classless
      store := leaves.store }
  have ran : Run.interpret ⟨image, second.modules, second.globals, second.setup.options⟩
      second.statements (Machine.start second.store second.globals) =
      Run.interpret ⟨image, second.modules, second.globals, second.setup.options⟩
        (Statement.renumberAll (· + shift) first.statements)
        (Machine.start second.store first.globals) := by
    rw [statements, alike.globals]
  unfold Session.interpret
  dsimp only
  rw [ran]
  generalize Run.interpret _ first.statements _ = ended at ends ⊢
  generalize Run.interpret _ (Statement.renumberAll (· + shift) first.statements) _ = endedTwin
    at ends ⊢
  cases ends with
  | ok value leaves => exact .ok (left leaves)
  | error stop leaves => cases stop <;> exact .error _ (left leaves)

/-! ### Calls -/

/-- Two sessions between calls: neither is resolved, or both are. -/
def Similar (session twin : Session) : Prop :=
  Alike .unparsed session twin ∨ ∃ shift, Alike (.settled shift) session twin

private theorem together_firstResolve :
    Together (Alike .unparsed)
      (fun _ _ first second => ∃ shift, Alike (.settled shift) first second)
      (Alike .unparsed) firstResolve (frontEndBy parseTokensOnward >>= fun resolutions =>
        modify fun session => { session with resolutions := some resolutions }) := by
  refine together_frontEnd.bind fun resolutions image => .modify ?_
  rintro first second ⟨shift, alike, renumbers⟩
  have relates := alike.draft
  cases relates with | checked fixed statements _ _ => ?_
  exact ⟨shift, { alike with
    store := alike.store.restrict fun _ _ => trivial
    draft := .settled fixed statements rfl rfl renumbers }⟩

private theorem together_resolve :
    Together Similar (fun _ _ first second => ∃ shift, Alike (.settled shift) first second) Similar
      resolve (resolveBy parseTokensOnward) := by
  rintro first second (alike | ⟨shift, alike⟩)
  · have relates := alike.draft
    cases relates with | unparsed _ absent absentTwin => ?_
    have resolves : resolveBy parseTokensOnward second =
        diagnosing (frontEndBy parseTokensOnward >>= fun resolutions =>
          modify fun session => { session with resolutions := some resolutions }) second := by
      unfold resolveBy
      rw [get_bind, show second.resolutions = none from absentTwin]
    rw [resolve_of_unresolved absent, resolves]
    refine together_firstResolve.diagnosing ?_ (fun fault _ _ alike => ?_) first second alike
    · rintro _ _ first second ⟨shift, alike⟩
      exact ⟨shift, alike.diagnosed rfl⟩
    · exact .inl (alike.diagnosed (by rw [alike.setup]))
  · have relates := alike.draft
    cases relates with | settled _ _ found foundTwin _ => ?_
    have resolves : resolveBy parseTokensOnward second = .ok () second := by
      unfold resolveBy
      rw [get_bind, show second.resolutions = some _ from foundTwin]
      rfl
    rw [resolve_of_resolved (Option.isSome_iff_exists.mpr ⟨_, found⟩), resolves]
    exact .ok ⟨shift, alike⟩

private theorem together_evaluate :
    Together Similar (fun _ _ first second => ∃ shift, Alike (.settled shift) first second) Similar
      evaluate (evaluateBy parseTokensOnward) := by
  refine together_resolve.bind fun _ _ => ?_
  rintro first second ⟨shift, alike⟩
  have relates := alike.draft
  cases relates with | settled _ _ found foundTwin renumbers => ?_
  rw [get_bind, get_bind, show first.resolutions = some _ from found,
    show second.resolutions = some _ from foundTwin]
  have running : Together (Alike (.settled shift)) (fun _ _ => Alike (.settled shift))
      (Alike (.settled shift)) (inPhase .interpreting (interpret _))
      (inPhase .interpreting (interpret _)) :=
    .inPhase _ (together_hooksAt _ _)
      ((together_interpret renumbers).noting _ (fun _ _ _ _ alike => alike.noted _ _)
        fun _ _ _ alike => alike.noted _ _)
      fun _ _ => together_hooksAt _ _
  refine running.diagnosing (fun _ _ _ _ alike => ?_) (fun fault _ _ alike => ?_) first second alike
  · exact ⟨shift, alike.diagnosed rfl⟩
  · exact .inr ⟨shift, alike.diagnosed (by rw [alike.setup])⟩

/-- A call goes in the session of a script as in the session with other numbers. -/
theorem together_performBy {call : HostCall} (blind : call.Blind) :
    Together Similar (fun _ _ => Similar) Similar call.perform
      (call.performBy parseTokensOnward) := by
  have prepares {prepare : Session → Session} (keeps : ∀ known made taken stage first second,
      AlikeBy known made taken stage first second →
        Alike stage (prepare first) (prepare second)) :
      Together Similar (fun _ _ => Similar) Similar (modify prepare) (modify prepare) := by
    have kept {stage : Stage} {first second : Session} (alike : Alike stage first second) :
        Alike stage (prepare first) (prepare second) := by
      obtain ⟨known, made, taken, numbered⟩ := alike.exists_by
      exact keeps _ _ _ _ _ _ numbered
    exact .modify fun first second similar =>
      similar.imp kept fun ⟨shift, alike⟩ => ⟨shift, kept alike⟩
  have settles {step image : SessionM Unit} (goes : Together Similar
      (fun _ _ first second => ∃ shift, Alike (.settled shift) first second) Similar step image) :
      Together Similar (fun _ _ => Similar) Similar step image :=
    goes.weaken (fun _ _ _ _ reached => .inr reached) fun _ _ stopped => stopped
  cases call with
  | bindGlobal name value =>
    exact prepares fun _ _ _ _ _ _ alike => (alike.bindGlobal name value false).toAlike
  | bindValue name value =>
    exact prepares fun _ _ _ _ _ _ alike =>
      (alike.bindValue name fun _ _ => (Value.renumber_of_ne blind).symm).toAlike
  | registerModule native =>
    exact prepares fun _ _ _ _ _ _ alike => (alike.registerModule blind).toAlike
  | customize hook => exact prepares fun _ _ _ _ _ _ alike => alike.toAlike.addHook blind
  | resolve => exact settles together_resolve
  | evaluate => exact settles together_evaluate

private theorem twin_start (numbers : Renumbering) (setup : Setup) :
    (Session.start setup).store.Twin numbers (Session.start setup).store := by
  have empty : Store.empty.Twin numbers Store.empty :=
    ⟨Array.map_empty.symm, Array.map_empty.symm, Array.map_empty.symm, Array.map_empty.symm, rfl,
      fun _ => rfl⟩
  exact empty.newScope none .globals []

namespace Similar

private theorem report (similar : Similar session twin) (fault : Option ScriptFault) :
    twin.report fault = session.report fault := by
  have shows {stage : Stage} (alike : Alike stage session twin) :
      twin.report fault = session.report fault := by
    unfold Session.report
    rw [alike.output, alike.tests, alike.diagnostics, alike.log, alike.globalTexts]
  exact similar.elim shows fun ⟨_, alike⟩ => shows alike

/-- A session that has just begun is similar to itself. -/
theorem start (setup : Setup) : Similar (Session.start setup) (Session.start setup) := by
  exact .inl {
    setup := rfl
    modules := rfl
    hooks := rfl
    blind := by rintro _ ⟨⟩
    tokens := rfl
    comments := rfl
    resolved := rfl
    diagnostics := rfl
    output := rfl
    tests := rfl
    globals := rfl
    log := rfl
    classless := by rintro _ _ ⟨⟩
    store := ⟨id, strictMono_id, Nat.le_refl _, fun numbers _ => twin_start numbers setup⟩
    draft := .unparsed rfl rfl rfl }

/-- The numbers that are given out next do not matter between calls. -/
theorem numberedFrom (similar : Similar session twin) (nextNode : NodeId) (nextClass : Nat) :
    Similar session (twin.numberedFrom nextNode nextClass) := by
  have reserved {stage : Stage} (alike : Alike stage session twin)
      (draft : stage.Relates session.draft { twin.draft with nextId := nextNode }) :
      Alike stage session (twin.numberedFrom nextNode nextClass) :=
    { alike with
      store := stage.exists_allows.elim fun _ allows => alike.store.reserve allows nextClass
      draft := draft }
  obtain alike | ⟨shift, alike⟩ := similar
  · have relates := alike.draft
    cases relates with | unparsed statements absent absentTwin => ?_
    exact .inl (reserved alike (.unparsed statements absent absentTwin))
  · have relates := alike.draft
    cases relates with | settled fixed statements found foundTwin renumbers => ?_
    exact .inr ⟨shift, reserved alike (.settled fixed statements found foundTwin renumbers)⟩

/-- After a call a host sees the same, and the sessions are similar again. -/
theorem call (similar : Similar session twin) {call : HostCall} (blind : call.Blind) :
    twin.reportAfter (call.performBy parseTokensOnward) = session.reportAfter call.perform ∧
      Similar (session.after call) (twin.leftBy (call.performBy parseTokensOnward)) := by
  have ended := together_performBy blind session twin similar
  unfold reportAfter after leftBy faultOf
  generalize call.perform session = first at ended ⊢
  generalize call.performBy parseTokensOnward twin = second at ended ⊢
  cases ended with
  | ok reached => exact ⟨reached.report none, reached⟩
  | error fault stopped => exact ⟨stopped.report (some fault), stopped⟩

end Similar

end Session

end Scriptlet
