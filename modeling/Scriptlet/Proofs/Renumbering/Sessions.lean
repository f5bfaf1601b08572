import Scriptlet.Proofs.Renumbering.Hosts
import Scriptlet.Proofs.Renumbering.Kinship
import Scriptlet.Proofs.Session.Together

/-!
# Sessions with other numbers

Two sessions of a script may differ in the numbers of its nodes and classes (`Session.Alike`). Until
the script is parsed the trees may have any numbers; from then on those of the one are later by the
same amount (`Stage`). A host that does not look at numbers sees the same in both, and its hooks do
the same (`Session.together_hooksAt`).
-/

namespace Scriptlet

/-! ### The tree of a script -/

/-- The tree of a script and what is known of it. -/
structure Draft where
  statements : Program
  nextId : NodeId
  resolved : Bool
  resolutions : Option Resolutions

def Session.draft (session : Session) : Draft :=
  ⟨session.statements, session.nextId, session.resolved, session.resolutions⟩

/-- How far a script has come, and by how much its nodes have later numbers. -/
inductive Stage where
  | unparsed
  | parsed (shift : Nat)
  | checked (shift : Nat)
  | settled (shift : Nat)

/-- The trees of two scripts at a stage. Once a tree is checked it stays. -/
inductive Stage.Relates : Stage → Draft → Draft → Prop where
  | unparsed {draft twin : Draft}
    (statements : Program.unnumbered twin.statements = Program.unnumbered draft.statements)
    (absent : draft.resolutions = none) (absentTwin : twin.resolutions = none) :
    Relates .unparsed draft twin
  | parsed {shift : Nat} {draft twin : Draft}
    (statements : twin.statements = Statement.renumberAll (· + shift) draft.statements)
    (nextId : twin.nextId = draft.nextId + shift)
    (absent : draft.resolutions = none) (absentTwin : twin.resolutions = none) :
    Relates (.parsed shift) draft twin
  | checked {shift : Nat} {draft twin : Draft} (resolved : draft.resolved = true)
    (statements : twin.statements = Statement.renumberAll (· + shift) draft.statements)
    (absent : draft.resolutions = none) (absentTwin : twin.resolutions = none) :
    Relates (.checked shift) draft twin
  | settled {shift : Nat} {draft twin : Draft} {resolutions image : Resolutions}
    (resolved : draft.resolved = true)
    (statements : twin.statements = Statement.renumberAll (· + shift) draft.statements)
    (found : draft.resolutions = some resolutions) (foundTwin : twin.resolutions = some image)
    (renumbers : resolutions.Renumbers (· + shift) image) :
    Relates (.settled shift) draft twin

/-- The numbers that nodes in the store can have in the twin: any, as long as there are none. -/
def Stage.Allows : Stage → (NodeId → NodeId) → Prop
  | .settled shift, onNode => onNode = (· + shift)
  | _, _ => True

/-- At every stage there are numbers that nodes may have. -/
theorem Stage.exists_allows : ∀ stage : Stage, ∃ onNode, stage.Allows onNode
  | .unparsed | .parsed _ | .checked _ => ⟨id, trivial⟩
  | .settled shift => ⟨(· + shift), rfl⟩

private theorem Program.unnumbered_renumberAll (onNode : NodeId → NodeId) (program : Program) :
    Program.unnumbered (Statement.renumberAll onNode program) = Program.unnumbered program :=
  Statement.relabelAll_relabelAll _ _ _ _ program

namespace Stage.Relates

variable {stage : Stage} {draft twin : Draft}

/-- Trees at a stage are the same but for their numbers. -/
theorem unnumbered (relates : stage.Relates draft twin) :
    Program.unnumbered twin.statements = Program.unnumbered draft.statements := by
  cases relates with
  | unparsed statements => exact statements
  | parsed statements | checked _ statements | settled _ statements =>
    rw [statements]
    exact Program.unnumbered_renumberAll _ _

/-- As long as nothing is resolved there are no nodes in the store. -/
theorem allows (relates : stage.Relates draft twin) (absent : draft.resolutions = none)
    (onNode : NodeId → NodeId) : stage.Allows onNode := by
  cases relates with
  | settled _ _ found =>
    rw [absent] at found
    cases found
  | _ => trivial

private theorem length (relates : stage.Relates draft twin) :
    twin.statements.length = draft.statements.length := by
  have same := congrArg List.length relates.unnumbered
  rwa [Program.unnumbered, Program.unnumbered, Statement.relabelAll_eq_map,
    Statement.relabelAll_eq_map, List.length_map, List.length_map] at same

end Stage.Relates

/-- A change of statements by a hook, which does nothing to them once they are resolved. -/
def Draft.edit (draft : Draft) (change : NodeId → Program → Program) (count : Nat) : Draft :=
  { draft with
    statements := if draft.resolved then draft.statements else change draft.nextId draft.statements
    nextId := draft.nextId + count }

private theorem Stage.Relates.edit {stage : Stage} {draft twin : Draft}
    (relates : stage.Relates draft twin)
    (resolved : twin.resolved = draft.resolved) {change : NodeId → Program → Program}
    (blind : ∀ onNode id program, change (onNode id) (Statement.renumberAll onNode program) =
      Statement.renumberAll onNode (change id program)) (count : Nat) :
    stage.Relates (draft.edit change count) (twin.edit change count) := by
  have unnumbered (id : NodeId) (program : Program) :
      Program.unnumbered (change id program) = change 0 (Program.unnumbered program) :=
    (blind (fun _ => 0) id program).symm
  cases relates with
  | unparsed statements absent absentTwin =>
    refine .unparsed ?_ absent absentTwin
    simp only [Draft.edit, resolved]
    split
    · exact statements
    · rw [unnumbered, unnumbered, statements]
  | @parsed shift _ _ statements nextId absent absentTwin =>
    refine .parsed ?_ ?_ absent absentTwin
    · simp only [Draft.edit, resolved, statements, nextId]
      split
      · rfl
      · exact blind (· + shift) draft.nextId draft.statements
    · simp only [Draft.edit, nextId]
      exact Nat.add_right_comm draft.nextId shift count
  | checked fixed statements absent absentTwin =>
    refine .checked fixed ?_ absent absentTwin
    simp only [Draft.edit, resolved, fixed, if_true, statements]
  | settled fixed statements found foundTwin renumbers =>
    refine .settled fixed ?_ found foundTwin renumbers
    simp only [Draft.edit, resolved, fixed, if_true, statements]

namespace Session

private theorem draft_editStatements (session : Session) (change : NodeId → Program → Program)
    (count : Nat) :
    ({ session with nextId := session.nextId + count }.editStatements
      (change session.nextId)).draft = session.draft.edit change count := by
  unfold editStatements Draft.edit draft
  dsimp only
  split <;> rfl

/-! ### What is alike -/

/-- Two sessions that have come equally far and differ in the numbers of nodes and classes only. -/
structure Alike (stage : Stage) (session twin : Session) : Prop where
  setup : twin.setup = session.setup
  modules : twin.modules = session.modules
  hooks : twin.hooks = session.hooks
  blind : ∀ hook ∈ session.hooks, hook.Blind
  tokens : twin.tokens = session.tokens
  comments : twin.comments = session.comments
  resolved : twin.resolved = session.resolved
  diagnostics : twin.diagnostics = session.diagnostics
  output : twin.output = session.output
  tests : twin.tests = session.tests
  globals : twin.globals = session.globals
  log : twin.log = session.log
  classless : session.store.Classless
  store : session.store.Kin stage.Allows twin.store
  draft : stage.Relates session.draft twin.draft

/-- Sessions that are alike, by numbers that agree with known ones about the classes there are. -/
structure AlikeBy (known : Nat → Nat) (made taken : Nat) (stage : Stage) (session twin : Session) :
    Prop extends Alike stage session twin where
  kin : session.store.KinBy known stage.Allows twin.store
  made : session.store.classes.size = made
  taken : twin.store.classes.size = taken

variable {stage : Stage} {session twin : Session}

namespace Alike

/-- For sessions that are alike there are numbers by which they are. -/
theorem exists_by (alike : Alike stage session twin) :
    ∃ known made taken, AlikeBy known made taken stage session twin := by
  obtain ⟨known, kin⟩ := alike.store
  exact ⟨known, _, _, { alike with kin := kin, made := rfl, taken := rfl }⟩

private theorem exists_twin (alike : Alike stage session twin) :
    ∃ numbers : Renumbering, session.store.Twin numbers twin.store := by
  obtain ⟨onNode, allows⟩ := stage.exists_allows
  obtain ⟨known, kin⟩ := alike.store
  exact ⟨_, kin.met allows⟩

private theorem text (alike : Alike stage session twin) (name : String) :
    (twin.global? name).map twin.store.text = (session.global? name).map session.store.text := by
  obtain ⟨numbers, met⟩ := alike.exists_twin
  unfold global?
  rw [alike.globals, met.value?, Option.map_map]
  congr 1
  funext value
  exact met.moved.text Renumbering.moving_apart value

private theorem globalBindings (alike : Alike stage session twin) {numbers : Renumbering}
    (met : session.store.Twin numbers twin.store) :
    twin.globalBindings = session.globalBindings.mapEntries (Binding.renumber numbers) := by
  unfold Session.globalBindings
  rw [alike.globals, met.bindingsOf]

/-- The globals of sessions that are alike have the same texts. -/
theorem globalTexts (alike : Alike stage session twin) :
    twin.globalTexts = session.globalTexts := by
  obtain ⟨numbers, met⟩ := alike.exists_twin
  unfold Session.globalTexts
  rw [alike.globalBindings met, Table.mapEntries, List.map_map]
  refine List.map_congr_left fun entry _ => ?_
  exact congrArg (Prod.mk entry.1) (met.moved.text Renumbering.moving_apart entry.2.value)

private theorem summary (alike : Alike stage session twin) : twin.summary = session.summary := by
  obtain ⟨numbers, met⟩ := alike.exists_twin
  have length : twin.statements.length = session.statements.length := alike.draft.length
  unfold Session.summary
  rw [alike.tokens, alike.comments, length, alike.resolved, alike.output, alike.tests,
    alike.diagnostics, alike.globalBindings met, Table.mapEntries, List.length_map]

private theorem view (alike : Alike stage session twin) {numbers : Renumbering}
    (met : session.store.Twin numbers twin.store) : session.view.Twin numbers twin.view where
  tokens := alike.tokens
  comments := alike.comments
  statements := alike.draft.unnumbered
  resolved := alike.resolved
  diagnostics := alike.diagnostics
  output := alike.output
  tests := alike.tests
  store := met
  globals := alike.globalBindings met
  log := alike.log

/-- A hook that does not look at numbers may be added to both sessions. -/
theorem addHook (alike : Alike stage session twin) {hook : Hook} (blind : hook.Blind) :
    Alike stage (session.addHook hook) (twin.addHook hook) :=
  { alike with
    hooks := congrArg (· ++ [hook]) alike.hooks
    blind := fun other member => (List.mem_append.mp member).elim (alike.blind other)
      fun last => by rwa [List.mem_singleton.mp last] }

/-- Both sessions may note an event. -/
theorem noted (alike : Alike stage session twin) (event other : Event) :
    Alike stage { session with events := session.events ++ [event] }
      { twin with events := twin.events ++ [other] } :=
  { alike with }

/-- Both sessions may show the same diagnostics. -/
theorem diagnosed (alike : Alike stage session twin) {diagnostics diagnosticsTwin : List String}
    (same : diagnosticsTwin = diagnostics) :
    Alike stage { session with diagnostics := diagnostics }
      { twin with diagnostics := diagnosticsTwin } :=
  { alike with diagnostics := same }

end Alike

namespace AlikeBy

variable {known : Nat → Nat} {made taken : Nat}

/-- A change of the store that makes no class and leaves the modules. -/
theorem withStore (alike : AlikeBy known made taken stage session twin) {store image : Store}
    (size : store.classes.size = session.store.classes.size)
    (sizeImage : image.classes.size = twin.store.classes.size) (classless : store.Classless)
    (kept : ∀ numbers : Renumbering, numbers.Continues stage.Allows known made taken →
      session.store.Twin numbers twin.store → store.Twin numbers image) :
    AlikeBy known made taken stage { session with store := store }
      { twin with store := image } := by
  have kin : store.KinBy known stage.Allows image := by
    refine alike.kin.change size sizeImage ?_
    rw [alike.made, alike.taken]
    exact kept
  exact { alike with
    classless := classless
    store := ⟨known, kin⟩
    kin := kin
    made := size.trans alike.made
    taken := sizeImage.trans alike.taken }

/-- A value the host hands over is bound to a global. -/
theorem bindGlobal (alike : AlikeBy known made taken stage session twin) (name : String)
    (value : HostValue) (isFinal : Bool) :
    AlikeBy known made taken stage (session.bindGlobal name value isFinal)
      (twin.bindGlobal name value isFinal) := by
  obtain ⟨classes, modules⟩ := session.store.classes_take value
  obtain ⟨classesTwin, _⟩ := twin.store.classes_take value
  unfold Session.bindGlobal
  refine alike.withStore (congrArg Array.size classes) (congrArg Array.size classesTwin) ?_ ?_
  · intro ref native found
    unfold Store.module? at found
    change (session.store.take value).2.modules[ref.index]? = some native at found
    rw [modules] at found
    exact alike.classless ref native found
  · intro numbers _ met
    obtain ⟨same, taken⟩ := met.take value
    rw [same, alike.globals]
    exact taken.define session.globals name _ isFinal

/-- A value and the value with the other numbers are bound to a global. -/
theorem bindValue (alike : AlikeBy known made taken stage session twin) (name : String)
    {value image : Value} (renumbers : ∀ numbers : Renumbering,
      numbers.Continues stage.Allows known made taken → image = value.renumber numbers) :
    AlikeBy known made taken stage (session.bindValue name value) (twin.bindValue name image) := by
  unfold Session.bindValue
  refine alike.withStore rfl rfl alike.classless fun numbers continues met => ?_
  have defined := met.define session.globals name value false
  rw [← renumbers numbers continues] at defined
  rwa [alike.globals]

/-- A native module that holds no classes may be registered in both sessions. -/
theorem registerModule (alike : AlikeBy known made taken stage session twin)
    {native : NativeModule} (classless : native.Classless) :
    AlikeBy known made taken stage (session.registerModule native)
      (twin.registerModule native) := by
  have next : twin.store.modules.size = session.store.modules.size := by
    obtain ⟨numbers, met⟩ := alike.exists_twin
    rw [met.modules]
  unfold Session.registerModule
  have registered : AlikeBy known made taken stage
      { session with store := (session.store.newModule native).2 }
      { twin with store := (twin.store.newModule native).2 } :=
    alike.withStore rfl rfl (alike.classless.newModule classless)
      fun numbers _ met => (met.newModule native).2
  exact { registered with
    modules := congrArg₂ (fun ref modules => Table.put modules native.name ref)
      (congrArg ModuleRef.mk next) alike.modules }

/-- An edit of the statements. -/
theorem edit (alike : AlikeBy known made taken stage session twin)
    {change : NodeId → Program → Program}
    (blind : ∀ onNode id program, change (onNode id) (Statement.renumberAll onNode program) =
      Statement.renumberAll onNode (change id program)) (count : Nat) :
    AlikeBy known made taken stage
      ({ session with nextId := session.nextId + count }.editStatements (change session.nextId))
      ({ twin with nextId := twin.nextId + count }.editStatements (change twin.nextId)) := by
  have edited := alike.draft.edit alike.resolved blind count
  rw [← draft_editStatements, ← draft_editStatements] at edited
  unfold editStatements at edited ⊢
  dsimp only at edited ⊢
  by_cases resolved : session.resolved = true
  · have resolvedTwin : twin.resolved = true := alike.resolved.trans resolved
    rw [if_pos resolved, if_pos resolvedTwin] at edited ⊢
    exact { alike with
      log := congrArg (Array.push · "immutable") alike.log
      draft := edited }
  · have unresolvedTwin : ¬ twin.resolved = true := by rwa [alike.resolved]
    rw [if_neg resolved, if_neg unresolvedTwin] at edited ⊢
    exact { alike with draft := edited }

end AlikeBy

/-! ### Hooks -/

section Perform

variable {known : Nat → Nat} {made taken : Nat}

private theorem together_edit {action : HookAction} {change : NodeId → Program → Program}
    {count : Nat} (edits : action.edit? = some (change, count))
    (blind : ∀ onNode id program, change (onNode id) (Statement.renumberAll onNode program) =
      Statement.renumberAll onNode (change id program)) :
    Together (AlikeBy known made taken stage) (fun _ _ => AlikeBy known made taken stage)
      (AlikeBy known made taken stage) (perform action) (perform action) := by
  have performs (session : Session) :
      perform action session = .ok () (session.leftBy (perform action)) := by
    cases action with
    | dropLast | dropFirst | reverse | appendPrint | appendPrintVar | appendBreak | edit => rfl
    | _ => cases edits
  intro first second alike
  rw [performs, performs, leftBy_edit edits, leftBy_edit edits]
  exact .ok (alike.edit blind count)

/-- Actions that do not look at the session. -/
theorem together_plain {action : HookAction} (plain : action.Plain) :
    Together (AlikeBy known made taken stage) (fun _ _ => AlikeBy known made taken stage)
      (AlikeBy known made taken stage) (perform action) (perform action) := by
  cases action with
  | bind | edit | report | abort | depending => exact plain.elim
  | log text => exact .modify fun _ _ alike =>
    { alike with log := congrArg (Array.push · text) alike.log }
  | observe => exact .modify fun _ _ alike =>
    { alike with log := congrArg₂ Array.push alike.log alike.summary }
  | showGlobal name =>
    refine .modify fun first second alike => ?_
    have same := alike.text name
    refine { alike with log := congrArg₂ Array.push alike.log ?_ }
    cases found : first.global? name with
    | none =>
      rw [found] at same
      rw [Option.map_eq_none_iff.mp same]
    | some value =>
      rw [found] at same
      obtain ⟨_, foundTwin, shown⟩ := Option.map_eq_some_iff.mp same
      rw [foundTwin]
      exact shown
  | define name value => exact .modify fun _ _ alike => alike.bindGlobal name value false
  | fail phase message => exact .throw (.hook phase message) fun _ _ alike => alike
  | raise name => exact .throw (.runtime ⟨.undefinedVariable name, .start⟩) fun _ _ alike => alike
  | addOutput text => exact .modify fun _ _ alike =>
    { alike with output := congrArg (Array.push · text) alike.output }
  | dropLast | dropFirst | reverse | appendPrint | appendPrintVar | appendBreak =>
    exact together_edit rfl (plain.edit rfl)

mutual

private theorem together_perform {action image : HookAction}
    (twin : action.Twin (·.Continues stage.Allows known made taken) image) :
    Together (AlikeBy known made taken stage) (fun _ _ => AlikeBy known made taken stage)
      (AlikeBy known made taken stage) (perform action) (perform image) := by
  cases twin with
  | plain plain => exact together_plain plain
  | bind name renumbers => exact .modify fun _ _ alike => alike.bindValue name renumbers
  | edit blind => exact together_edit rfl fun onNode _ program => blind onNode program
  | report _ _ => exact .modify fun _ _ alike => { alike with output := rfl, tests := rfl }
  | abort fault => exact .throw fault fun _ _ alike => alike
  | depending chosen =>
    intro first second alike
    have views (numbers : Renumbering)
        (continues : numbers.Continues stage.Allows known made taken) :
        first.view.Twin numbers second.view := by
      refine alike.view (alike.kin.twins numbers ?_)
      rwa [alike.made, alike.taken]
    exact together_performAll (chosen _ _ views) first second alike

/-- Actions with other numbers do the same in sessions that differ in numbers only. -/
theorem together_performAll {actions images : List HookAction}
    (twins : HookAction.AreTwins (·.Continues stage.Allows known made taken) actions images) :
    Together (AlikeBy known made taken stage) (fun _ _ => AlikeBy known made taken stage)
      (AlikeBy known made taken stage) (performAll actions) (performAll images) := by
  cases twins with
  | nil => exact .pure fun _ _ alike => alike
  | cons first rest => exact (together_perform first).bind fun _ _ => together_performAll rest

end

end Perform

/-- Hooks that do not look at numbers do the same in sessions that differ in numbers only. -/
theorem together_hooksAt (phase : Phase) (timing : Timing) :
    Together (Alike stage) (fun _ _ => Alike stage) (Alike stage) (hooksAt phase timing)
      (hooksAt phase timing) := by
  refine .hooksAt phase timing (fun _ _ alike => alike.hooks)
    (fun _ _ _ _ alike => alike.noted _ _) fun first second alike hook member _ _ => ?_
  obtain ⟨known, made, taken, numbered⟩ := alike.exists_by
  obtain ⟨onNode, allows⟩ := stage.exists_allows
  have continues := numbered.kin.continues allows
  rw [numbered.made, numbered.taken] at continues
  have twins := alike.blind hook member (·.Continues stage.Allows known made taken) ⟨_, continues⟩
  exact (together_performAll twins).weaken (fun _ _ _ _ reached => reached.toAlike)
    (fun _ _ stopped => stopped.toAlike) first second numbered

end Session

end Scriptlet
