import Scriptlet.Proofs.Run.Safety

/-!
# Successive runs

A program may run any number of times on the same globals, each run in a setting of its own, and the
host may bind globals in between (`Successive`). If there was no code in the store before the first
run (`Store.Fresh`), every store between runs and every end of a run is sound
(`Course.sound_of_successive`).
-/

namespace Scriptlet

/-- The fault a step has stopped with. -/
def Run.fault? {α : Type} : EStateM.Result RunStop Machine α → Option (Located RuntimeFault)
  | .error (.fault fault) _ => some fault
  | _ => none

/-- A run that stopped with a fault ended in an error with this fault. -/
theorem Run.eq_error_of_fault? {α : Type} {result : EStateM.Result RunStop Machine α}
    {fault : Located RuntimeFault} (stopped : Run.fault? result = some fault) :
    result = .error (.fault fault) (Run.machineAfter result) := by
  unfold Run.fault? at stopped
  split at stopped
  · cases stopped
    rfl
  · cases stopped

/-- A store that holds no code yet, with the scope of the globals. -/
structure Store.Fresh (store : Store) (globals : ScopeRef) : Prop where
  functions : store.functions = #[]
  classes : store.classes = #[]
  root : ∃ scope, store.scope? globals = some scope ∧ scope.enclosing = none ∧
    scope.tag = .globals

/-- A name is bound for good somewhere. -/
def Store.Fixes (store : Store) (name : String) : Prop :=
  ∃ ref scope, store.scope? ref = some scope ∧ scope.mark name = some true

/-- The store with the scope of the globals and nothing else. -/
def Store.bare : Store := (Store.empty.newScope none .globals []).2

/-- The bare store holds no code yet. -/
theorem Store.fresh_bare : Store.bare.Fresh ⟨0⟩ :=
  ⟨rfl, rfl, _, rfl, rfl, rfl⟩

/-- Nothing is bound for good in the bare store. -/
theorem Store.not_fixes_bare (name : String) : ¬ Store.bare.Fixes name := by
  rintro ⟨ref, scope, found, marked⟩
  rcases Store.scope?_newScope found with none | rfl
  · simp [Store.scope?, Store.empty] at none
  · cases marked

/-- A setting without modules, for globals in a bare store. -/
def Setting.bare (resolutions : Resolutions) : Setting :=
  ⟨resolutions, [], ⟨0⟩, .standard⟩

/-- The stores between successive runs of a program on the same globals, from a first store
on. A run may end with a fault. -/
inductive Successive (program : Program) (resolutions : Resolutions) (globals : ScopeRef)
    (first : Store) : Store → Prop where
  | start : Successive program resolutions globals first first
  | bind {store : Store} (name : String) (value : Value) :
      Successive program resolutions globals first store →
      Successive program resolutions globals first (store.define globals name value false)
  | run {store : Store} {setting : Setting} :
      Successive program resolutions globals first store →
      setting.resolutions = resolutions → setting.globals = globals →
      Successive program resolutions globals first
        (Run.machineAfter (Run.interpret setting program (.start store globals))).store

/-- A program may run once on the globals of a bare store. -/
theorem Successive.once (program : Program) (resolutions : Resolutions) :
    Successive program resolutions ⟨0⟩ .bare (Run.machineAfter
      (Run.interpret (.bare resolutions) program (.start .bare ⟨0⟩))).store :=
  .run .start rfl rfl

namespace Course

/-- The course of runs that begins with a store. -/
def beginning (program : Program) (globals : ScopeRef) (first : Store) : Course :=
  ⟨program, globals, first.Fixes, first.formerClasses⟩

variable {course : Course} {setting : Setting} {store after : Store}

/-- A store in which a run may begin. -/
structure Ready (course : Course) (store : Store) : Prop where
  sound : course.SoundStore store
  root : ∃ scope, store.scope? course.globals = some scope ∧ scope.enclosing = none ∧
    scope.tag = .globals

namespace Ready

/-- A run begins with globals that hold final names of earlier runs at most. -/
theorem fits (ready : course.Ready store) :
    course.Fits store [.globals course.program] course.globals := by
  obtain ⟨scope, found, outermost, tag⟩ := ready.root
  refine .outermost found outermost ⟨tag, fun _ member => ?_, fun _ name marked => ?_⟩
  · cases member
  · refine (ready.sound.finals _ scope name found marked).imp (fun declared => ?_) id
    rw [tag] at declared
    exact mem_finalsOf.mpr declared

/-- What keeps the scopes in place keeps the globals outermost. -/
theorem of_keeps {touched : ScopeRef} {changes : List (String × Bool)} (ready : course.Ready store)
    (kept : store.Keeps touched changes after) (sound : course.SoundStore after) :
    course.Ready after := by
  obtain ⟨scope, found, outermost, tag⟩ := ready.root
  obtain ⟨later, foundLater, becomes⟩ := kept _ scope found
  exact ⟨sound, later, foundLater, becomes.enclosing.trans outermost, becomes.tag.trans tag⟩

/-- A store without code is ready for the course that begins with it. -/
theorem of_fresh {program : Program} {globals : ScopeRef} (fresh : store.Fresh globals) :
    (Course.beginning program globals store).Ready store := by
  refine ⟨⟨fun ref function found => ?_, fun ref object found => ?_, fun ref object found => ?_,
    fun classes member => .inl member,
    fun ref scope name found marked => .inr ⟨ref, scope, found, marked⟩⟩, fresh.root⟩
  · simp [Store.function?, fresh.functions] at found
  · simp [Store.class?, fresh.classes] at found
  · simp [fresh.classes] at found

/-- The host may bind a global, not for good. -/
theorem bind (ready : course.Ready store) (name : String) (value : Value) :
    course.Ready (store.define course.globals name value false) := by
  have kept : store.Keeps course.globals [(name, false)]
      (store.define course.globals name value false) :=
    .define _ _ _ _ _ (.inl ⟨rfl, List.mem_singleton.mpr rfl⟩)
  have finals := ready.sound.finals.define course.globals name value false fun final => by
    cases final
  exact ready.of_keeps kept (ready.sound.of_keeps kept rfl rfl finals)

/-- A run that begins in a ready store ends soundly. -/
theorem interpret (ready : course.Ready store) (setting : Setting) :
    Run.SoundEnd course setting (fun _ _ => True)
      (Run.interpret setting course.program (.start store course.globals)) := by
  have sound : course.Sound (.start store course.globals) :=
    ⟨ready.sound, List.forall_mem_nil _, List.forall_mem_nil _⟩
  exact Run.upholds_interpretBy (Run.upheld_routines course setting Run.depthBound)
    (Run.contained_routines setting Run.depthBound) .program (List.Subset.refl _) _ sound ready.fits

/-- A run may begin in the store that an earlier run has left. -/
theorem run (ready : course.Ready store) (setting : Setting) :
    course.Ready (Run.machineAfter
      (Run.interpret setting course.program (.start store course.globals))).store := by
  have kept := (Run.leaves_interpret setting course.program (.start store course.globals)).store
  exact ready.of_keeps kept (ready.interpret setting).sound.store

end Ready

/-- Every store between successive runs is ready for the next. -/
theorem ready_of_successive {program : Program} {resolutions : Resolutions} {globals : ScopeRef}
    {first : Store} (fresh : first.Fresh globals)
    (successive : Successive program resolutions globals first store) :
    (Course.beginning program globals first).Ready store := by
  induction successive with
  | start => exact .of_fresh fresh
  | bind name value _ ih => exact ih.bind name value
  | run _ _ _ ih => exact ih.run _

variable {program : Program} {resolutions : Resolutions} {globals : ScopeRef} {first : Store}

/-- A run leaves a machine that has run code of the program only. -/
theorem sound_of_successive (fresh : first.Fresh globals)
    (successive : Successive program resolutions globals first store) (setting : Setting) :
    (Course.beginning program globals first).Sound
      (Run.machineAfter (Run.interpret setting program (.start store globals))) :=
  ((ready_of_successive fresh successive).interpret setting).sound

/-- A fault of a run is due to code of the program. -/
theorem blames_of_successive (fresh : first.Fresh globals)
    (successive : Successive program resolutions globals first store)
    {fault : Located RuntimeFault} {machine : Machine}
    (stopped : Run.interpret setting program (.start store globals) =
      .error (.fault fault) machine) :
    (Course.beginning program globals first).Blames setting machine.store machine.uses
      fault.cause := by
  have ended := (ready_of_successive fresh successive).interpret setting
  change Run.SoundEnd _ _ _ (Run.interpret setting program (.start store globals)) at ended
  rw [stopped] at ended
  exact ended.2

end Course

end Scriptlet
