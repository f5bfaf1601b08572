import Scriptlet.Proofs.Lexical.Soundness
import Scriptlet.Proofs.Run.Frame
import Scriptlet.Proofs.Run.Jump

/-!
# Steps that uphold soundness

`Run.Upholds course setting before step after` says that the step, run on a sound machine
of which `before` holds, leaves a sound machine on every path, that `after` holds of a
value it ends with, and that there is somebody to blame for a fault that is about a name
or a jump: code of the program, in the scopes it is written in.
-/

namespace Scriptlet

/-- Whether a fault has nothing to do with names or jumps. -/
def RuntimeFault.isPlain : RuntimeFault → Bool
  | .undefinedVariable _ | .finalReassignment _ | .illegalControlFlow _ => false
  | _ => true

namespace Course

variable (course : Course)

/-- The code a fault is due to. A name that cannot be read or assigned to was the last one
used, and the scopes it was used in are still as they were. -/
inductive Blames (setting : Setting) (store : Store) (uses : List Use) : RuntimeFault → Prop where
  | plain {fault : RuntimeFault} : fault.isPlain = true → Blames setting store uses fault
  | unbound {use : Use} {earlier : List Use} {scopes : List LexicalScope} {code : Code} :
      uses = use :: earlier → Stands course.program scopes code →
      (use.id, use.name) ∈ code.mentions → course.Fits store scopes use.env →
      Run.valueOf? setting use store = none →
      Blames setting store uses (.undefinedVariable use.name)
  | unassignable {use : Use} {earlier : List Use} {scopes : List LexicalScope} {value : Expr}
      {location : Location} {fault : BindingFault} :
      uses = use :: earlier →
      Stands course.program scopes (.expression (.assign use.id use.name value location)) →
      course.Fits store scopes use.env → Run.assignTarget setting use store = .error fault →
      Blames setting store uses (Run.assignFault use.name fault)
  | noSuper {use : Use} {earlier : List Use} {scopes : List LexicalScope} {method : String}
      {location : Location} :
      uses = use :: earlier →
      Stands course.program scopes (.expression (.superRef use.id method location)) →
      use.name = "super" →
      Blames setting store uses (.undefinedVariable "super")
  | jump {tag : ScopeTag} {outer : List LexicalScope} {inside : List Statement} {jump : Jump} :
      Stands course.program (.opened tag :: outer) (.statements inside) → tag.isBody = true →
      jump ∈ jumpsAll inside → jump ≠ .returning →
      Blames setting store uses (.illegalControlFlow jump)
  | escape {jump : Jump} : jump ∈ jumpsAll course.program →
      Blames setting store uses (.illegalControlFlow jump)

namespace Blames

variable {course} {setting : Setting} {store : Store} {uses : List Use} {name : String}

/-- An undefined variable is due to code that mentions the name, or to a superclass that is looked
for, and in the scopes the name was used in nothing was found. -/
theorem undefinedVariable
    (blamed : course.Blames setting store uses (.undefinedVariable name)) :
    ∃ use earlier scopes code, uses = use :: earlier ∧ Stands course.program scopes code ∧
      (use.id, use.name) ∈ code.mentions ∧
      ((∃ method location, code = .expression (.superRef use.id method location)) ∨
        use.name = name ∧ course.Fits store scopes use.env ∧
          (Run.valueOf? setting use store = none ∨
            Run.assignTarget setting use store = .error .undefined)) := by
  generalize same : RuntimeFault.undefinedVariable name = fault at blamed
  cases blamed with
  | plain plain =>
      cases same
      cases plain
  | unbound last stands mentioned fits missing =>
      cases same
      exact ⟨_, _, _, _, last, stands, mentioned, .inr ⟨rfl, fits, .inl missing⟩⟩
  | @unassignable use earlier scopes value location refusal last stands fits refused =>
      cases refusal with
      | undefined =>
          cases same
          exact ⟨_, _, _, _, last, stands, List.mem_singleton.mpr rfl,
            .inr ⟨rfl, fits, .inr refused⟩⟩
      | final => cases same
  | @noSuper use earlier scopes method location last stands named =>
      refine ⟨_, _, _, _, last, stands, ?_, .inl ⟨_, _, rfl⟩⟩
      rw [named]
      exact List.mem_singleton.mpr rfl
  | jump | escape => cases same

/-- The reassignment of a final variable is due to an assignment, in whose scopes the name is bound
for good. -/
theorem finalReassignment
    (blamed : course.Blames setting store uses (.finalReassignment name)) :
    ∃ use earlier scopes value location, uses = use :: earlier ∧ use.name = name ∧
      Stands course.program scopes (.expression (.assign use.id use.name value location)) ∧
      course.Fits store scopes use.env ∧
      Run.assignTarget setting use store = .error .final := by
  generalize same : RuntimeFault.finalReassignment name = fault at blamed
  cases blamed with
  | plain plain =>
      cases same
      cases plain
  | @unassignable use earlier scopes value location refusal last stands fits refused =>
      cases refusal with
      | undefined => cases same
      | final =>
          cases same
          exact ⟨use, earlier, scopes, value, location, last, rfl, stands, fits, refused⟩
  | unbound | noSuper | jump | escape => cases same

/-- A jump that leads nowhere is due to statements that hold it: those of a body, or those of the
program. -/
theorem illegalControlFlow {jump : Jump}
    (blamed : course.Blames setting store uses (.illegalControlFlow jump)) :
    (∃ tag outer inside, Stands course.program (.opened tag :: outer) (.statements inside) ∧
      tag.isBody = true ∧ jump ∈ jumpsAll inside ∧ jump ≠ .returning) ∨
    jump ∈ jumpsAll course.program := by
  generalize same : RuntimeFault.illegalControlFlow jump = fault at blamed
  cases blamed with
  | plain plain =>
      cases same
      cases plain
  | @unassignable use earlier scopes value location refusal last stands fits refused =>
      cases refusal <;> cases same
  | jump stands body leads other =>
      cases same
      exact .inl ⟨_, _, _, stands, body, leads, other⟩
  | escape leads =>
      cases same
      exact .inr leads
  | unbound | noSuper => cases same

end Blames

/-- A machine that stands in some scopes of the text. -/
def At (scopes : List LexicalScope) (machine : Machine) : Prop :=
  course.Fits machine.store scopes machine.env

variable {course}

/-- A machine that came back to its scope and changed none stands where it stood. -/
theorem At.quiet {scopes : List LexicalScope} {machine later : Machine}
    (fits : course.At scopes machine) (kept : machine.Keeps [] later) : course.At scopes later := by
  unfold At
  rw [kept.env]
  exact Fits.quiet fits kept.store

end Course

namespace Run

variable {α β : Type} (course : Course) (setting : Setting)

/-- A sound end of a step: with a value of which something holds, or with a fault that is
due to code of the program. -/
def SoundEnd (after : α → Machine → Prop) : EStateM.Result RunStop Machine α → Prop
  | .ok value machine => course.Sound machine ∧ after value machine
  | .error (.fault fault) machine =>
    course.Sound machine ∧ course.Blames setting machine.store machine.uses fault.cause
  | .error _ machine => course.Sound machine

variable {course setting} in
/-- A step that ends soundly leaves a sound machine on every path. -/
theorem SoundEnd.sound {after : α → Machine → Prop} {result : EStateM.Result RunStop Machine α}
    (ended : SoundEnd course setting after result) : course.Sound (machineAfter result) := by
  cases result with
  | ok value machine => exact ended.1
  | error stop machine =>
      cases stop with
      | fault fault => exact ended.1
      | exhausted | endless => exact ended

variable {course setting} in
/-- What is known of the value a step ends with may be replaced. -/
theorem SoundEnd.imp {after weaker : α → Machine → Prop}
    {result : EStateM.Result RunStop Machine α} (ended : SoundEnd course setting after result)
    (implied : ∀ value machine, result = .ok value machine → course.Sound machine →
      after value machine → weaker value machine) :
    SoundEnd course setting weaker result := by
  cases result with
  | ok value machine => exact ⟨ended.1, implied value machine rfl ended.1 ended.2⟩
  | error stop machine => cases stop <;> exact ended

/-- The step ends soundly if it begins so. -/
def Upholds (before : Machine → Prop) (step : Run α) (after : α → Machine → Prop) : Prop :=
  ∀ machine, course.Sound machine → before machine →
    SoundEnd course setting after (step machine)

/-- The step ends soundly, whatever it ends with. -/
abbrev Safe (before : Machine → Prop) (step : Run α) : Prop :=
  Upholds course setting before step fun _ _ => True

namespace Upholds

variable {course setting} {before : Machine → Prop} {step : Run α} {after : α → Machine → Prop}

/-- A step may be said to begin where more holds, and to end where less does. -/
theorem mono {stronger : Machine → Prop} {weaker : α → Machine → Prop}
    (upholds : Upholds course setting before step after)
    (implies : ∀ machine, course.Sound machine → stronger machine → before machine)
    (implied : ∀ value machine, course.Sound machine → after value machine →
      weaker value machine) :
    Upholds course setting stronger step weaker := by
  intro machine sound holds
  refine (upholds machine sound (implies machine sound holds)).imp ?_
  exact fun value later _ => implied value later

/-- A step may be said to begin where more holds. -/
theorem strengthen {stronger : Machine → Prop} (upholds : Upholds course setting before step after)
    (implies : ∀ machine, course.Sound machine → stronger machine → before machine) :
    Upholds course setting stronger step after :=
  upholds.mono implies fun _ _ _ holds => holds

/-- A step that ends soundly where something holds ends soundly. -/
theorem safe (upholds : Upholds course setting before step after) :
    Safe course setting before step :=
  upholds.mono (fun _ _ holds => holds) fun _ _ _ _ => trivial

/-- Giving a value upholds soundness. -/
protected theorem pure {value : α} (implies : ∀ machine, before machine → after value machine) :
    Upholds course setting before (pure value) after :=
  fun machine sound holds => ⟨sound, implies machine holds⟩

/-- A fault that has nothing to do with names or jumps upholds soundness. -/
protected theorem fail {fault : RuntimeFault} (plain : fault.isPlain = true) (location : Location) :
    Upholds course setting before (Run.fail fault location) after :=
  fun _ sound _ => ⟨sound, .plain plain⟩

/-- Stopping for the depth upholds soundness. -/
protected theorem exhausted : Upholds course setting before Run.exhausted after :=
  fun _ sound _ => sound

/-- A step that never ends upholds soundness. -/
protected theorem endless : Upholds course setting before Run.endless after :=
  fun _ sound _ => sound

/-- Looking at the machine upholds soundness. -/
protected theorem get : Upholds course setting before (get : Run Machine)
    fun value machine => value = machine ∧ before machine :=
  fun _ sound holds => ⟨sound, rfl, holds⟩

/-- Looking at the store upholds soundness. -/
protected theorem inspect (look : Store → α) : Upholds course setting before (Run.inspect look)
    fun value machine => value = look machine.store ∧ before machine :=
  fun _ sound holds => ⟨sound, rfl, holds⟩

/-- Giving a result, or failing with a plain fault, upholds soundness. -/
protected theorem orFail {result : Except RuntimeFault α} (location : Location)
    (plain : ∀ machine, before machine → ∀ fault, result = .error fault →
      fault.isPlain = true) :
    Upholds course setting before (Run.orFail result location) fun _ => before := by
  cases result with
  | ok value => exact .pure fun _ holds => holds
  | error fault => exact fun machine sound holds => ⟨sound, .plain (plain machine holds fault rfl)⟩

/-- One step after another upholds soundness, if the first one leads to where the second may begin.
-/
theorem bind {next : α → Run β} {final : β → Machine → Prop}
    (first : Upholds course setting before step after)
    (rest : ∀ value, Upholds course setting (after value) (next value) final) :
    Upholds course setting before (step >>= next) final := by
  intro machine sound holds
  have ended := first machine sound holds
  change SoundEnd course setting final (EStateM.bind step next machine)
  unfold EStateM.bind
  cases result : step machine with
  | ok value later =>
      rw [result] at ended
      exact rest value later ended.1 ended.2
  | error stop later =>
      rw [result] at ended
      cases stop <;> exact ended

/-- A fact that is no matter of the machine may be set aside. -/
theorem assuming {fact : Prop} (each : fact → Upholds course setting before step after) :
    Upholds course setting (fun machine => fact ∧ before machine) step after := by
  rintro machine sound ⟨known, holds⟩
  exact each known machine sound holds

/-- A step that changes no scope stays in the scopes of the text it is in. -/
theorem keepAt {scopes : List LexicalScope} (leaves : Leaves [] step)
    (upholds : Safe course setting (course.At scopes) step) :
    Upholds course setting (course.At scopes) step fun _ => course.At scopes := by
  intro machine sound fits
  refine (upholds machine sound fits).imp fun value later result _ _ => ?_
  exact fits.quiet (leaves.of_ok result)

/-- A change of the store that keeps its scopes and stays sound upholds soundness. -/
protected theorem change {update : Store → Store}
    (kept : ∀ touched (store : Store), store.Keeps touched [] (update store))
    (sound : ∀ machine, course.Sound machine → before machine →
      course.SoundStore (update machine.store)) :
    Safe course setting before (Run.change update) := by
  intro machine known holds
  exact ⟨known.of_store (kept machine.env machine.store) (sound machine known holds) rfl rfl,
    trivial⟩

/-- A change of the store that touches neither scopes nor code. -/
theorem changeData {update : Store → Store}
    (scopes : ∀ store, (update store).scopes = store.scopes)
    (functions : ∀ store, (update store).functions = store.functions)
    (tables : ∀ store, (update store).tables = store.tables) :
    Safe course setting before (Run.change update) :=
  .change (fun _ store => .of_scopes_eq (scopes store)) fun machine known _ =>
    known.store.of_eq (scopes machine.store) (functions machine.store) (tables machine.store)

/-- Something new in the store that is neither scope nor code. -/
theorem createData {make : Store → α × Store}
    (scopes : ∀ store, (make store).2.scopes = store.scopes)
    (functions : ∀ store, (make store).2.functions = store.functions)
    (tables : ∀ store, (make store).2.tables = store.tables) :
    Safe course setting before (Run.create make) := by
  intro machine known holds
  have kept : machine.store.Keeps machine.env [] (make machine.store).2 :=
    .of_scopes_eq (scopes machine.store)
  exact ⟨known.of_store kept (known.store.of_eq (scopes machine.store) (functions machine.store)
    (tables machine.store)) rfl rfl, trivial⟩

/-- A step as another owner upholds soundness if the step does. -/
protected theorem asOwner (known : Store → Prop) {promised : α → Prop} (owner : Option ClassRef)
    (inside : Upholds course setting (known ·.store) step fun value _ => promised value) :
    Upholds course setting (known ·.store) (Run.asOwner owner step)
      fun value _ => promised value := by
  intro machine sound holds
  have ended := inside { machine with owners := owner :: machine.owners }
    (sound.congr rfl rfl rfl) holds
  unfold Run.asOwner
  cases result : step { machine with owners := owner :: machine.owners } with
  | ok value later =>
      rw [result] at ended
      exact ⟨ended.1.congr rfl rfl rfl, ended.2⟩
  | error stop later =>
      rw [result] at ended
      cases stop with
      | fault fault => exact ⟨ended.1.congr rfl rfl rfl, ended.2⟩
      | exhausted | endless => exact Course.Sound.congr ended rfl rfl rfl

/-- A step in a call upholds soundness if the step does. -/
protected theorem inCall (known : Store → Prop) {promised : α → Prop}
    (inside : Upholds course setting (known ·.store) step fun value _ => promised value) :
    Upholds course setting (known ·.store) (Run.inCall step) fun value _ => promised value := by
  intro machine sound holds
  have ended := inside { machine with callDepth := machine.callDepth + 1 }
    (sound.congr rfl rfl rfl) holds
  unfold Run.inCall
  cases result : step { machine with callDepth := machine.callDepth + 1 } with
  | ok value later =>
      rw [result] at ended
      exact ⟨ended.1.congr rfl rfl rfl, ended.2⟩
  | error stop later =>
      rw [result] at ended
      cases stop with
      | fault fault => exact ⟨ended.1.congr rfl rfl rfl, ended.2⟩
      | exhausted | endless => exact Course.Sound.congr ended rfl rfl rfl

/-- Code that stands where it is evaluated may be noted, however it ends. -/
protected theorem noting {scopes : List LexicalScope} {expr : Expr} {step : Run Value}
    (stands : Stands course.program scopes (.expression expr)) (leaves : Leaves [] step)
    (inside : Safe course setting (course.At scopes) step) :
    Safe course setting (course.At scopes) (Run.noting expr step) := by
  intro machine sound fits
  have ended := inside machine sound fits
  have kept := leaves machine
  unfold Run.noting
  dsimp only
  cases result : step machine with
  | ok value later =>
      rw [result] at ended kept
      exact ⟨ended.1.note ⟨scopes, stands, Course.Fits.deferAfter fits kept.store⟩, trivial⟩
  | error stop later =>
      rw [result] at ended kept
      have placed : course.Places later.store
          ⟨expr, machine.env, machine.owners, machine.callDepth, machine.store.classes,
            .error stop⟩ := ⟨scopes, stands, Course.Fits.deferAfter fits kept.store⟩
      cases stop with
      | fault fault => exact ⟨ended.1.note placed, ended.2⟩
      | exhausted | endless => exact Course.Sound.note ended placed

/-- A step that is promised to end only with some values does. -/
theorem yielding {property : α → Prop} (upholds : Upholds course setting before step after)
    (yields : Yields property step) :
    Upholds course setting before step fun value machine =>
      property value ∧ after value machine := by
  intro machine sound holds
  refine (upholds machine sound holds).imp fun value later result _ ended => ?_
  exact ⟨yields machine value later result, ended⟩

/-- Evaluating expressions in order upholds soundness if each evaluation does. -/
protected theorem valuesOf {evaluate : Expr → Run Value} {exprs : List Expr}
    (inside : ∀ expr ∈ exprs, Upholds course setting before (evaluate expr) fun _ => before) :
    Upholds course setting before (Run.valuesOf evaluate exprs) fun _ => before := by
  induction exprs with
  | nil => exact .pure fun _ holds => holds
  | cons expr rest ih =>
      refine .bind (inside expr (List.mem_cons_self ..)) fun value => ?_
      refine .bind (ih fun other member => inside other (List.mem_cons_of_mem _ member)) ?_
      exact fun values => .pure fun _ holds => holds

/-- A loop upholds soundness if its rounds do. -/
protected theorem untilDone {round : Run (Option Completion)}
    (inside : Upholds course setting before round fun _ => before) (bound : Nat) :
    Safe course setting before (Run.untilDone round bound) := by
  induction bound with
  | zero => exact .endless
  | succ bound ih =>
      refine .bind inside fun done => ?_
      cases done with
      | some completion => exact .pure fun _ _ => trivial
      | none => exact ih

/-- A loop of so many rounds upholds soundness if its rounds do. -/
protected theorem times {round : Run (Option Completion)}
    (inside : Upholds course setting before round fun _ => before) (count : Nat) :
    Safe course setting before (Run.times round count) := by
  induction count with
  | zero => exact .pure fun _ _ => trivial
  | succ count ih =>
      refine .bind inside fun done => ?_
      cases done with
      | some completion => exact .pure fun _ _ => trivial
      | none => exact ih

end Upholds

end Run

end Scriptlet
