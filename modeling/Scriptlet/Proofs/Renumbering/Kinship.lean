import Mathlib.Order.WellFounded
import Scriptlet.Proofs.Renumbering.Programs

/-!
# Stores that run on

A store and its twin are used for one run after the other, and how many classes a run makes is known
only when it has ended. So it is left open which numbers the classes to come will have in the twin
(`Renumbering.Continues`): the stores are kin if they are twins for every choice that fits the
classes there are (`Store.Kin`).
-/

namespace Scriptlet

/-- Keeps the numbers of the classes there are, and gives later ones to all others. -/
def onwardFrom (known : Nat → Nat) (made shift index : Nat) : Nat :=
  if index < made then known index else index + shift

section Onward

variable {known : Nat → Nat} {made shift index : Nat}

private theorem onwardFrom_of_lt (below : index < made) :
    onwardFrom known made shift index = known index := if_pos below

private theorem onwardFrom_of_le (beyond : made ≤ index) :
    onwardFrom known made shift index = index + shift := if_neg (Nat.not_lt.mpr beyond)

private theorem strictMono_onwardFrom (rising : StrictMono known)
    (below : ∀ index < made, known index < made + shift) :
    StrictMono (onwardFrom known made shift) := by
  intro left right less
  have risen := rising less
  unfold onwardFrom
  split
  · have known := below left ‹_›
    split <;> omega
  · split <;> omega

end Onward

/-- Numbers that nodes are allowed to have, that agree with known ones about the classes there are,
and that give none that is taken to the next class. -/
structure Renumbering.Continues (numbers : Renumbering) (allowed : (NodeId → NodeId) → Prop)
    (known : Nat → Nat) (made taken : Nat) : Prop where
  onNode : allowed numbers.onNode
  agrees : ∀ index < made, numbers.onClass index = known index
  room : taken ≤ numbers.onClass made

/-- Numbers that continue what was made onward from earlier classes continue these, and give
numbers in a row to those that were made. -/
theorem Renumbering.Continues.before {numbers : Renumbering} {allowed : (NodeId → NodeId) → Prop}
    {known : Nat → Nat} {made taken later takenLater : Nat} (sizes : made ≤ taken)
    (grown : made ≤ later) (grownTwin : taken ≤ takenLater)
    (continues :
      numbers.Continues allowed (onwardFrom known made (taken - made)) later takenLater) :
    numbers.Continues allowed known made taken ∧
      ∀ next, made ≤ next → next < later → numbers.onClass next + made = next + taken := by
  obtain ⟨nodes, agrees, room⟩ := continues
  have onward (next : Nat) (after : made ≤ next) (inside : next < later) :
      numbers.onClass next + made = next + taken := by
    rw [agrees next inside, onwardFrom_of_le after]
    omega
  refine ⟨⟨nodes, fun index below => ?_, ?_⟩, onward⟩
  · rw [agrees index (by omega), onwardFrom_of_lt below]
  · by_cases more : made < later
    · have next := onward made (Nat.le_refl _) more
      omega
    · have none : made = later := by omega
      subst none
      exact grownTwin.trans room

namespace Store

/-- Stores that are twins for all numbers that continue known ones. -/
structure KinBy (known : Nat → Nat) (allowed : (NodeId → NodeId) → Prop) (store twin : Store) :
    Prop where
  rising : StrictMono known
  room : twin.classes.size ≤ known store.classes.size
  twins : ∀ numbers : Renumbering,
    numbers.Continues allowed known store.classes.size twin.classes.size → store.Twin numbers twin

/-- Stores that are twins whatever numbers the classes to come will have. -/
def Kin (allowed : (NodeId → NodeId) → Prop) (store twin : Store) : Prop :=
  ∃ known, store.KinBy known allowed twin

variable {known : Nat → Nat} {allowed : (NodeId → NodeId) → Prop} {store twin : Store}

/-- The numbers that kin stores have in common are fit for running on. -/
theorem KinBy.continues {onNode : NodeId → NodeId} (kin : store.KinBy known allowed twin)
    (nodes : allowed onNode) : Renumbering.Continues ⟨onNode, known, kin.rising⟩ allowed known
      store.classes.size twin.classes.size :=
  ⟨nodes, fun _ _ => rfl, kin.room⟩

/-- Kin stores are twins under the numbers they have in common. -/
theorem KinBy.met {onNode : NodeId → NodeId} (kin : store.KinBy known allowed twin)
    (nodes : allowed onNode) : store.Twin ⟨onNode, known, kin.rising⟩ twin :=
  kin.twins _ (kin.continues nodes)

/-- Fewer numbers may be allowed. -/
theorem Kin.restrict {fewer : (NodeId → NodeId) → Prop} (kin : store.Kin allowed twin)
    (within : ∀ onNode, fewer onNode → allowed onNode) : store.Kin fewer twin := by
  obtain ⟨known, rising, room, twins⟩ := kin
  exact ⟨known, rising, room, fun numbers ⟨nodes, agrees, room⟩ =>
    twins numbers ⟨within _ nodes, agrees, room⟩⟩

/-- A class there is has a number that is taken. -/
theorem Twin.lt_size {numbers : Renumbering} (met : store.Twin numbers twin) {index : Nat}
    (made : index < store.classes.size) : numbers.onClass index < twin.classes.size := by
  have found := met.classes ⟨index⟩
  unfold Store.class? at found
  rw [Array.getElem?_eq_getElem made, Option.map_some] at found
  exact (Array.getElem?_eq_some_iff.mp found).1

/-- The twin has at least as many classes. -/
theorem Twin.classes_le {numbers : Renumbering} (met : store.Twin numbers twin) :
    store.classes.size ≤ twin.classes.size := by
  by_contra fewer
  have last : numbers.onClass twin.classes.size < twin.classes.size := met.lt_size (by omega)
  have rises := numbers.onClass_strictMono.le_apply (x := twin.classes.size)
  omega

/-- A change that makes no class keeps stores kin. -/
theorem KinBy.change {changed image : Store} (kin : store.KinBy known allowed twin)
    (size : changed.classes.size = store.classes.size)
    (sizeImage : image.classes.size = twin.classes.size)
    (kept : ∀ numbers : Renumbering, numbers.Continues allowed known store.classes.size
      twin.classes.size → store.Twin numbers twin → changed.Twin numbers image) :
    changed.KinBy known allowed image := by
  obtain ⟨rising, room, twins⟩ := kin
  refine ⟨rising, by rwa [size, sizeImage], fun numbers continues => ?_⟩
  rw [size, sizeImage] at continues
  exact kept numbers continues (twins numbers continues)

/-- Numbers of classes can be left out in the twin. -/
theorem Kin.reserve (kin : store.Kin allowed twin) {onNode : NodeId → NodeId}
    (nodes : allowed onNode) (next : Nat) : store.Kin allowed (twin.reserve next) := by
  obtain ⟨known, kin⟩ := kin
  refine ⟨onwardFrom known store.classes.size (twin.classes.size + next), ?_, ?_, ?_⟩
  · refine strictMono_onwardFrom kin.rising fun index made => ?_
    have taken : known index < twin.classes.size := (kin.met nodes).lt_size made
    omega
  · rw [size_reserve, onwardFrom_of_le (Nat.le_refl _)]
    omega
  · rintro numbers ⟨nodes, agrees, room⟩
    rw [size_reserve] at room
    have met := kin.twins numbers ⟨nodes, fun index made => ?_, by omega⟩
    · exact met.reserve (by omega)
    · rw [agrees index made, onwardFrom_of_lt made]

end Store

/-! ### Runs -/

namespace Run

variable {setting twinSetting : Setting}

/-- A run keeps the classes there are. -/
theorem classes_interpret (setting : Setting) (program : Program) (machine : Machine) :
    machine.store.classes.size ≤
      (endState (interpret setting program machine)).store.classes.size := by
  have same : setting.Twin id setting := ⟨fun _ => rfl, rfl, rfl, rfl⟩
  let numbers : Renumbering := ⟨id, id, strictMono_id⟩
  have mirrors {bound : Nat} : Mirrored numbers bound id
      (interpret setting (Statement.renumberAll id program)) (interpret setting program) :=
    interpret_mirrored same program
  exact mirrors.back machine (Nat.le_refl _)

/-- A run from stores that are twins, with numbers that fit all the classes it makes. -/
theorem interpret_twin {numbers : Renumbering} {bound : Nat} {store twin : Store}
    (same : setting.Twin numbers.onNode twinSetting) (met : store.Twin numbers twin)
    (classless : store.Classless) (program : Program) (globals : ScopeRef)
    (onward : ∀ next, store.classes.size ≤ next → next < bound →
      numbers.onClass next + store.classes.size = next + twin.classes.size)
    (inside : (endState (interpret setting program
      (Machine.start store globals))).store.classes.size ≤ bound) :
    EndsAlike (Machine.Twin numbers bound) id
      (interpret setting program (Machine.start store globals))
      (interpret twinSetting (Statement.renumberAll numbers.onNode program)
        (Machine.start twin globals)) :=
  (interpret_mirrored same program).ends _ _
    ⟨⟨met, rfl, rfl, rfl⟩, classless, onward, rfl, rfl⟩ inside

/-- What two runs leave behind. -/
structure LeavesKin (onNode : NodeId → NodeId) (machine twin : Machine) : Prop where
  store : machine.store.Kin (· = onNode) twin.store
  classless : machine.store.Classless
  output : twin.output = machine.output
  tests : twin.tests = machine.tests

/-- Ends that are alike for all numbers of the classes to come leave stores that are kin. -/
theorem leavesKin_of_ends {onNode : NodeId → NodeId} {known : Nat → Nat} (rising : StrictMono known)
    {ended endedTwin : EStateM.Result RunStop Machine Unit}
    (first : EndsAlike (Machine.Twin ⟨onNode, known, rising⟩ (endState ended).store.classes.size) id
      ended endedTwin)
    (ends : ∀ numbers : Renumbering, numbers.Continues (· = onNode) known
      (endState ended).store.classes.size (endState endedTwin).store.classes.size →
      EndsAlike (Machine.Twin numbers (endState ended).store.classes.size) id ended endedTwin) :
    EndsAlike (LeavesKin onNode) id ended endedTwin := by
  cases first with
  | ok value met =>
    refine .ok value ⟨⟨known, rising, met.store.size_le, fun numbers continues => ?_⟩,
      met.classless, met.output, met.tests⟩
    cases ends numbers continues with
    | ok _ met => exact met.store
  | error stop met =>
    refine .error stop ⟨⟨known, rising, met.store.size_le, fun numbers continues => ?_⟩,
      met.classless, met.output, met.tests⟩
    cases ends numbers continues with
    | error _ met => exact met.store

/-- A run from stores that are kin leaves such stores. -/
theorem interpret_kin {onNode : NodeId → NodeId} {store twin : Store}
    (same : setting.Twin onNode twinSetting) (kin : store.Kin (· = onNode) twin)
    (classless : store.Classless) (program : Program) (globals : ScopeRef) :
    EndsAlike (LeavesKin onNode) id (interpret setting program (Machine.start store globals))
      (interpret twinSetting (Statement.renumberAll onNode program)
        (Machine.start twin globals)) := by
  obtain ⟨known, kin⟩ := kin
  have met := kin.met rfl
  have sizes := met.classes_le
  have grown := classes_interpret setting program (Machine.start store globals)
  have grownTwin := classes_interpret twinSetting (Statement.renumberAll onNode program)
    (Machine.start twin globals)
  -- The classes the run makes get the numbers that follow those that are taken.
  have rising : StrictMono (onwardFrom known store.classes.size
      (twin.classes.size - store.classes.size)) := by
    refine strictMono_onwardFrom kin.rising fun index made => ?_
    have taken : known index < twin.classes.size := met.lt_size made
    omega
  refine leavesKin_of_ends rising ?_ fun numbers continues => ?_
  · refine interpret_twin same (kin.twins _ ⟨rfl, fun index made => onwardFrom_of_lt made, ?_⟩)
      classless program globals (fun next after _ => ?_) (Nat.le_refl _)
    · refine le_of_le_of_eq ?_ (onwardFrom_of_le (Nat.le_refl _)).symm
      omega
    · dsimp only
      rw [onwardFrom_of_le after]
      omega
  · obtain ⟨before, onward⟩ := continues.before sizes grown grownTwin
    obtain rfl := before.onNode
    exact interpret_twin same (kin.twins _ before) classless program globals onward (Nat.le_refl _)

end Run

end Scriptlet
