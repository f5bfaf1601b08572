import Scriptlet.Proofs.Run.Making

/-!
# The fields a new object is given

A new object is given the fields that its classes declare, one after the other (`Machine.Gives`).
The slot of a field is that of its latest declaration (`FieldSlot.Declares`), with whatever value
initialisers have assigned to it since.
-/

namespace Scriptlet

/-- The slot of a field as a class declares it, with the value that it has by now. -/
structure FieldSlot.Declares (slot : FieldSlot) (owner : ClassRef) (field : FieldDecl) : Prop where
  owner : slot.owner = owner
  visibility : slot.visibility = field.visibility
  isFinal : slot.isFinal = field.isFinal
  assigned : field.initial.isSome = true → slot.assigned = true

private theorem FieldSlot.Declares.become {slot later : FieldSlot} {owner : ClassRef}
    {field : FieldDecl} (declares : slot.Declares owner field) (becomes : slot.Becomes later) :
    later.Declares owner field :=
  ⟨becomes.owner.trans declares.owner, becomes.visibility.trans declares.visibility,
    becomes.isFinal.trans declares.isFinal, fun given => becomes.assigned (declares.assigned given)⟩

namespace Store

private theorem Grows.field? {store after : Store} (grows : store.Grows none after)
    {ref : ObjectRef}
    {name : String} {slot : FieldSlot} (found : store.field? ref name = some slot) :
    ∃ later, after.field? ref name = some later ∧ slot.Becomes later := by
  unfold Store.field? at found ⊢
  split at found
  · rename_i object held
    obtain ⟨later, heldLater, _, becomes⟩ := grows.objects ref object held
    rw [heldLater]
    exact (becomes nofun).kept name slot found
  · cases found

/-- The fields that some classes declare, each with its class. -/
def declarations (store : Store) (classes : List ClassRef) : List (ClassRef × FieldDecl) :=
  classes.flatMap fun owner => (store.ownFields owner).map (owner, ·)

end Store

/-- An object has been given some declared fields since a store, in this order and each once. -/
structure Machine.Gives (machine : Machine) (first : Store) (object : ObjectRef)
    (earlier : List (ClassRef × String)) (given : List (ClassRef × FieldDecl)) : Prop where
  grows : first.Grows (some object) machine.store
  present : (machine.store.object? object).isSome
  noted : declarationsOf object machine.fieldUses =
    (given.map fun declared => (declared.1, declared.2.name)).reverse ++ earlier
  slots : ∀ name owner field, given.reverse.find? (·.2.name = name) = some (owner, field) →
    ∃ slot, machine.store.field? object name = some slot ∧ slot.Declares owner field

namespace Machine.Gives

variable {machine later : Machine} {first : Store} {object : ObjectRef}
  {earlier : List (ClassRef × String)} {given : List (ClassRef × FieldDecl)}

/-- What other code does takes no declared field away and gives none. -/
theorem advance (gives : machine.Gives first object earlier given)
    (advances : machine.Advances none later) : later.Gives first object earlier given := by
  refine ⟨gives.grows.trans advances.store.quiet, ?_, ?_, fun name owner field last => ?_⟩
  · obtain ⟨known, found⟩ := Option.isSome_iff_exists.mp gives.present
    obtain ⟨still, foundLater, _⟩ := advances.store.objects object known found
    simp [foundLater]
  · rw [advances.declarations object nofun gives.present, gives.noted]
  · obtain ⟨slot, found, declares⟩ := gives.slots name owner field last
    obtain ⟨changed, foundLater, becomes⟩ := advances.store.field? found
    exact ⟨changed, foundLater, declares.become becomes⟩

/-- The object is given one more declared field. -/
theorem give (gives : machine.Gives first object earlier given) {owner : ClassRef}
    {field : FieldDecl} {slot : FieldSlot} (declares : slot.Declares owner field) :
    ({ machine with
        store := machine.store.putField object field.name slot
        fieldUses := ⟨object, field.name, slot, .declared, machine.env, machine.owner⟩ ::
          machine.fieldUses } : Machine).Gives first object earlier
            (given ++ [(owner, field)]) := by
  obtain ⟨known, found⟩ := Option.isSome_iff_exists.mp gives.present
  refine ⟨gives.grows.trans (.putField found fun other => absurd rfl other), ?_, ?_,
    fun name holder declared last => ?_⟩
  · simp [Store.object?_putField, found]
  · have noted := gives.noted
    unfold declarationsOf at noted ⊢
    rw [List.filter_cons_of_pos (by simp), List.map_cons, noted]
    simp [declares.owner]
  · dsimp only
    rw [Store.field?_putField found]
    rw [List.reverse_append, List.reverse_singleton, List.singleton_append, List.find?_cons] at last
    by_cases hit : field.name = name
    · subst hit
      simp only [decide_true, Option.some.injEq, Prod.mk.injEq] at last
      obtain ⟨rfl, rfl⟩ := last
      exact ⟨slot, if_pos ⟨rfl, rfl⟩, declares⟩
    · simp only [hit, decide_false] at last
      rw [if_neg fun same => hit same.2]
      exact gives.slots name holder declared last

private theorem of_eq (gives : machine.Gives first object earlier given)
    (store : later.store = machine.store) (fieldUses : later.fieldUses = machine.fieldUses) :
    later.Gives first object earlier given := by
  obtain ⟨grows, present, noted, slots⟩ := gives
  rw [← store] at grows present slots
  rw [← fieldUses] at noted
  exact ⟨grows, present, noted, slots⟩

end Machine.Gives

namespace Run

/-- At the end of a step an object has been given some more fields, or the first ones of them if
the step has stopped. -/
def EndsGiving (first : Store) (object : ObjectRef) (earlier : List (ClassRef × String))
    (given fields : List (ClassRef × FieldDecl)) : EStateM.Result RunStop Machine Unit → Prop
  | .ok _ after => after.Gives first object earlier (given ++ fields)
  | .error _ after => ∃ begun, begun <+: fields ∧ after.Gives first object earlier (given ++ begun)

namespace EndsGiving

variable {first : Store} {object : ObjectRef} {earlier : List (ClassRef × String)}
  {given fields more : List (ClassRef × FieldDecl)}

private theorem nothing {result : EStateM.Result RunStop Machine Unit}
    (gives : (machineAfter result).Gives first object earlier given) :
    EndsGiving first object earlier given [] result := by
  rw [← List.append_nil given] at gives
  cases result with
  | ok _ after => exact gives
  | error stop after => exact ⟨[], List.prefix_rfl, gives⟩

private theorem append {result : EStateM.Result RunStop Machine Unit}
    (ended : EndsGiving first object earlier (given ++ fields) more result) :
    EndsGiving first object earlier given (fields ++ more) result := by
  cases result with
  | ok _ after =>
      unfold EndsGiving at ended ⊢
      rwa [List.append_assoc] at ended
  | error stop after =>
      obtain ⟨begun, begins, gives⟩ := ended
      rw [List.append_assoc] at gives
      exact ⟨fields ++ begun, (List.prefix_append_right_inj fields).mpr begins, gives⟩

private theorem bind {step next : Run Unit} {machine : Machine}
    (ended : EndsGiving first object earlier given fields (step machine))
    (rest : ∀ between, between.Gives first object earlier (given ++ fields) →
      EndsGiving first object earlier (given ++ fields) more (next between)) :
    EndsGiving first object earlier given (fields ++ more) ((step >>= fun _ => next) machine) := by
  cases result : step machine with
  | ok _ between =>
      rw [result] at ended
      rw [bind_of_ok result]
      exact (rest between ended).append
  | error stop between =>
      rw [result] at ended
      rw [bind_of_error result]
      obtain ⟨begun, begins, gives⟩ := ended
      exact ⟨begun, begins.trans (List.prefix_append fields more), gives⟩

private theorem around {enter : Machine → Machine} {leave : Machine → Machine → Machine}
    {step : Run Unit} {machine : Machine}
    (inside : EndsGiving first object earlier given fields (step (enter machine)))
    (store : ∀ later, (leave machine later).store = later.store)
    (fieldUses : ∀ later, (leave machine later).fieldUses = later.fieldUses) :
    EndsGiving first object earlier given fields (Run.around enter leave step machine) := by
  unfold Run.around
  cases result : step (enter machine) with
  | ok _ later =>
      rw [result] at inside
      exact Machine.Gives.of_eq inside (store later) (fieldUses later)
  | error stop later =>
      rw [result] at inside
      obtain ⟨begun, begins, gives⟩ := inside
      exact ⟨begun, begins, gives.of_eq (store later) (fieldUses later)⟩

private theorem within {enclosing : ScopeRef} {tag : ScopeTag} {bindings : Table Binding}
    {step : Run Unit} {machine : Machine} (gives : machine.Gives first object earlier given)
    (inside : ∀ between, between.Gives first object earlier given →
      EndsGiving first object earlier given fields (step between)) :
    EndsGiving first object earlier given fields
      (Run.within enclosing tag bindings step machine) := by
  have opened : Run.within enclosing tag bindings step machine =
      Run.inScope (machine.store.newScope (some enclosing) tag bindings).1 step
        { machine with store := (machine.store.newScope (some enclosing) tag bindings).2 } := rfl
  rw [opened, inScope_eq_around]
  refine .around (inside _ (gives.advance ?_)) (fun _ => rfl) fun _ => rfl
  exact .of_store (.of_eq rfl rfl rfl) rfl rfl (Nat.le_refl _)

variable {evaluate : Expr → Run Value} (exprs : ∀ expr, Growing none (evaluate expr))
include exprs

private theorem initializeDeclared {owner : ClassRef} (declared : List FieldDecl)
    {machine : Machine} (gives : machine.Gives first object earlier given) :
    EndsGiving first object earlier given (declared.map (owner, ·))
      (Run.initializeDeclared evaluate object owner declared machine) := by
  induction declared generalizing given machine with
  | nil => exact .nothing gives
  | cons field rest ih =>
      have grown : Growing none (valueOrNil evaluate field.initial) :=
        .valueOrNil fun expr _ => exprs expr
      have evaluated := gives.advance (grown.advances machine)
      unfold Run.initializeDeclared
      cases result : valueOrNil evaluate field.initial machine with
      | error stop between =>
          rw [result] at evaluated
          rw [bind_of_error result]
          exact ⟨[], List.nil_prefix, by rwa [List.append_nil]⟩
      | ok value between =>
          rw [result] at evaluated
          rw [bind_of_ok result]
          have declares : FieldSlot.Declares
              ⟨value, field.visibility, field.isFinal, field.initial.isSome, owner⟩ owner field :=
            ⟨rfl, rfl, rfl, id⟩
          exact (ih (evaluated.give declares)).append

private theorem initializeOwn {owner : ClassRef} {machine : Machine}
    (gives : machine.Gives first object earlier given) :
    EndsGiving first object earlier given ((machine.store.ownFields owner).map (owner, ·))
      (Run.initializeOwn evaluate object owner machine) := by
  unfold Run.initializeOwn
  rw [inspect_bind]
  unfold Store.ownFields
  cases machine.store.class? owner with
  | none => exact .nothing gives
  | some known =>
      dsimp only
      split
      · rename_i empty
        rw [List.isEmpty_iff.mp empty]
        exact .nothing gives
      · rw [asOwner_eq_around]
        refine .around ?_ (fun _ => rfl) fun _ => rfl
        have noted : EndsGiving first object earlier given []
            (noteInitializing { machine with owners := some owner :: machine.owners }) :=
          .nothing (gives.advance (.of_store (.of_eq rfl rfl rfl) rfl rfl (Nat.le_max_left _ _)))
        exact noted.bind fun between entered => within entered fun _ opened =>
          initializeDeclared exprs known.decl.fields opened

/-- An object is given the fields of some classes, those of the first class first. -/
theorem initializeFields (classes : List ClassRef)
    (present : ∀ owner ∈ classes, (first.class? owner).isSome) {machine : Machine}
    (gives : machine.Gives first object earlier given) :
    EndsGiving first object earlier given (first.declarations classes)
      (Run.initializeFields evaluate object classes machine) := by
  induction classes generalizing given machine with
  | nil => exact .nothing gives
  | cons owner rest ih =>
      obtain ⟨here, others⟩ := List.forall_mem_cons.mp present
      have own : EndsGiving first object earlier given
          ((machine.store.ownFields owner).map (owner, ·))
          (Run.initializeOwn evaluate object owner machine) := initializeOwn exprs gives
      rw [gives.grows.ownFields here] at own
      exact own.bind fun between => ih others

end EndsGiving

end Run

end Scriptlet
