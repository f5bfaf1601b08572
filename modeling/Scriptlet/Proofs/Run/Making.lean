import Scriptlet.Proofs.Run.FieldHistory

/-!
# Runs grow the machine

Every operation of a run grows the machine it begins on (`Run.grows_interpret`). An object that is
being made gets the fields its classes declare, root first, and those it has for good at any moment
are among the ones declared up to there (`Store.Makes`).
-/

namespace Scriptlet

/-- Setting a field of an object as it may be set grows the machine. -/
theorem Machine.Grows.putField {making : Option ObjectRef} {machine : Machine} {ref : ObjectRef}
    {object : Instance} {name : String} {slot : FieldSlot} {kind : FieldUseKind}
    (found : machine.store.object? ref = some object)
    (becomes : making ≠ some ref →
      object.Becomes { object with fields := object.fields.put name slot })
    (respects : FieldUse.Respects (machine.store.putField ref name slot) machine.store.field?
      ⟨ref, name, slot, kind, machine.env, machine.owner⟩) :
    machine.Grows making { machine with
      store := machine.store.putField ref name slot
      fieldUses := ⟨ref, name, slot, kind, machine.env, machine.owner⟩ :: machine.fieldUses } := by
  refine ⟨.putField found becomes, Nat.le_refl _, [_], rfl, ⟨respects, trivial⟩, ?_⟩
  funext other query
  exact Store.field?_putField found other query

/-- Only the object that is being made may be given a declared field. -/
theorem Machine.Advances.putField {making : Option ObjectRef} {machine : Machine}
    {ref : ObjectRef} {object : Instance} {name : String} {slot : FieldSlot} {kind : FieldUseKind}
    (found : machine.store.object? ref = some object)
    (becomes : making ≠ some ref →
      object.Becomes { object with fields := object.fields.put name slot })
    (respects : FieldUse.Respects (machine.store.putField ref name slot) machine.store.field?
      ⟨ref, name, slot, kind, machine.env, machine.owner⟩)
    (permitted : kind = .declared → making = some ref) :
    machine.Advances making { machine with
      store := machine.store.putField ref name slot
      fieldUses := ⟨ref, name, slot, kind, machine.env, machine.owner⟩ :: machine.fieldUses } := by
  refine ⟨.putField found becomes respects, fun other apart _ => ?_⟩
  have unlisted : ¬(kind = .declared ∧ ref = other) := by
    rintro ⟨declared, rfl⟩
    exact apart (permitted declared)
  simp [declarationsOf, unlisted]

namespace Instance.Becomes

/-- A field that is not final, or has no value yet, may get one. -/
theorem set {object : Instance} {name : String} {slot : FieldSlot} {value : Value}
    (found : object.fields.find? name = some slot)
    (open_ : ¬ (slot.isFinal = true ∧ slot.assigned = true)) :
    object.Becomes { object with
      fields := object.fields.put name { slot with value := value, assigned := true } } := by
  refine ⟨fun query known held => ?_, fun query known absent held => ?_⟩
  · by_cases hit : name = query
    · subst hit
      cases found.symm.trans held
      exact ⟨_, Table.find?_put_self _ _ _, rfl, rfl, rfl, fun _ => rfl,
        fun final given => absurd ⟨final, given⟩ open_⟩
    · exact ⟨known, (Table.find?_put_of_ne _ _ hit).trans held, .refl known⟩
  · have other : name ≠ query := fun hit => by
      subst hit
      cases absent.symm.trans found
    cases absent.symm.trans ((Table.find?_put_of_ne _ _ other).symm.trans held)

/-- A field that is new is open to everyone. -/
theorem add {object : Instance} {name : String} {slot : FieldSlot}
    (absent : object.fields.find? name = none) (everyone : slot.visibility = .everyone)
    (changeable : slot.isFinal = false) :
    object.Becomes { object with fields := object.fields.put name slot } := by
  refine ⟨fun query known held => ?_, fun query known missing held => ?_⟩
  · have other : name ≠ query := fun hit => by
      subst hit
      cases absent.symm.trans held
    exact ⟨known, (Table.find?_put_of_ne _ _ other).trans held, .refl known⟩
  · by_cases hit : name = query
    · subst hit
      cases (Table.find?_put_self _ _ _).symm.trans held
      exact ⟨everyone, changeable⟩
    · cases missing.symm.trans ((Table.find?_put_of_ne _ _ hit).symm.trans held)

end Instance.Becomes

namespace Store

/-- A new object has no field yet. -/
theorem field?_newObject (store : Store) (ofClass : ClassRef) :
    (store.newObject ofClass).2.field? = store.field? := by
  funext ref name
  unfold field? object? newObject
  rw [Array.getElem?_push]
  by_cases last : ref.index = store.objects.size
  · rw [if_pos last, last, Array.getElem?_eq_none (Nat.le_refl _)]
    rfl
  · rw [if_neg last]

/-- An object that is being made: the classes it is of declare fields it has been given and
fields it is still to be given, and only the former are final. -/
def Makes (store : Store) (ref : ObjectRef) (given coming : List FieldDecl) : Prop :=
  ∃ object, store.object? ref = some object ∧ (store.class? object.ofClass).isSome ∧
    store.declaredFields object.ofClass = given ++ coming ∧
    ∀ name slot, object.fields.find? name = some slot → slot.isFinal = true →
      ∃ field ∈ given, field.name = name ∧ field.isFinal = true

namespace Makes

variable {store after : Store} {ref : ObjectRef} {given coming : List FieldDecl}

private theorem grow (makes : store.Makes ref given coming) (grows : store.Grows none after) :
    after.Makes ref given coming := by
  obtain ⟨object, found, present, declared, finals⟩ := makes
  obtain ⟨later, foundLater, ofClass, becomes⟩ := grows.objects ref object found
  refine ⟨later, foundLater, ?_, ?_, fun name slot held final => ?_⟩
  · rw [ofClass]
    exact grows.class?_isSome present
  · rw [ofClass, grows.declaredFields present, declared]
  · cases earlier : object.fields.find? name with
    | none =>
        obtain ⟨_, changeable⟩ := (becomes nofun).added name slot earlier held
        cases final.symm.trans changeable
    | some old =>
        obtain ⟨changed, heldChanged, same⟩ := (becomes nofun).kept name old earlier
        cases held.symm.trans heldChanged
        exact finals name old earlier (same.isFinal.symm.trans final)

/-- After a declared field is given the next one comes. -/
theorem give {field : FieldDecl} {slot : FieldSlot}
    (makes : store.Makes ref given (field :: coming)) (final : slot.isFinal = field.isFinal) :
    (store.putField ref field.name slot).Makes ref (given ++ [field]) coming := by
  obtain ⟨object, found, present, declared, finals⟩ := makes
  have grows : store.Grows (some ref) (store.putField ref field.name slot) :=
    .putField found fun other => absurd rfl other
  refine ⟨{ object with fields := object.fields.put field.name slot }, ?_, present, ?_,
    fun name other held fixed => ?_⟩
  · rw [object?_putField, found]
    simp
  · rw [grows.declaredFields present, declared, List.append_assoc]
    rfl
  · by_cases hit : field.name = name
    · subst hit
      cases (Table.find?_put_self _ _ _).symm.trans held
      exact ⟨field, by simp, rfl, final.symm.trans fixed⟩
    · rw [Table.find?_put_of_ne _ _ hit] at held
      obtain ⟨earlier, member, named, fixedEarlier⟩ := finals name other held fixed
      exact ⟨earlier, List.mem_append_left _ member, named, fixedEarlier⟩

end Makes

end Store

namespace Run

variable {α : Type} {making : Option ObjectRef} {setting : Setting} {inner : Routines}
  {depth : Nat}

namespace Growing

private theorem asOwner (known reached : Store → Prop) {step : Run α} (owner : Option ClassRef)
    (inside : Leads (growing making) (known ·.store) step fun _ machine => reached machine.store) :
    Leads (growing making) (known ·.store) (Run.asOwner owner step)
      fun _ machine => reached machine.store :=
  inside.around (fun _ holds => holds)
    (fun _ _ _ advances => { advances with }) (fun _ _ _ _ advances => { advances with })
    fun _ _ _ _ _ reached => reached

private theorem inCall (known reached : Store → Prop) {step : Run α}
    (inside : Leads (growing making) (known ·.store) step fun _ machine => reached machine.store) :
    Leads (growing making) (known ·.store) (Run.inCall step)
      fun _ machine => reached machine.store :=
  inside.around (fun _ holds => holds)
    (fun _ _ _ advances => { advances with }) (fun _ _ _ _ advances => { advances with })
    fun _ _ _ _ _ reached => reached

private theorem inScope (known reached : Store → Prop) {step : Run α} (scope : ScopeRef)
    (inside : Leads (growing making) (known ·.store) step fun _ machine => reached machine.store) :
    Leads (growing making) (known ·.store) (Run.inScope scope step)
      fun _ machine => reached machine.store :=
  inside.around (fun _ holds => holds)
    (fun _ _ _ advances => { advances with }) (fun _ _ _ _ advances => { advances with })
    fun _ _ _ _ _ reached => reached

/-- What is known of a store and no growth undoes is known after a step that changes no
object that is being made. -/
theorem keep (known : Store → Prop) {step : Run α} (growing : Growing none step)
    (kept : ∀ store after : Store, store.Grows none after → known store → known after) :
    Leads (Scriptlet.growing making) (known ·.store) step fun _ machine => known machine.store := by
  intro machine holds
  have grown := growing.advances machine
  cases result : step machine with
  | ok value later =>
      rw [result] at grown
      exact ⟨grown.quiet, kept _ _ grown.store holds⟩
  | error stop later =>
      rw [result] at grown
      exact grown.quiet

private theorem within (known reached : Store → Prop) {step : Run α} (enclosing : ScopeRef)
    (tag : ScopeTag) (bindings : Table Binding)
    (kept : ∀ store after : Store, store.Grows none after → known store → known after)
    (inside : Leads (growing making) (known ·.store) step fun _ machine => reached machine.store) :
    Leads (growing making) (known ·.store) (Run.within enclosing tag bindings step)
      fun _ machine => reached machine.store :=
  Leads.bind ((Growing.newScope _ _ _).keep known kept) fun scope =>
    inScope known reached scope inside

/-- Assigning to a field of an object there is grows the machine. -/
protected theorem setField (ref : ObjectRef) (object : Instance) (name : String) (value : Value)
    (location : Location) :
    Leads (growing none) (fun machine => some object = machine.store.object? ref)
      (Run.setField ref object name value location) fun _ _ => True := by
  unfold Run.setField
  split
  · rename_i slot held
    refine Leads.bind (Growing.checkAccess _ _ _) fun _ => ?_
    split
    · exact .fail _ _
    · rename_i changeable
      intro machine found
      have open_ : ¬ (slot.isFinal = true ∧ slot.assigned = true) := by simpa using changeable
      refine ⟨.putField found.symm (fun _ => .set held open_) ⟨(by rintro ⟨⟩),
        fun known before final given => absurd ⟨?_, ?_⟩ open_⟩ nofun, trivial⟩
      all_goals
        have same : machine.store.field? ref name = some slot := by
          simp [Store.field?, ← found, held]
        cases same.symm.trans before
        assumption
  · rename_i absent
    intro machine found
    refine ⟨.putField found.symm (fun _ => .add absent rfl rfl) ⟨(by rintro ⟨⟩),
      fun known before _ _ => ?_⟩ nofun, trivial⟩
    have same : machine.store.field? ref name = none := by simp [Store.field?, ← found, absent]
    cases same.symm.trans before

/-- Setting a property grows the machine. -/
protected theorem setProperty (target : Value) (name : String) (value : Value)
    (location : Location) : Growing none (Run.setProperty target name value location) := by
  unfold Run.setProperty
  split
  · refine Leads.bind (.inspect _) fun object => ?_
    split
    · exact (Growing.setField _ _ _ _ _).strengthen fun _ holds => holds.1
    · exact .fail _ _
  · exact Leads.fail _ _

/-- Reading a property grows the machine. -/
protected theorem property (target : Value) (name : String) (location : Location) :
    Growing none (Run.property target name location) := by
  unfold Run.property
  split
  · refine Leads.bind .get fun machine => ?_
    dsimp only
    split
    · rename_i slot found
      refine Leads.bind (Growing.checkAccess _ _ _) fun _ => Leads.through (fun _ _ => True) ?_
        fun _ => .pure fun _ _ => trivial
      refine (Growing.noteField _ _ _).strengthen ?_
      rintro later ⟨rfl, _⟩
      exact found
    · split
      · exact (Growing.boundMethod _ _).strengthen fun _ _ => trivial
      · exact .fail _ _
  · refine bind (.inspect _) fun native => ?_
    split
    · split
      · exact .pure _
      · exact Leads.fail _ _
    · exact Leads.fail _ _
  · split
    · exact bind (.inspect _) fun _ => .pure _
    · exact Leads.fail _ _
  · split
    · exact .pure _
    · exact Leads.fail _ _
  · exact Leads.fail _ _

/-- Looking for a method of the superclass grows the machine. -/
protected theorem superMethod (id : NodeId) (method : String) (location : Location) :
    Growing none (Run.superMethod setting id method location) := by
  refine bind (.noteUse id "super") fun use => Leads.bind .get fun machine => ?_
  dsimp only
  split
  · split
    · split
      · exact (Growing.boundMethod _ _).strengthen fun _ _ => trivial
      · exact .fail _ _
    · exact .fail _ _
  · exact .fail _ _

/-- Calling a function grows the machine if its body does. -/
protected theorem callFunction {runBody : List Statement → Run Completion}
    (bodies : ∀ body, Growing none (runBody body)) (function : FunctionObject)
    (arguments : List Value) (location : Location) :
    Growing none (Run.callFunction setting runBody function arguments location) := by
  unfold Run.callFunction
  extract_lets arity
  split
  · exact Leads.fail _ _
  · refine Leads.bind .get fun machine => ?_
    split
    · exact .fail _ _
    · have ran : Growing none (Run.asOwner function.owner <| Run.inCall <|
          Run.within function.closure (.body function.decl)
            (bindParams function.decl.params arguments) (runBody function.decl.body)) :=
        have inside := within (fun _ => True) (fun _ => True) function.closure
          (.body function.decl) (bindParams function.decl.params arguments)
          (fun _ _ _ holds => holds) (bodies function.decl.body)
        asOwner (fun _ => True) (fun _ => True) _ (inCall (fun _ => True) (fun _ => True) inside)
      refine Leads.bind (ran.strengthen fun _ _ => trivial) fun completion => ?_
      have answered (value : Value) : Growing none
          (if function.decl.kind = .constructor then
            return ((← inspect (·.valueIn? function.closure "this"))).getD .nil
          else return value : Run Value) := by
        split
        · exact bind (.inspect _) fun _ => .pure _
        · exact .pure _
      cases completion with
      | normal => exact answered _
      | returning value => exact answered value
      | breaking => exact .fail _ _
      | continuing => exact .fail _ _

/-- An object that is being made is still to be given the same fields after a step that
changes no object that is being made. -/
theorem keepMakes {step : Run α} (growing : Growing none step) {object : ObjectRef}
    {given coming : List FieldDecl} :
    Leads (Scriptlet.growing making) (·.store.Makes object given coming) step
      fun _ machine => machine.store.Makes object given coming :=
  growing.keep (·.Makes object given coming) fun _ _ grows makes => makes.grow grows

section Initializing

variable {evaluate : Expr → Run Value} (exprs : ∀ expr, Growing none (evaluate expr))
  (object : ObjectRef) (owner : ClassRef)
include exprs

omit exprs in
/-- Giving an object a declared field declares it anew if it had one for good. -/
private theorem writeDeclared {given coming : List FieldDecl} {field : FieldDecl}
    {slot : FieldSlot} (final : slot.isFinal = field.isFinal) :
    Leads (growing (some object)) (·.store.Makes object given (field :: coming))
      (Run.writeField object field.name slot .declared)
      fun _ machine => machine.store.Makes object (given ++ [field]) coming := by
  intro machine makes
  refine ⟨?_, makes.give final⟩
  obtain ⟨old, found, present, declared, finals⟩ := makes
  have grows : machine.store.Grows (some object) (machine.store.putField object field.name slot) :=
    .putField found fun other => absurd rfl other
  refine .putField found (fun other => absurd rfl other)
    ⟨nofun, fun known before fixed _ => .inr ?_⟩ fun _ => rfl
  have held : old.fields.find? field.name = some known := by
    simpa [Store.field?, found] using before
  refine ⟨rfl, { old with fields := old.fields.put field.name slot }, given, field, coming, ?_,
    (grows.declaredFields present).trans declared, rfl, finals _ known held fixed⟩
  rw [Store.object?_putField, found]
  simp

private theorem initializeDeclared (fields : List FieldDecl) {given coming : List FieldDecl} :
    Leads (growing (some object)) (·.store.Makes object given (fields ++ coming))
      (Run.initializeDeclared evaluate object owner fields)
      fun _ machine => machine.store.Makes object (given ++ fields) coming := by
  induction fields generalizing given with
  | nil =>
      refine .pure fun _ makes => ?_
      rwa [List.append_nil]
  | cons field rest ih =>
      have evaluated : Growing none (Run.valueOrNil evaluate field.initial) :=
        .valueOrNil fun expr _ => exprs expr
      refine Leads.bind evaluated.keepMakes fun value => ?_
      refine Leads.bind (writeDeclared object rfl) fun _ => ?_
      refine ih.weaken fun _ _ makes => ?_
      rwa [List.append_assoc] at makes

private theorem initializeOwn (given own coming : List FieldDecl) :
    Leads (growing (some object))
      (fun machine => machine.store.ownFields owner = own ∧
        machine.store.Makes object given (own ++ coming))
      (Run.initializeOwn evaluate object owner)
      fun _ machine => machine.store.Makes object (given ++ own) coming := by
  refine Leads.bind (.inspect _) fun found => ?_
  split
  · rename_i decl superclass methods closure
    let known (store : Store) : Prop := store.Makes object given (decl.fields ++ coming)
    let reached (store : Store) : Prop := store.Makes object (given ++ decl.fields) coming
    rintro machine ⟨held, same, makes⟩
    have declared : own = decl.fields := by rw [← same, Store.ownFields, ← held]
    subst declared
    refine (?_ : Leads _ (known ·.store) _ fun _ later => reached later.store) machine makes
    split
    · rename_i empty
      refine .pure fun later makes => ?_
      have begun : later.store.Makes object given (decl.fields ++ coming) := makes
      rw [List.isEmpty_iff.mp empty] at begun
      change later.store.Makes object (given ++ decl.fields) coming
      rwa [List.isEmpty_iff.mp empty, List.append_nil]
    · refine Growing.asOwner known reached _ ?_
      exact Leads.bind Growing.noteInitializing.keepMakes fun _ => within known reached _ _ _
        (fun _ _ grows makes => makes.grow grows)
          (initializeDeclared exprs object owner decl.fields)
  · refine .pure ?_
    rintro machine ⟨absent, same, makes⟩
    have nothing : own = [] := by rw [← same, Store.ownFields, ← absent]
    rw [nothing] at makes ⊢
    rwa [List.append_nil]

/-- The fields that some classes there are will give an object. -/
private def Coming (store : Store) (classes : List ClassRef) (coming : List FieldDecl) : Prop :=
  (∀ owner ∈ classes, (store.class? owner).isSome) ∧ coming = classes.flatMap store.ownFields

omit exprs in
private theorem Coming.grow {store after : Store} {classes : List ClassRef}
    {coming : List FieldDecl} (comes : Coming store classes coming)
    (grows : store.Grows making after) : Coming after classes coming := by
  obtain ⟨present, rfl⟩ := comes
  refine ⟨fun owner member => grows.class?_isSome (present owner member), ?_⟩
  rw [List.flatMap, List.flatMap, List.map_congr_left]
  exact fun owner member => (grows.ownFields (present owner member)).symm

private theorem initializeFields (classes : List ClassRef) (given coming : List FieldDecl) :
    Leads (growing (some object))
      (fun machine => Coming machine.store classes coming ∧ machine.store.Makes object given coming)
      (Run.initializeFields evaluate object classes) fun _ _ => True := by
  induction classes generalizing given coming with
  | nil => exact .pure fun _ _ => trivial
  | cons owner rest ih =>
      rintro machine ⟨⟨present, rfl⟩, makes⟩
      obtain ⟨_, others⟩ := List.forall_mem_cons.mp present
      rw [List.flatMap_cons] at makes
      let further := rest.flatMap machine.store.ownFields
      have first := Leads.keep (fun later => Coming later.store rest further)
        (initializeOwn exprs object owner given (machine.store.ownFields owner) further)
        fun _ _ grows comes => comes.grow grows.store
      exact (Leads.bind first fun _ => ih _ further) machine ⟨⟨others, rfl⟩, rfl, makes⟩

omit exprs in
/-- A reference that is no class gives an object nothing. -/
private theorem initializeNothing :
    Leads (growing making) (fun machine => machine.store.class? owner = none)
      (Run.initializeFields evaluate object [owner]) fun _ _ => True := by
  refine Leads.through (fun _ _ => True) (Leads.bind (.inspect _) fun found => ?_)
    fun _ => .pure fun _ _ => trivial
  split
  · rintro machine ⟨held, absent⟩
    cases held.trans absent
  · exact .pure fun _ _ => trivial

/-- A new object gets the fields of its lineage. -/
private theorem initializeNew (ofClass : ClassRef) (lineage : List ClassRef) (store : Store) :
    Leads (growing (some (store.newObject ofClass).1))
      (fun later => lineage = later.store.lineage ofClass ∧
        later.store = (store.newObject ofClass).2)
      (Run.initializeFields evaluate (store.newObject ofClass).1 lineage.reverse)
      fun _ _ => True := by
  cases found : store.class? ofClass with
  | none =>
      rintro later ⟨same, unchanged⟩
      have absent : later.store.class? ofClass = none := by
        rw [unchanged]
        exact found
      have alone : lineage = [ofClass] :=
        same.trans (Store.lineage_of_root (by simp [Store.superclass?, absent]))
      subst alone
      exact initializeNothing _ ofClass later absent
  | some known =>
      rintro later ⟨rfl, same⟩
      refine initializeFields exprs _ (later.store.lineage ofClass).reverse []
        ((later.store.lineage ofClass).reverse.flatMap store.ownFields) later ?_
      have grows : store.Grows none later.store := by
        rw [same]
        exact .newObject _ _
      have present : (store.class? ofClass).isSome := by simp [found]
      have comes : Coming store (store.lineage ofClass).reverse
          ((store.lineage ofClass).reverse.flatMap store.ownFields) :=
        ⟨fun owner member => Store.class?_lineage present owner (List.mem_reverse.mp member), rfl⟩
      rw [grows.lineage present]
      refine ⟨comes.grow grows, ⟨ofClass, []⟩, ?_, grows.class?_isSome present,
        grows.declaredFields present, fun _ _ held => by cases held⟩
      rw [same]
      simp [Store.object?, Store.newObject]

end Initializing

private theorem Ends.of_fresh {β : Type} {machine : Machine} {ref : ObjectRef}
    {after : β → Machine → Prop} {result : EStateM.Result RunStop Machine β}
    (ended : Ends (growing (some ref)) machine after result)
    (fresh : machine.store.object? ref = none) : Ends (growing none) machine after result := by
  cases result with
  | ok value later => exact ⟨Machine.Advances.of_fresh ended.1 fresh, ended.2⟩
  | error stop later => exact Machine.Advances.of_fresh ended fresh

/-- Making an instance grows the machine, since the object that gets its fields is a new one. -/
protected theorem instantiate {evaluate : Expr → Run Value}
    {runBody : List Statement → Run Completion} (exprs : ∀ expr, Growing none (evaluate expr))
    (bodies : ∀ body, Growing none (runBody body)) (ofClass : ClassRef) (arguments : List Value)
    (location : Location) :
    Growing none (Run.instantiate setting evaluate runBody ofClass arguments location) := by
  intro machine _
  have whole : Leads (growing (some (machine.store.newObject ofClass).1))
      (fun later => later = machine)
      (Run.instantiate setting evaluate runBody ofClass arguments location) fun _ _ => True := by
    have created : Leads (growing (some (machine.store.newObject ofClass).1))
        (fun later => later = machine) (Run.create (·.newObject ofClass))
        fun object later => object = (machine.store.newObject ofClass).1 ∧
          later.store = (machine.store.newObject ofClass).2 := by
      rintro later rfl
      exact ⟨⟨⟨.newObject _ _, Nat.le_refl _, [], rfl, trivial,
        later.store.field?_newObject ofClass⟩, fun _ _ _ => rfl⟩, rfl, rfl⟩
    refine Leads.bind created fun object => .assuming fun same => ?_
    subst same
    refine Leads.bind (.inspect _) fun lineage =>
      Leads.bind (initializeNew exprs ofClass lineage machine.store) fun _ =>
        Leads.bind (.inspect _) fun method => ?_
    split
    · refine Leads.strengthen (?_ : Growing _ _) fun _ _ => trivial
      refine bind (.bindMethod _ _) fun constructor => ?_
      exact bind (Growing.quiet (.callFunction bodies _ _ _)) fun _ => .pure _
    · split
      · exact Leads.pure fun _ _ => trivial
      · exact Leads.fail _ _
  exact Ends.of_fresh (whole machine rfl) (Array.getElem?_eq_none (Nat.le_refl _))

/-- The declaration of a function grows the machine. -/
protected theorem declareFunction (decl : FunctionDecl) :
    Growing making (Run.declareFunction decl) :=
  Leads.bind .get fun _ => Leads.strengthen
    (bind (.newFunction _) fun _ => .define _ _ _ : Growing _ _) fun _ _ => trivial

/-- Looking for a superclass grows the machine. -/
protected theorem superclassOf (className : String) (reference : SuperclassRef) :
    Growing making (Run.superclassOf setting className reference) := by
  refine bind (.lookup _ _ _) fun value => ?_
  split
  · refine bind (.inspect _) fun object => ?_
    split
    · split
      · exact Leads.fail _ _
      · exact .pure _
    · exact Leads.fail _ _
  · exact Leads.fail _ _

/-- The declaration of a class grows the machine. -/
protected theorem declareClass (decl : ClassDecl) :
    Growing making (Run.declareClass setting decl) := by
  have superclass : Growing making (Run.declaredSuperclass setting decl) := by
    unfold Run.declaredSuperclass
    split
    · exact bind (.superclassOf _ _) fun _ => .pure _
    · exact .pure _
  have closure (superclass : Option ClassRef) : Growing making
    (Run.classClosure decl superclass) := by
    refine Leads.bind .get fun machine => Leads.strengthen (?_ : Growing _ _) fun _ _ => trivial
    dsimp only
    split
    · exact .newScope _ _ _
    · exact .pure _
  exact bind superclass fun _ => bind (closure _) fun _ => bind (.inspect _) fun _ =>
    bind (.newClass _) fun _ => .define _ _ _

/-- An extension of a class grows the machine. -/
protected theorem declareExtension (id : NodeId) (className : String) (decl : FunctionDecl)
    (location : Location) :
    Growing making (Run.declareExtension setting id className decl location) := by
  refine bind (.lookup _ _ _) fun value => ?_
  split
  · refine bind (.inspect _) fun object => ?_
    split
    · split
      · exact Leads.fail _ _
      · exact Leads.bind .get fun _ => (Growing.addMethod _ _ _).strengthen fun _ _ => trivial
    · exact Leads.fail _ _
  · exact Leads.fail _ _

/-- An evaluation that is noted grows the machine if it does so without the note. -/
protected theorem noting (expr : Expr) {step : Run Value} (inside : Growing making step) :
    Growing making (Run.noting expr step) := by
  refine .of fun machine => ?_
  have grown := inside.advances machine
  unfold Run.noting
  dsimp only
  cases result : step machine with
  | ok value later =>
      rw [result] at grown
      exact { grown with }
  | error stop later =>
      rw [result] at grown
      exact { grown with }

end Growing

/-- Growth is a lawful regime: it holds of every operation. -/
theorem lawful_growth (setting : Setting) : growth.Lawful setting where
  keep _ _ := trivial
  inside _ _ := trivial
  exhausted {_ machine} _ := Machine.Advances.refl machine
  alike alike := .of_store (.of_eq alike.functions alike.classes alike.objects) alike.objects
    alike.fieldUses (Nat.le_of_eq alike.initDepth.symm)
  assign id name value location := Growing.assign id name value location
  property target name location := Growing.property target name location
  setProperty target name value location := Growing.setProperty target name value location
  superMethod id method location := Growing.superMethod id method location
  callFunction arguments location _ permitted :=
    (Growing.callFunction permitted.executeAll _ arguments location).strengthen fun _ _ => trivial
  instantiate ofClass arguments location _ permitted :=
    Growing.instantiate permitted.evaluate permitted.executeAll ofClass arguments location
  noting _ inside := Growing.noting _ inside
  define name value isFinal := Growing.define name value isFinal
  opened _ permitted machine := Leads.strengthen
    (Growing.within (fun _ => True) (fun _ => True) machine.env _ []
      (fun _ _ _ holds => holds) (permitted.executeAll _)) fun _ _ => trivial
  function decl := Growing.declareFunction decl
  classDecl decl := Growing.declareClass decl
  extension id className decl location := Growing.declareExtension id className decl location

/-- A run of a program grows the machine it begins on. -/
theorem grows_interpret (setting : Setting) (program : Program) (machine : Machine) :
    machine.Grows none (machineAfter (interpret setting program machine)) := by
  have growing : Growing none (interpret setting program) :=
    ((lawful_growth setting).interpretBy depthBound program).strengthen fun _ _ _ _ => trivial
  exact (growing.advances machine).toGrows

end Run

end Scriptlet
