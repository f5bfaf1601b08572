import Scriptlet.Proofs.Run.History
import Scriptlet.Proofs.Run.Housing

/-!
# The regime of owners

Wherever code of a tidy machine runs, it runs as code of the class it stands in (`Run.tidiness`),
and the machine stays tidy (`tidies_interpret`).
-/

namespace Scriptlet

/-- A sealed scope binds no name that may be assigned to. -/
theorem Store.Tidy.unsealed {store : Store} {globals ref : ScopeRef} {name : String}
    (tidy : store.Tidy globals) (allowed : store.checkAssign ref name = .ok ()) :
    ∀ scope, store.scope? ref = some scope → scope.tag.isSealed = false := by
  intro scope found
  have marked := mark_of_checkAssign allowed found
  have single {key : String} {value : Value} (held : scope.bindings = [(key, ⟨value, true⟩)]) :
      False := by
    rw [Scope.mark, held, Table.find?] at marked
    split at marked <;> cases marked
  have holds := tidy.scopes ref scope found
  unfold Scope.Tidy at holds
  cases tag : scope.tag with
  | thisOf decl =>
      rw [tag] at holds
      obtain ⟨⟨value, held⟩, _⟩ := holds
      exact (single held).elim
  | extensionThis id decl =>
      rw [tag] at holds
      obtain ⟨value, held⟩ := holds
      exact (single held).elim
  | superOf decl =>
      rw [tag] at holds
      obtain ⟨superclass, held⟩ := holds
      exact (single held).elim
  | globals | block | test | body => rfl

namespace Run

variable {setting : Setting} {globals : ScopeRef} {inner : Routines}

/-- The code that stands in the scope of the machine is code of its owner. -/
def Housed (globals : ScopeRef) (machine : Machine) : Prop :=
  machine.store.Houses globals machine.env machine.owner

private theorem Housed.of_lasts {machine later : Machine} (housed : Housed globals machine)
    (env : later.env = machine.env) (owners : later.owners = machine.owners)
    (lasts : machine.store.Lasts later.store) : Housed globals later := by
  have owner : later.owner = machine.owner := by rw [Machine.owner, Machine.owner, owners]
  unfold Housed
  rw [env, owner]
  exact lasts.houses housed

namespace Tidily

variable {before : Machine → Prop}

/-- A step that comes back leaves code housed. -/
theorem housed {α : Type} {step : Run α} {after : α → Machine → Prop}
    (tidily : Tidily setting globals before step after) :
    Tidily setting globals (fun machine => Housed globals machine ∧ before machine) step
      fun value machine => Housed globals machine ∧ after value machine :=
  tidily.keep (Housed globals) fun _ _ env owners lasts housed => housed.of_lasts env owners lasts

/-- Assigning to a name keeps a machine tidy. -/
protected theorem assign (id : NodeId) (name : String) (value : Value) (location : Location) :
    Tidily setting globals before (Run.assign setting id name value location) fun _ _ => True := by
  rintro machine ⟨tidy, _⟩
  rw [assign_eq]
  cases targeted : assignTarget setting ⟨id, name, machine.env⟩ machine.store with
  | ok target =>
      have unsealed := tidy.store.unsealed (checkAssign_of_assignTarget targeted)
      exact ⟨.of_store rfl rfl (List.subset_cons_self _ _) (.define unsealed name value false)
        (tidy.store.define unsealed name value false) (.define rfl unsealed) rfl rfl, trivial⟩
  | error fault =>
      exact .of_store rfl rfl (List.subset_cons_self _ _) (.refl _) tidy.store
        (.of_scopes_eq rfl) rfl rfl

/-- A private field is open to code of its owner only. -/
protected theorem checkAccess (slot : FieldSlot) (name : String) (location : Location) :
    Tidily setting globals before (Run.checkAccess slot name location)
      fun _ machine => (slot.visibility = .ownClass → machine.owner = some slot.owner) ∧
        before machine := by
  refine bind .get fun machine => ?_
  split
  · exact .fail _ _
  · rename_i permitted
    refine .pure ?_
    rintro _ ⟨rfl, holds⟩
    refine ⟨fun ownClass => ?_, holds⟩
    simpa [ownClass] using permitted

/-- The use of a field may be noted where its owner permits it. -/
protected theorem noteField (object : ObjectRef) (name : String) (slot : FieldSlot)
    (kind : FieldUseKind) :
    Tidily setting globals
      (fun machine => Housed globals machine ∧ slot.Tidy machine.store name ∧
        (kind ≠ .declared → slot.visibility = .ownClass → machine.owner = some slot.owner) ∧
        (kind = .declared → machine.store.HasReceiver machine.env object))
      (Run.noteField object name slot kind) fun _ _ => True := by
  rintro machine ⟨tidy, housed, made, permitted, receiver⟩
  refine ⟨⟨rfl, rfl, List.Subset.refl _,
    fun _ => ⟨⟨tidy.store, fun use member => ?_, tidy.evaluations⟩, .refl _⟩,
    fun _ => .of_scopes_eq rfl⟩, trivial⟩
  rcases List.mem_cons.mp member with rfl | earlier
  · exact ⟨housed, made, permitted, receiver⟩
  · exact tidy.fieldUses use earlier

/-- Setting a field is noted with the owner of the code, and with its receiver where an initialiser
does it. -/
protected theorem writeField (object : ObjectRef) (name : String) (slot : FieldSlot)
    (kind : FieldUseKind) :
    Tidily setting globals
      (fun machine => Housed globals machine ∧ slot.Tidy machine.store name ∧
        (kind ≠ .declared → slot.visibility = .ownClass → machine.owner = some slot.owner) ∧
        (kind = .declared → machine.store.HasReceiver machine.env object))
      (Run.writeField object name slot kind) fun _ _ => True := by
  rintro machine ⟨tidy, housed, made, permitted, receiver⟩
  have lasts : machine.store.Lasts (machine.store.putField object name slot) :=
    .putField machine.store object name slot
  have put : machine.Tidies setting globals
      { machine with store := machine.store.putField object name slot } :=
    .of_store rfl rfl (List.Subset.refl _) lasts (tidy.store.putField made) (.of_scopes_eq rfl)
      rfl rfl
  obtain ⟨noted, _⟩ := Tidily.noteField object name slot kind
    { machine with store := machine.store.putField object name slot }
    ⟨(put.tidy tidy).1, housed.of_lasts rfl rfl lasts, made.last lasts, permitted,
      fun declared => (receiver declared).last lasts⟩
  exact ⟨put.trans noted, trivial⟩

/-- Reading a property keeps a machine tidy, since it uses a private field as code of the owner of
the field only. -/
protected theorem property (target : Value) (name : String) (location : Location) :
    Tidily setting globals (Housed globals) (Run.property target name location)
      fun _ _ => True := by
  unfold Run.property
  split
  · rename_i ref
    refine bind .get fun machine => ?_
    dsimp only
    split
    · rename_i slot found
      refine bind (.checkAccess slot name location) fun _ => through (fun _ _ => True) ?_
        fun _ => .pure fun _ _ => trivial
      refine (Tidily.noteField ref name slot .read).strengthen ?_
      rintro _ tidy ⟨permitted, rfl, housed⟩
      exact ⟨housed, tidy.store.fields ref name slot found, fun _ => permitted, nofun⟩
    · split
      · rename_i method found
        refine (Tidily.boundMethod method _).strengthen ?_
        rintro _ tidy ⟨rfl, _⟩
        obtain ⟨object, held, inherited⟩ := Option.bind_eq_some_iff.mp found
        exact ⟨tidy.store.method? inherited, fun _ =>
          .inl ⟨ref, rfl, object, held, tidy.store.ownedBy inherited _⟩⟩
      · exact .fail _ _
  · refine bind (.inspect _) fun native => ?_
    split
    · split
      · exact .pure fun _ _ => trivial
      · exact .fail _ _
    · exact .fail _ _
  · split
    · exact bind (.inspect _) fun _ => .pure fun _ _ => trivial
    · exact .fail _ _
  · split
    · exact .pure fun _ _ => trivial
    · exact .fail _ _
  · exact .fail _ _

/-- Setting a property keeps a machine tidy, since it uses a private field as code of the owner of
the field only. -/
protected theorem setProperty (target : Value) (name : String) (value : Value)
    (location : Location) :
    Tidily setting globals (Housed globals) (Run.setProperty target name value location)
      fun _ _ => True := by
  unfold Run.setProperty
  split
  · rename_i ref
    refine bind (.inspect _) fun object => ?_
    split
    · rename_i object
      unfold Run.setField
      split
      · rename_i slot held
        refine bind (.checkAccess slot name location) fun _ => ?_
        split
        · exact .fail _ _
        · refine (Tidily.writeField ref name { slot with value := value, assigned := true }
            .assigned).strengthen ?_
          rintro machine tidy ⟨permitted, found, housed⟩
          have known : machine.store.field? ref name = some slot := by
            simp [Store.field?, ← found, held]
          exact ⟨housed, (tidy.store.fields ref name slot known).assign value,
            fun _ => permitted, fun initial => (by cases initial)⟩
      · refine (Tidily.writeField ref name ⟨value, .everyone, false, true, object.ofClass⟩
          .assigned).strengthen ?_
        rintro machine _ ⟨_, housed⟩
        exact ⟨housed, .inl ⟨rfl, rfl⟩, fun _ private_ => (by cases private_),
          fun initial => (by cases initial)⟩
    · exact .fail _ _
  · exact .fail _ _

/-- Looking for a method of the superclass keeps a machine tidy. -/
protected theorem superMethod (id : NodeId) (method : String) (location : Location) :
    Tidily setting globals before (Run.superMethod setting id method location)
      fun _ _ => True := by
  refine bind (.noteUse id "super") fun use => bind .get fun machine => ?_
  dsimp only
  split
  · rename_i distance recorded
    split
    · rename_i superclass receiver built received
      split
      · rename_i found
        refine (Tidily.boundMethod _ _).strengthen ?_
        rintro _ tidy ⟨rfl, noted, rfl, named⟩
        exact ⟨tidy.store.method? found, fun _ => .inr ⟨use, noted, named, distance, superclass,
          recorded, tidy.store.finds received, tidy.store.finds built,
          tidy.store.ownedBy found _⟩⟩
      · exact .fail _ _
    · exact .fail _ _
  · exact .fail _ _

/-- What a call makes of the end of its body keeps a machine tidy. -/
protected theorem callResult (function : FunctionObject) (completion : Completion)
    (location : Location) :
    Tidily setting globals before (Run.callResult function completion location)
      fun _ _ => True := by
  unfold Run.callResult
  have answered (value : Value) : Tidily setting globals before
      (if function.decl.kind = .constructor then
        return ((← inspect (·.valueIn? function.closure "this"))).getD .nil
      else return value : Run Value) fun _ _ => True := by
    split
    · exact bind (.inspect _) fun _ => .pure fun _ _ => trivial
    · exact .pure fun _ _ => trivial
  cases completion with
  | normal => exact answered _
  | returning value => exact answered value
  | breaking => exact .fail _ _
  | continuing => exact .fail _ _

/-- The body of a function is code of the owner of the function. -/
protected theorem callFunction {runBody : List Statement → Run Completion}
    {function : FunctionObject} (body : Tidily setting globals
      (Opened globals (.body function.decl))
      (runBody function.decl.body) fun _ _ => True)
    (arguments : List Value) (location : Location) :
    Tidily setting globals
      (fun machine => machine.store.Houses globals function.closure function.owner)
      (Run.callFunction setting runBody function arguments location) fun _ _ => True := by
  unfold Run.callFunction
  extract_lets arity
  split
  · exact .fail _ _
  · refine bind .get fun machine => ?_
    split
    · exact .fail _ _
    · have ran := within (fun _ => True) (fun _ _ _ holds => holds) function.closure
        (.body function.decl) (bindParams function.decl.params arguments)
        (body.strengthen fun _ _ holds => holds.2.1)
      refine bind ((asOwner function.owner (inCall ran)).strengthen ?_) fun completion =>
        .callResult function completion location
      rintro later _ ⟨_, houses⟩
      exact ⟨trivial, trivial, houses, nofun⟩

section Initializing

variable {evaluate : Expr → Run Value} (exprs : ∀ expr, Tidily setting globals (Housed globals)
  (evaluate expr) fun _ _ => True)
include exprs

/-- The initialisers of a class give their receiver the fields the class declares. -/
protected theorem initializeDeclared (object : ObjectRef) (owner : ClassRef) (decl : ClassDecl)
    {fields : List FieldDecl} (members : ∀ field ∈ fields, field ∈ decl.fields) :
    Tidily setting globals
      (fun machine => machine.store.Owns (some owner) (some decl) ∧
        machine.store.HasReceiver machine.env object ∧ Housed globals machine)
      (Run.initializeDeclared evaluate object owner fields) fun _ _ => True := by
  induction fields with
  | nil => exact .pure fun _ _ => trivial
  | cons field rest ih =>
      obtain ⟨member, others⟩ := List.forall_mem_cons.mp members
      let ready (machine : Machine) : Prop := machine.store.Owns (some owner) (some decl) ∧
        machine.store.HasReceiver machine.env object ∧ Housed globals machine
      have keepReady {β : Type} {step : Run β} {before : Machine → Prop}
          {after : β → Machine → Prop} (tidily : Tidily setting globals before step after) :=
        tidily.keep ready fun machine later env owners lasts holds =>
          ⟨lasts.owns holds.1, env ▸ holds.2.1.last lasts, holds.2.2.of_lasts env owners lasts⟩
      have evaluated : Tidily setting globals (Housed globals)
          (Run.valueOrNil evaluate field.initial) fun _ _ => True := by
        cases field.initial with
        | some expr => exact exprs expr
        | none => exact .pure fun _ _ => trivial
      refine bind ((keepReady evaluated).strengthen fun _ _ holds => ⟨holds, holds.2.2⟩)
        fun value => ?_
      refine through (fun _ => ready) ?_ fun _ => ih others
      refine (keepReady (Tidily.writeField object field.name
        ⟨value, field.visibility, field.isFinal, field.initial.isSome, owner⟩ .declared)).mono
        ?_ fun _ _ reached => reached.1
      rintro machine _ ⟨holds, _⟩
      obtain ⟨owns, receiver, housed⟩ := holds
      refine ⟨⟨owns, receiver, housed⟩, housed, .inr ?_, nofun, fun _ => receiver⟩
      cases owns with
      | some found => exact ⟨_, field, found, member, rfl, rfl, rfl, id⟩

omit exprs in
private theorem noteInitializing :
    Tidily setting globals before Run.noteInitializing fun _ _ => True :=
  fun _ ⟨tidy, _⟩ => ⟨⟨rfl, rfl, List.Subset.refl _, fun _ =>
    ⟨⟨tidy.store, tidy.fieldUses, tidy.evaluations⟩, .refl _⟩, fun _ => .of_scopes_eq rfl⟩, trivial⟩

/-- The initialisers of a class are code of the class, and have the object as their receiver. -/
protected theorem initializeOwn (object : ObjectRef) (owner : ClassRef) :
    Tidily setting globals (fun machine => machine.store.IsOf object owner)
      (Run.initializeOwn evaluate object owner) fun _ _ => True := by
  refine bind (.inspect _) fun found => ?_
  split
  · rename_i decl superclass methods closure
    split
    · exact .pure fun _ _ => trivial
    · let scope : Scope := ⟨[("this", ⟨.object object, true⟩)], some closure, .thisOf decl⟩
      have initialized : Tidily setting globals
          (fun machine => machine.store.Owns (some owner) (some decl) ∧
            machine.store.Serves scope object ∧
            Opened globals (.thisOf decl) machine ∧ machine.store.scope? machine.env = some scope)
          (Run.initializeDeclared evaluate object owner decl.fields) fun _ _ => True :=
        (Tidily.initializeDeclared exprs object owner decl fun _ member => member).strengthen
          fun _ _ holds => ⟨holds.1, ⟨scope, holds.2.2.2, rfl, holds.2.1⟩, holds.2.2.1.1⟩
      let ready (machine : Machine) : Prop := machine.store.Owns (some owner) (some decl) ∧
        machine.store.Serves scope object ∧ scope.Tidy machine.store ∧
        machine.store.Lodges globals closure (.thisOf decl) machine.owner
      have stays (machine later : Machine) (_ : later.env = machine.env)
          (owners : later.owners = machine.owners) (lasts : machine.store.Lasts later.store) :
          ready machine → ready later := by
        rintro ⟨owns, serves, scope, lodges⟩
        have owner : later.owner = machine.owner := by rw [Machine.owner, Machine.owner, owners]
        exact ⟨lasts.owns owns, serves.last lasts, scope.last lasts, owner ▸ lodges.last lasts⟩
      have opened := within
        (fun store => store.Owns (some owner) (some decl) ∧ store.Serves scope object)
        (fun _ _ lasts holds => ⟨lasts.owns holds.1, holds.2.last lasts⟩)
        closure (.thisOf decl) [("this", ⟨.object object, true⟩)]
        (initialized.strengthen fun _ _ holds => ⟨holds.1.1, holds.1.2, holds.2⟩)
      have noted : Tidily setting globals (fun _ => True) Run.noteInitializing fun _ _ => True :=
        noteInitializing
      refine (asOwner (some owner) (bind (noted.keep ready stays) fun _ =>
        opened.strengthen fun _ _ holds => ?_)).strengthen ?_
      · obtain ⟨⟨owns, serves, scope, lodges⟩, _⟩ := holds
        exact ⟨⟨owns, serves⟩, scope, lodges, fun _ => .inl ⟨object, serves⟩⟩
      · rintro machine tidy ⟨found, instance_, held, member⟩
        obtain ⟨tags, chain⟩ := (tidy.store.classes owner _ found.symm).closure
        have owns : machine.store.Owns (some owner) (some decl) := .some found.symm
        have serves : machine.store.Serves scope object := by
          refine ⟨rfl, instance_, held, fun other tag => ?_⟩
          cases tag
          exact ⟨owner, member, _, found.symm, rfl, rfl⟩
        exact ⟨⟨owns, serves, ⟨⟨_, rfl⟩, owner, _, found.symm, rfl, rfl⟩,
          tags, chain, owns⟩, trivial⟩
  · exact .pure fun _ _ => trivial

/-- Giving an object the fields of its classes runs each initialiser with the object as its
receiver. -/
protected theorem initializeFields (object : ObjectRef) {classes : List ClassRef} :
    Tidily setting globals (fun machine => ∀ owner ∈ classes, machine.store.IsOf object owner)
      (Run.initializeFields evaluate object classes) fun _ _ => True := by
  induction classes with
  | nil => exact .pure fun _ _ => trivial
  | cons owner rest ih =>
      refine through (fun _ machine => ∀ other ∈ rest, machine.store.IsOf object other) ?_
        fun _ => ih
      refine ((Tidily.initializeOwn exprs object owner).keep
        (fun machine => ∀ other ∈ rest, machine.store.IsOf object other)
        fun _ _ _ _ lasts holds other member => (holds other member).last lasts).mono ?_
        fun _ _ holds => holds.1
      intro machine _ holds
      obtain ⟨head, others⟩ := List.forall_mem_cons.mp holds
      exact ⟨others, head⟩

end Initializing

/-- A constructor is code of the class that declares it, and has the new object as its
receiver. -/
protected theorem instantiate {evaluate : Expr → Run Value}
    {runBody : List Statement → Run Completion}
    (exprs : ∀ expr, Tidily setting globals (Housed globals) (evaluate expr) fun _ _ => True)
    (bodies : ∀ decl, Tidily setting globals (Opened globals (.body decl)) (runBody decl.body)
      fun _ _ => True)
    (ofClass : ClassRef) (arguments : List Value) (location : Location) :
    Tidily setting globals before
      (Run.instantiate setting evaluate runBody ofClass arguments location) fun _ _ => True := by
  let made (object : ObjectRef) (machine : Machine) : Prop :=
    ∃ held, machine.store.object? object = some held ∧ held.ofClass = ofClass
  have stays (object : ObjectRef) (machine later : Machine) (_ : later.env = machine.env)
      (_ : later.owners = machine.owners) (lasts : machine.store.Lasts later.store) :
      made object machine → made object later := by
    rintro ⟨held, found, same⟩
    obtain ⟨after, foundAfter, ofSame⟩ := lasts.objects object held found
    exact ⟨after, foundAfter, ofSame.trans same⟩
  have created : Tidily setting globals before (Run.create (·.newObject ofClass)) made :=
    .create (fun _ _ _ => .of_scopes_eq (.newObject _ _) rfl)
      (fun _ _ tidy => tidy.newObject ofClass) (fun _ _ => .of_scopes_eq rfl)
      fun _ _ _ => ⟨_, Array.getElem?_push_size, rfl⟩
  refine bind created fun object => bind (.inspect _) fun lineage =>
    through (fun _ => made object) ?_ fun _ => bind (.inspect _) fun found => ?_
  · refine ((Tidily.initializeFields exprs object).keep (made object) (stays object)).mono ?_
      fun _ _ holds => holds.1
    rintro machine _ ⟨rfl, held, known, rfl⟩
    exact ⟨⟨held, known, rfl⟩, fun owner member => ⟨held, known, List.mem_reverse.mp member⟩⟩
  · split
    · rename_i method
      refine through (fun function machine =>
        machine.store.Houses globals function.closure function.owner)
        ((Tidily.bindMethod method _).strengthen ?_) fun function =>
          bind (.callFunction (bodies function.decl) arguments location) fun _ =>
            .pure fun _ _ => trivial
      rintro _ tidy ⟨inherited, held, known, rfl⟩
      exact ⟨tidy.store.method? inherited.symm, fun _ =>
        .inl ⟨object, rfl, held, known, tidy.store.ownedBy inherited.symm _⟩⟩
    · split
      · exact .pure fun _ _ => trivial
      · exact .fail _ _

end Tidily

/-- Where statements run: code of the owner, in a scope that is not sealed. -/
def Settled (globals : ScopeRef) (machine : Machine) : Prop :=
  Housed globals machine ∧
    ∀ scope, machine.store.scope? machine.env = some scope → scope.tag.isSealed = false

private theorem Settled.of_lasts {machine later : Machine} (settled : Settled globals machine)
    (env : later.env = machine.env) (owners : later.owners = machine.owners)
    (lasts : machine.store.Lasts later.store) : Settled globals later := by
  refine ⟨settled.1.of_lasts env owners lasts, fun scope found => ?_⟩
  obtain ⟨tags, chain, _⟩ := settled.1
  obtain ⟨actual, held⟩ : ∃ actual, machine.store.scope? machine.env = some actual := by
    cases chain with
    | outermost found => exact ⟨_, found⟩
    | inner found => exact ⟨_, found⟩
  obtain ⟨same, foundLater, _, tag, _⟩ := lasts.scopes _ actual held
  rw [env] at found
  cases found.symm.trans foundLater
  rw [tag]
  exact settled.2 actual held

/-- A construct that is not sealed opens a scope for statements. -/
theorem Opened.settled {machine : Machine} {tag : ScopeTag} (opened : Opened globals tag machine)
    (unsealed : tag.isSealed = false) : Settled globals machine :=
  ⟨opened.1, fun scope found => by rw [opened.2 scope found, unsealed]⟩

namespace Tidily

variable {α : Type} {before : Machine → Prop} {step : Run α} {after : α → Machine → Prop}

/-- A step that comes back leaves statements settled. -/
theorem settled (tidily : Tidily setting globals before step after) :
    Tidily setting globals (fun machine => Settled globals machine ∧ before machine) step
      fun value machine => Settled globals machine ∧ after value machine :=
  tidily.keep (Settled globals) fun _ _ env owners lasts settled =>
    settled.of_lasts env owners lasts

/-- Code that stands in a scope that is not sealed may bind names there. -/
protected theorem define (name : String) (value : Value) (isFinal : Bool) :
    Tidily setting globals (Settled globals) (Run.define name value isFinal) fun _ _ => True :=
  fun _ ⟨tidy, _, unsealed⟩ => ⟨.of_store rfl rfl (List.Subset.refl _)
    (.define unsealed name value isFinal) (tidy.store.define unsealed name value isFinal)
    (.define rfl unsealed) rfl rfl, trivial⟩

/-- A function is code of the class it is declared in. -/
protected theorem declareFunction (decl : FunctionDecl) :
    Tidily setting globals (Settled globals) (Run.declareFunction decl) fun _ _ => True := by
  refine bind .get fun machine => ?_
  refine through (fun _ => Settled globals) ?_ fun ref => .define _ _ _
  refine (Tidily.newFunction ⟨decl, machine.env, machine.owner⟩).settled.mono ?_
    fun _ _ holds => holds.1
  rintro later _ ⟨rfl, settled⟩
  exact ⟨settled, settled.1⟩

/-- The class a declaration builds on is a class, if the declaration names one. -/
def Above (decl : ClassDecl) (superclass : Option ClassRef) (store : Store) : Prop :=
  match superclass with
  | none => decl.superclass = none
  | some superclass => decl.superclass.isSome ∧ (store.class? superclass).isSome

/-- What is found as a superclass is a class. -/
protected theorem superclassOf (className : String) (reference : SuperclassRef) :
    Tidily setting globals before (Run.superclassOf setting className reference)
      fun superclass machine => (machine.store.class? superclass).isSome := by
  refine bind (.lookup _ _ _) fun value => ?_
  split
  · refine bind (.inspect _) fun object => ?_
    split
    · split
      · exact .fail _ _
      · refine .pure ?_
        rintro machine ⟨found, _⟩
        rw [← found]
        rfl
    · exact .fail _ _
  · exact .fail _ _

/-- What is found for a declaration is the class that the declaration builds on. -/
protected theorem declaredSuperclass (decl : ClassDecl) :
    Tidily setting globals before (Run.declaredSuperclass setting decl)
      fun superclass machine => Above decl superclass machine.store := by
  unfold Run.declaredSuperclass
  split
  · rename_i reference named
    refine bind (.superclassOf _ reference) fun superclass => .pure fun _ found => ?_
    exact ⟨by rw [named]; rfl, found⟩
  · rename_i unnamed
    exact .pure fun _ _ => unnamed

/-- The scope the code of a class closes over, with the class it builds on. -/
def Enclosing (globals : ScopeRef) (decl : ClassDecl) (superclass : Option ClassRef)
    (closure : ScopeRef) (store : Store) : Prop :=
  Above decl superclass store ∧ (∃ tags, store.Chain globals closure tags) ∧
    ∀ ref, superclass = some ref → ∃ around, store.scope? closure =
      some ⟨[("super", ⟨.classValue ref, true⟩)], some around, .superOf decl⟩

/-- The scope that a class closes over holds the superclass that was found. -/
protected theorem classClosure (decl : ClassDecl) (superclass : Option ClassRef) :
    Tidily setting globals
      (fun machine => Settled globals machine ∧ Above decl superclass machine.store)
      (Run.classClosure decl superclass)
      fun closure machine => Settled globals machine ∧
        Enclosing globals decl superclass closure machine.store := by
  refine bind .get fun machine => ?_
  dsimp only
  cases superclass with
  | none =>
      refine .pure ?_
      rintro _ ⟨rfl, settled, unnamed⟩
      obtain ⟨tags, chain, _⟩ := settled.1
      exact ⟨settled, unnamed, ⟨tags, chain⟩, nofun⟩
  | some ref =>
      have made : Tidily setting globals
          (fun later => machine = later ∧ Settled globals later ∧ Above decl (some ref) later.store)
          (Run.create (·.newScope (some machine.env) (.superOf decl)
            [("super", ⟨.classValue ref, true⟩)]))
          fun closure later => Enclosing globals decl (some ref) closure later.store := by
        refine .create (fun _ _ _ => .newScope _ _ _ _) (fun _ _ tidy => tidy.newScope ⟨ref, rfl⟩)
          (fun _ _ => .newScope rfl (List.Subset.refl _) fun held => ?_) ?_
        · simp [ScopeTag.held?] at held
        · rintro _ ⟨rfl, settled, named, present⟩ _
          obtain ⟨tags, chain, _⟩ := settled.1
          refine ⟨⟨named, present⟩, ⟨_, chain.push _ _⟩, fun same held => ?_⟩
          cases held
          exact ⟨machine.env, Array.getElem?_push_size⟩
      refine made.settled.strengthen ?_
      rintro later _ ⟨same, settled, above⟩
      exact ⟨settled, same, settled, above⟩

/-- A class is made of the methods it declares. -/
protected theorem declareClass (decl : ClassDecl) :
    Tidily setting globals (Settled globals) (Run.declareClass setting decl) fun _ _ => True := by
  have above : Tidily setting globals (fun _ => True) (Run.declaredSuperclass setting decl)
      fun superclass machine => Above decl superclass machine.store := .declaredSuperclass decl
  refine bind (above.settled.strengthen fun _ _ settled => ⟨settled, trivial⟩) fun superclass => ?_
  refine bind (.classClosure decl superclass) fun closure => bind (.inspect _) fun owner => ?_
  refine through (fun _ => Settled globals) ?_ fun ref => .define _ _ _
  let ready (machine : Machine) : Prop := owner = ⟨machine.store.classes.size⟩ ∧
    Enclosing globals decl superclass closure machine.store
  suffices made : Tidily setting globals ready (Run.create (·.newClass
      ⟨decl, superclass, classMethods decl owner closure, closure⟩)) fun _ _ => True from
    made.settled.mono (fun _ _ holds => ⟨holds.2.1, holds.1, holds.2.2⟩) fun _ _ holds => holds.1
  refine .create (fun _ _ _ => .of_scopes_eq (.newClass _ _) rfl) ?_
    (fun _ _ => .of_scopes_eq rfl) fun _ _ _ => trivial
  rintro machine ⟨rfl, above, chain, held⟩ tidy
  refine tidy.newClass ⟨chain, ?_, fun name method found => ?_, fun own member => ?_⟩
  · cases superclass with
    | none => exact above
    | some superclass =>
        obtain ⟨object, found⟩ := Option.isSome_iff_exists.mp above.2
        exact ⟨(Array.getElem?_eq_some_iff.mp found).1, above.1, held superclass rfl⟩
  · obtain ⟨written, member, named, rfl⟩ := classMethods_find? found
    exact .declared member named
  · rw [find?_classMethods, Option.isSome_map, List.find?_isSome]
    exact ⟨own, List.mem_reverse.mpr member, by simp⟩

/-- An extension adds a method that is code of no class. -/
protected theorem declareExtension (id : NodeId) (className : String) (decl : FunctionDecl)
    (location : Location) :
    Tidily setting globals (Settled globals)
      (Run.declareExtension setting id className decl location) fun _ _ => True := by
  have found : Tidily setting globals (fun _ => True) (Run.lookup setting id className location)
      fun _ _ => True := .lookup id className location
  refine bind (found.settled.strengthen fun _ _ settled => ⟨settled, trivial⟩) fun value => ?_
  split
  · refine bind (.inspect _) fun object => ?_
    split
    · split
      · exact .fail _ _
      · refine bind .get fun machine => .change
          (fun _ _ _ => .of_scopes_eq (.addMethod _ _ _ _) rfl) ?_ fun _ => rfl
        rintro _ ⟨rfl, _, settled, _⟩ tidy
        obtain ⟨tags, chain, _⟩ := settled.1
        exact tidy.addMethod chain id
    · exact .fail _ _
  · exact .fail _ _

/-- An access that has come to its property stands where it began. -/
protected theorem accessTarget {evaluate : Expr → Run Value}
    (exprs : ∀ expr, Tidily setting globals (Housed globals) (evaluate expr) fun _ _ => True)
    (expr : Expr) :
    Tidily setting globals (Housed globals) (Run.accessTarget evaluate expr) fun _ _ => True := by
  unfold Run.accessTarget
  split
  · exact exprs _
  · exact bind ((exprs _).housed.strengthen fun _ _ housed => ⟨housed, housed⟩) fun _ =>
      bind ((exprs _).strengthen fun _ _ holds => holds.1) fun _ => .pure fun _ _ => trivial
  · exact .pure fun _ _ => trivial

private theorem tidies_note {machine later : Machine} {depth : Nat} {expr : Expr}
    {outcome : Except RunStop Value}
    (exprs : ∀ expr, Tidily setting globals (Housed globals)
      ((routines setting depth).evaluate expr) fun _ _ => True)
        (tidies : machine.Tidies setting globals later)
    (tidy : machine.Tidy setting globals) (housed : Housed globals machine)
    (left : machineAfter (Run.evaluateStep setting (routines setting depth) expr machine) = later)
    (ended :
      Run.outcome (Run.evaluateStep setting (routines setting depth) expr machine) = outcome) :
    machine.Tidies setting globals (later.note ⟨expr, machine.env, machine.owners,
      machine.callDepth, machine.store.classes, outcome⟩) := by
  obtain ⟨after, lasts⟩ := tidies.tidy tidy
  refine ⟨tidies.env, tidies.owners, tidies.uses, fun _ => ⟨⟨after.store, after.fieldUses,
    fun evaluation member => ?_⟩, lasts⟩, tidies.supplies⟩
  rcases List.mem_cons.mp member with rfl | earlier
  · refine ⟨machine, depth, tidy.store, housed, rfl, rfl, rfl, rfl, lasts, ended, ?_,
      fun target reached accessed => ?_⟩
    · rw [left]
      exact .refl _
    · have moved := Tidily.accessTarget exprs expr machine ⟨tidy, housed⟩
      rw [accessed] at moved
      obtain ⟨between, further⟩ := Machine.Tidies.tidy moved.1 tidy
      exact ⟨Machine.Tidies.owners moved.1, between.store, further⟩
  · exact after.evaluations evaluation earlier

/-- An evaluation that begins on a tidy machine is noted as one. -/
protected theorem noting {depth : Nat} {expr : Expr}
    (exprs : ∀ expr, Tidily setting globals (Housed globals)
      ((routines setting depth).evaluate expr) fun _ _ => True)
    (inside : Tidily setting globals (Housed globals)
      (Run.evaluateStep setting (routines setting depth) expr) fun _ _ => True) :
    Tidily setting globals (Housed globals)
      (Run.noting expr (Run.evaluateStep setting (routines setting depth) expr))
      fun _ _ => True := by
  rintro machine ⟨tidy, housed⟩
  have ended := inside machine ⟨tidy, housed⟩
  unfold Run.noting
  dsimp only
  cases result : Run.evaluateStep setting (routines setting depth) expr machine with
  | ok value later =>
      rw [result] at ended
      exact ⟨tidies_note exprs ended.1 tidy housed (by rw [result]; rfl) (by rw [result]; rfl),
        trivial⟩
  | error stop later =>
      rw [result] at ended
      exact tidies_note exprs ended tidy housed (by rw [result]; rfl) (by rw [result]; rfl)

end Tidily

/-- Code runs as code of its owner, and statements where names may be bound. -/
def tidiness (setting : Setting) (globals : ScopeRef) : Regime where
  evolution := tidying setting globals
  allows := fun _ code machine => machine.Tidy setting globals ∧
    match code with
    | .expression _ => Housed globals machine
    | .statement _ | .statements _ => Settled globals machine

private theorem lawful_tidiness (setting : Setting) (globals : ScopeRef) :
    (tidiness setting globals).Lawful setting where
  keep {_ code _ _} tidies allowed := by
    obtain ⟨after, lasts⟩ := Machine.Tidies.tidy tidies allowed.1
    refine ⟨after, ?_⟩
    cases code with
    | expression => exact allowed.2.of_lasts tidies.env tidies.owners lasts
    | statement | statements => exact Settled.of_lasts allowed.2 tidies.env tidies.owners lasts
  inside held allowed := by
    refine ⟨allowed.1, ?_⟩
    cases held with
    | part => exact allowed.2
    | value | initial | condition => exact allowed.2.1
    | branch | loopBody | first | rest => exact allowed.2
  exhausted {_ machine} _ := Machine.Tidies.refl machine
  alike alike := ⟨alike.env, alike.owners, alike.uses, fun tidy => by
    have lasts : Store.Lasts _ _ := .of_scopes_eq
      (.of_eq alike.functions alike.classes alike.objects) alike.scopes
    exact ⟨tidy.of_store lasts (tidy.store.of_eq alike.scopes alike.functions alike.classes
      alike.objects) alike.fieldUses alike.evaluations, lasts⟩,
    fun _ => .of_scopes_eq alike.scopes⟩
  assign id name value location := Tidily.assign id name value location
  property target name location := Tidily.property target name location
  setProperty target name value location := Tidily.setProperty target name value location
  superMethod id method location := Tidily.superMethod id method location
  callFunction {_ _ _ ref function} arguments location _ permitted := by
    have body : Tidily setting globals (Opened globals (.body function.decl)) _ fun _ _ => True :=
      (permitted.executeAll function.decl.body).strengthen fun _ holds =>
        ⟨holds.1, holds.2.settled rfl⟩
    refine Leads.strengthen (Tidily.callFunction body arguments location) ?_
    · rintro machine ⟨found, tidy, _⟩
      exact ⟨tidy, tidy.store.functions ref function found.symm⟩
  instantiate ofClass arguments location _ permitted :=
    Tidily.instantiate permitted.evaluate (fun decl => (permitted.executeAll decl.body).strengthen
      fun _ holds => ⟨holds.1, holds.2.settled rfl⟩) ofClass arguments location
  noting permitted inside := Tidily.noting permitted.evaluate inside
  define name value isFinal := Tidily.define name value isFinal
  opened {_ statement tag body _} opens permitted machine := by
    have passes (tags : List ScopeTag) : classAround (tag :: tags) = classAround tags ∧
        tag.isSealed = false ∧ tag.held? = none ∧
        ∀ store scope, (⟨[], scope, tag⟩ : Scope).Tidy store := by
      cases statement <;> simp_all [Statement.opens?]
      all_goals
        obtain ⟨rfl, rfl⟩ := opens
        exact ⟨rfl, rfl, rfl, fun _ _ => trivial⟩
    refine Leads.strengthen (Tidily.within (fun _ => True) (fun _ _ _ holds => holds)
      machine.env tag []
      ((permitted.executeAll body).strengthen fun _ holds =>
        ⟨holds.1, holds.2.2.1.settled (passes []).2.1⟩)) ?_
    rintro later ⟨rfl, tidy, ⟨tags, chain, owns⟩, _⟩
    exact ⟨tidy, trivial, (passes []).2.2.2 _ _, ⟨tags, chain, (passes tags).1 ▸ owns⟩,
      fun held => by cases (passes []).2.2.1.symm.trans held⟩
  function decl := Tidily.declareFunction decl
  classDecl decl := Tidily.declareClass decl
  extension id className decl location := Tidily.declareExtension id className decl location

end Run

/-- A store that holds nothing but arrays, native modules and the scope of the globals. -/
structure Store.Blank (store : Store) (globals : ScopeRef) : Prop where
  fresh : store.Fresh globals
  objects : store.objects = #[]
  alone : ∀ ref scope, store.scope? ref = some scope → ref = globals

/-- The bare store is blank. -/
theorem Store.blank_bare : Store.bare.Blank ⟨0⟩ := by
  refine ⟨Store.fresh_bare, rfl, fun ref scope found => ?_⟩
  have inside := Store.index_lt_of_scope? found
  cases ref with
  | mk index =>
      obtain rfl : index = 0 := Nat.lt_one_iff.mp inside
      rfl

section Runs

variable {program : Program} {resolutions : Resolutions} {globals : ScopeRef} {first store : Store}

private theorem Store.Blank.tidy (blank : store.Blank globals) : store.Tidy globals where
  functions ref function found := by simp [Store.function?, blank.fresh.functions] at found
  classes ref object found := by simp [Store.class?, blank.fresh.classes] at found
  scopes ref scope found := by
    obtain ⟨root, held, _, tag⟩ := blank.fresh.root
    cases blank.alone ref scope found
    cases found.symm.trans held
    rw [Scope.Tidy, tag]
    trivial
  fields ref name slot found := by simp [Store.field?, Store.object?, blank.objects] at found

/-- Where a run begins statements are settled. -/
private theorem settled_start {course : Course} (ready : course.Ready store) :
    Run.Settled course.globals (.start store course.globals) := by
  obtain ⟨root, held, outermost, tag⟩ := ready.root
  refine ⟨⟨[root.tag], .outermost held outermost, ?_⟩, fun scope found => ?_⟩
  · rw [tag]
    exact .none
  · cases held.symm.trans found
    rw [tag]
    rfl

/-- A run keeps a machine tidy that begins on a tidy store. -/
theorem tidies_interpret {course : Course} (ready : course.Ready store)
    (tidy : store.Tidy course.globals) (setting : Setting) (program : Program) :
    (Machine.start store course.globals).Tidy setting course.globals ∧
      (Machine.start store course.globals).Tidies setting course.globals
        (Run.machineAfter (Run.interpret setting program (.start store course.globals))) := by
  have begins : (Machine.start store course.globals).Tidy setting course.globals :=
    ⟨tidy, List.forall_mem_nil _, List.forall_mem_nil _⟩
  have ended := (Run.lawful_tidiness setting course.globals).interpretBy Run.depthBound program
    (.start store course.globals) fun _ _ => ⟨begins, settled_start ready⟩
  refine ⟨begins, ?_⟩
  change Run.Ends _ _ _ (Run.interpret setting program (.start store course.globals)) at ended
  cases result : Run.interpret setting program (.start store course.globals) with
  | ok value later =>
      rw [result] at ended
      exact ended.1
  | error stop later =>
      rw [result] at ended
      exact ended

/-- A run that begins on a tidy store leaves a tidy machine. -/
theorem tidy_interpret {course : Course} (ready : course.Ready store)
    (tidy : store.Tidy course.globals) (setting : Setting) (program : Program) :
    (Run.machineAfter (Run.interpret setting program (.start store course.globals))).Tidy setting
      course.globals := by
  obtain ⟨begins, tidies⟩ := tidies_interpret ready tidy setting program
  exact (tidies.tidy begins).1

/-- Every store between successive runs is tidy. -/
theorem tidy_of_successive (blank : first.Blank globals)
    (successive : Successive program resolutions globals first store) : store.Tidy globals := by
  induction successive with
  | start => exact blank.tidy
  | bind name value earlier ih =>
      obtain ⟨root, held, _, tag⟩ := (Course.ready_of_successive blank.fresh earlier).root
      refine ih.define (fun scope found => ?_) name value false
      cases held.symm.trans found
      rw [tag]
      rfl
  | run earlier _ _ ih =>
      exact (tidy_interpret (Course.ready_of_successive blank.fresh earlier) ih _ _).store

/-- Every run of a program leaves a tidy machine. -/
theorem tidy_run (blank : first.Blank globals)
    (successive : Successive program resolutions globals first store) (setting : Setting) :
    (Run.machineAfter (Run.interpret setting program (.start store globals))).Tidy setting
      globals :=
  tidy_interpret (Course.ready_of_successive blank.fresh successive)
    (tidy_of_successive blank successive) setting program

end Runs

end Scriptlet
