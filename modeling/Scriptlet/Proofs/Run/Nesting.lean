import Scriptlet.Proofs.Lexical.Height

/-!
# How deep runs nest

Calls nest at most as deep as the options allow (`Machine.Nested`). Field initialisers are not
counted as calls, so how deep they nest is bounded by nothing but what the run does; the machine
notes it (`Machine.Deepens`). Code that has room for the calls and the initialisers still to come
(`Machine.HasRoom`) never reaches the bound on the depth of a run, unless initialisers nest deeper
than was foreseen. If the initial values call nothing they do not nest at all.
-/

namespace Scriptlet

/-- Bounds on how deep calls nest, how deep field initialisers nest, and how high code is, and
whether the initial values of fields are known to call nothing. -/
structure Bounds where
  calls : Nat
  inits : Nat
  height : Nat
  quiet : Bool

/-- A function whose code keeps to the bounds. -/
structure FunctionDecl.Fits (decl : FunctionDecl) (bounds : Bounds) : Prop where
  low : decl.height < bounds.height
  quiet : bounds.quiet = true → decl.isQuiet = true

/-- Fields whose initial values keep to the bounds. -/
structure FieldDecl.Fit (fields : List FieldDecl) (bounds : Bounds) : Prop where
  low : FieldDecl.heightOf fields < bounds.height
  quiet : bounds.quiet = true → Expr.callsIn (fields.filterMap (·.initial)) = false

namespace FieldDecl.Fit

variable {field : FieldDecl} {others : List FieldDecl} {bounds : Bounds}

/-- The fields that come after a field keep to the bounds. -/
theorem rest (fit : FieldDecl.Fit (field :: others) bounds) : FieldDecl.Fit others bounds := by
  cases initial : field.initial with
  | none =>
    obtain ⟨low, quiet⟩ := fit
    unfold FieldDecl.heightOf at low
    rw [List.filterMap_cons_none initial] at low quiet
    exact ⟨low, quiet⟩
  | some expr =>
    obtain ⟨low, quiet⟩ := fit
    unfold FieldDecl.heightOf at low
    rw [List.filterMap_cons_some initial] at low quiet
    rw [Expr.heightOf] at low
    simp only [Expr.callsIn, Bool.or_eq_false_iff] at quiet
    exact ⟨Nat.lt_of_le_of_lt (Nat.le_max_right _ _) low, fun known => (quiet known).2⟩

/-- Each initial value is less high than the bound, and calls nothing if none of them is to. -/
theorem initial {fields : List FieldDecl} (fit : FieldDecl.Fit fields bounds)
    (member : field ∈ fields) {expr : Expr} (given : field.initial = some expr) :
    expr.height < bounds.height ∧ (bounds.quiet = true → expr.calls = false) := by
  have listed : expr ∈ fields.filterMap (·.initial) := List.mem_filterMap.mpr ⟨field, member, given⟩
  refine ⟨Nat.lt_of_le_of_lt (Expr.height_le_heightOf listed) fit.low, fun known => ?_⟩
  cases calls : expr.calls with
  | false => rfl
  | true => exact absurd (Expr.callsIn_of_mem listed calls) (by rw [fit.quiet known]; decide)

end FieldDecl.Fit

/-- Code that keeps to the bounds. -/
structure Code.Fits (code : Code) (bounds : Bounds) : Prop where
  low : code.height < bounds.height
  quiet : bounds.quiet = true → code.isQuiet = true

/-- The body of a function that keeps to the bounds keeps to them. -/
theorem FunctionDecl.Fits.body {decl : FunctionDecl} {bounds : Bounds} (fits : decl.Fits bounds) :
    Code.Fits (.statements decl.body) bounds := by
  obtain ⟨low, quiet⟩ := fits
  rw [FunctionDecl.height_eq] at low
  rw [FunctionDecl.isQuiet_eq] at quiet
  exact ⟨low, quiet⟩

/-- What code holds keeps to the bounds that the code keeps to. -/
theorem Code.Fits.inside {outer inner : Code} {bounds : Bounds} (fits : outer.Fits bounds)
    (holds : Code.Holds outer inner) : inner.Fits bounds :=
  ⟨Nat.lt_trans (Code.height_lt_of_holds holds) fits.low,
    fun known => Code.isQuiet_of_holds holds (fits.quiet known)⟩

/-- A class whose code keeps to the bounds. -/
structure ClassDecl.Fits (decl : ClassDecl) (bounds : Bounds) : Prop where
  low : decl.height < bounds.height
  quiet : bounds.quiet = true → decl.isQuiet = true

namespace Code.Fits

variable {bounds : Bounds}

/-- A declared function keeps to the bounds of its declaration. -/
theorem function {decl : FunctionDecl} (fits : Code.Fits (.statement (.function decl)) bounds) :
    decl.Fits bounds :=
  ⟨Nat.lt_of_succ_lt fits.low, fits.quiet⟩

/-- The method that an extension adds keeps to the bounds of the extension. -/
theorem extension {id : NodeId} {className : String} {decl : FunctionDecl} {location : Location}
    (fits : Code.Fits (.statement (.extension id className decl location)) bounds) :
    decl.Fits bounds :=
  ⟨Nat.lt_of_succ_lt fits.low, fits.quiet⟩

/-- A declared class keeps to the bounds of its declaration. -/
theorem classDecl {decl : ClassDecl} (fits : Code.Fits (.statement (.classDecl decl)) bounds) :
    decl.Fits bounds :=
  ⟨Nat.lt_of_succ_lt fits.low, fits.quiet⟩

/-- The statements inside of a construct keep to the bounds of the construct. -/
theorem opened {statement : Statement} {tag : ScopeTag} {inside : List Statement}
    (fits : Code.Fits (.statement statement) bounds)
    (opens : statement.opens? = some (tag, inside)) : Code.Fits (.statements inside) bounds :=
  ⟨Nat.lt_trans (Statement.heightOf_lt_of_opens opens) fits.low,
    fun known => Statement.areQuiet_of_opens (fits.quiet known) opens⟩

end Code.Fits

/-- The fields and the methods of a class that keeps to the bounds keep to them. -/
theorem ClassDecl.Fits.members {decl : ClassDecl} {bounds : Bounds} (fits : decl.Fits bounds) :
    FieldDecl.Fit decl.fields bounds ∧ ∀ method ∈ decl.methods, method.Fits bounds := by
  have low := fits.low
  rw [ClassDecl.height_eq] at low
  have both (known : bounds.quiet = true) := fits.quiet known
  simp only [ClassDecl.isQuiet_eq, Bool.and_eq_true, Bool.not_eq_true'] at both
  refine ⟨⟨Nat.lt_of_le_of_lt (Nat.le_max_left _ _) low, fun known => (both known).1⟩,
    fun method member => ⟨?_, fun known => FunctionDecl.isQuiet_of_mem (both known).2 member⟩⟩
  exact Nat.lt_of_le_of_lt
    (Nat.le_trans (FunctionDecl.height_le_heightOf member) (Nat.le_max_right _ _)) low

/-- A store that holds only code that keeps to the bounds. -/
structure Store.Holds (store : Store) (bounds : Bounds) : Prop where
  functions : ∀ ref function, store.function? ref = some function → function.decl.Fits bounds
  fields : ∀ ref object, store.class? ref = some object → FieldDecl.Fit object.decl.fields bounds
  methods : ∀ ref object name method, store.class? ref = some object →
    object.methods.find? name = some method → method.decl.Fits bounds

namespace Store.Holds

variable {store after : Store} {bounds : Bounds}

/-- A store with the same functions and classes holds the same code. -/
theorem of_eq (holds : store.Holds bounds) (functions : after.functions = store.functions)
    (classes : after.classes = store.classes) : after.Holds bounds := by
  have function? (ref : FunctionRef) : after.function? ref = store.function? ref := by
    rw [Store.function?, Store.function?, functions]
  have class? (ref : ClassRef) : after.class? ref = store.class? ref := by
    rw [Store.class?, Store.class?, classes]
  constructor
  · intro ref function found
    exact holds.functions ref function (by rw [← function?, found])
  · intro ref object found
    exact holds.fields ref object (by rw [← class?, found])
  · intro ref object name method found
    exact holds.methods ref object name method (by rw [← class?, found])

/-- A store may take in a function that keeps to the bounds. -/
theorem newFunction (holds : store.Holds bounds) {function : FunctionObject}
    (fits : function.decl.Fits bounds) : (store.newFunction function).2.Holds bounds := by
  refine ⟨fun ref other found => ?_, holds.fields, holds.methods⟩
  unfold function? Store.newFunction at found
  rw [Array.getElem?_push] at found
  split at found
  · cases found
    exact fits
  · exact holds.functions ref other found

/-- A store may take in a class whose fields and methods keep to the bounds. -/
theorem newClass (holds : store.Holds bounds) {object : ClassObject}
    (fields : FieldDecl.Fit object.decl.fields bounds)
    (methods : ∀ name method, object.methods.find? name = some method → method.decl.Fits bounds) :
    (store.newClass object).2.Holds bounds := by
  have either {ref : ClassRef} {other : ClassObject}
      (found : (store.newClass object).2.class? ref = some other) :
      other = object ∨ store.class? ref = some other := by
    unfold class? Store.newClass at found
    rw [Array.getElem?_push] at found
    split at found
    · exact .inl (Option.some.inj found).symm
    · exact .inr found
  refine ⟨holds.functions, fun ref other found => ?_, fun ref other name method found listed => ?_⟩
  · rcases either found with rfl | known
    · exact fields
    · exact holds.fields ref other known
  · rcases either found with rfl | known
    · exact methods name method listed
    · exact holds.methods ref other name method known listed

/-- A class may get a method that keeps to the bounds. -/
theorem addMethod (holds : store.Holds bounds) (target : ClassRef) (name : String)
    {method : MethodObject} (fits : method.decl.Fits bounds) :
    (store.addMethod target name method).Holds bounds := by
  have either {ref : ClassRef} {other : ClassObject}
      (found : (store.addMethod target name method).class? ref = some other) :
      ∃ object, store.class? ref = some object ∧ other.decl = object.decl ∧
        (other.methods = object.methods ∨ other.methods = object.methods.put name method) := by
    unfold class? Store.addMethod at found
    rw [Array.getElem?_modify] at found
    split at found
    · obtain ⟨object, known, rfl⟩ := Option.map_eq_some_iff.mp found
      exact ⟨object, known, rfl, .inr rfl⟩
    · exact ⟨other, found, rfl, .inl rfl⟩
  refine ⟨holds.functions, fun ref other found => ?_, fun ref other query listed found held => ?_⟩
  · obtain ⟨object, known, same, _⟩ := either found
    rw [same]
    exact holds.fields ref object known
  · obtain ⟨object, known, _, same | put⟩ := either found
    · rw [same] at held
      exact holds.methods ref object query listed known held
    · rw [put] at held
      by_cases hit : name = query
      · subst hit
        rw [Table.find?_put_self] at held
        cases held
        exact fits
      · rw [Table.find?_put_of_ne _ _ hit] at held
        exact holds.methods ref object query listed known held

/-- An inherited method is code of the store. -/
theorem method? (holds : store.Holds bounds) {ref : ClassRef} {name : String}
    {method : MethodObject} (found : store.method? ref name = some method) :
    method.decl.Fits bounds := by
  obtain ⟨owner, object, held, own⟩ := exists_of_method? found
  exact holds.methods owner object name method held own

end Store.Holds

/-- An evaluation that nests in no more calls than allowed, and but for these in no more code than
so many field initialisers. -/
def Evaluation.Nests (evaluation : Evaluation) (bounds : Bounds) (inits : Nat) : Prop :=
  evaluation.callDepth ≤ bounds.calls ∧
    evaluation.owners.length ≤ evaluation.callDepth + inits

namespace Machine

variable {bounds : Bounds} {machine later last : Machine}

/-- A later machine: how deep initialisers nested is noted at its highest, and what was evaluated
since nested no deeper. Initialisers that call nothing do not nest. -/
structure Deepens (bounds : Bounds) (machine later : Machine) : Prop where
  initDepth : machine.initDepth ≤ later.initDepth
  evaluations : ∀ evaluation ∈ later.evaluations,
    evaluation ∈ machine.evaluations ∨ evaluation.Nests bounds later.initDepth
  store : machine.store.Holds bounds → later.store.Holds bounds
  quiet : bounds.quiet = true → machine.initDepth ≤ 1 → later.initDepth ≤ 1

/-- A machine nests as deep as it does. -/
theorem Deepens.refl (machine : Machine) : machine.Deepens bounds machine :=
  ⟨Nat.le_refl _, fun _ => .inl, id, fun _ => id⟩

private theorem Deepens.trans (left : machine.Deepens bounds later)
    (right : later.Deepens bounds last) :
    machine.Deepens bounds last := by
  refine ⟨Nat.le_trans left.initDepth right.initDepth, fun evaluation member => ?_,
    fun holds => right.store (left.store holds),
    fun known single => right.quiet known (left.quiet known single)⟩
  rcases right.evaluations evaluation member with earlier | nests
  · refine (left.evaluations evaluation earlier).imp id fun nests => ⟨nests.1, ?_⟩
    have deeper := right.initDepth
    have nested := nests.2
    omega
  · exact .inr nests

/-- A later machine at the same place. -/
structure Returns (bounds : Bounds) (machine later : Machine) : Prop
    extends Deepens bounds machine later where
  owners : later.owners = machine.owners
  callDepth : later.callDepth = machine.callDepth

private theorem Returns.refl (machine : Machine) : machine.Returns bounds machine :=
  ⟨.refl machine, rfl, rfl⟩

private theorem Returns.trans (left : machine.Returns bounds later)
    (right : later.Returns bounds last) :
    machine.Returns bounds last :=
  ⟨left.toDeepens.trans right.toDeepens, right.owners.trans left.owners,
    right.callDepth.trans left.callDepth⟩

/-- A change of the store that keeps its code low returns. -/
theorem Returns.of_store (initDepth : later.initDepth = machine.initDepth)
    (evaluations : later.evaluations = machine.evaluations)
    (store : machine.store.Holds bounds → later.store.Holds bounds)
    (owners : later.owners = machine.owners) (callDepth : later.callDepth = machine.callDepth) :
    machine.Returns bounds later := by
  refine ⟨⟨Nat.le_of_eq initDepth.symm, fun evaluation member => .inl ?_, store,
      fun _ single => ?_⟩,
    owners, callDepth⟩
  · rw [← evaluations]
    exact member
  · rw [initDepth]
    exact single

/-- How many calls and initialisers may still nest where the machine is. -/
def left (machine : Machine) (bounds : Bounds) : Nat :=
  (bounds.calls - machine.callDepth) +
    (bounds.inits - (machine.owners.length - machine.callDepth))

/-- Where code runs: calls nest no deeper than allowed, all other active code are initialisers,
and these nest no deeper than noted. -/
structure Nested (bounds : Bounds) (machine : Machine) : Prop where
  store : machine.store.Holds bounds
  calls : machine.callDepth ≤ bounds.calls
  counted : machine.callDepth ≤ machine.owners.length
  inits : machine.owners.length ≤ machine.callDepth + machine.initDepth
  quiet : bounds.quiet = true → machine.initDepth ≤ 1

/-- Code runs nested as before where the machine comes back to the same place. -/
theorem Nested.returns (nested : machine.Nested bounds) (returns : machine.Returns bounds later) :
    later.Nested bounds := by
  refine ⟨returns.store nested.store, ?_, ?_, ?_,
    fun known => returns.quiet known (nested.quiet known)⟩
  · rw [returns.callDepth]
    exact nested.calls
  · rw [returns.callDepth, returns.owners]
    exact nested.counted
  · have deeper := returns.initDepth
    have noted := nested.inits
    rw [returns.callDepth, returns.owners]
    omega

/-- Code so high, which may call or not, has room: for all that may still nest in it, unless
initialisers have nested too deep already, and code that calls does not stand in an initialiser if
these are known to call nothing. -/
structure HasRoom (machine : Machine) (bounds : Bounds) (depth height : Nat) (calls : Bool) :
    Prop where
  depth : bounds.inits < machine.initDepth ∨ height + bounds.height * machine.left bounds < depth
  outside : calls = true → bounds.quiet = true → machine.owners.length = machine.callDepth

/-- Code has the room it had where the machine comes back to the same place. -/
theorem HasRoom.returns {depth height : Nat} {calls : Bool}
    (room : machine.HasRoom bounds depth height calls) (returns : machine.Returns bounds later) :
    later.HasRoom bounds depth height calls := by
  have same : later.left bounds = machine.left bounds := by
    rw [left, left, returns.owners, returns.callDepth]
  constructor
  · refine room.depth.imp (fun deep => Nat.lt_of_lt_of_le deep returns.initDepth) fun fits => ?_
    rw [same]
    exact fits
  · rw [returns.owners, returns.callDepth]
    exact room.outside

/-- Code has room where there is room for higher code. -/
theorem HasRoom.inside {depth height other : Nat} {calls callsInside : Bool}
    (room : machine.HasRoom bounds (depth + 1) height calls) (less : other < height)
    (fewer : callsInside = true → calls = true) :
    machine.HasRoom bounds depth other callsInside := by
  refine ⟨room.depth.imp id fun fits => ?_, fun inside => room.outside (fewer inside)⟩
  omega

/-- Where one call or initialiser less may nest there is room for other code. -/
theorem HasRoom.enter {depth height other : Nat} {calls callsInside : Bool}
    (room : machine.HasRoom bounds (depth + 1) height calls) (low : other < bounds.height)
    (initDepth : machine.initDepth ≤ later.initDepth)
    (less : bounds.inits < later.initDepth ∨ later.left bounds + 1 = machine.left bounds)
    (outside : callsInside = true → bounds.quiet = true →
      later.owners.length = later.callDepth) :
    later.HasRoom bounds depth other callsInside := by
  refine ⟨?_, outside⟩
  rcases less with deep | less
  · exact .inl deep
  · refine room.depth.imp (fun deep => Nat.lt_of_lt_of_le deep initDepth) fun fits => ?_
    rw [← less, Nat.mul_add, Nat.mul_one] at fits
    omega

/-- There is room for all code less high than the bound, if it may stand in an initialiser. -/
def Roomy (machine : Machine) (bounds : Bounds) (depth : Nat) : Prop :=
  ∀ height < bounds.height, machine.HasRoom bounds depth height false

/-- There is room as before where the machine comes back to the same place. -/
theorem Roomy.returns {depth : Nat} (roomy : machine.Roomy bounds depth)
    (returns : machine.Returns bounds later) : later.Roomy bounds depth :=
  fun height low => (roomy height low).returns returns

end Machine

/-- Runs from machine to machine, which stop for their depth only where initialisers nest too
deep. -/
def nesting (bounds : Bounds) : Evolution where
  relates := Machine.Returns bounds
  stops machine stop later := machine.Deepens bounds later ∧
    (stop = .exhausted → bounds.inits < later.initDepth)
  refl := .refl
  trans := .trans
  fault machine _ := ⟨.refl machine, nofun⟩
  endless machine := ⟨.refl machine, nofun⟩
  onward returns stopped := ⟨returns.toDeepens.trans stopped.1, stopped.2⟩

namespace Run

variable {α β : Type} {bounds : Bounds} {setting : Setting} {inner : Routines} {depth : Nat}

/-- Code runs where it has room. -/
def nestingRegime (bounds : Bounds) : Regime where
  evolution := nesting bounds
  allows depth code machine := machine.Nested bounds ∧ code.Fits bounds ∧
    machine.HasRoom bounds depth code.height code.calls

/-- The step goes on as runs do from where code is nested and one thing holds to where another
does. -/
def Nests (bounds : Bounds) (before : Machine → Prop) (step : Run α)
    (after : α → Machine → Prop) : Prop :=
  Leads (nesting bounds) (fun machine => machine.Nested bounds ∧ before machine) step after

/-- A step ends on a machine whose nesting is noted, however it ends. -/
theorem Ends.deepens {machine : Machine} {after : α → Machine → Prop}
    {result : EStateM.Result RunStop Machine α}
      (ended : Ends (nesting bounds) machine after result) :
    machine.Deepens bounds (machineAfter result) := by
  cases result with
  | ok value later => exact ended.1.toDeepens
  | error stop later => exact ended.1

namespace Nests

variable {before : Machine → Prop} {step : Run α} {after : α → Machine → Prop}

/-- One step after another goes on as runs do, if the first one leads to where the second may begin.
-/
theorem bind {next : α → Run β} {final : β → Machine → Prop}
    (first : Nests bounds before step after)
    (rest : ∀ value, Nests bounds (after value) (next value) final) :
    Nests bounds before (step >>= next) final := by
  have returned : Leads (nesting bounds)
      (fun machine => machine.Nested bounds ∧ before machine) step
      fun value machine => machine.Nested bounds ∧ after value machine :=
    fun machine holds => (first machine holds).imp fun _ _ _ returns ended =>
      ⟨holds.1.returns returns, ended⟩
  exact returned.bind rest

/-- Two steps, with what holds between them. -/
theorem through {next : α → Run β} {final : β → Machine → Prop} (between : α → Machine → Prop)
    (first : Nests bounds before step between)
    (rest : ∀ value, Nests bounds (between value) (next value) final) :
    Nests bounds before (step >>= next) final :=
  first.bind rest

/-- A step may be said to begin where more holds. -/
theorem strengthen {stronger : Machine → Prop} (nests : Nests bounds before step after)
    (implies : ∀ machine, machine.Nested bounds → stronger machine → before machine) :
    Nests bounds stronger step after :=
  Leads.strengthen nests fun machine holds => ⟨holds.1, implies machine holds.1 holds.2⟩

/-- Giving a value goes on as runs do. -/
protected theorem pure {value : α} (implies : ∀ machine, before machine → after value machine) :
    Nests bounds before (pure value) after :=
  Leads.pure fun machine holds => implies machine holds.2

/-- A fault goes on as runs do. -/
protected theorem fail (fault : RuntimeFault) (location : Location) :
    Nests bounds before (Run.fail fault location) after :=
  Leads.fail fault location

/-- Looking at the machine goes on as runs do. -/
protected theorem get : Nests bounds before (get : Run Machine)
    fun value machine => value = machine ∧ before machine :=
  (Leads.get).weaken fun _ _ holds => ⟨holds.1, holds.2.2⟩

/-- Looking at the store goes on as runs do. -/
protected theorem inspect (look : Store → α) : Nests bounds before (Run.inspect look)
    fun value machine => value = look machine.store ∧ before machine :=
  (Leads.inspect look).weaken fun _ _ holds => ⟨holds.1, holds.2.2⟩

/-- A fact that holds where a step begins may be assumed for all of the step. -/
theorem assuming {fact : Prop} (each : fact → Nests bounds before step after) :
    Nests bounds (fun machine => fact ∧ before machine) step after :=
  fun machine holds => each holds.2.1 machine ⟨holds.1, holds.2.2⟩

/-- A step that always ends well, and at the same place. -/
theorem of_returns {value : Machine → α} {next : Machine → Machine}
    (steps : ∀ machine, step machine = .ok (value machine) (next machine))
    (returns : ∀ machine, machine.Nested bounds → before machine →
      machine.Returns bounds (next machine)) :
    Nests bounds before step fun _ _ => True := by
  rintro machine ⟨nested, holds⟩
  rw [steps]
  exact ⟨returns machine nested holds, trivial⟩

/-- What is known wherever the machine returns to. -/
def Stable (bounds : Bounds) (known : Machine → Prop) : Prop :=
  ∀ machine later : Machine, machine.Returns bounds later → known machine → known later

/-- Two steps, where what holds before them is known wherever the machine returns to. -/
theorem andThen {next : α → Run β} {final : β → Machine → Prop} (stable : Stable bounds before)
    (first : Nests bounds before step fun _ _ => True)
    (rest : ∀ value, Nests bounds before (next value) final) :
    Nests bounds before (step >>= next) final := by
  have kept : Nests bounds before step fun _ => before := by
    rintro machine ⟨nested, holds⟩
    exact (first machine ⟨nested, holds⟩).imp fun _ later _ returns _ =>
      stable machine later returns holds
  exact kept.bind rest

/-- A step on a changed machine where code is nested, which is changed back on every path. -/
theorem around {enter : Machine → Machine} {leave : Machine → Machine → Machine}
    {entered : Machine → Prop} (inside : Nests bounds entered step fun _ _ => True)
    (enters : ∀ machine, machine.Nested bounds → before machine →
      (enter machine).Nested bounds ∧ entered (enter machine) ∧
        machine.Deepens bounds (enter machine))
    (leaves : ∀ machine later : Machine, later.Deepens bounds (leave machine later))
    (returns : ∀ machine later : Machine, (enter machine).Returns bounds later →
      (leave machine later).owners = machine.owners ∧
        (leave machine later).callDepth = machine.callDepth) :
    Nests bounds before (Run.around enter leave step) fun _ _ => True := by
  apply Leads.around inside
  · rintro machine ⟨nested, holds⟩
    obtain ⟨nestedInside, entered, _⟩ := enters machine nested holds
    exact ⟨nestedInside, entered⟩
  · rintro machine later ⟨nested, holds⟩ returned
    obtain ⟨_, _, deepens⟩ := enters machine nested holds
    obtain ⟨owners, callDepth⟩ := returns machine later returned
    exact ⟨(deepens.trans returned.toDeepens).trans (leaves machine later), owners, callDepth⟩
  · rintro machine stop later ⟨nested, holds⟩ ⟨deeper, exhausted⟩
    obtain ⟨_, _, deepens⟩ := enters machine nested holds
    refine ⟨(deepens.trans deeper).trans (leaves machine later), fun out => ?_⟩
    exact Nat.lt_of_lt_of_le (exhausted out) (leaves machine later).initDepth
  · exact fun _ _ _ _ _ _ => trivial

/-- Making a scope goes on as runs do. -/
protected theorem newScope (enclosing : Option ScopeRef) (tag : ScopeTag)
    (bindings : Table Binding) :
    Nests bounds before (Run.create (·.newScope enclosing tag bindings)) fun _ _ => True :=
  of_returns (fun _ => rfl) fun _ _ _ =>
    .of_store rfl rfl (fun held => held.of_eq rfl rfl) rfl rfl

/-- A step in a scope of its own goes on as it does without, where the machine returns to what is
known. -/
protected theorem within (stable : Stable bounds before) (enclosing : ScopeRef) (tag : ScopeTag)
    (bindings : Table Binding) (inside : Nests bounds before step fun _ _ => True) :
    Nests bounds before (Run.within enclosing tag bindings step) fun _ _ => True := by
  refine andThen stable (.newScope _ _ _) fun scope => ?_
  have moved (machine : Machine) (env : ScopeRef) :
      machine.Returns bounds { machine with env := env } := .of_store rfl rfl id rfl rfl
  rw [inScope_eq_around]
  apply inside.around
  · intro machine nested holds
    exact ⟨nested.returns (moved machine scope), stable _ _ (moved machine scope) holds,
      (moved machine scope).toDeepens⟩
  · exact fun machine later => (moved later machine.env).toDeepens
  · exact fun machine later returned => ⟨returned.owners, returned.callDepth⟩

end Nests

end Run

end Scriptlet
