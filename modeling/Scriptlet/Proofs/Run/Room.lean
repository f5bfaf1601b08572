import Scriptlet.Proofs.Run.Declaring
import Scriptlet.Proofs.Run.Nesting

/-!
# The room code runs in

Every operation of a run keeps to the room there is (`Run.Nests`): a call takes that of one call
less, the initialisers of a class that of one initialiser less, and all other code what the code
around it leaves (`Run.lawful_nesting`).
-/

namespace Scriptlet.Run

namespace Nests

variable {α : Type} {bounds : Bounds} {setting : Setting} {depth height : Nat}
  {before : Machine → Prop} {step : Run α}

/-! ### Methods and properties -/

/-- Making a function keeps to the room there is, if the code of the function keeps to the bounds.
-/
protected theorem newFunction (function : FunctionObject) :
    Nests bounds (fun _ => function.decl.Fits bounds)
      (Run.create (·.newFunction function)) fun _ _ => True :=
  of_returns (fun _ => rfl) fun _ _ fits =>
    .of_store rfl rfl (fun held => held.newFunction fits) rfl rfl

/-- Making a function of a method and its receiver keeps to the room there is, if the method keeps
to the bounds. -/
protected theorem boundMethod (method : MethodObject) (receiver : Value) :
    Nests bounds (fun _ => method.decl.Fits bounds)
      (Run.boundMethod method receiver) fun _ _ => True := by
  have stable : Stable bounds fun _ => method.decl.Fits bounds := fun _ _ _ fits => fits
  refine through (fun function _ => function.decl.Fits bounds) ?_
    fun function => bind (.newFunction function) fun _ => .pure fun _ _ => trivial
  exact andThen stable (.newScope _ _ _) fun _ => .pure fun _ fits => fits

/-- Noting the use of a name keeps to the room there is. -/
protected theorem noteUse (id : NodeId) (name : String) :
    Nests bounds before (Run.noteUse id name) fun _ _ => True :=
  of_returns (fun _ => rfl) fun _ _ _ => .of_store rfl rfl (fun held => held) rfl rfl

/-- Looking up a name keeps to the room there is. -/
protected theorem lookup (id : NodeId) (name : String) (location : Location) :
    Nests bounds before (Run.lookup setting id name location) fun _ _ => True := by
  refine bind (.noteUse id name) fun use => bind (.inspect _) fun found => ?_
  split
  · exact .pure fun _ _ => trivial
  · exact .fail _ _

/-- Binding a name keeps to the room there is. -/
protected theorem define (name : String) (value : Value) (isFinal : Bool) :
    Nests bounds before (Run.define name value isFinal) fun _ _ => True :=
  of_returns (fun _ => rfl) fun _ _ _ =>
    .of_store rfl rfl (fun held => held.of_eq rfl rfl) rfl rfl

/-- Assigning to a name keeps to the room there is. -/
protected theorem assign (id : NodeId) (name : String) (value : Value) (location : Location) :
    Nests bounds before (Run.assign setting id name value location) fun _ _ => True := by
  refine bind (.noteUse id name) fun use => bind (.inspect _) fun target => ?_
  split
  · exact of_returns (fun _ => rfl) fun _ _ _ =>
      .of_store rfl rfl (fun held => held.of_eq rfl rfl) rfl rfl
  · exact .fail _ _

/-- Checking whether a field may be used keeps to the room there is. -/
protected theorem checkAccess (slot : FieldSlot) (name : String) (location : Location) :
    Nests bounds before (Run.checkAccess slot name location) fun _ _ => True := by
  refine bind .get fun machine => ?_
  split
  · exact .fail _ _
  · exact .pure fun _ _ => trivial

/-- Noting the use of a field keeps to the room there is. -/
protected theorem noteField (object : ObjectRef) (name : String) (slot : FieldSlot)
    (kind : FieldUseKind) :
    Nests bounds before (Run.noteField object name slot kind) fun _ _ => True :=
  of_returns (fun _ => rfl) fun _ _ _ => .of_store rfl rfl id rfl rfl

/-- Setting a field keeps to the room there is. -/
protected theorem writeField (object : ObjectRef) (name : String) (slot : FieldSlot)
    (kind : FieldUseKind) :
    Nests bounds before (Run.writeField object name slot kind) fun _ _ => True := by
  have put : Nests bounds before (Run.change (·.putField object name slot)) fun _ _ => True :=
    of_returns (fun _ => rfl) fun _ _ _ =>
      .of_store rfl rfl (fun held => held.of_eq rfl rfl) rfl rfl
  exact bind put fun _ => .noteField _ _ _ _

/-- Reading a property keeps to the room there is, since the methods of the store keep to the
bounds. -/
protected theorem property (target : Value) (name : String) (location : Location) :
    Nests bounds before (Run.property target name location) fun _ _ => True := by
  unfold Run.property
  split
  · refine bind .get fun machine => ?_
    dsimp only
    split
    · exact bind (.checkAccess _ _ _) fun _ => bind (.noteField _ _ _ _) fun _ =>
        .pure fun _ _ => trivial
    · split
      · rename_i method found
        refine (Nests.boundMethod method _).strengthen ?_
        rintro _ nested ⟨rfl, _⟩
        obtain ⟨object, _, inherited⟩ := Option.bind_eq_some_iff.mp found
        exact nested.store.method? inherited
      · exact .fail _ _
  · refine bind (.inspect _) fun native => ?_
    split
    · split
      · exact .pure fun _ _ => trivial
      · exact .fail _ _
    · exact .fail _ _
  · split
    · exact bind (.inspect _) fun _ => .pure fun _ _ => trivial
    · exact .fail _ _
  · split
    · exact .pure fun _ _ => trivial
    · exact .fail _ _
  · exact .fail _ _

/-- Setting a property keeps to the room there is. -/
protected theorem setProperty (target : Value) (name : String) (value : Value)
    (location : Location) :
    Nests bounds before (Run.setProperty target name value location) fun _ _ => True := by
  unfold Run.setProperty
  split
  · refine bind (.inspect _) fun object => ?_
    split
    · unfold Run.setField
      split
      · refine bind (.checkAccess _ _ _) fun _ => ?_
        split
        · exact .fail _ _
        · exact .writeField _ _ _ _
      · exact .writeField _ _ _ _
    · exact .fail _ _
  · exact .fail _ _

/-- Looking for a method of the superclass keeps to the room there is. -/
protected theorem superMethod (id : NodeId) (method : String) (location : Location) :
    Nests bounds before (Run.superMethod setting id method location) fun _ _ => True := by
  refine bind (.noteUse id "super") fun use => bind .get fun machine => ?_
  dsimp only
  split
  · split
    · split
      · rename_i found
        refine (Nests.boundMethod _ _).strengthen ?_
        rintro _ nested ⟨rfl, _⟩
        exact nested.store.method? found
      · exact .fail _ _
    · exact .fail _ _
  · exact .fail _ _

/-! ### Calls and field initialisers -/

/-- What a call makes of the end of its body keeps to the room there is. -/
protected theorem callResult (function : FunctionObject) (completion : Completion)
    (location : Location) :
    Nests bounds before (Run.callResult function completion location) fun _ _ => True := by
  unfold Run.callResult
  have answered (value : Value) : Nests bounds before
      (if function.decl.kind = .constructor then
        return ((← inspect (·.valueIn? function.closure "this"))).getD .nil
      else return value : Run Value) fun _ _ => True := by
    split
    · exact bind (.inspect _) fun _ => .pure fun _ _ => trivial
    · exact .pure fun _ _ => trivial
  cases completion with
  | normal => exact answered _
  | returning value => exact answered value
  | breaking => exact .fail _ _
  | continuing => exact .fail _ _

/-- Entering a call and coming back from it. -/
theorem call_eq_around (owner : Option ClassRef) (step : Run α) :
    Run.asOwner owner (Run.inCall step) = Run.around
      (fun machine => { machine with
        owners := owner :: machine.owners, callDepth := machine.callDepth + 1 })
      (fun _ later => { later with
        owners := later.owners.tail, callDepth := later.callDepth - 1 }) step := by
  funext machine
  unfold Run.asOwner Run.inCall Run.around
  dsimp only
  cases step { machine with
    owners := owner :: machine.owners, callDepth := machine.callDepth + 1 } <;> rfl

/-- Entering the initialisers of a class, which are noted, and coming back from them. -/
theorem initializing_eq_around (owner : Option ClassRef) (step : Run α) :
    (Run.asOwner owner do Run.noteInitializing; step) = Run.around
      (fun machine => { machine with
        owners := owner :: machine.owners
        initDepth := max machine.initDepth (machine.owners.length + 1 - machine.callDepth) })
      (fun _ later => { later with owners := later.owners.tail }) step := rfl

/-- The room for the body of a function is that of one call. -/
protected theorem callFunction {runBody : List Statement → Run Completion}
    {function : FunctionObject} (calls : setting.options.maxCallDepth = bounds.calls)
    (body : Nests bounds (fun machine => machine.HasRoom bounds depth function.decl.height true)
      (runBody function.decl.body) fun _ _ => True)
    (arguments : List Value) (location : Location) :
    Nests bounds
      (fun machine => function.decl.Fits bounds ∧
        machine.HasRoom bounds (depth + 1) height true)
      (Run.callFunction setting runBody function arguments location) fun _ _ => True := by
  unfold Run.callFunction
  extract_lets arity
  split
  · exact .fail _ _
  · refine bind .get fun machine => ?_
    split
    · exact .fail _ _
    · rename_i allowed
      have ran := Nests.within (fun _ _ returned room => room.returns returned) function.closure
        (.body function.decl) (bindParams function.decl.params arguments) body
      refine through (fun _ _ => True) ?_ fun completion => .callResult _ _ _
      rw [call_eq_around]
      apply ran.around
      · rintro _ nested ⟨rfl, fits, room⟩
        have further : machine.callDepth < bounds.calls := by
          rw [← calls]
          exact Nat.lt_of_not_le allowed
        have counted := nested.counted
        have noted := nested.inits
        refine ⟨⟨nested.store, further, Nat.succ_le_succ counted, ?_, nested.quiet⟩, ?_,
          Nat.le_refl _, fun _ => .inl, fun held => held, fun _ single => single⟩
        · simp only [List.length_cons]
          omega
        · refine room.enter fits.low (Nat.le_refl _) (.inr ?_) fun _ known => ?_
          · simp only [Machine.left, List.length_cons]
            omega
          · exact congrArg Nat.succ (room.outside rfl known)
      · exact fun _ _ => ⟨Nat.le_refl _, fun _ => .inl, fun held => held, fun _ single => single⟩
      · intro machine later returned
        rw [returned.owners, returned.callDepth]
        exact ⟨rfl, rfl⟩

section Initializing

variable {evaluate : Expr → Run Value}
  (exprs : ∀ expr, expr.height < bounds.height →
    Nests bounds (fun machine => machine.HasRoom bounds depth expr.height expr.calls)
      (evaluate expr) fun _ _ => True)
include exprs

/-- The initial values of fields have room where there is room for code less high than the
bound. -/
protected theorem initializeDeclared (object : ObjectRef) (owner : ClassRef)
    {fields : List FieldDecl} (fit : FieldDecl.Fit fields bounds) :
    Nests bounds (fun machine => machine.Roomy bounds depth)
      (Run.initializeDeclared evaluate object owner fields) fun _ _ => True := by
  have stable : Stable bounds fun machine => machine.Roomy bounds depth :=
    fun _ _ returned roomy => roomy.returns returned
  induction fields with
  | nil => exact .pure fun _ _ => trivial
  | cons field rest ih =>
    have evaluated : Nests bounds (fun machine => machine.Roomy bounds depth)
        (Run.valueOrNil evaluate field.initial) fun _ _ => True := by
      cases initial : field.initial with
      | none => exact .pure fun _ _ => trivial
      | some expr =>
        obtain ⟨low, quiet⟩ := fit.initial List.mem_cons_self initial
        refine (exprs expr low).strengthen fun machine _ roomy => ⟨(roomy _ low).depth, ?_⟩
        intro calls known
        rw [quiet known] at calls
        cases calls
    exact andThen stable evaluated fun _ => andThen stable (.writeField _ _ _ _) fun _ =>
      ih fit.rest

/-- The room for the initialisers of a class is that of one more initialiser. -/
protected theorem initializeOwn (object : ObjectRef) (owner : ClassRef) :
    Nests bounds (fun machine => machine.HasRoom bounds (depth + 1) height true)
      (Run.initializeOwn evaluate object owner) fun _ _ => True := by
  refine bind (.inspect _) fun found => ?_
  split
  · rename_i decl superclass methods closure
    split
    · exact .pure fun _ _ => trivial
    · rintro machine ⟨nested, held, room⟩
      have fit : FieldDecl.Fit decl.fields bounds := nested.store.fields owner _ held.symm
      have opened := Nests.within (fun _ _ returned roomy => roomy.returns returned) closure
        (.thisOf decl) [("this", ⟨.object object, true⟩)]
        (Nests.initializeDeclared exprs object owner fit)
      have ran : Nests bounds (fun machine => machine.HasRoom bounds (depth + 1) height true)
          (Run.asOwner (some owner) do
            Run.noteInitializing
            Run.within closure (.thisOf decl) [("this", ⟨.object object, true⟩)]
              (Run.initializeDeclared evaluate object owner decl.fields)) fun _ _ => True := by
        rw [initializing_eq_around]
        apply opened.around
        · intro machine nested room
          have counted := nested.counted
          have noted := nested.inits
          have deeper : machine.initDepth ≤
              max machine.initDepth (machine.owners.length + 1 - machine.callDepth) :=
            Nat.le_max_left _ _
          -- Initialisers that call nothing are entered from outside of all others.
          have single (known : bounds.quiet = true) (before : machine.initDepth ≤ 1) :
              max machine.initDepth (machine.owners.length + 1 - machine.callDepth) ≤ 1 := by
            have outside := room.outside rfl known
            omega
          refine ⟨⟨nested.store, nested.calls, Nat.le_succ_of_le counted, ?_,
            fun known => single known (nested.quiet known)⟩, ?_,
            deeper, fun _ => .inl, fun held => held, single⟩
          · simp only [List.length_cons]
            omega
          · intro other low
            refine room.enter low deeper ?_ nofun
            simp only [Machine.left, List.length_cons]
            omega
        · exact fun _ _ => ⟨Nat.le_refl _, fun _ => .inl, fun held => held, fun _ single => single⟩
        · intro machine later returned
          exact ⟨congrArg List.tail returned.owners, returned.callDepth⟩
      exact ran machine ⟨nested, room⟩
  · exact .pure fun _ _ => trivial

/-- The initialisers of all classes of an object run in the room for one more initialiser. -/
protected theorem initializeFields (object : ObjectRef) (classes : List ClassRef) :
    Nests bounds (fun machine => machine.HasRoom bounds (depth + 1) height true)
      (Run.initializeFields evaluate object classes) fun _ _ => True := by
  induction classes with
  | nil => exact .pure fun _ _ => trivial
  | cons owner rest ih =>
    exact andThen (fun _ _ returned room => room.returns returned)
      (Nests.initializeOwn exprs object owner) fun _ => ih

end Initializing

/-- Making an instance takes the room of its initialisers, and then that of its constructor. -/
protected theorem instantiate {evaluate : Expr → Run Value}
    {runBody : List Statement → Run Completion}
    (calls : setting.options.maxCallDepth = bounds.calls)
    (exprs : ∀ expr, expr.height < bounds.height →
      Nests bounds (fun machine => machine.HasRoom bounds depth expr.height expr.calls)
        (evaluate expr) fun _ _ => True)
    (bodies : ∀ decl : FunctionDecl, decl.Fits bounds →
      Nests bounds (fun machine => machine.HasRoom bounds depth decl.height true)
        (runBody decl.body) fun _ _ => True)
    (ofClass : ClassRef) (arguments : List Value) (location : Location) :
    Nests bounds (fun machine => machine.HasRoom bounds (depth + 1) height true)
      (Run.instantiate setting evaluate runBody ofClass arguments location) fun _ _ => True := by
  have stable : Stable bounds fun machine => machine.HasRoom bounds (depth + 1) height true :=
    fun _ _ returned room => room.returns returned
  have created : Nests bounds (fun machine => machine.HasRoom bounds (depth + 1) height true)
      (Run.create (·.newObject ofClass)) fun _ _ => True :=
    of_returns (fun _ => rfl) fun _ _ _ =>
      .of_store rfl rfl (fun held => held.of_eq rfl rfl) rfl rfl
  refine andThen stable created fun object => bind (.inspect _) fun lineage => ?_
  refine Nests.strengthen
    (?_ : Nests bounds (fun machine => machine.HasRoom bounds (depth + 1) height true) _ _)
    fun _ _ holds => holds.2
  refine andThen stable (.initializeFields exprs object _) fun _ =>
    bind (.inspect _) fun found => ?_
  split
  · rename_i method
    have bound : Nests bounds
        (fun machine => method.decl.Fits bounds ∧
          machine.HasRoom bounds (depth + 1) height true)
        (Run.bindMethod method (.object object))
        fun function machine => function.decl = method.decl ∧ method.decl.Fits bounds ∧
          machine.HasRoom bounds (depth + 1) height true :=
      andThen (fun _ _ returned holds => ⟨holds.1, holds.2.returns returned⟩) (.newScope _ _ _)
        fun _ => .pure fun _ holds => ⟨rfl, holds⟩
    refine (bound.strengthen ?_).bind fun function => .assuming fun same => ?_
    · rintro machine nested ⟨held, room⟩
      exact ⟨nested.store.method? held.symm, room⟩
    · rw [← same]
      refine through (fun _ _ => True) ?_ fun _ => .pure fun _ _ => trivial
      refine assuming fun fits => ?_
      exact (Nests.callFunction calls (bodies function.decl fits) arguments location).strengthen
        fun _ _ room => ⟨fits, room⟩
  · split
    · exact .pure fun _ _ => trivial
    · exact .fail _ _

/-! ### Declarations -/

/-- The declaration of a function keeps to the room there is. -/
protected theorem declareFunction (decl : FunctionDecl) :
    Nests bounds (fun _ => decl.Fits bounds) (Run.declareFunction decl)
      fun _ _ => True :=
  bind .get fun _ => bind ((Nests.newFunction _).strengthen fun _ _ holds => holds.2)
    fun _ => .define _ _ _

/-- Looking for a superclass keeps to the room there is. -/
protected theorem superclassOf (className : String) (reference : SuperclassRef) :
    Nests bounds before (Run.superclassOf setting className reference) fun _ _ => True := by
  refine bind (.lookup _ _ _) fun value => ?_
  split
  · refine bind (.inspect _) fun object => ?_
    split
    · split
      · exact .fail _ _
      · exact .pure fun _ _ => trivial
    · exact .fail _ _
  · exact .fail _ _

/-- The declaration of a class keeps to the room there is. -/
protected theorem declareClass (decl : ClassDecl) :
    Nests bounds (fun _ => decl.Fits bounds) (Run.declareClass setting decl)
      fun _ _ => True := by
  have stable : Stable bounds fun _ => decl.Fits bounds := fun _ _ _ fits => fits
  have superclass : Nests bounds (fun _ => decl.Fits bounds)
      (Run.declaredSuperclass setting decl) fun _ _ => True := by
    unfold Run.declaredSuperclass
    split
    · exact bind (.superclassOf _ _) fun _ => .pure fun _ _ => trivial
    · exact .pure fun _ _ => trivial
  have closure (superclass : Option ClassRef) : Nests bounds
      (fun _ => decl.Fits bounds) (Run.classClosure decl superclass)
      fun _ _ => True := by
    refine bind .get fun machine => ?_
    dsimp only
    split
    · exact .newScope _ _ _
    · exact .pure fun _ _ => trivial
  refine andThen stable superclass fun superclass => andThen stable (closure superclass)
    fun closure => bind (.inspect _) fun owner => ?_
  refine through (fun _ _ => True) ?_ fun _ => .define _ _ _
  refine of_returns (fun _ => rfl) fun machine _ known =>
    .of_store rfl rfl (fun held => held.newClass ?_ fun name method found => ?_) rfl rfl
  · exact known.2.members.1
  · obtain ⟨written, member, _, rfl⟩ := classMethods_find? found
    exact known.2.members.2 written member

/-- An extension of a class keeps to the room there is. -/
protected theorem declareExtension (id : NodeId) (className : String) (decl : FunctionDecl)
    (location : Location) :
    Nests bounds (fun _ => decl.Fits bounds)
      (Run.declareExtension setting id className decl location) fun _ _ => True := by
  have stable : Stable bounds fun _ => decl.Fits bounds := fun _ _ _ fits => fits
  refine andThen stable (.lookup _ _ _) fun value => ?_
  split
  · refine bind (.inspect _) fun object => ?_
    split
    · split
      · exact .fail _ _
      · refine bind .get fun machine => ?_
        exact of_returns (fun _ => rfl) fun _ _ known =>
          .of_store rfl rfl (fun held => held.addMethod _ _ known.2.2) rfl rfl
    · exact .fail _ _
  · exact .fail _ _

/-- An evaluation that begins where code is nested is noted as one that nests. -/
protected theorem noting {expr : Expr} {step : Run Value}
    (inside : Nests bounds before step fun _ _ => True) :
    Nests bounds before (Run.noting expr step) fun _ _ => True := by
  rintro machine ⟨nested, holds⟩
  have ended := inside machine ⟨nested, holds⟩
  have noted (later : Machine) (deepens : machine.Deepens bounds later) (outcome) :
      machine.Deepens bounds (later.note ⟨expr, machine.env, machine.owners, machine.callDepth,
        machine.store.classes, outcome⟩) := by
    refine ⟨deepens.initDepth, fun evaluation member => ?_, deepens.store, deepens.quiet⟩
    rcases List.mem_cons.mp member with rfl | earlier
    · have deeper : machine.initDepth ≤ later.initDepth := deepens.initDepth
      exact .inr ⟨nested.calls, Nat.le_trans nested.inits (Nat.add_le_add_left deeper _)⟩
    · exact deepens.evaluations evaluation earlier
  unfold Run.noting
  dsimp only
  cases result : step machine with
  | ok value later =>
    rw [result] at ended
    obtain ⟨returned, _⟩ := ended
    exact ⟨⟨noted later returned.toDeepens _, returned.owners, returned.callDepth⟩, trivial⟩
  | error stop later =>
    rw [result] at ended
    exact ⟨noted later ended.1 _, ended.2⟩

end Nests

variable {bounds : Bounds} {setting : Setting} {inner : Routines} {depth : Nat}

/-- The body of a function that keeps to the bounds runs where it has room. -/
private theorem bodies (permitted : inner.Permitted (nestingRegime bounds) depth)
    {decl : FunctionDecl} (fits : decl.Fits bounds) :
    Nests bounds (fun machine => machine.HasRoom bounds depth decl.height true)
      (inner.executeAll decl.body) fun _ _ => True := by
  rw [FunctionDecl.height_eq]
  exact Leads.strengthen (permitted.executeAll decl.body)
    fun _ holds => ⟨holds.1, fits.body, holds.2⟩

/-- Code that has room obeys the laws of a run. -/
theorem lawful_nesting (calls : setting.options.maxCallDepth = bounds.calls) :
    (nestingRegime bounds).Lawful setting where
  keep returned allowed :=
    ⟨allowed.1.returns returned, allowed.2.1, allowed.2.2.returns returned⟩
  inside held allowed := by
    obtain ⟨nested, fits, room⟩ := allowed
    exact ⟨nested, fits.inside held,
      room.inside (Code.height_lt_of_holds held) (Code.calls_of_holds held)⟩
  exhausted {_ machine} allowed := by
    refine ⟨.refl machine, fun _ => ?_⟩
    rcases allowed.2.2.depth with deep | fits
    · exact deep
    · exact absurd fits (Nat.not_lt_zero _)
  alike alike := .of_store alike.initDepth alike.evaluations
    (fun held => held.of_eq alike.functions alike.classes) alike.owners alike.callDepth
  assign id name value location := Nests.assign id name value location
  property target name location := Nests.property target name location
  setProperty target name value location := Nests.setProperty target name value location
  superMethod id method location := Nests.superMethod id method location
  callFunction {depth expr inner ref function} arguments location call permitted := by
    rintro machine ⟨found, nested, _, room⟩
    have fits := nested.store.functions ref function found.symm
    rw [Code.calls, Expr.calls_of_isCall call] at room
    exact Nests.callFunction calls (bodies permitted fits) arguments location machine
      ⟨nested, fits, room⟩
  instantiate {depth expr inner} ofClass arguments location call permitted := by
    have made : Nests bounds (fun machine => machine.HasRoom bounds (depth + 1) expr.height true)
        (Run.instantiate setting inner.evaluate inner.executeAll ofClass arguments location)
        fun _ _ => True := by
      refine Nests.instantiate calls (fun part low => ?_) (fun decl fits => bodies permitted fits)
        _ _ _
      exact Leads.strengthen (permitted.evaluate part)
        fun _ holds => ⟨holds.1, ⟨low, fun _ => rfl⟩, holds.2⟩
    refine Leads.strengthen made fun _ allowed => ⟨allowed.1, ?_⟩
    have room := allowed.2.2
    rw [Code.calls, Expr.calls_of_isCall call] at room
    exact room
  noting _ inside := Nests.noting inside
  define name value isFinal := Nests.define name value isFinal
  opened {depth statement tag inside inner} opens permitted machine := by
    have stable : Nests.Stable bounds fun later => Code.Fits (.statements inside) bounds ∧
        later.HasRoom bounds depth (Statement.heightOf inside) true :=
      fun _ _ returned holds => ⟨holds.1, holds.2.returns returned⟩
    refine Leads.strengthen (Nests.within stable machine.env tag []
      (permitted.executeAll inside)) ?_
    rintro later ⟨rfl, nested, fits, room⟩
    exact ⟨nested, fits.opened opens, room.inside (Statement.heightOf_lt_of_opens opens) id⟩
  function decl := Leads.strengthen (Nests.declareFunction decl)
    fun _ allowed => ⟨allowed.1, allowed.2.1.function⟩
  classDecl decl := Leads.strengthen (Nests.declareClass decl)
    fun _ allowed => ⟨allowed.1, allowed.2.1.classDecl⟩
  extension id className decl location := Leads.strengthen
    (Nests.declareExtension id className decl location)
    fun _ allowed => ⟨allowed.1, allowed.2.1.extension⟩

end Scriptlet.Run
