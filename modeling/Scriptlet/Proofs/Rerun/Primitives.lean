import Scriptlet.Proofs.Rerun.Repeating
import Scriptlet.Proofs.Run.Declaring

/-!
# What a run does with names, properties, functions and classes repeats

Each of these steps repeats on top of what earlier runs left (`Run.Repeats`), as long as there are
no native modules. Names are where it matters: a step that ends well has found the name in what the
run itself has bound.
-/

namespace Scriptlet

namespace Store.Proper

variable {store after : Store}

/-- A change of nothing but arrays and objects. -/
theorem of_eq (proper : store.Proper) (scopes : after.scopes = store.scopes)
    (functions : after.functions = store.functions) (classes : after.classes = store.classes)
    (modules : after.modules = store.modules) : after.Proper where
  rooted := proper.rooted.of_scopes_eq scopes
  functions ref function found := by
    unfold function? at found
    rw [functions] at found
    exact proper.functions ref function found
  classes ref object found := by
    unfold class? at found
    rw [classes] at found
    exact proper.classes ref object found
  modules := modules.trans proper.modules

private theorem newScope (proper : store.Proper) (enclosing : Option ScopeRef) (tag : ScopeTag)
    (bindings : Table Binding) : (store.newScope enclosing tag bindings).2.Proper :=
  { proper with rooted := proper.rooted.newScope enclosing tag bindings }

private theorem define (proper : store.Proper) (ref : ScopeRef) (name : String) (value : Value)
    (isFinal : Bool) : (store.define ref name value isFinal).Proper :=
  { proper with rooted := proper.rooted.define name value isFinal ref }

private theorem newFunction (proper : store.Proper) {function : FunctionObject}
    (made : function.Proper) : (store.newFunction function).2.Proper := by
  refine { proper with
    rooted := proper.rooted.of_scopes_eq rfl
    functions := fun ref other found => ?_ }
  unfold function? Store.newFunction at found
  rw [Array.getElem?_push] at found
  split at found
  · cases found
    exact made
  · exact proper.functions ref other found

private theorem newClass (proper : store.Proper) {object : ClassObject} (made : object.Proper) :
    (store.newClass object).2.Proper := by
  refine { proper with
    rooted := proper.rooted.of_scopes_eq rfl
    classes := fun ref other found => ?_ }
  unfold class? Store.newClass at found
  rw [Array.getElem?_push] at found
  split at found
  · cases found
    exact made
  · exact proper.classes ref other found

private theorem addMethod (proper : store.Proper) (ref : ClassRef) {name : String}
    {method : MethodObject} (made : Statement.areProper method.decl.body = true) :
    (store.addMethod ref name method).Proper := by
  refine { proper with
    rooted := proper.rooted.of_scopes_eq rfl
    classes := fun other object found => ?_ }
  unfold class? Store.addMethod at found
  rw [Array.getElem?_modify] at found
  split at found
  · obtain ⟨earlier, known, rfl⟩ := Option.map_eq_some_iff.mp found
    refine ⟨fun query listed entry => ?_⟩
    rcases Table.find?_put_cases entry with ⟨_, rfl⟩ | before
    · exact made
    · exact (proper.classes other earlier known).methods query listed before
  · exact proper.classes other object found

/-- Of every class the methods it has are proper. -/
theorem method? (proper : store.Proper) {ref : ClassRef} {name : String} {method : MethodObject}
    (found : store.method? ref name = some method) :
    Statement.areProper method.decl.body = true := by
  obtain ⟨owner, object, known, own⟩ := exists_of_method? found
  exact (proper.classes owner object known).methods name method own

end Store.Proper

namespace Run

variable {past : Store} {setting : Setting}

namespace Repeats

/-- Making a scope repeats. -/
protected theorem newScope (enclosing : Option ScopeRef) (tag : ScopeTag)
    (bindings : Table Binding) :
    Repeats past (·.atop past) (Run.create (·.newScope enclosing tag bindings))
      (Run.create (·.newScope (enclosing.map (·.atop past)) tag
        (bindings.mapEntries (·.atop past)))) :=
  .create (fun _ proper => proper.newScope enclosing tag bindings)
    fun _ proper => Store.newScope_atop enclosing tag bindings proper.rooted past

/-- A step in a new scope. -/
protected theorem within {α β : Type} {moved : α → β} {step : Run α} {again : Run β}
    (inside : Repeats past moved step again) (enclosing : ScopeRef) (tag : ScopeTag)
    (bindings : Table Binding) :
    Repeats past moved (Run.within enclosing tag bindings step)
      (Run.within (enclosing.atop past) tag (bindings.mapEntries (·.atop past)) again) :=
  (Repeats.newScope (some enclosing) tag bindings).bind fun scope => inside.inScope scope

/-- Binding a name repeats. -/
protected theorem define (earlier : past.Rooted) (name : String) (value : Value)
    (isFinal : Bool) :
    Repeats past id (Run.define name value isFinal)
      (Run.define name (value.atop past) isFinal) := by
  intro machine result later proper ended
  cases ended
  refine ⟨proper.define machine.env name value isFinal, ?_⟩
  change EStateM.Result.ok _ { machine.atop past with
    store := (machine.store.atop past).define (machine.env.atop past) name (value.atop past)
      isFinal } = _
  rw [← Store.define_atop name value isFinal earlier proper.rooted]
  rfl

/-- Noting the use of a name repeats. -/
protected theorem noteUse (id : NodeId) (name : String) :
    Repeats past (·.atop past) (Run.noteUse id name) (Run.noteUse id name) := by
  intro machine use later proper ended
  cases ended
  exact ⟨proper, rfl⟩

private theorem valueOf?_atop (earlier : past.Rooted) (outermost : setting.globals = ⟨0⟩)
    {store : Store} (proper : store.Proper) {use : Use} {value : Value}
    (found : valueOf? setting use store = some value) :
    valueOf? setting (use.atop past) (store.atop past) = some (value.atop past) := by
  unfold valueOf? at found ⊢
  unfold Use.atop
  dsimp only
  cases recorded : setting.resolutions.distance? use.id with
  | some distance =>
      rw [recorded] at found
      exact Store.valueAt?_atop earlier proper.rooted found
  | none =>
      rw [recorded] at found
      rw [outermost] at found ⊢
      exact Store.value?_atop earlier proper.rooted found

/-- Looking up a name repeats, as the name is found in what the run has bound itself. -/
protected theorem lookup (earlier : past.Rooted) (outermost : setting.globals = ⟨0⟩) (id : NodeId)
    (name : String) (location : Location) :
    Repeats past (·.atop past) (Run.lookup setting id name location)
      (Run.lookup setting id name location) := by
  refine (Repeats.noteUse id name).bind fun use => .look fun store proper => ?_
  cases found : valueOf? setting use store with
  | none => exact .fail _ _ _
  | some value =>
      rw [valueOf?_atop earlier outermost proper found]
      exact .pure value

private theorem assignTarget_atop (earlier : past.Rooted) (outermost : setting.globals = ⟨0⟩)
    {store : Store} (proper : store.Proper) {use : Use} {target : ScopeRef}
    (found : assignTarget setting use store = .ok target) :
    assignTarget setting (use.atop past) (store.atop past) = .ok (target.atop past) := by
  unfold assignTarget at found ⊢
  unfold Use.atop
  dsimp only
  cases recorded : setting.resolutions.distance? use.id with
  | some distance =>
      rw [recorded] at found
      exact Store.assignTargetAt_atop earlier proper.rooted found
  | none =>
      rw [recorded] at found
      rw [outermost] at found ⊢
      exact Store.assignTarget_atop earlier proper.rooted found

/-- Assigning to a name repeats. -/
protected theorem assign (earlier : past.Rooted) (outermost : setting.globals = ⟨0⟩) (node : NodeId)
    (name : String) (value : Value) (location : Location) :
    Repeats past id (Run.assign setting node name value location)
      (Run.assign setting node name (value.atop past) location) := by
  refine (Repeats.noteUse node name).bind fun use => .look fun store proper => ?_
  cases found : assignTarget setting use store with
  | error fault => exact .fail _ _ _
  | ok target =>
      rw [assignTarget_atop earlier outermost proper found]
      exact .change (fun _ proper => proper.define target name value false)
        fun _ proper => Store.define_atop name value false earlier proper.rooted target

/-! ### Properties -/

/-- A method that gets its receiver closes over the scope of the receiver. -/
protected theorem bindMethod {β γ : Type} {onward : β → γ} {method : MethodObject}
    (body : Statement.areProper method.decl.body = true) (receiver : Value)
    {next : FunctionObject → Run β} {nextAgain : FunctionObject → Run γ}
    (rest : ∀ function : FunctionObject, function.Proper →
      Repeats past onward (next function) (nextAgain (function.atop past))) :
    Repeats past onward (Run.bindMethod method receiver >>= next)
      (Run.bindMethod (method.atop past) (receiver.atop past) >>= nextAgain) := by
  have binds : Repeats past (·.atop past) (Run.bindMethod method receiver)
      (Run.bindMethod (method.atop past) (receiver.atop past)) :=
    (Repeats.newScope (some method.closure) method.receiver [("this", ⟨receiver, true⟩)]).bind
      fun scope => .pure (⟨method.decl, scope, method.owner⟩ : FunctionObject)
  refine binds.bindKnowing (fun machine function later proper ended => ?_) rest
  cases ended
  refine ⟨body, fun _ outermost => ?_⟩
  exact Nat.ne_of_gt proper.rooted.size_pos (congrArg ScopeRef.index outermost)

/-- Making a function repeats. -/
protected theorem newFunction {function : FunctionObject} (made : function.Proper) :
    Repeats past (·.atop past) (Run.create (·.newFunction function))
      (Run.create (·.newFunction (function.atop past))) :=
  .create (fun _ proper => proper.newFunction made)
    fun store _ => Store.newFunction_atop store past function

/-- Making a function of a method and its receiver repeats. -/
protected theorem boundMethod {method : MethodObject}
    (body : Statement.areProper method.decl.body = true) (receiver : Value) :
    Repeats past (·.atop past) (Run.boundMethod method receiver)
      (Run.boundMethod (method.atop past) (receiver.atop past)) :=
  .bindMethod body receiver fun _ made => (Repeats.newFunction made).bind fun ref =>
    .pure (Value.function ref)

/-- Checking whether a field may be used repeats. -/
protected theorem checkAccess (slot : FieldSlot) (name : String) (location : Location) :
    Repeats past id (Run.checkAccess slot name location)
      (Run.checkAccess (slot.atop past) name location) := by
  refine .get fun machine _ => ?_
  have same : ((machine.atop past).owner != some (slot.atop past).owner) =
      (machine.owner != some slot.owner) := by
    rw [Machine.owner_atop]
    obtain ⟨_, _, _, _, ⟨own⟩⟩ := slot
    cases machine.owner with
    | none => rfl
    | some owner =>
        obtain ⟨owner⟩ := owner
        simp [FieldSlot.atop, ClassRef.atop, bne]
  rw [same]
  change Repeats past id _ (if slot.visibility = .ownClass && machine.owner != some slot.owner then
    _ else _)
  split
  · exact .fail _ _ _
  · exact .pure ()

/-- Noting the use of a field repeats. -/
protected theorem noteField (object : ObjectRef) (name : String) (slot : FieldSlot)
    (kind : FieldUseKind) :
    Repeats past id (Run.noteField object name slot kind)
      (Run.noteField (object.atop past) name (slot.atop past) kind) := by
  refine .modify (fun _ => rfl) fun machine => ?_
  rw [Machine.owner_atop]
  rfl

/-- Setting a field repeats. -/
protected theorem writeField (object : ObjectRef) (name : String) (slot : FieldSlot)
    (kind : FieldUseKind) :
    Repeats past id (Run.writeField object name slot kind)
      (Run.writeField (object.atop past) name (slot.atop past) kind) := by
  have written : Repeats past id (Run.change (·.putField object name slot))
      (Run.change (·.putField (object.atop past) name (slot.atop past))) :=
    .change (fun _ proper => proper.of_eq rfl rfl rfl rfl)
      fun store _ => Store.putField_atop store past object name slot
  exact written.andThen (.noteField object name slot kind)

/-- Reading a property of an object repeats. -/
protected theorem objectProperty (ref : ObjectRef) (name : String) (location : Location) :
    Repeats past (·.atop past) (Run.objectProperty ref name location)
      (Run.objectProperty (ref.atop past) name location) := by
  refine .get fun machine proper => ?_
  dsimp only [Machine.store_atop]
  rw [Store.field?_atop]
  cases machine.store.field? ref name with
  | some slot =>
      exact (Repeats.checkAccess slot name location).andThen
        ((Repeats.noteField ref name slot .read).andThen (.pure slot.value))
  | none =>
      rw [Option.map_none, Store.object?_atop]
      cases machine.store.object? ref with
      | none => exact .fail _ _ _
      | some object =>
          rw [Option.map_some, Option.bind_some, Option.bind_some, Instance.ofClass_atop,
            Store.method?_atop]
          cases found : machine.store.method? object.ofClass name with
          | none => exact .fail _ _ _
          | some method => exact .boundMethod (proper.method? found) (.object ref)

/-- Reading a property repeats. -/
protected theorem property (target : Value) (name : String) (location : Location) :
    Repeats past (·.atop past) (Run.property target name location)
      (Run.property (target.atop past) name location) := by
  cases target with
  | object ref => exact .objectProperty ref name location
  | moduleValue ref =>
      refine .look fun store proper => ?_
      have missing : store.module? ref = none := by
        unfold Store.module?
        rw [proper.modules]
        rfl
      rw [missing]
      exact .fail _ _ _
  | array ref =>
      change Repeats past _ (if name = lengthName then _ else _)
        (if name = lengthName then _ else _)
      split
      · refine .look fun store _ => ?_
        rw [Store.elements_atop, Array.size_map]
        exact .pure (Value.number _)
      · exact .fail _ _ _
  | string value =>
      change Repeats past _ (if name = lengthName then _ else _)
        (if name = lengthName then _ else _)
      split
      · exact .pure (Value.number _)
      · exact .fail _ _ _
  | _ => exact .fail _ _ _

/-- Assigning to a field of an object repeats. -/
protected theorem setField (ref : ObjectRef) (object : Instance) (name : String) (value : Value)
    (location : Location) :
    Repeats past id (Run.setField ref object name value location)
      (Run.setField (ref.atop past) (object.atop past) name (value.atop past) location) := by
  unfold Run.setField
  rw [Instance.fields_atop, Table.find?_mapEntries]
  cases object.fields.find? name with
  | none => exact .writeField ref name ⟨value, .everyone, false, true, object.ofClass⟩ .assigned
  | some slot =>
      refine (Repeats.checkAccess slot name location).andThen ?_
      change Repeats past id _ (if slot.isFinal && slot.assigned then _ else _)
      split
      · exact .fail _ _ _
      · exact .writeField ref name { slot with value := value, assigned := true } .assigned

/-- Setting a property repeats. -/
protected theorem setProperty (target : Value) (name : String) (value : Value)
    (location : Location) :
    Repeats past id (Run.setProperty target name value location)
      (Run.setProperty (target.atop past) name (value.atop past) location) := by
  cases target with
  | object ref =>
      refine .look fun store _ => ?_
      rw [Store.object?_atop]
      cases store.object? ref with
      | none => exact .fail _ _ _
      | some object => exact .setField ref object name value location
  | _ => exact .fail _ _ _

/-! ### Calls -/

private theorem bindParams_atop (past : Store) (params : List Parameter) (arguments : List Value) :
    bindParams params (arguments.map (·.atop past)) =
      (bindParams params arguments).mapEntries (·.atop past) := by
  unfold bindParams
  rw [List.zip_map_right, List.foldl_map]
  change List.foldl _ (Table.mapEntries (Binding.atop past) []) _ = _
  refine List.foldl_hom (Table.mapEntries (Binding.atop past)) fun bindings pair => ?_
  exact (Table.mapEntries_put (Binding.atop past) bindings pair.1.name ⟨pair.2, false⟩).symm

/-- What a call makes of the end of its body repeats. -/
protected theorem callResult (earlier : past.Rooted) {function : FunctionObject}
    (proper : function.Proper) (completion : Completion) (location : Location) :
    Repeats past (·.atop past) (Run.callResult function completion location)
      (Run.callResult (function.atop past) (completion.atop past) location) := by
  have result (value : Value) : Repeats past (·.atop past)
      (if function.decl.kind = .constructor then do
          return ((← inspect (·.valueIn? function.closure "this"))).getD .nil
        else return value : Run Value)
      (if function.decl.kind = .constructor then do
          return ((← inspect (·.valueIn? (function.closure.atop past) "this"))).getD .nil
        else return value.atop past : Run Value) := by
    split
    · rename_i made
      refine .look fun store known => ?_
      rw [Store.valueIn?_atop_inner earlier known.rooted (proper.inner made)]
      cases store.valueIn? function.closure "this" with
      | none => exact .pure Value.nil
      | some receiver => exact .pure receiver
    · exact .pure value
  cases completion with
  | normal => exact result .nil
  | returning value => exact result value
  | breaking => exact .fail _ _ _
  | continuing => exact .fail _ _ _

/-- Calling a function repeats if its body does. -/
protected theorem callFunction (earlier : past.Rooted)
    {runBody : List Statement → Run Completion}
    (bodies : ∀ body, Statement.areProper body = true →
      Repeats past (·.atop past) (runBody body) (runBody body))
    {function : FunctionObject} (proper : function.Proper) (arguments : List Value)
    (location : Location) :
    Repeats past (·.atop past) (Run.callFunction setting runBody function arguments location)
      (Run.callFunction setting runBody (function.atop past) (arguments.map (·.atop past))
        location) := by
  unfold Run.callFunction
  dsimp only
  rw [List.length_map]
  change Repeats past _ _ (if arguments.length ≠ function.decl.params.length then _ else _)
  split
  · exact .fail _ _ _
  refine .get fun machine _ => ?_
  change Repeats past _ _ (if setting.options.maxCallDepth ≤ machine.callDepth then _ else _)
  split
  · exact .fail _ _ _
  rw [bindParams_atop]
  have body :=
    (((bodies function.decl.body proper.body).within function.closure (.body function.decl)
      (bindParams function.decl.params arguments)).inCall).asOwner function.owner
  exact body.bind fun completion => .callResult earlier proper completion location

/-- The declaration of a function repeats. -/
protected theorem declareFunction (earlier : past.Rooted) {decl : FunctionDecl}
    (plain : decl.kind ≠ .constructor) (body : Statement.areProper decl.body = true) :
    Repeats past id (Run.declareFunction decl) (Run.declareFunction decl) := by
  refine .get fun machine proper => ?_
  have made : FunctionObject.Proper ⟨decl, machine.env, machine.owner⟩ :=
    ⟨body, fun isConstructor => absurd isConstructor plain⟩
  rw [Machine.owner_atop]
  exact (Repeats.newFunction made).bind fun ref =>
    .define earlier decl.name (.function ref) decl.isFinal

/-- Looking for a superclass repeats. -/
protected theorem superclassOf (earlier : past.Rooted) (outermost : setting.globals = ⟨0⟩)
    (className : String) (reference : SuperclassRef) :
    Repeats past (·.atop past) (Run.superclassOf setting className reference)
      (Run.superclassOf setting className reference) := by
  refine (Repeats.lookup earlier outermost _ _ _).bind fun value => ?_
  cases value with
  | classValue ref =>
      refine .look fun store _ => ?_
      rw [Store.class?_atop]
      cases store.class? ref with
      | none => exact .fail _ _ _
      | some superclass =>
          change Repeats past _ (if superclass.decl.isFinal then _ else _)
            (if superclass.decl.isFinal then _ else _)
          split
          · exact .fail _ _ _
          · exact .pure ref
  | _ => exact .fail _ _ _

/-- Looking for the superclass of a declaration repeats. -/
protected theorem declaredSuperclass (earlier : past.Rooted) (outermost : setting.globals = ⟨0⟩)
    (decl : ClassDecl) :
    Repeats past (Option.map (·.atop past)) (Run.declaredSuperclass setting decl)
      (Run.declaredSuperclass setting decl) := by
  unfold Run.declaredSuperclass
  cases decl.superclass with
  | none => exact .pure none
  | some reference =>
      exact (Repeats.superclassOf earlier outermost decl.name reference).bind fun ref =>
        .pure (some ref)

/-- Making the scope that a class closes over repeats. -/
protected theorem classClosure (decl : ClassDecl) (superclass : Option ClassRef) :
    Repeats past (·.atop past) (Run.classClosure decl superclass)
      (Run.classClosure decl (superclass.map (·.atop past))) := by
  refine .get fun machine _ => ?_
  cases superclass with
  | none => exact .pure machine.env
  | some ref =>
      exact .newScope (some machine.env) (.superOf decl) [("super", ⟨.classValue ref, true⟩)]

private theorem classMethods_atop (past : Store) (decl : ClassDecl) (owner : ClassRef)
    (closure : ScopeRef) :
    classMethods decl (owner.atop past) (closure.atop past) =
      (classMethods decl owner closure).mapEntries (·.atop past) := by
  unfold classMethods
  change List.foldl _ (Table.mapEntries (MethodObject.atop past) []) _ = _
  refine List.foldl_hom (Table.mapEntries (MethodObject.atop past)) fun table method => ?_
  exact (Table.mapEntries_put (MethodObject.atop past) table method.name
    ⟨method, closure, some owner, .thisOf decl⟩).symm

/-- The methods of a class are its members. -/
theorem proper_classMethods {decl : ClassDecl} (members : decl.isProper = true) (owner : ClassRef)
    (closure : ScopeRef) {name : String} {method : MethodObject}
    (listed : (classMethods decl owner closure).find? name = some method) :
    Statement.areProper method.decl.body = true := by
  obtain ⟨written, member, _, rfl⟩ := classMethods_find? listed
  rw [ClassDecl.isProper_eq] at members
  rw [← FunctionDecl.isProper_eq]
  exact FunctionDecl.isProper_of_mem members member

/-- The declaration of a class repeats. -/
protected theorem declareClass (earlier : past.Rooted) (outermost : setting.globals = ⟨0⟩)
    {decl : ClassDecl} (members : decl.isProper = true) :
    Repeats past id (Run.declareClass setting decl) (Run.declareClass setting decl) := by
  refine (Repeats.declaredSuperclass earlier outermost decl).bind fun superclass =>
    (Repeats.classClosure decl superclass).bind fun closure => .look fun store _ => ?_
  have owner : (⟨(store.atop past).classes.size⟩ : ClassRef) =
      ClassRef.atop past ⟨store.classes.size⟩ := by
    simp [Store.atop, ClassRef.atop]
  rw [owner, classMethods_atop]
  have made : Repeats past (·.atop past)
      (Run.create (·.newClass ⟨decl, superclass, classMethods decl ⟨store.classes.size⟩ closure,
        closure⟩))
      (Run.create (·.newClass (ClassObject.atop past ⟨decl, superclass,
        classMethods decl ⟨store.classes.size⟩ closure, closure⟩))) :=
    .create (fun _ proper => proper.newClass
        ⟨fun _ _ listed => proper_classMethods members _ _ listed⟩)
      fun later _ => Store.newClass_atop later past _
  exact made.bind fun ref => .define earlier decl.name (.classValue ref) decl.isFinal

/-- An extension of a class repeats. -/
protected theorem declareExtension (earlier : past.Rooted) (outermost : setting.globals = ⟨0⟩)
    (node : NodeId) (className : String) {decl : FunctionDecl}
    (body : Statement.areProper decl.body = true) (location : Location) :
    Repeats past id (Run.declareExtension setting node className decl location)
      (Run.declareExtension setting node className decl location) := by
  refine (Repeats.lookup earlier outermost _ _ _).bind fun value => ?_
  cases value with
  | classValue ref =>
      refine .look fun store _ => ?_
      rw [Store.class?_atop]
      cases store.class? ref with
      | none => exact .fail _ _ _
      | some object =>
          change Repeats past _ (if object.decl.isFinal then _ else _)
            (if object.decl.isFinal then _ else _)
          split
          · exact .fail _ _ _
          · refine .get fun machine _ => ?_
            exact .change (fun _ proper => proper.addMethod ref body)
              fun later _ => Store.addMethod_atop later past ref decl.name _
  | _ => exact .fail _ _ _

/-- Looking for a method of the superclass repeats. -/
protected theorem superMethod (earlier : past.Rooted) (node : NodeId) (method : String)
    (location : Location) :
    Repeats past (·.atop past) (Run.superMethod setting node method location)
      (Run.superMethod setting node method location) := by
  refine (Repeats.noteUse node "super").bind fun use => .get fun machine proper => ?_
  cases setting.resolutions.distance? node with
  | none => exact .fail _ _ _
  | some recorded =>
      cases recorded with
      | zero => exact .fail _ _ _
      | succ distance =>
          dsimp only
          cases built : machine.store.valueAt? use.env (distance + 1) "super" with
          | none => exact .fail _ _ _
          | some value =>
          cases received : machine.store.valueAt? use.env distance "this" with
          | none => cases value <;> exact .fail _ _ _
          | some receiver =>
              have builtAgain :
                  (machine.atop past).store.valueAt? (use.atop past).env (distance + 1)
                  "super" = some (value.atop past) :=
                Store.valueAt?_atop earlier proper.rooted built
              have receivedAgain : (machine.atop past).store.valueAt? (use.atop past).env distance
                  "this" = some (receiver.atop past) :=
                Store.valueAt?_atop earlier proper.rooted received
              rw [builtAgain, receivedAgain]
              cases value with
              | classValue superclass =>
                  dsimp only [Value.atop]
                  rw [Machine.store_atop, Store.method?_atop]
                  cases found : machine.store.method? superclass method with
                  | none => exact .fail _ _ _
                  | some method => exact .boundMethod (proper.method? found) receiver
              | _ => exact .fail _ _ _

/-! ### Instances -/

/-- Giving an object the fields of one class repeats if their initialisers do. -/
protected theorem initializeDeclared {evaluate : Expr → Run Value}
    (exprs : ∀ expr, Repeats past (·.atop past) (evaluate expr) (evaluate expr))
    (object : ObjectRef) (owner : ClassRef) (fields : List FieldDecl) :
    Repeats past id (Run.initializeDeclared evaluate object owner fields)
      (Run.initializeDeclared evaluate (object.atop past) (owner.atop past) fields) := by
  induction fields with
  | nil => exact .pure ()
  | cons field rest ih =>
      exact (Repeats.valueOrNil exprs field.initial).bind fun value =>
        (Repeats.writeField object field.name
          ⟨value, field.visibility, field.isFinal, field.initial.isSome, owner⟩ .declared)
            |>.andThen ih

/-- Noting that an initialiser runs repeats. -/
protected theorem noteInitializing :
    Repeats past id Run.noteInitializing Run.noteInitializing := by
  refine .modify (fun _ => rfl) fun machine => ?_
  simp [Machine.atop]

/-- Giving an object the own fields of a class repeats. -/
protected theorem initializeOwn {evaluate : Expr → Run Value}
    (exprs : ∀ expr, Repeats past (·.atop past) (evaluate expr) (evaluate expr))
    (object : ObjectRef) (owner : ClassRef) :
    Repeats past id (Run.initializeOwn evaluate object owner)
      (Run.initializeOwn evaluate (object.atop past) (owner.atop past)) := by
  refine .look fun store _ => ?_
  rw [Store.class?_atop]
  cases store.class? owner with
  | none => exact .pure ()
  | some known =>
      change Repeats past _ (if known.decl.fields.isEmpty then _ else _)
        (if known.decl.fields.isEmpty then _ else _)
      split
      · exact .pure ()
      · exact (Repeats.noteInitializing.andThen ((Repeats.initializeDeclared exprs object owner
          known.decl.fields).within known.closure (.thisOf known.decl)
          [("this", ⟨.object object, true⟩)])).asOwner (some owner)

/-- Giving an object the fields of its classes repeats. -/
protected theorem initializeFields {evaluate : Expr → Run Value}
    (exprs : ∀ expr, Repeats past (·.atop past) (evaluate expr) (evaluate expr))
    (object : ObjectRef) (owners : List ClassRef) :
    Repeats past id (Run.initializeFields evaluate object owners)
      (Run.initializeFields evaluate (object.atop past) (owners.map (·.atop past))) := by
  induction owners with
  | nil => exact .pure ()
  | cons owner rest ih => exact (Repeats.initializeOwn exprs object owner).andThen ih

/-- Making an instance repeats if initialisers and bodies do. -/
protected theorem instantiate (earlier : past.Rooted) {evaluate : Expr → Run Value}
    {runBody : List Statement → Run Completion}
    (exprs : ∀ expr, Repeats past (·.atop past) (evaluate expr) (evaluate expr))
    (bodies : ∀ body, Statement.areProper body = true →
      Repeats past (·.atop past) (runBody body) (runBody body))
    (ofClass : ClassRef) (arguments : List Value) (location : Location) :
    Repeats past (·.atop past) (Run.instantiate setting evaluate runBody ofClass arguments location)
      (Run.instantiate setting evaluate runBody (ofClass.atop past) (arguments.map (·.atop past))
        location) := by
  have made : Repeats past (·.atop past) (Run.create (·.newObject ofClass))
      (Run.create (·.newObject (ofClass.atop past))) :=
    .create (fun _ proper => proper.of_eq rfl rfl rfl rfl)
      fun store _ => Store.newObject_atop store past ofClass
  refine made.bind fun object => .look fun store _ => ?_
  rw [Store.lineage_atop, ← List.map_reverse]
  refine (Repeats.initializeFields exprs object (store.lineage ofClass).reverse).andThen
    (.look fun later proper => ?_)
  rw [Store.method?_atop]
  cases found : later.method? ofClass constructorName with
  | none =>
      rw [Option.map_none]
      dsimp only
      rw [List.isEmpty_map, List.length_map]
      split
      · exact .pure (Value.object object)
      · exact .fail _ _ _
  | some method =>
      exact .bindMethod (proper.method? found) (.object object) fun function made =>
        (Repeats.callFunction earlier bodies made arguments location).andThen
          (.pure (Value.object object))

/-- Without native modules there is no native call. -/
theorem moduleNamed (isolated : setting.modules = []) (name : String) (location : Location) :
    Run.moduleNamed setting name location = Run.fail (.unknownModule name) location := by
  unfold Run.moduleNamed
  rw [isolated]
  rfl

/-- Without native modules no call of a native function ends well. -/
protected theorem callNative (isolated : setting.modules = []) (binding : NativeBinding)
    (arguments : List Value) (location : Location) (again : Run Value) :
    Repeats past (·.atop past) (Run.callNative setting binding arguments location) again := by
  intro machine value later _ ended
  obtain ⟨moduleName, name, arity⟩ := binding
  unfold Run.callNative at ended
  dsimp only at ended
  rw [moduleNamed isolated] at ended
  cases arity with
  | none => cases ended
  | some arity =>
      by_cases fits : arity = arguments.length
      · rw [if_neg (by simp [fits])] at ended
        cases ended
      · rw [if_pos (by simp [fits])] at ended
        cases ended

/-- A call repeats if the code it runs does. -/
protected theorem call (earlier : past.Rooted) (isolated : setting.modules = [])
    {evaluate : Expr → Run Value} {runBody : List Statement → Run Completion}
    (exprs : ∀ expr, Repeats past (·.atop past) (evaluate expr) (evaluate expr))
    (bodies : ∀ body, Statement.areProper body = true →
      Repeats past (·.atop past) (runBody body) (runBody body))
    (callee : Value) (arguments : List Value) (location : Location) :
    Repeats past (·.atop past) (Run.call setting evaluate runBody callee arguments location)
      (Run.call setting evaluate runBody (callee.atop past) (arguments.map (·.atop past))
        location) := by
  cases callee with
  | function ref =>
      refine .look fun store proper => ?_
      rw [Store.function?_atop]
      cases found : store.function? ref with
      | none => exact .fail _ _ _
      | some function =>
          exact .callFunction earlier bodies (proper.functions ref function found)
            arguments location
  | classValue ref => exact .instantiate earlier exprs bodies ref arguments location
  | native binding => exact .callNative isolated binding arguments location _
  | _ => exact .fail _ _ _

end Repeats

end Run

end Scriptlet
