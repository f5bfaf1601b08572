import Scriptlet.Proofs.Renumbering.Running

/-!
# Names, properties, functions and classes with other numbers

What a run does with names, properties, functions and classes goes as it goes with other numbers
(`Run.Mirrored`).
-/

namespace Scriptlet.Run

variable {numbers : Renumbering} {bound : Nat} {setting settingTwin : Setting}

namespace Mirrored

/-! ### Names -/

/-- The use of a name is noted under the other number of its node. -/
protected theorem noteUse (node : NodeId) (name : String) :
    Mirrored numbers bound (fun use => (⟨numbers.onNode use.id, use.name, use.env⟩ : Use))
      (Run.noteUse (numbers.onNode node) name) (Run.noteUse node name) := by
  refine Mirrors.modifyGet (fun _ holds => holds) (fun machine twin met _ => ?_)
    fun machine twin met _ => ?_
  · exact congrArg (Use.mk _ _) met.env
  · exact { met with }

variable (same : setting.Twin numbers.onNode settingTwin)
include same

private theorem valueOf?_renumber {store twin : Store} (met : store.Twin numbers twin) (use : Use) :
    valueOf? settingTwin ⟨numbers.onNode use.id, use.name, use.env⟩ twin =
      (valueOf? setting use store).map (Value.renumber numbers) := by
  unfold valueOf?
  dsimp only
  rw [same.resolutions, same.globals]
  cases setting.resolutions.distance? use.id with
  | some distance => exact met.valueAt? use.env distance use.name
  | none => exact met.value? setting.globals use.name

/-- A name has the value it has, with other numbers. -/
protected theorem lookup (node : NodeId) (name : String) (location : Location) :
    Mirrored numbers bound (Value.renumber numbers)
      (Run.lookup settingTwin (numbers.onNode node) name location)
      (Run.lookup setting node name location) := by
  refine (Mirrored.noteUse node name).bind fun use => .look fun store twin met => ?_
  rw [valueOf?_renumber same met]
  cases valueOf? setting use store with
  | none => exact .fail _ _
  | some value => exact .pure value

private theorem assignTarget_renumber {store twin : Store} (met : store.Twin numbers twin)
    (use : Use) :
    Run.assignTarget settingTwin ⟨numbers.onNode use.id, use.name, use.env⟩ twin =
      Run.assignTarget setting use store := by
  unfold Run.assignTarget
  dsimp only
  rw [same.resolutions, same.globals]
  cases setting.resolutions.distance? use.id with
  | some distance => exact met.assignTargetAt use.env distance use.name
  | none => exact met.assignTarget setting.globals use.name

/-- Assigning to a name goes the same with other numbers. -/
protected theorem assign (node : NodeId) (name : String) (value : Value) (location : Location) :
    Mirrored numbers bound id
      (Run.assign settingTwin (numbers.onNode node) name (value.renumber numbers) location)
      (Run.assign setting node name value location) := by
  refine (Mirrored.noteUse node name).bind fun use => .look fun store twin met => ?_
  rw [assignTarget_renumber same met]
  cases Run.assignTarget setting use store with
  | error fault => exact .fail _ _
  | ok scope =>
      exact .change (fun _ _ met => met.define scope name value false) (fun _ => rfl)
        (fun _ => rfl) fun _ => rfl

omit same

/-! ### Properties -/

/-- Making a function goes the same with other numbers. -/
protected theorem newFunction (function : FunctionObject) :
    Mirrored numbers bound id (Run.create (·.newFunction (function.renumber numbers)))
      (Run.create (·.newFunction function)) :=
  .create (fun _ _ met => congrArg FunctionRef.mk met.functions_size)
    (fun _ _ met => met.newFunction function) (fun _ => rfl) (fun _ => rfl) fun _ => rfl

/-- Binding a method to its receiver goes the same with other numbers. -/
protected theorem bindMethod (method : MethodObject) (receiver : Value) :
    Mirrored numbers bound (FunctionObject.renumber numbers)
      (Run.bindMethod (method.renumber numbers) (receiver.renumber numbers))
      (Run.bindMethod method receiver) :=
  (Mirrored.newScope (some method.closure) method.receiver [("this", ⟨receiver, true⟩)]).bind
    fun scope => .pure (⟨method.decl, scope, method.owner⟩ : FunctionObject)

/-- Making a function of a method and its receiver goes the same with other numbers. -/
protected theorem boundMethod (method : MethodObject) (receiver : Value) :
    Mirrored numbers bound (Value.renumber numbers)
      (Run.boundMethod (method.renumber numbers) (receiver.renumber numbers))
      (Run.boundMethod method receiver) :=
  (Mirrored.bindMethod method receiver).bind fun function =>
    (Mirrored.newFunction function).bind fun ref => .pure (Value.function ref)

/-- Code is code of the class that owns a field exactly if it is so with other numbers. -/
theorem owns_renumber (owner : Option ClassRef) (slot : FieldSlot) :
    (owner.map (ClassRef.renumber numbers) != some (slot.renumber numbers).owner) =
      (owner != some slot.owner) := by
  cases owner with
  | none => rfl
  | some owner =>
      have same : (owner.renumber numbers = slot.owner.renumber numbers) ↔ owner = slot.owner :=
        ClassRef.renumber_injective.eq_iff
      simp [FieldSlot.renumber, bne, Bool.beq_eq_decide_eq, same]

/-- A field may be used by the same code with other numbers. -/
protected theorem checkAccess (slot : FieldSlot) (name : String) (location : Location) :
    Mirrored numbers bound id (Run.checkAccess (slot.renumber numbers) name location)
      (Run.checkAccess slot name location) := by
  refine .see fun machine twin near => ?_
  rw [near.owner, owns_renumber]
  exact .ite (.fail _ _) (.pure ())

/-- The use of a field is noted with the other numbers of its slot. -/
protected theorem noteField (object : ObjectRef) (name : String) (slot : FieldSlot)
    (kind : FieldUseKind) :
    Mirrored numbers bound id (Run.noteField object name (slot.renumber numbers) kind)
      (Run.noteField object name slot kind) :=
  .modify (fun _ => rfl) fun _ _ met => { met with }

/-- Setting a field goes the same with other numbers. -/
protected theorem writeField (object : ObjectRef) (name : String) (slot : FieldSlot)
    (kind : FieldUseKind) :
    Mirrored numbers bound id (Run.writeField object name (slot.renumber numbers) kind)
      (Run.writeField object name slot kind) := by
  have written : Mirrored numbers bound id
      (Run.change (·.putField object name (slot.renumber numbers)))
      (Run.change (·.putField object name slot)) :=
    .change (fun _ _ met => met.putField object name slot) (fun _ => rfl) (fun _ => rfl)
      fun _ => rfl
  exact written.andThen (.noteField object name slot kind)

/-- The property of an object is what it is, with other numbers. -/
protected theorem objectProperty (ref : ObjectRef) (name : String) (location : Location) :
    Mirrored numbers bound (Value.renumber numbers) (Run.objectProperty ref name location)
      (Run.objectProperty ref name location) := by
  refine .see fun machine twin near => ?_
  dsimp only
  rw [near.store.field?]
  cases machine.store.field? ref name with
  | some slot =>
      exact (Mirrored.checkAccess slot name location).andThen
        ((Mirrored.noteField ref name slot .read).andThen (.pure slot.value))
  | none =>
      rw [Option.map_none, near.store.object?]
      cases machine.store.object? ref with
      | none => exact .fail _ _
      | some object =>
          rw [Option.map_some, Option.bind_some, Option.bind_some]
          rw [show twin.store.method? (object.renumber numbers).ofClass name = _ from
            near.store.method? object.ofClass name]
          cases machine.store.method? object.ofClass name with
          | none => exact .fail _ _
          | some method => exact .boundMethod method (.object ref)

/-- The property of a native module is what it is. -/
protected theorem moduleProperty (ref : ModuleRef) (name : String) (location : Location) :
    Mirrored numbers bound (Value.renumber numbers) (Run.moduleProperty ref name location)
      (Run.moduleProperty ref name location) := by
  refine .look fun store twin met => ?_
  rw [met.module?]
  cases store.module? ref with
  | none => exact .fail _ _
  | some native => exact .ite (.pure (Value.native ⟨native.name, name, none⟩)) (.fail _ _)

/-- Reading a property goes the same with other numbers. -/
protected theorem property (target : Value) (name : String) (location : Location) :
    Mirrored numbers bound (Value.renumber numbers)
      (Run.property (target.renumber numbers) name location)
      (Run.property target name location) := by
  cases target with
  | object ref => exact .objectProperty ref name location
  | moduleValue ref => exact .moduleProperty ref name location
  | array ref =>
      refine .ite (.look fun store twin met => ?_) (.fail _ _)
      rw [show twin.elements (numbers.moving.array ref) = _ from met.moved.elements ref,
        Array.size_map]
      exact .pure (Value.number _)
  | string value => exact .ite (.pure (Value.number _)) (.fail _ _)
  | _ => exact .fail _ _

/-- Assigning to a field of an object goes the same with other numbers. -/
protected theorem setField (ref : ObjectRef) (object : Instance) (name : String) (value : Value)
    (location : Location) :
    Mirrored numbers bound id
      (Run.setField ref (object.renumber numbers) name (value.renumber numbers) location)
      (Run.setField ref object name value location) := by
  unfold Run.setField
  rw [show (object.renumber numbers).fields.find? name = _ from
    Table.find?_mapEntries (FieldSlot.renumber numbers) object.fields name]
  cases object.fields.find? name with
  | none => exact .writeField ref name ⟨value, .everyone, false, true, object.ofClass⟩ .assigned
  | some slot =>
      refine (Mirrored.checkAccess slot name location).andThen (.ite (.fail _ _) ?_)
      exact .writeField ref name { slot with value := value, assigned := true } .assigned

/-- Setting a property goes the same with other numbers. -/
protected theorem setProperty (target : Value) (name : String) (value : Value)
    (location : Location) :
    Mirrored numbers bound id
      (Run.setProperty (target.renumber numbers) name (value.renumber numbers) location)
      (Run.setProperty target name value location) := by
  cases target with
  | object ref =>
      refine .look fun store twin met => ?_
      rw [show twin.object? (numbers.moving.object ref) = _ from met.object? ref]
      cases store.object? ref with
      | none => exact .fail _ _
      | some object => exact .setField ref object name value location
  | _ => exact .fail _ _

/-! ### Native functions -/

section Native

variable (same : setting.Twin numbers.onNode settingTwin)
include same

/-- The same module has a name. -/
protected theorem moduleNamed (name : String) (location : Location) :
    Mirrored numbers bound id (Run.moduleNamed settingTwin name location)
      (Run.moduleNamed setting name location) := by
  unfold Run.moduleNamed
  rw [same.modules]
  cases setting.modules.find? name with
  | none => exact .fail _ _
  | some ref =>
      refine .look fun store twin met => ?_
      rw [met.module?]
      cases store.module? ref with
      | none => exact .fail _ _
      | some native => exact .pure (ref, native)

/-- A native function that does not look at classes goes the same with other numbers. -/
protected theorem callNative (binding : NativeBinding) (arguments : List Value)
    (location : Location) :
    Mirrored numbers bound (Value.renumber numbers)
      (Run.callNative settingTwin binding (arguments.map (Value.renumber numbers)) location)
      (Run.callNative setting binding arguments location) := by
  unfold Run.callNative
  rw [List.length_map, same.options]
  refine .ite (.fail _ _) ((Mirrored.moduleNamed same binding.moduleName location).bind
    fun found => ?_)
  obtain ⟨ref, native⟩ := found
  dsimp only [id]
  rw [NativeModule.select_renumber]
  cases native.select binding.name arguments setting.options.permitAmbiguous with
  | error fault => exact .fail _ _
  | ok selection =>
      refine (Mirrored.invoke ref binding.name selection.place arguments).bind fun result => ?_
      cases result with
      | ok value => exact .pure value
      | error message => exact .fail _ _

/-- The declaration of a native function goes the same with other numbers. -/
protected theorem declareNative (moduleName name : String) (arity : Nat) (location : Location) :
    Mirrored numbers bound id (Run.declareNative settingTwin moduleName name arity location)
      (Run.declareNative setting moduleName name arity location) :=
  (Mirrored.moduleNamed same moduleName location).bind fun _ =>
    .ite (.define name (.native ⟨moduleName, name, some arity⟩) false) (.fail _ _)

/-- The declaration of a module goes the same with other numbers. -/
protected theorem declareModule (name : String) (location : Location) :
    Mirrored numbers bound id (Run.declareModule settingTwin name location)
      (Run.declareModule setting name location) :=
  (Mirrored.moduleNamed same name location).bind fun found =>
    .define name (.moduleValue found.1) false

end Native

/-! ### Functions -/

private theorem bindParams_renumber (params : List Parameter) (arguments : List Value) :
    bindParams (params.map (Parameter.relabel id)) (arguments.map (Value.renumber numbers)) =
      (bindParams params arguments).mapEntries (Binding.renumber numbers) := by
  unfold bindParams
  rw [List.zip_map, List.foldl_map]
  change List.foldl _ (Table.mapEntries (Binding.renumber numbers) []) _ = _
  refine List.foldl_hom (Table.mapEntries (Binding.renumber numbers)) fun bindings pair => ?_
  exact (Table.mapEntries_put (Binding.renumber numbers) bindings pair.1.name
    ⟨pair.2, false⟩).symm

/-- What a call makes of the end of its body is the same with other numbers. -/
protected theorem callResult (function : FunctionObject) (completion : Completion)
    (location : Location) :
    Mirrored numbers bound (Value.renumber numbers)
      (Run.callResult (function.renumber numbers) (completion.renumber numbers) location)
      (Run.callResult function completion location) := by
  have kind : (function.renumber numbers).decl.kind = function.decl.kind := by
    obtain ⟨⟨⟩, _, _⟩ := function
    rfl
  unfold Run.callResult
  rw [kind]
  have result (value : Value) : Mirrored numbers bound (Value.renumber numbers)
      (if function.decl.kind = .constructor then do
          return ((← inspect (·.valueIn? function.closure "this"))).getD .nil
        else return value.renumber numbers : Run Value)
      (if function.decl.kind = .constructor then do
          return ((← inspect (·.valueIn? function.closure "this"))).getD .nil
        else return value : Run Value) := by
    refine .ite (.look fun store twin met => ?_) (.pure value)
    rw [met.valueIn?]
    cases store.valueIn? function.closure "this" with
    | none => exact .pure Value.nil
    | some receiver => exact .pure receiver
  cases completion with
  | normal => exact result .nil
  | returning value => exact result value
  | breaking => exact .fail _ _
  | continuing => exact .fail _ _

section Calls

variable {evaluate evaluateImage : Expr → Run Value}
  {runBody runBodyImage : List Statement → Run Completion}
  (same : setting.Twin numbers.onNode settingTwin)
  (exprs : ∀ expr, Mirrored numbers bound (Value.renumber numbers)
    (evaluateImage (expr.renumber numbers.onNode)) (evaluate expr))
  (bodies : ∀ body, Mirrored numbers bound (Completion.renumber numbers)
    (runBodyImage (Statement.renumberAll numbers.onNode body)) (runBody body))

include same bodies in
/-- Calling a function goes the same with other numbers if its body does. -/
protected theorem callFunction (function : FunctionObject) (arguments : List Value)
    (location : Location) :
    Mirrored numbers bound (Value.renumber numbers)
      (Run.callFunction settingTwin runBodyImage (function.renumber numbers)
        (arguments.map (Value.renumber numbers)) location)
      (Run.callFunction setting runBody function arguments location) := by
  obtain ⟨⟨name, kind, params, body, isFinal, place⟩, closure, owner⟩ := function
  unfold Run.callFunction
  rw [List.length_map]
  dsimp only [FunctionObject.renumber, FunctionDecl.renumber, FunctionDecl.relabel]
  rw [List.length_map, same.options, bindParams_renumber]
  refine .ite (.fail _ _) (.see fun machine twin near => ?_)
  rw [near.callDepth]
  refine .ite (.fail _ _) ?_
  have ran := (((bodies body).within closure (.body ⟨name, kind, params, body, isFinal, place⟩)
    (bindParams params arguments)).inCall).asOwner owner
  exact ran.bind fun completion => .callResult
    ⟨⟨name, kind, params, body, isFinal, place⟩, closure, owner⟩ completion location

/-- The declaration of a function goes the same with other numbers. -/
protected theorem declareFunction (decl : FunctionDecl) :
    Mirrored numbers bound id (Run.declareFunction (decl.renumber numbers.onNode))
      (Run.declareFunction decl) := by
  have name : (decl.renumber numbers.onNode).name = decl.name := decl.name_renumber
  have isFinal : (decl.renumber numbers.onNode).isFinal = decl.isFinal := decl.isFinal_renumber
  refine .see fun machine twin near => ?_
  rw [near.owner, near.env, name, isFinal]
  exact (Mirrored.newFunction ⟨decl, machine.env, machine.owner⟩).bind fun ref =>
    .define decl.name (.function ref) decl.isFinal

/-! ### Classes -/

include same

/-- A superclass is found under the other number of its class. -/
protected theorem superclassOf (className : String) (reference : SuperclassRef) :
    Mirrored numbers bound (ClassRef.renumber numbers)
      (Run.superclassOf settingTwin className (reference.relabel numbers.onNode id))
      (Run.superclassOf setting className reference) := by
  refine (Mirrored.lookup same _ _ _).bind fun value => ?_
  cases value with
  | classValue ref =>
      refine .look fun store twin met => ?_
      rw [show twin.class? (numbers.moving.classRef ref) = _ from met.classes ref]
      cases store.class? ref with
      | none => exact .fail _ _
      | some superclass =>
          obtain ⟨⟨name, superclass, fields, methods, isFinal, place⟩, _, _, _⟩ := superclass
          exact .ite (.fail _ _) (.pure ref)
  | _ => exact .fail _ _

/-- The superclass of a declaration is found under the other number of its class. -/
protected theorem declaredSuperclass (decl : ClassDecl) :
    Mirrored numbers bound (Option.map (ClassRef.renumber numbers))
      (Run.declaredSuperclass settingTwin (decl.renumber numbers.onNode))
      (Run.declaredSuperclass setting decl) := by
  obtain ⟨name, superclass, fields, methods, isFinal, place⟩ := decl
  cases superclass with
  | none => exact .pure none
  | some reference =>
      exact (Mirrored.superclassOf same name reference).bind fun ref => .pure (some ref)

omit same

/-- Making the scope that a class closes over goes the same with other numbers. -/
protected theorem classClosure (decl : ClassDecl) (superclass : Option ClassRef) :
    Mirrored numbers bound id
      (Run.classClosure (decl.renumber numbers.onNode)
        (superclass.map (ClassRef.renumber numbers)))
      (Run.classClosure decl superclass) := by
  refine .see fun machine twin near => ?_
  dsimp only
  rw [near.env]
  cases superclass with
  | none => exact .pure machine.env
  | some ref =>
      exact .newScope (some machine.env) (.superOf decl) [("super", ⟨.classValue ref, true⟩)]

private theorem classMethods_renumber (decl : ClassDecl) (owner : ClassRef) (closure : ScopeRef) :
    classMethods (decl.renumber numbers.onNode) (owner.renumber numbers) closure =
      (classMethods decl owner closure).mapEntries (MethodObject.renumber numbers) := by
  have methods : (decl.renumber numbers.onNode).methods =
      decl.methods.map (FunctionDecl.relabel numbers.onNode id) := by
    obtain ⟨name, superclass, fields, methods, isFinal, place⟩ := decl
    exact FunctionDecl.relabelAll_eq_map id methods
  unfold classMethods
  rw [methods, List.foldl_map]
  change List.foldl _ (Table.mapEntries (MethodObject.renumber numbers) []) _ = _
  refine List.foldl_hom (Table.mapEntries (MethodObject.renumber numbers)) fun table method => ?_
  rw [FunctionDecl.name_renumber]
  exact (Table.mapEntries_put (MethodObject.renumber numbers) table method.name
    ⟨method, closure, some owner, .thisOf decl⟩).symm

/-- The class that a class is made with as the owner of its methods is the one that is made. -/
theorem declareClass_eq (setting : Setting) (decl : ClassDecl) :
    Run.declareClass setting decl = (do
      let superclass ← Run.declaredSuperclass setting decl
      let closure ← Run.classClosure decl superclass
      let ref ← Run.create fun store => store.newClass
        ⟨decl, superclass, classMethods decl ⟨store.classes.size⟩ closure, closure⟩
      Run.define decl.name (.classValue ref) decl.isFinal) := rfl

include same

/-- The declaration of a class goes the same with other numbers, the class getting the other number
of the one in its place. -/
protected theorem declareClass (decl : ClassDecl) :
    Mirrored numbers bound id (Run.declareClass settingTwin (decl.renumber numbers.onNode))
      (Run.declareClass setting decl) := by
  have name : (decl.renumber numbers.onNode).name = decl.name := by obtain ⟨⟩ := decl; rfl
  have isFinal : (decl.renumber numbers.onNode).isFinal = decl.isFinal := by
    obtain ⟨⟩ := decl
    rfl
  rw [declareClass_eq, declareClass_eq, name, isFinal]
  refine (Mirrored.declaredSuperclass same decl).bind fun superclass =>
    (Mirrored.classClosure decl superclass).bind fun closure =>
      (Mirrored.newClass fun store twin _ next => ?_).bind fun ref =>
        .define decl.name (.classValue ref) decl.isFinal
  rw [← next]
  exact congrArg (ClassObject.mk _ _ · _) (classMethods_renumber decl ⟨store.classes.size⟩ closure)

/-- An extension of a class goes the same with other numbers. -/
protected theorem declareExtension (node : NodeId) (className : String) (decl : FunctionDecl)
    (location : Location) :
    Mirrored numbers bound id
      (Run.declareExtension settingTwin (numbers.onNode node) className
        (decl.renumber numbers.onNode) location)
      (Run.declareExtension setting node className decl location) := by
  have name : (decl.renumber numbers.onNode).name = decl.name := decl.name_renumber
  refine (Mirrored.lookup same _ _ _).bind fun value => ?_
  cases value with
  | classValue ref =>
      refine .look fun store twin met => ?_
      rw [show twin.class? (numbers.moving.classRef ref) = _ from met.classes ref]
      cases store.class? ref with
      | none => exact .fail _ _
      | some object =>
          obtain ⟨⟨_, superclass, fields, methods, isFinal, place⟩, _, _, _⟩ := object
          refine .ite (.fail _ _) (.see fun machine twin near => ?_)
          dsimp only
          rw [near.env, name]
          exact .change (fun _ _ met => met.addMethod ref decl.name
              ⟨decl, machine.env, none, .extensionThis node decl⟩) (fun _ => rfl)
            (fun _ => Array.size_modify) fun _ => Array.size_modify
  | _ => exact .fail _ _

/-- A method of the superclass is what it is, with other numbers. -/
protected theorem superMethod (node : NodeId) (method : String) (location : Location) :
    Mirrored numbers bound (Value.renumber numbers)
      (Run.superMethod settingTwin (numbers.onNode node) method location)
      (Run.superMethod setting node method location) := by
  refine (Mirrored.noteUse node "super").bind fun use => .see fun machine twin near => ?_
  rw [same.resolutions]
  cases setting.resolutions.distance? node with
  | none => exact .fail _ _
  | some recorded =>
      cases recorded with
      | zero => exact .fail _ _
      | succ distance =>
          dsimp only
          rw [near.store.valueAt?, near.store.valueAt?]
          cases machine.store.valueAt? use.env (distance + 1) "super" with
          | none => exact .fail _ _
          | some value =>
              cases machine.store.valueAt? use.env distance "this" with
              | none => cases value <;> exact .fail _ _
              | some receiver =>
                  cases value with
                  | classValue superclass =>
                      dsimp only [Option.map_some, Value.renumber, Value.move]
                      rw [show twin.store.method? (numbers.moving.classRef superclass) method = _
                        from near.store.method? superclass method]
                      cases machine.store.method? superclass method with
                      | none => exact .fail _ _
                      | some found => exact .boundMethod found receiver
                  | _ => exact .fail _ _

/-! ### Instances -/

omit same

include exprs in
/-- Giving an object the fields of one class goes the same with other numbers if their initialisers
do. -/
protected theorem initializeDeclared (object : ObjectRef) (owner : ClassRef)
    (fields : List FieldDecl) :
    Mirrored numbers bound id
      (Run.initializeDeclared evaluateImage object (owner.renumber numbers)
        (fields.map (FieldDecl.relabel numbers.onNode id)))
      (Run.initializeDeclared evaluate object owner fields) := by
  induction fields with
  | nil => exact .pure ()
  | cons field rest ih =>
      refine (Mirrored.valueOrNil exprs field.initial).bind fun value => ?_
      rw [show (field.relabel numbers.onNode id).initial.isSome = field.initial.isSome from
        Option.isSome_map]
      exact (Mirrored.writeField object field.name
        ⟨value, field.visibility, field.isFinal, field.initial.isSome, owner⟩ .declared).andThen ih

/-- That an initialiser runs is noted the same. -/
protected theorem noteInitializing :
    Mirrored numbers bound id Run.noteInitializing Run.noteInitializing :=
  .modify (fun _ => rfl) fun _ _ met => { met with }

include exprs in
/-- Giving an object the own fields of a class goes the same with other numbers. -/
protected theorem initializeOwn (object : ObjectRef) (owner : ClassRef) :
    Mirrored numbers bound id
      (Run.initializeOwn evaluateImage object (owner.renumber numbers))
      (Run.initializeOwn evaluate object owner) := by
  refine .look fun store twin met => ?_
  rw [met.classes]
  cases store.class? owner with
  | none => exact .pure ()
  | some known =>
      obtain ⟨⟨name, superclass, fields, methods, isFinal, place⟩, built, table, closure⟩ := known
      have empty : (fields.map (FieldDecl.relabel numbers.onNode id)).isEmpty = fields.isEmpty :=
        List.isEmpty_map
      change Mirrored numbers bound id
        (if (fields.map (FieldDecl.relabel numbers.onNode id)).isEmpty then _ else _) _
      rw [empty]
      refine .ite (.pure ()) ?_
      exact (Mirrored.noteInitializing.andThen
        ((Mirrored.initializeDeclared exprs object owner fields).within closure
          (.thisOf ⟨name, superclass, fields, methods, isFinal, place⟩)
          [("this", ⟨.object object, true⟩)])).asOwner (some owner)

include exprs in
/-- Giving an object the fields of its classes goes the same with other numbers. -/
protected theorem initializeFields (object : ObjectRef) (owners : List ClassRef) :
    Mirrored numbers bound id
      (Run.initializeFields evaluateImage object (owners.map (ClassRef.renumber numbers)))
      (Run.initializeFields evaluate object owners) := by
  induction owners with
  | nil => exact .pure ()
  | cons owner rest ih => exact (Mirrored.initializeOwn exprs object owner).andThen ih

include same exprs bodies

/-- Making an instance goes the same with other numbers if initialisers and bodies do. -/
protected theorem instantiate (ofClass : ClassRef) (arguments : List Value)
    (location : Location) :
    Mirrored numbers bound (Value.renumber numbers)
      (Run.instantiate settingTwin evaluateImage runBodyImage (ofClass.renumber numbers)
        (arguments.map (Value.renumber numbers)) location)
      (Run.instantiate setting evaluate runBody ofClass arguments location) := by
  have made : Mirrored numbers bound id
      (Run.create (·.newObject (ofClass.renumber numbers)))
      (Run.create (·.newObject ofClass)) :=
    .create (fun _ _ met => congrArg ObjectRef.mk met.objects_size)
      (fun _ _ met => met.newObject ofClass) (fun _ => rfl) (fun _ => rfl) fun _ => rfl
  refine made.bind fun object => .look fun store twin met => ?_
  rw [met.lineage, ← List.map_reverse]
  refine (Mirrored.initializeFields exprs object (store.lineage ofClass).reverse).andThen
    (.look fun store twin met => ?_)
  rw [met.method?]
  cases store.method? ofClass constructorName with
  | none =>
      rw [Option.map_none]
      dsimp only
      rw [List.isEmpty_map, List.length_map]
      exact .ite (.pure (Value.object object)) (.fail _ _)
  | some method =>
      exact (Mirrored.bindMethod method (.object object)).bind fun function =>
        (Mirrored.callFunction same bodies function arguments location).andThen
          (.pure (Value.object object))

/-- A call goes the same with other numbers if the code it runs does. -/
protected theorem call (callee : Value) (arguments : List Value) (location : Location) :
    Mirrored numbers bound (Value.renumber numbers)
      (Run.call settingTwin evaluateImage runBodyImage (callee.renumber numbers)
        (arguments.map (Value.renumber numbers)) location)
      (Run.call setting evaluate runBody callee arguments location) := by
  cases callee with
  | function ref =>
      refine .look fun store twin met => ?_
      rw [show twin.function? (numbers.moving.function ref) = _ from met.function? ref]
      cases store.function? ref with
      | none => exact .fail _ _
      | some function => exact .callFunction same bodies function arguments location
  | classValue ref => exact .instantiate same exprs bodies ref arguments location
  | native binding => exact .callNative same binding arguments location
  | _ => exact .fail _ _

end Calls

end Mirrored

end Scriptlet.Run
