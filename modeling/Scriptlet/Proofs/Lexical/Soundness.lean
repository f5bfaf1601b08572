import Scriptlet.Proofs.Lexical.Fitting

/-!
# Stores that hold code of one program

A store is sound for a program (`Course.SoundStore`) if every function, method and field initialiser
in it is written in the program, and the scope it closes over is what is said of the scopes it is
written in (`Course.Closes`). Functions outlive the scopes they were made in, so what is said of
these is said of deferred scopes and stays true.
-/

namespace Scriptlet

/-- The name a node mentions by itself, with the number of the node. -/
def Expr.mentions : Expr → List (NodeId × String)
  | .var id name _ | .assign id name _ _ | .prefixCall id name _ _ | .infixCall id name _ _ _ =>
    [(id, name)]
  | .thisRef id _ => [(id, "this")]
  | .superRef id _ _ => [(id, "super")]
  | _ => []

/-- The class a statement mentions by itself, with the number of the node. -/
def Statement.mentions : Statement → List (NodeId × String)
  | .extension id className _ _ => [(id, className)]
  | .classDecl decl => decl.superclass.toList.map fun reference => (reference.id, reference.name)
  | _ => []

/-- The names a piece of code mentions before any code inside of it does. -/
def Code.mentions : Code → List (NodeId × String)
  | .expression expr => expr.mentions
  | .statement one => one.mentions
  | .statements _ => []

/-- Binding a name changes no scope but the one it is bound in. -/
theorem Store.scope?_define (store : Store) (ref other : ScopeRef) (name : String) (value : Value)
    (isFinal : Bool) :
    (store.define ref name value isFinal).scope? other = (store.scope? other).map fun scope =>
      if other = ref then { scope with bindings := scope.bindings.put name ⟨value, isFinal⟩ }
      else scope := by
  unfold scope? define
  rw [Array.getElem?_modify]
  by_cases same : other = ref
  · subst same
    simp
  · have apart : ref.index ≠ other.index := fun equal =>
      same (by cases ref; cases other; cases equal; rfl)
    simp [same, apart]

/-- A scope of the store after one was made is the one that was made, or was there before. -/
theorem Store.scope?_newScope {store : Store} {enclosing : Option ScopeRef} {tag : ScopeTag}
    {bindings : Table Binding} {ref : ScopeRef} {scope : Scope}
    (found : (store.newScope enclosing tag bindings).2.scope? ref = some scope) :
    store.scope? ref = some scope ∨ scope = ⟨bindings, enclosing, tag⟩ := by
  unfold scope? newScope at found
  rw [Array.getElem?_push] at found
  split at found
  · cases found
    exact .inr rfl
  · exact .inl found

/-- What the classes are and what they were before each change of them, the latest first. -/
def Store.tables (store : Store) : List (Array ClassObject) :=
  store.classes :: store.formerClasses

namespace Course

variable (course : Course)

/-- A function of the program with a scope it may close over. -/
def Closes (store : Store) (decl : FunctionDecl) (closure : ScopeRef) : Prop :=
  ∃ scopes : List LexicalScope,
    Stands course.program (.opened (.body decl) :: scopes.map (·.defer)) (.statements decl.body) ∧
    course.Fits store (scopes.map (·.defer)) closure

/-- A method of the program, which will close over a scope that holds its receiver. -/
def Awaits (store : Store) (method : MethodObject) : Prop :=
  method.receiver.implicit = [("this", true)] ∧ ∃ scopes : List LexicalScope,
    Stands course.program
      (.opened (.body method.decl) :: (.opened method.receiver :: scopes).map (·.defer))
      (.statements method.decl.body) ∧
    course.Fits store (scopes.map (·.defer)) method.closure

/-- A class of the program with the scope its field initialisers close over. -/
def Initializes (store : Store) (decl : ClassDecl) (closure : ScopeRef) : Prop :=
  ∃ scopes : List LexicalScope,
    (∀ field ∈ decl.fields, ∀ expr, field.initial = some expr →
      Stands course.program (.opened (.thisOf decl) :: scopes.map (·.defer))
        (.expression expr)) ∧
    course.Fits store (scopes.map (·.defer)) closure

/-- A class all of whose code is code of the program. -/
def SoundClass (store : Store) (object : ClassObject) : Prop :=
  (∀ name method, object.methods.find? name = some method → course.Awaits store method) ∧
    course.Initializes store object.decl object.closure

/-- A method that an extension of the program adds. -/
def Extends (method : MethodObject) : Prop :=
  ∃ id className location scopes, method.receiver = .extensionThis id method.decl ∧
    Stands course.program scopes (.statement (.extension id className method.decl location))

/-- A class made from a declaration of the program, with the methods that the declaration has
and those that extensions of the program added. -/
structure Written (object : ClassObject) : Prop where
  stands : ∃ scopes, Stands course.program scopes (.statement (.classDecl object.decl))
  derived : object.superclass.isSome = object.decl.superclass.isSome
  declared : ∀ decl ∈ object.decl.methods, (object.methods.find? decl.name).isSome
  methods : ∀ name method, object.methods.find? name = some method → method.decl.name = name ∧
    (method.decl ∈ object.decl.methods ∧ method.receiver = .thisOf object.decl ∨
      course.Extends method)

/-- Classes of the program. -/
def WrittenClasses (classes : Array ClassObject) : Prop :=
  ∀ (ref : ClassRef) object, classes[ref.index]? = some object → course.Written object

/-- The use of a name by code of the program, in the scopes the code is written in. -/
def Explains (store : Store) (use : Use) : Prop :=
  ∃ scopes code, Stands course.program scopes code ∧ (use.id, use.name) ∈ code.mentions ∧
    course.Fits store (scopes.map (·.defer)) use.env

/-- The evaluation of an expression of the program, in the scopes it is written in. -/
def Places (store : Store) (evaluation : Evaluation) : Prop :=
  ∃ scopes, Stands course.program scopes (.expression evaluation.expr) ∧
    course.Fits store (scopes.map (·.defer)) evaluation.env

/-- A name that is bound for good is declared so, or was bound by the host. -/
def SoundFinals (store : Store) : Prop :=
  ∀ ref scope name, store.scope? ref = some scope → scope.mark name = some true →
    (name, true) ∈ scope.tag.binds course.program ∨ course.foreign name

/-- A store all of whose code is code of the program. -/
structure SoundStore (store : Store) : Prop where
  functions : ∀ ref function, store.function? ref = some function →
    course.Closes store function.decl function.closure
  classes : ∀ ref object, store.class? ref = some object → course.SoundClass store object
  written : course.WrittenClasses store.classes
  former : ∀ classes ∈ store.formerClasses, classes ∈ course.former ∨ course.WrittenClasses classes
  finals : course.SoundFinals store

/-- A machine that has run code of the program only. -/
structure Sound (machine : Machine) : Prop where
  store : course.SoundStore machine.store
  uses : ∀ use ∈ machine.uses, course.Explains machine.store use
  evaluations : ∀ evaluation ∈ machine.evaluations, course.Places machine.store evaluation

variable {course} {store after : Store} {touched : ScopeRef} {changes : List (String × Bool)}

private theorem Closes.keep {decl : FunctionDecl} {closure : ScopeRef}
    (closes : course.Closes store decl closure) (kept : store.Keeps touched changes after) :
    course.Closes after decl closure := by
  obtain ⟨scopes, stands, fits⟩ := closes
  exact ⟨scopes, stands, fits.keepDeferred kept⟩

private theorem Awaits.keep {method : MethodObject} (awaits : course.Awaits store method)
    (kept : store.Keeps touched changes after) : course.Awaits after method := by
  obtain ⟨receiver, scopes, stands, fits⟩ := awaits
  exact ⟨receiver, scopes, stands, fits.keepDeferred kept⟩

private theorem SoundClass.keep {object : ClassObject} (sound : course.SoundClass store object)
    (kept : store.Keeps touched changes after) : course.SoundClass after object := by
  obtain ⟨methods, scopes, stands, fits⟩ := sound
  exact ⟨fun name method found => (methods name method found).keep kept,
    scopes, stands, fits.keepDeferred kept⟩

private theorem Explains.keep {use : Use} (explained : course.Explains store use)
    (kept : store.Keeps touched changes after) : course.Explains after use := by
  obtain ⟨scopes, code, stands, mentioned, fits⟩ := explained
  exact ⟨scopes, code, stands, mentioned, fits.keepDeferred kept⟩

private theorem Places.keep {evaluation : Evaluation} (placed : course.Places store evaluation)
    (kept : store.Keeps touched changes after) : course.Places after evaluation := by
  obtain ⟨scopes, stands, fits⟩ := placed
  exact ⟨scopes, stands, fits.keepDeferred kept⟩

/-- The method that is found for a class awaits its receiver where it is written. -/
theorem SoundStore.method? (sound : course.SoundStore store) {ref : ClassRef} {name : String}
    {method : MethodObject} (found : store.method? ref name = some method) :
    course.Awaits store method := by
  obtain ⟨owner, object, held, own⟩ := Store.exists_of_method? found
  exact (sound.classes owner object held).1 name method own

namespace SoundFinals

/-- What is bound for good stays accounted for when a scope is made that binds for good what its
construct binds by itself. -/
theorem newScope (sound : course.SoundFinals store) (enclosing : Option ScopeRef) (tag : ScopeTag)
    (bindings : Table Binding)
    (fixed : ∀ name, (⟨bindings, enclosing, tag⟩ : Scope).mark name = some true →
      (name, true) ∈ tag.implicit) :
    course.SoundFinals (store.newScope enclosing tag bindings).2 := by
  intro ref scope name found marked
  rcases Store.scope?_newScope found with known | rfl
  · exact sound ref scope name known marked
  · exact .inl (List.mem_append_left _ (fixed name marked))

/-- A binding for good must be one the construct of its scope declares. -/
theorem define (sound : course.SoundFinals store) (ref : ScopeRef) (name : String) (value : Value)
    (isFinal : Bool)
    (declared : isFinal = true → ∀ scope, store.scope? ref = some scope →
      (name, true) ∈ scope.tag.binds course.program) :
    course.SoundFinals (store.define ref name value isFinal) := by
  intro other scope query found marked
  rw [Store.scope?_define] at found
  obtain ⟨earlier, foundEarlier, rfl⟩ := Option.map_eq_some_iff.mp found
  by_cases same : other = ref
  · subst same
    simp only [↓reduceIte] at marked ⊢
    by_cases hit : name = query
    · subst hit
      have final : isFinal = true := by simpa [Scope.mark] using marked
      exact .inl (declared final earlier foundEarlier)
    · refine sound other earlier query foundEarlier ?_
      simpa [Scope.mark, Table.find?_put_of_ne _ _ hit] using marked
  · simp only [same, ↓reduceIte] at marked ⊢
    exact sound other earlier query foundEarlier marked

end SoundFinals

/-- A class to which an extension adds a method. -/
theorem Written.put {object : ClassObject} (written : course.Written object)
    {method : MethodObject} (added : course.Extends method) :
    course.Written { object with methods := object.methods.put method.decl.name method } := by
  refine ⟨written.stands, written.derived, fun decl member => ?_, fun name entry listed => ?_⟩
  · exact Table.contains_put _ _ (written.declared decl member)
  · rcases Table.find?_put_cases listed with ⟨rfl, rfl⟩ | known
    · exact ⟨rfl, .inr added⟩
    · exact written.methods name entry known

namespace SoundStore

/-- Changes of scopes leave the code in a store as it is. -/
theorem of_keeps (sound : course.SoundStore store) (kept : store.Keeps touched changes after)
    (functions : after.functions = store.functions) (tables : after.tables = store.tables)
    (finals : course.SoundFinals after) : course.SoundStore after := by
  obtain ⟨classes, former⟩ := List.cons.inj tables
  refine ⟨fun ref function found => ?_, fun ref object found => ?_, classes ▸ sound.written,
    former ▸ sound.former, finals⟩
  · rw [Store.function?, functions] at found
    exact (sound.functions ref function found).keep kept
  · rw [Store.class?, classes] at found
    exact (sound.classes ref object found).keep kept

/-- What touches neither scopes nor code leaves a store sound. -/
theorem of_eq (sound : course.SoundStore store) (scopes : after.scopes = store.scopes)
    (functions : after.functions = store.functions) (tables : after.tables = store.tables) :
    course.SoundStore after := by
  have kept : store.Keeps course.globals [] after := .of_scopes_eq scopes
  refine sound.of_keeps kept functions tables fun ref scope name found marked => ?_
  rw [Store.scope?, scopes] at found
  exact sound.finals ref scope name found marked

/-- A store stays sound when a function is made that closes over the scopes it is written in. -/
theorem newFunction (sound : course.SoundStore store) (function : FunctionObject)
    (closes : course.Closes store function.decl function.closure) :
    course.SoundStore (store.newFunction function).2 := by
  have kept : store.Keeps course.globals [] (store.newFunction function).2 := .of_scopes_eq rfl
  refine ⟨fun ref other found => ?_,
    fun ref object found => (sound.classes ref object found).keep kept,
    sound.written, sound.former, sound.finals⟩
  unfold Store.function? Store.newFunction at found
  rw [Array.getElem?_push] at found
  split at found
  · cases found
    exact closes.keep kept
  · exact (sound.functions ref other found).keep kept

/-- A store stays sound when a class of the program is made. -/
theorem newClass (sound : course.SoundStore store) (object : ClassObject)
    (whole : course.SoundClass store object) (written : course.Written object) :
    course.SoundStore (store.newClass object).2 := by
  have kept : store.Keeps course.globals [] (store.newClass object).2 := .of_scopes_eq rfl
  refine ⟨fun ref function found => (sound.functions ref function found).keep kept,
    fun ref other found => ?_, fun ref other found => ?_,
    List.forall_mem_cons.mpr ⟨.inr sound.written, sound.former⟩, sound.finals⟩
  · unfold Store.class? Store.newClass at found
    rw [Array.getElem?_push] at found
    split at found
    · cases found
      exact whole.keep kept
    · exact (sound.classes ref other found).keep kept
  · unfold Store.newClass at found
    rw [Array.getElem?_push] at found
    split at found
    · cases found
      exact written
    · exact sound.written ref other found

/-- A store stays sound when an extension of the program adds a method. -/
theorem addMethod (sound : course.SoundStore store) (target : ClassRef) (method : MethodObject)
    (awaits : course.Awaits store method) (added : course.Extends method) :
    course.SoundStore (store.addMethod target method.decl.name method) := by
  have kept : store.Keeps course.globals [] (store.addMethod target method.decl.name method) :=
    .of_scopes_eq rfl
  refine ⟨fun ref function found => (sound.functions ref function found).keep kept,
    fun ref other found => ?_, fun ref other found => ?_,
    List.forall_mem_cons.mpr ⟨.inr sound.written, sound.former⟩, sound.finals⟩
  · unfold Store.class? Store.addMethod at found
    rw [Array.getElem?_modify] at found
    split at found
    · obtain ⟨object, known, rfl⟩ := Option.map_eq_some_iff.mp found
      obtain ⟨methods, initializes⟩ := (sound.classes ref object known).keep kept
      refine ⟨fun query entry listed => ?_, initializes⟩
      rcases Table.find?_put_cases listed with ⟨rfl, rfl⟩ | listed
      · exact awaits.keep kept
      · exact methods query entry listed
    · exact (sound.classes ref other found).keep kept
  · unfold Store.addMethod at found
    rw [Array.getElem?_modify] at found
    split at found
    · obtain ⟨object, known, rfl⟩ := Option.map_eq_some_iff.mp found
      exact (sound.written ref object known).put added
    · exact sound.written ref other found

end SoundStore

/-- A sound machine stays sound in another scope, for another owner, at another depth. -/
theorem Sound.congr {machine other : Machine} (sound : course.Sound machine)
    (store : other.store = machine.store) (uses : other.uses = machine.uses)
    (evaluations : other.evaluations = machine.evaluations) : course.Sound other := by
  refine ⟨store ▸ sound.store, ?_, ?_⟩
  · rw [store, uses]
    exact sound.uses
  · rw [store, evaluations]
    exact sound.evaluations

/-- A machine stays sound when the evaluation of an expression of the program is noted. -/
theorem Sound.note {machine : Machine} {evaluation : Evaluation} (sound : course.Sound machine)
    (placed : course.Places machine.store evaluation) : course.Sound (machine.note evaluation) := by
  refine ⟨sound.store, sound.uses, fun noted member => ?_⟩
  rcases List.mem_cons.mp member with rfl | earlier
  · exact placed
  · exact sound.evaluations noted earlier

/-- A step that leaves the store sound leaves the machine sound. -/
theorem Sound.of_store {machine other : Machine} (sound : course.Sound machine)
    (kept : machine.store.Keeps touched changes other.store)
    (later : course.SoundStore other.store) (uses : other.uses = machine.uses)
    (evaluations : other.evaluations = machine.evaluations) : course.Sound other := by
  refine ⟨later, ?_, ?_⟩
  · rw [uses]
    exact fun use member => (sound.uses use member).keep kept
  · rw [evaluations]
    exact fun evaluation member => (sound.evaluations evaluation member).keep kept

end Course

end Scriptlet
