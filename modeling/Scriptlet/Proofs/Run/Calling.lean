import Scriptlet.Proofs.Run.Declaring

/-!
# What calls uphold

A call runs the body of a function in the scopes it is written in, whatever scopes the call itself
stands in (`Run.Routines.Upheld.call`). Making an instance does so with the field initialisers and
the constructor of the class (`Run.Routines.Upheld.instantiate`).
-/

namespace Scriptlet.Run

/-- Routines that uphold soundness on code of the program, in the scopes it is written
in. -/
structure Routines.Upheld (course : Course) (setting : Setting) (inner : Routines) : Prop where
  evaluate : ∀ {scopes expr}, Stands course.program scopes (.expression expr) →
    Upholds course setting (course.At scopes) (inner.evaluate expr) fun _ => course.At scopes
  execute : ∀ {scope outer statement},
    Stands course.program (scope :: outer) (.statement statement) →
    Upholds course setting (course.At (scope :: outer)) (inner.execute statement)
      fun completion machine =>
        course.At (scope.loosen statement.binds :: outer) machine ∧
          (completion = .normal → course.At (scope.after statement :: outer) machine)
  executeAll : ∀ {scopes statements}, Stands course.program scopes (.statements statements) →
    Safe course setting (course.At scopes) (inner.executeAll statements)

namespace Routines.Upheld

variable {course : Course} {setting : Setting} {inner : Routines} {before : Machine → Prop}
  {scopes outer : List LexicalScope}

/-- A jump that a call cannot answer is written in the body. -/
protected theorem callResult {function : FunctionObject} {completion : Completion}
    (location : Location)
    (stands : Stands course.program (.opened (.body function.decl) :: outer)
      (.statements function.decl.body))
    (inside : completion.Within (jumpsAll function.decl.body)) :
    Safe course setting before (Run.callResult function completion location) := by
  have answered (value : Value) : Safe course setting before (do
      if function.decl.kind = .constructor then
        return ((← Run.inspect (·.valueIn? function.closure "this"))).getD .nil
      else return value : Run Value) := by
    split
    · exact .bind (.inspect _) fun _ => .pure fun _ _ => trivial
    · exact .pure fun _ _ => trivial
  have blamed {jump : Jump} (jumped : completion.jump? = some jump) (other : jump ≠ .returning) :
      Safe course setting before (Run.fail (.illegalControlFlow jump) location : Run Value) :=
    fun _ sound _ => ⟨sound, .jump stands rfl (inside jump jumped) other⟩
  cases completion with
  | normal => exact answered _
  | returning value => exact answered value
  | breaking => exact blamed rfl (by decide)
  | continuing => exact blamed rfl (by decide)

/-- The body of a function runs in the scopes it is written in. -/
protected theorem callFunction (upheld : inner.Upheld course setting) (contained : inner.Contained)
    (function : FunctionObject) (arguments : List Value) (location : Location) :
    Safe course setting
      (fun machine => course.Closes machine.store function.decl function.closure)
      (Run.callFunction setting inner.executeAll function arguments location) := by
  unfold Run.callFunction
  extract_lets arity
  split
  · exact .fail rfl _
  · rename_i fitting
    refine .bind .get fun _ => ?_
    split
    · exact .fail rfl _
    · rintro machine sound ⟨_, scopes, stands, fits⟩
      have fills := ScopeTag.Fills.params function.decl (Decidable.not_not.mp fitting)
      have body := (upheld.executeAll stands).yielding (contained.executeAll function.decl.body)
      have ran := Upholds.within function.closure fills
        (body.mono (fun _ _ fits => fits) fun _ _ _ ended => ended.1)
      have called := Upholds.asOwner (course.Fits · (scopes.map (·.defer)) function.closure)
        function.owner (.inCall (course.Fits · (scopes.map (·.defer)) function.closure) ran)
      refine called.bind (fun completion => ?_) machine sound fits
      exact .strengthen (.assuming (Routines.Upheld.callResult location stands))
        fun _ _ inside => ⟨inside, trivial⟩

/-- Evaluating an initial value, if there is one, upholds soundness. -/
protected theorem valueOrNil (upheld : inner.Upheld course setting) {initial : Option Expr}
    (stands : ∀ expr, initial = some expr → Stands course.program scopes (.expression expr)) :
    Upholds course setting (course.At scopes) (Run.valueOrNil inner.evaluate initial)
      fun _ => course.At scopes := by
  cases initial with
  | some expr => exact upheld.evaluate (stands expr rfl)
  | none => exact .pure fun _ holds => holds

/-- Giving an object the fields of one class upholds soundness, since its initialisers are code of
the program. -/
protected theorem initializeDeclared (upheld : inner.Upheld course setting) (object : ObjectRef)
    (owner : ClassRef) {fields : List FieldDecl}
    (stands : ∀ field ∈ fields, ∀ expr, field.initial = some expr →
      Stands course.program scopes (.expression expr)) :
    Safe course setting (course.At scopes)
      (Run.initializeDeclared inner.evaluate object owner fields) := by
  induction fields with
  | nil => exact .pure fun _ _ => trivial
  | cons field rest ih =>
      refine .bind (upheld.valueOrNil (stands field (List.mem_cons_self ..))) fun value => ?_
      refine .bind (.keepAt (.writeField _ _ _ _) (.writeField _ _ _ _)) fun _ => ?_
      exact ih fun other member => stands other (List.mem_cons_of_mem _ member)

private theorem noteInitializing (known : Store → Prop) :
    Upholds course setting (known ·.store) Run.noteInitializing fun _ => (known ·.store) :=
  fun _ sound holds => ⟨sound.congr rfl rfl rfl, holds⟩

/-- Field initialisers run in the scopes they are written in. -/
protected theorem initializeOwn (upheld : inner.Upheld course setting) (object : ObjectRef)
    (owner : ClassRef) :
    Safe course setting before (Run.initializeOwn inner.evaluate object owner) := by
  refine .bind (.inspect _) fun found => ?_
  split
  · split
    · exact .pure fun _ _ => trivial
    · rintro machine sound ⟨held, _⟩
      obtain ⟨_, scopes, stands, fits⟩ := sound.store.classes owner _ held.symm
      refine Upholds.asOwner (course.Fits · (scopes.map (·.defer)) _) (some owner) ?_
        machine sound fits
      exact .bind (noteInitializing (course.Fits · (scopes.map (·.defer)) _)) fun _ =>
        .within _ (.single _ rfl) (upheld.initializeDeclared object owner stands)
  · exact .pure fun _ _ => trivial

/-- Giving an object the fields of its classes upholds soundness, wherever the object is made. -/
protected theorem initializeFields (upheld : inner.Upheld course setting) (object : ObjectRef)
    (classes : List ClassRef) :
    Safe course setting before (Run.initializeFields inner.evaluate object classes) := by
  induction classes generalizing before with
  | nil => exact .pure fun _ _ => trivial
  | cons owner rest ih => exact .bind (upheld.initializeOwn object owner) fun _ => ih

/-- Making an instance upholds soundness, wherever it is made. -/
protected theorem instantiate (upheld : inner.Upheld course setting) (contained : inner.Contained)
    (ofClass : ClassRef) (arguments : List Value) (location : Location) :
    Safe course setting before
      (Run.instantiate setting inner.evaluate inner.executeAll ofClass arguments location) := by
  refine .bind (.createData (fun _ => rfl) (fun _ => rfl) fun _ => rfl) fun object => ?_
  refine .bind (.inspect _) fun lineage => .bind (upheld.initializeFields object _) fun _ => ?_
  refine .bind (.inspect _) fun found => ?_
  split
  · rename_i method
    refine .bind (.strengthen (.bindMethod method _) ?_) fun constructor => ?_
    · intro machine sound holds
      exact sound.store.method? holds.1.symm
    · exact .bind (upheld.callFunction contained constructor arguments location) fun _ =>
        .pure fun _ _ => trivial
  · split
    · exact .pure fun _ _ => trivial
    · exact .fail rfl _

/-- A call runs code of the program only, in the scopes it is written in. -/
protected theorem call (upheld : inner.Upheld course setting) (contained : inner.Contained)
    (callee : Value) (arguments : List Value) (location : Location) :
    Safe course setting before
      (Run.call setting inner.evaluate inner.executeAll callee arguments location) := by
  unfold Run.call
  split
  · refine .bind (.inspect _) fun found => ?_
    split
    · rename_i function
      refine (upheld.callFunction contained function arguments location).strengthen ?_
      intro machine sound holds
      exact sound.store.functions _ function holds.1.symm
    · exact .fail rfl _
  · exact upheld.instantiate contained _ _ _
  · exact .callNative _ _ _
  · exact .fail rfl _

end Routines.Upheld

end Scriptlet.Run
