import Scriptlet.Proofs.Run.Primitive

/-!
# What declarations uphold

A declaration binds its name (`Run.Upholds.define`), and from then on the store may hold code that
closes over the scope of the declaration: the function, or the methods and field initialisers of the
class. A class with a superclass closes over a scope of its own inside of that one
(`Course.Around`).
-/

namespace Scriptlet

namespace Course

variable (course : Course)

/-- The scope the code of a class closes over, when the class is declared in a scope: this
one, or one inside of it that holds the superclass. -/
def Around (store : Store) (decl : ClassDecl) (closure env : ScopeRef) : Prop :=
  decl.superclass.isSome = false ∧ closure = env ∨
    decl.superclass.isSome = true ∧ ∃ actual, store.scope? closure = some actual ∧
      actual.enclosing = some env ∧ env.index < closure.index ∧
      (LexicalScope.opened (.superOf decl)).Describes course.foreign actual

variable {course} {store after : Store} {decl : ClassDecl} {closure env : ScopeRef}

/-- Changes of the scope of a declaration do not reach the scope inside of it. -/
theorem Around.keep {changes : List (String × Bool)} (around : course.Around store decl closure env)
    (kept : store.Keeps env changes after) : course.Around after decl closure env := by
  rcases around with same | ⟨derived, actual, found, enclosed, inward, describes⟩
  · exact .inl same
  · obtain ⟨later, foundLater, becomes⟩ := kept closure actual found
    rw [if_neg (fun same => Nat.lt_irrefl _ (same ▸ inward))] at becomes
    exact .inr ⟨derived, later, foundLater, becomes.enclosing.trans enclosed, inward,
      describes.quiet becomes⟩

private theorem Around.fits {scopes : List LexicalScope}
    (around : course.Around store decl closure env) (fits : course.Fits store scopes env) :
    course.Fits store (classClosureScopes decl scopes) closure := by
  unfold classClosureScopes
  rcases around with ⟨root, rfl⟩ | ⟨derived, actual, found, enclosed, inward, describes⟩
  · rw [if_neg (by simp [root])]
    exact fits
  · rw [if_pos derived]
    exact .inner found enclosed inward describes fits

end Course

namespace Run

/-- Of the methods of one name a class declares the last counts. -/
theorem find?_classMethods (decl : ClassDecl) (owner : ClassRef) (closure : ScopeRef)
    (name : String) : (classMethods decl owner closure).find? name =
      (decl.methods.reverse.find? (·.name = name)).map fun method =>
        ⟨method, closure, some owner, .thisOf decl⟩ := by
  suffices every : ∀ (listed : List FunctionDecl) (table : Table MethodObject),
      (listed.foldl (fun table method =>
          table.put method.name ⟨method, closure, some owner, .thisOf decl⟩) table).find? name =
        ((listed.reverse.find? (·.name = name)).map fun method =>
          ⟨method, closure, some owner, .thisOf decl⟩).or (table.find? name) by
    rw [classMethods, every, Table.find?, Option.or_none]
  intro listed
  induction listed with
  | nil => exact fun _ => rfl
  | cons first rest ih =>
      intro table
      rw [List.foldl_cons, ih, List.reverse_cons, List.find?_append]
      cases rest.reverse.find? (·.name = name) with
      | some later => rfl
      | none =>
          by_cases hit : first.name = name
          · subst hit
            simp
          · simp [hit, Table.find?_put_of_ne]

/-- The methods of a class are made from its declaration. -/
theorem classMethods_find? {decl : ClassDecl} {owner : ClassRef} {closure : ScopeRef}
    {name : String} {method : MethodObject}
    (found : (classMethods decl owner closure).find? name = some method) :
    ∃ written ∈ decl.methods, written.name = name ∧
      method = ⟨written, closure, some owner, .thisOf decl⟩ := by
  rw [find?_classMethods] at found
  obtain ⟨written, listed, rfl⟩ := Option.map_eq_some_iff.mp found
  exact ⟨written, List.mem_reverse.mp (List.mem_of_find?_eq_some listed),
    by simpa using List.find?_some listed, rfl⟩

namespace Upholds

variable {course : Course} {setting : Setting} {scope : LexicalScope}
  {scopes outer : List LexicalScope}

/-- A machine after a name was bound that the construct of its scope declares. -/
private theorem sound_define {machine : Machine} {name : String} {isFinal : Bool} (value : Value)
    (declared : (name, isFinal) ∈ scope.tag.binds course.program) (sound : course.Sound machine)
    (fits : course.At (scope :: outer) machine) :
    course.Sound
        { machine with store := machine.store.define machine.env name value isFinal } ∧
      course.Fits (machine.store.define machine.env name value isFinal)
        (scope.bind name isFinal :: outer) machine.env := by
  have keeps : machine.store.Keeps machine.env [(name, isFinal)]
      (machine.store.define machine.env name value isFinal) :=
    .define _ _ _ _ _ (.inl ⟨rfl, List.mem_singleton.mpr rfl⟩)
  have finals := sound.store.finals.define machine.env name value isFinal
    fun final actual found => by
    obtain ⟨same, known, describes⟩ := Course.Fits.head fits
    rw [known] at found
    cases found
    rw [describes.tag, ← final]
    exact declared
  have marked (later : Scope)
      (found : (machine.store.define machine.env name value isFinal).scope? machine.env =
        some later) : later.mark name = some isFinal := by
    rw [Store.scope?_define] at found
    obtain ⟨earlier, _, rfl⟩ := Option.map_eq_some_iff.mp found
    simp [Scope.mark]
  exact ⟨sound.of_store keeps (sound.store.of_keeps keeps rfl rfl finals) rfl rfl,
    Course.Fits.bind fits keeps marked⟩

/-- Binding a name that the statements of a scope declare upholds soundness, and the scope has bound
the name from then on. -/
protected theorem define {name : String} {isFinal : Bool} (value : Value)
    (declared : (name, isFinal) ∈ scope.tag.binds course.program) :
    Upholds course setting (course.At (scope :: outer)) (Run.define name value isFinal)
      fun _ => course.At (scope.bind name isFinal :: outer) :=
  fun _ sound fits => sound_define value declared sound fits

/-- A statement that declares a name binds it in a scope whose construct declares it. -/
private theorem declared_mem {statement : Statement} {name : String} {isFinal : Bool}
    (stands : Stands course.program (scope :: outer) (.statement statement))
    (bound : (name, isFinal) ∈ statement.binds) :
    (name, isFinal) ∈ scope.tag.binds course.program := by
  refine stands.binds_subset ?_
  simpa [Stands.statementsOf] using bound

/-- A function closes over the scope it is declared in, where its own name is bound. -/
protected theorem declareFunction {decl : FunctionDecl}
    (stands : Stands course.program (scope :: outer) (.statement (.function decl))) :
    Upholds course setting (course.At (scope :: outer)) (Run.declareFunction decl)
      fun _ => course.At (scope.bind decl.name decl.isFinal :: outer) := by
  intro machine sound fits
  have bound := declared_mem stands (by rw [Statement.binds]; exact List.mem_singleton.mpr rfl)
  obtain ⟨defined, standing⟩ :=
    sound_define (.function ⟨machine.store.functions.size⟩) bound sound fits
  have closes : course.Closes _ decl machine.env :=
    ⟨scope.bind decl.name decl.isFinal :: outer, .function stands, Course.Fits.defer standing⟩
  -- The name is bound after the function is made; the two changes do not meet.
  have made := defined.store.newFunction ⟨decl, machine.env, machine.owner⟩ closes
  have keeps (store : Store) : store.Keeps machine.env []
      (store.newFunction ⟨decl, machine.env, machine.owner⟩).2 := .of_scopes_eq rfl
  exact ⟨defined.of_store (keeps _) made rfl rfl, Course.Fits.quiet standing (keeps _)⟩

/-- Looking for the class that a declaration names as its superclass upholds soundness. -/
protected theorem superclassOf {decl : ClassDecl} {reference : SuperclassRef}
    (stands : Stands course.program scopes (.statement (.classDecl decl)))
    (named : decl.superclass = some reference) :
    Safe course setting (course.At scopes) (Run.superclassOf setting decl.name reference) := by
  have mentioned : (reference.id, reference.name) ∈
    (Code.statement (.classDecl decl)).mentions := by
    simp [Code.mentions, Statement.mentions, named]
  refine .bind (.lookup _ stands mentioned) fun value => ?_
  split
  · refine .bind (.inspect _) fun object => ?_
    split
    · split
      · exact .fail rfl _
      · exact .pure fun _ _ => trivial
    · exact .fail rfl _
  · exact .fail rfl _

/-- The superclass of a class is looked for soundly, and there is one just if the declaration names
one. -/
protected theorem declaredSuperclass {decl : ClassDecl}
    (stands : Stands course.program scopes (.statement (.classDecl decl))) :
    Upholds course setting (course.At scopes) (Run.declaredSuperclass setting decl)
      fun superclass machine =>
        superclass.isSome = decl.superclass.isSome ∧ course.At scopes machine := by
  unfold Run.declaredSuperclass
  split
  · rename_i reference named
    refine .bind (.keepAt (.superclassOf _ _) (.superclassOf stands named)) fun ref => ?_
    exact .pure fun _ holds => ⟨by rw [named]; rfl, holds⟩
  · rename_i root
    exact .pure fun _ holds => ⟨by rw [root]; rfl, holds⟩

/-- A class closes over the scope it is declared in, or over one inside of it that holds its
superclass. -/
protected theorem classClosure {decl : ClassDecl} {superclass : Option ClassRef}
    (same : superclass.isSome = decl.superclass.isSome) :
    Upholds course setting (course.At scopes) (Run.classClosure decl superclass)
      fun closure machine =>
        course.Around machine.store decl closure machine.env ∧ course.At scopes machine := by
  intro machine sound fits
  cases superclass with
  | none => exact ⟨sound, .inl ⟨same.symm, rfl⟩, fits⟩
  | some ref =>
      have fills : (ScopeTag.superOf decl).Fills [("super", ⟨.classValue ref, true⟩)] :=
        .single _ rfl
      have opened := sound.newScope (some machine.env) fills
      obtain ⟨actual, found⟩ := Option.isSome_iff_exists.mp (Course.Fits.scope?_isSome fits)
      have keeps : machine.store.Keeps machine.env [] (machine.store.newScope (some machine.env)
          (.superOf decl) [("super", ⟨.classValue ref, true⟩)]).2 := .newScope _ _ _ _
      refine ⟨opened, .inr ⟨same.symm, _, ?_, rfl, Store.index_lt_of_scope? found,
        fills.describes _ _⟩, Course.Fits.quiet fits keeps⟩
      simp [Store.scope?]

/-- A class made from its declaration holds code that is written there. -/
private theorem soundClass_ofDecl {store : Store} {decl : ClassDecl} {closure : ScopeRef}
    (superclass : Option ClassRef) (owner : ClassRef)
    (stands : Stands course.program (scope :: outer) (.statement (.classDecl decl)))
    (closed : course.Fits store ((classClosureScopes decl
      (scope.bind decl.name decl.isFinal :: outer)).map (·.defer)) closure) :
    course.SoundClass store ⟨decl, superclass, classMethods decl owner closure, closure⟩ := by
  refine ⟨fun name method found => ?_, _, fun field member expr initial => ?_, closed⟩
  · obtain ⟨written, member, _, rfl⟩ := classMethods_find? found
    exact ⟨rfl, _, .method stands member, closed⟩
  · exact .field stands member initial

private theorem written_ofDecl {decl : ClassDecl} {superclass : Option ClassRef}
    {owner : ClassRef} {closure : ScopeRef}
    (same : superclass.isSome = decl.superclass.isSome)
    (stands : Stands course.program (scope :: outer) (.statement (.classDecl decl))) :
    course.Written ⟨decl, superclass, classMethods decl owner closure, closure⟩ := by
  refine ⟨⟨_, stands⟩, same, fun own member => ?_, fun name method found => ?_⟩
  · rw [find?_classMethods, Option.isSome_map, List.find?_isSome]
    exact ⟨own, List.mem_reverse.mpr member, by simp⟩
  · obtain ⟨written, member, named, rfl⟩ := classMethods_find? found
    exact ⟨named, .inl ⟨member, rfl⟩⟩

/-- The code of a class closes over scopes in which the name of the class is bound. -/
protected theorem declareClass {decl : ClassDecl}
    (stands : Stands course.program (scope :: outer) (.statement (.classDecl decl))) :
    Upholds course setting (course.At (scope :: outer)) (Run.declareClass setting decl)
      fun _ => course.At (scope.bind decl.name decl.isFinal :: outer) := by
  refine .bind (.declaredSuperclass stands) fun superclass => .assuming fun same => ?_
  refine .bind (.classClosure same) fun closure => .bind (.inspect _) fun owner => ?_
  rintro machine sound ⟨_, around, fits⟩
  have bound := declared_mem stands (by rw [Statement.binds]; exact List.mem_singleton.mpr rfl)
  obtain ⟨defined, standing⟩ :=
    sound_define (.classValue ⟨machine.store.classes.size⟩) bound sound fits
  have keeps := (Leaves.define decl.name (.classValue ⟨machine.store.classes.size⟩) decl.isFinal
    machine).store
  have closed := ((around.keep keeps).fits standing).defer
  have whole := soundClass_ofDecl superclass owner stands closed
  -- The name is bound after the class is made; the two changes do not meet.
  have made := defined.store.newClass _ whole (written_ofDecl same stands)
  have quiet (store : Store) : store.Keeps machine.env [] (store.newClass
      ⟨decl, superclass, classMethods decl owner closure, closure⟩).2 := .of_scopes_eq rfl
  exact ⟨defined.of_store (quiet _) made rfl rfl, Course.Fits.quiet standing (quiet _)⟩

/-- A method added to a class closes over the scope it is added in. -/
protected theorem declareExtension {id : NodeId} {className : String} {decl : FunctionDecl}
    {location : Location}
    (stands : Stands course.program scopes (.statement (.extension id className decl location))) :
    Safe course setting (course.At scopes)
      (Run.declareExtension setting id className decl location) := by
  refine .bind (.lookup _ stands (List.mem_singleton.mpr rfl)) fun value => ?_
  split
  · refine .bind (.inspect _) fun object => ?_
    split
    · split
      · exact .fail rfl _
      · refine .bind .get fun machine => ?_
        refine .change (fun _ _ => .of_scopes_eq rfl) fun later sound holds => ?_
        obtain ⟨rfl, _, fits⟩ := holds
        exact sound.store.addMethod _ ⟨decl, machine.env, none, .extensionThis id decl⟩
          ⟨rfl, scopes, .extension stands, Course.Fits.defer fits⟩
          ⟨id, className, location, scopes, rfl, stands⟩
    · exact .fail rfl _
  · exact .fail rfl _

/-- The declaration of a native function upholds soundness and binds its name. -/
protected theorem declareNative {moduleName name : String} {params : List Parameter}
    {location : Location} (arity : Nat)
    (stands : Stands course.program (scope :: outer)
      (.statement (.nativeFunction moduleName name params location))) :
    Upholds course setting (course.At (scope :: outer))
      (Run.declareNative setting moduleName name arity location)
      fun _ => course.At (scope.bind name false :: outer) := by
  refine .bind (.moduleNamed _ _) fun found => ?_
  dsimp only
  split
  · exact .define _ (declared_mem stands
      (by rw [Statement.binds]; exact List.mem_singleton.mpr rfl))
  · exact .fail rfl _

/-- The declaration of a module upholds soundness and binds its name. -/
protected theorem declareModule {name : String} {location : Location}
    (stands : Stands course.program (scope :: outer) (.statement (.moduleDecl name location))) :
    Upholds course setting (course.At (scope :: outer)) (Run.declareModule setting name location)
      fun _ => course.At (scope.bind name false :: outer) := by
  refine .bind (.moduleNamed _ _) fun found => ?_
  exact .define _ (declared_mem stands (by rw [Statement.binds]; exact List.mem_singleton.mpr rfl))

end Upholds

end Run

end Scriptlet
