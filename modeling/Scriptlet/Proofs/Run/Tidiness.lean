import Scriptlet.Proofs.Run.Making

/-!
# Tidy stores

Of every function it is known which class owns it: the class whose code stands around the scope the
function closes over (`Store.Houses`). A method in the table of a class was declared by the class or
added by an extension (`MethodObject.BelongsTo`). A scope that holds a receiver or a superclass
holds nothing else (`Scope.Tidy`). A field that not everyone may use, or that is final, was declared
by the class that owns it (`FieldSlot.Tidy`).
-/

namespace Scriptlet

namespace Store

/-- A class made from a declaration owns code of that declaration, and no class owns code of
none. -/
inductive Owns (store : Store) : Option ClassRef → Option ClassDecl → Prop where
  | none : Owns store none none
  | some {ref : ClassRef} {object : ClassObject} : store.class? ref = some object →
      Owns store (some ref) (some object.decl)

/-- A class owns code of its declaration. -/
theorem Owns.eq_of_class? {store : Store} {ref : ClassRef} {object : ClassObject}
    {around : Option ClassDecl} (owns : store.Owns (.some ref) around)
    (found : store.class? ref = .some object) : around = .some object.decl := by
  cases owns with
  | some held =>
      cases held.symm.trans found
      rfl

/-- In a scope stands code of the class that owns it. -/
def Houses (store : Store) (globals env : ScopeRef) (owner : Option ClassRef) : Prop :=
  ∃ tags, store.Chain globals env tags ∧ store.Owns owner (classAround tags)

/-- A later store with the same scopes at the same places. A sealed scope stays as it is. -/
structure Lasts (store after : Store) : Prop where
  functions : ∀ ref function, store.function? ref = some function →
    after.function? ref = some function
  classes : ∀ ref object, store.class? ref = some object →
    ∃ later, after.class? ref = some later ∧ object.Becomes later
  objects : ∀ ref object, store.object? ref = some object →
    ∃ later, after.object? ref = some later ∧ later.ofClass = object.ofClass
  scopes : ∀ ref scope, store.scope? ref = some scope → ∃ later, after.scope? ref = some later ∧
    later.enclosing = scope.enclosing ∧ later.tag = scope.tag ∧
    (scope.tag.isSealed = true → later = scope)

namespace Lasts

variable {store after : Store} {globals : ScopeRef}

/-- The scopes of a store last while nothing happens. -/
theorem refl (store : Store) : store.Lasts store :=
  ⟨fun _ _ found => found, fun _ object found => ⟨object, found, rfl, rfl, rfl⟩,
    fun _ object found => ⟨object, found, rfl⟩,
    fun _ scope found => ⟨scope, found, rfl, rfl, fun _ => rfl⟩⟩

/-- Scopes that last twice last. -/
theorem trans {last : Store} (left : store.Lasts after) (right : after.Lasts last) :
    store.Lasts last := by
  refine ⟨fun ref function found => right.functions ref function
    (left.functions ref function found),
    fun ref object found => ?_, fun ref object found => ?_, fun ref scope found => ?_⟩
  · obtain ⟨middle, foundMiddle, becomes⟩ := left.classes ref object found
    obtain ⟨later, foundLater, further⟩ := right.classes ref middle foundMiddle
    exact ⟨later, foundLater, further.decl.trans becomes.decl,
      further.superclass.trans becomes.superclass, further.closure.trans becomes.closure⟩
  · obtain ⟨middle, foundMiddle, ofClass⟩ := left.objects ref object found
    obtain ⟨later, foundLater, ofSame⟩ := right.objects ref middle foundMiddle
    exact ⟨later, foundLater, ofSame.trans ofClass⟩
  · obtain ⟨middle, foundMiddle, enclosing, tag, fixed⟩ := left.scopes ref scope found
    obtain ⟨later, foundLater, around, same, stays⟩ := right.scopes ref middle foundMiddle
    refine ⟨later, foundLater, around.trans enclosing, same.trans tag, fun held => ?_⟩
    rw [stays (tag ▸ held), fixed held]

/-- A store that grows lasts if its sealed scopes stay as they are. -/
theorem of_grows (grows : store.Grows none after)
    (scopes : ∀ ref scope, store.scope? ref = some scope → ∃ later,
      after.scope? ref = some later ∧ later.enclosing = scope.enclosing ∧ later.tag = scope.tag ∧
      (scope.tag.isSealed = true → later = scope)) : store.Lasts after :=
  ⟨grows.functions, grows.classes, fun ref object found =>
    have ⟨later, foundLater, ofClass, _⟩ := grows.objects ref object found
    ⟨later, foundLater, ofClass⟩, scopes⟩

/-- A store that grows lasts if its scopes are untouched. -/
theorem of_scopes_eq (grows : store.Grows none after)
    (same : after.scopes = store.scopes) : store.Lasts after := by
  refine of_grows grows fun ref scope found => ⟨scope, ?_, rfl, rfl, fun _ => rfl⟩
  rw [scope?, same]
  exact found

/-- Scopes last when another one is made. -/
theorem newScope (store : Store) (enclosing : Option ScopeRef) (tag : ScopeTag)
    (bindings : Table Binding) : store.Lasts (store.newScope enclosing tag bindings).2 :=
  of_grows (.of_eq rfl rfl rfl) fun _ scope found =>
    ⟨scope, getElem?_push_of_eq_some found _, rfl, rfl, fun _ => rfl⟩

/-- Scopes last when a name is bound in one that is not sealed. -/
theorem define {ref : ScopeRef} (open_ : ∀ scope, store.scope? ref = some scope →
    scope.tag.isSealed = false) (name : String) (value : Value) (isFinal : Bool) :
    store.Lasts (store.define ref name value isFinal) := by
  refine of_grows (.of_eq rfl rfl rfl) fun other scope found => ?_
  rw [scope?_define, found]
  by_cases same : other = ref
  · subst same
    refine ⟨_, rfl, by simp, by simp, fun held => ?_⟩
    cases held.symm.trans (open_ scope found)
  · exact ⟨scope, by simp [same], rfl, rfl, fun _ => rfl⟩

/-- Scopes last when a field is set. -/
theorem putField (store : Store) (ref : ObjectRef) (name : String) (slot : FieldSlot) :
    store.Lasts (store.putField ref name slot) := by
  refine ⟨fun _ _ found => found, fun _ object found => ⟨object, found, rfl, rfl, rfl⟩,
    fun other object found => ?_, fun _ scope found => ⟨scope, found, rfl, rfl, fun _ => rfl⟩⟩
  rw [object?_putField, found]
  refine ⟨_, rfl, ?_⟩
  split <;> rfl

/-- A class still builds on what it built on. -/
theorem superclass? (lasts : store.Lasts after) {ref superclass : ClassRef}
    (upward : store.superclass? ref = some superclass) :
    after.superclass? ref = some superclass := by
  unfold Store.superclass? at upward ⊢
  cases found : store.class? ref with
  | none => simp [found] at upward
  | some object =>
      obtain ⟨later, foundLater, becomes⟩ := lasts.classes ref object found
      simp only [found, foundLater, becomes.superclass] at upward ⊢
      exact upward

/-- A class is still one of each class it builds on. -/
theorem lineage_subset (lasts : store.Lasts after) (ref : ClassRef) :
    store.lineage ref ⊆ after.lineage ref := by
  induction ref using lineage_induction store with
  | root ref root =>
      rw [lineage_of_root root, lineage]
      exact List.cons_subset_cons _ (List.nil_subset _)
  | inherits ref superclass upward ih =>
      rw [lineage_of_superclass? upward, lineage_of_superclass? (lasts.superclass? upward)]
      exact List.cons_subset_cons _ ih

/-- A chain of scopes stays a chain. -/
theorem chain (lasts : store.Lasts after) {ref : ScopeRef} {tags : List ScopeTag}
    (chain : store.Chain globals ref tags) : after.Chain globals ref tags := by
  induction chain with
  | outermost found root =>
      obtain ⟨later, foundLater, enclosing, tag, _⟩ := lasts.scopes _ _ found
      rw [← tag]
      exact .outermost foundLater (enclosing.trans root)
  | inner found enclosed _ ih =>
      obtain ⟨later, foundLater, enclosing, tag, _⟩ := lasts.scopes _ _ found
      rw [← tag]
      exact .inner foundLater (enclosing.trans enclosed) ih

/-- Code goes on being owned by the same class. -/
theorem owns (lasts : store.Lasts after) {owner : Option ClassRef} {around : Option ClassDecl}
    (owns : store.Owns owner around) : after.Owns owner around := by
  cases owns with
  | none => exact .none
  | some found =>
      obtain ⟨later, foundLater, becomes⟩ := lasts.classes _ _ found
      rw [← becomes.decl]
      exact .some foundLater

/-- A scope goes on housing the code of the class that owns it. -/
theorem houses (lasts : store.Lasts after) {env : ScopeRef} {owner : Option ClassRef}
    (houses : store.Houses globals env owner) : after.Houses globals env owner := by
  obtain ⟨tags, chain, owns⟩ := houses
  exact ⟨tags, lasts.chain chain, lasts.owns owns⟩

end Lasts

/-- A new scope inside of a chain of scopes. -/
theorem Chain.push {store : Store} {globals enclosing : ScopeRef} {tags : List ScopeTag}
    (chain : store.Chain globals enclosing tags) (tag : ScopeTag) (bindings : Table Binding) :
    (store.newScope (some enclosing) tag bindings).2.Chain globals
      (store.newScope (some enclosing) tag bindings).1 (tag :: tags) := by
  have made : (store.newScope (some enclosing) tag bindings).2.scope?
      (store.newScope (some enclosing) tag bindings).1 = some ⟨bindings, some enclosing, tag⟩ := by
    simp [scope?, newScope]
  exact .inner made rfl ((Lasts.newScope store (some enclosing) tag bindings).chain chain)

end Store

/-- A method a class declares, or one an extension added to it. -/
inductive MethodObject.BelongsTo (store : Store) (globals : ScopeRef) (ref : ClassRef)
    (object : ClassObject) (name : String) : MethodObject → Prop where
  | declared {decl : FunctionDecl} : decl ∈ object.decl.methods → decl.name = name →
      BelongsTo store globals ref object name
        ⟨decl, object.closure, some ref, .thisOf object.decl⟩
  | added {decl : FunctionDecl} {closure : ScopeRef} {id : NodeId} {tags : List ScopeTag} :
      decl.name = name → store.Chain globals closure tags →
      BelongsTo store globals ref object name ⟨decl, closure, none, .extensionThis id decl⟩

/-- The scope the code of a class closes over holds the superclass, if there is one. -/
def ClassObject.Inherits (store : Store) (ref : ClassRef) (object : ClassObject) : Prop :=
  match object.superclass with
  | none => object.decl.superclass = none
  | some superclass => superclass.index < ref.index ∧ object.decl.superclass.isSome ∧
    ∃ around, store.scope? object.closure =
      some ⟨[("super", ⟨.classValue superclass, true⟩)], some around, .superOf object.decl⟩

/-- A class of which each method is declared by the class or was added to it. -/
structure ClassObject.Tidy (store : Store) (globals : ScopeRef) (ref : ClassRef)
    (object : ClassObject) : Prop where
  closure : ∃ tags, store.Chain globals object.closure tags
  inherits : object.Inherits store ref
  methods : ∀ name method, object.methods.find? name = some method →
    method.BelongsTo store globals ref object name
  declared : ∀ decl ∈ object.decl.methods, (object.methods.find? decl.name).isSome

/-- A scope that holds a receiver or a superclass, if that is what its construct holds. -/
def Scope.Tidy (store : Store) (scope : Scope) : Prop :=
  match scope.tag with
  | .thisOf decl => (∃ value, scope.bindings = [("this", ⟨value, true⟩)]) ∧
    ∃ ref object, store.class? ref = some object ∧ object.decl = decl ∧
      scope.enclosing = some object.closure
  | .extensionThis _ _ => ∃ value, scope.bindings = [("this", ⟨value, true⟩)]
  | .superOf _ => ∃ superclass, scope.bindings = [("super", ⟨.classValue superclass, true⟩)]
  | .globals | .block _ _ | .test _ _ | .body _ => True

/-- A field that its owner declares, which has a value if it is declared with one, or a field
that everyone may use and change. -/
def FieldSlot.Tidy (store : Store) (name : String) (slot : FieldSlot) : Prop :=
  slot.visibility = .everyone ∧ slot.isFinal = false ∨
    ∃ object field, store.class? slot.owner = some object ∧ field ∈ object.decl.fields ∧
      field.name = name ∧ slot.visibility = field.visibility ∧ slot.isFinal = field.isFinal ∧
      (field.initial.isSome = true → slot.assigned = true)

/-- A field stays tidy when it is assigned to. -/
theorem FieldSlot.Tidy.assign {store : Store} {name : String} {slot : FieldSlot}
    (tidy : slot.Tidy store name) (value : Value) :
    ({ slot with value := value, assigned := true } : FieldSlot).Tidy store name := by
  refine tidy.imp id ?_
  rintro ⟨object, field, found, member, named, visibility, final, _⟩
  exact ⟨object, field, found, member, named, visibility, final, fun _ => rfl⟩

/-- A store of which the owners of all code are known. -/
structure Store.Tidy (store : Store) (globals : ScopeRef) : Prop where
  functions : ∀ ref function, store.function? ref = some function →
    store.Houses globals function.closure function.owner
  classes : ∀ ref object, store.class? ref = some object → object.Tidy store globals ref
  scopes : ∀ ref scope, store.scope? ref = some scope → scope.Tidy store
  fields : ∀ ref name slot, store.field? ref name = some slot → slot.Tidy store name

section Lasting

variable {store after : Store} {globals : ScopeRef}

private theorem MethodObject.BelongsTo.last {ref : ClassRef} {object later : ClassObject}
    {name : String}
    {method : MethodObject} (belongs : method.BelongsTo store globals ref object name)
    (becomes : object.Becomes later) (lasts : store.Lasts after) :
    method.BelongsTo after globals ref later name := by
  cases belongs with
  | declared member named =>
      rw [← becomes.decl, ← becomes.closure]
      exact .declared (becomes.decl ▸ member) named
  | added named chain => exact .added named (lasts.chain chain)

private theorem ClassObject.Inherits.last {ref : ClassRef} {object later : ClassObject}
    (inherits : object.Inherits store ref) (becomes : object.Becomes later)
    (lasts : store.Lasts after) : later.Inherits after ref := by
  unfold Inherits at inherits ⊢
  rw [becomes.superclass, becomes.decl, becomes.closure]
  split <;> rename_i held <;> rw [held] at inherits
  · exact inherits
  · obtain ⟨earlier, named, around, found⟩ := inherits
    obtain ⟨scope, foundLater, _, _, fixed⟩ := lasts.scopes _ _ found
    rw [fixed rfl] at foundLater
    exact ⟨earlier, named, around, foundLater⟩

private theorem ClassObject.Tidy.last {ref : ClassRef} {object : ClassObject}
    (tidy : object.Tidy store globals ref) (lasts : store.Lasts after) :
    object.Tidy after globals ref := by
  obtain ⟨tags, chain⟩ := tidy.closure
  exact ⟨⟨tags, lasts.chain chain⟩, tidy.inherits.last ⟨rfl, rfl, rfl⟩ lasts,
    fun name method found => (tidy.methods name method found).last ⟨rfl, rfl, rfl⟩ lasts,
    tidy.declared⟩

/-- A scope stays tidy. -/
theorem Scope.Tidy.last {scope : Scope} (tidy : scope.Tidy store) (lasts : store.Lasts after) :
    scope.Tidy after := by
  unfold Scope.Tidy at tidy ⊢
  split at tidy
  · obtain ⟨holds, ref, object, found, decl, enclosing⟩ := tidy
    obtain ⟨later, foundLater, becomes⟩ := lasts.classes ref object found
    exact ⟨holds, ref, later, foundLater, becomes.decl.trans decl,
      enclosing.trans (congrArg some becomes.closure.symm)⟩
  all_goals exact tidy

/-- A field stays tidy. -/
theorem FieldSlot.Tidy.last {name : String} {slot : FieldSlot} (tidy : slot.Tidy store name)
    (lasts : store.Lasts after) : slot.Tidy after name := by
  refine tidy.imp id ?_
  rintro ⟨object, field, found, member, rest⟩
  obtain ⟨later, foundLater, becomes⟩ := lasts.classes _ _ found
  exact ⟨later, field, foundLater, becomes.decl.symm ▸ member, rest⟩

/-- A store that lasts stays tidy if what is new in it is tidy. -/
theorem Store.Tidy.of_lasts (tidy : store.Tidy globals) (lasts : store.Lasts after)
    (functions : ∀ ref function, after.function? ref = some function →
      store.function? ref = some function ∨ after.Houses globals function.closure function.owner)
    (classes : ∀ ref object, after.class? ref = some object →
      store.class? ref = some object ∨ object.Tidy after globals ref)
    (scopes : ∀ ref scope, after.scope? ref = some scope →
      store.scope? ref = some scope ∨ scope.Tidy after)
    (fields : ∀ ref name slot, after.field? ref name = some slot →
      store.field? ref name = some slot ∨ slot.Tidy after name) : after.Tidy globals where
  functions ref function found := (functions ref function found).elim
    (fun known => lasts.houses (tidy.functions ref function known)) id
  classes ref object found := (classes ref object found).elim
    (fun known => (tidy.classes ref object known).last lasts) id
  scopes ref scope found := (scopes ref scope found).elim
    (fun known => (tidy.scopes ref scope known).last lasts) id
  fields ref name slot found := (fields ref name slot found).elim
    (fun known => (tidy.fields ref name slot known).last lasts) id

namespace Store.Tidy

/-- A store stays tidy when a tidy scope is made. -/
theorem newScope (tidy : store.Tidy globals) {enclosing : Option ScopeRef} {tag : ScopeTag}
    {bindings : Table Binding} (made : (⟨bindings, enclosing, tag⟩ : Scope).Tidy store) :
    (store.newScope enclosing tag bindings).2.Tidy globals := by
  have lasts : store.Lasts (store.newScope enclosing tag bindings).2 := .newScope _ _ _ _
  refine tidy.of_lasts lasts (fun _ _ found => .inl found) (fun _ _ found => .inl found)
    (fun ref scope found => ?_) fun _ _ _ found => .inl found
  rcases scope?_newScope found with known | rfl
  · exact .inl known
  · exact .inr (made.last lasts)

/-- A store stays tidy when a name is bound in a scope that is not sealed. -/
theorem define (tidy : store.Tidy globals) {ref : ScopeRef} (open_ : ∀ scope,
    store.scope? ref = some scope → scope.tag.isSealed = false) (name : String) (value : Value)
    (isFinal : Bool) : (store.define ref name value isFinal).Tidy globals := by
  refine tidy.of_lasts (.define open_ name value isFinal) (fun _ _ found => .inl found)
    (fun _ _ found => .inl found) (fun other scope found => ?_) fun _ _ _ found => .inl found
  rw [scope?_define] at found
  obtain ⟨earlier, known, rfl⟩ := Option.map_eq_some_iff.mp found
  by_cases same : other = ref
  · subst same
    have unsealed := open_ earlier known
    refine .inr ?_
    rw [if_pos rfl]
    unfold Scope.Tidy
    cases tag : earlier.tag <;> simp_all [ScopeTag.isSealed]
  · refine .inl ?_
    rw [if_neg same]
    exact known

/-- A store stays tidy when a function is made with the owner that its closure houses code of. -/
theorem newFunction (tidy : store.Tidy globals) {function : FunctionObject}
    (houses : store.Houses globals function.closure function.owner) :
    (store.newFunction function).2.Tidy globals := by
  have lasts : store.Lasts (store.newFunction function).2 :=
    .of_scopes_eq (.newFunction store function) rfl
  refine tidy.of_lasts lasts (fun ref other found => ?_) (fun _ _ found => .inl found)
    (fun _ _ found => .inl found) fun _ _ _ found => .inl found
  unfold function? Store.newFunction at found
  rw [Array.getElem?_push] at found
  split at found
  · cases found
    exact .inr (lasts.houses houses)
  · exact .inl found

/-- A store stays tidy when a tidy class is made. -/
theorem newClass (tidy : store.Tidy globals) {object : ClassObject}
    (made : object.Tidy store globals ⟨store.classes.size⟩) :
    (store.newClass object).2.Tidy globals := by
  have lasts : store.Lasts (store.newClass object).2 :=
    .of_scopes_eq (.newClass store object) rfl
  refine tidy.of_lasts lasts (fun _ _ found => .inl found) (fun ref other found => ?_)
    (fun _ _ found => .inl found) fun _ _ _ found => .inl found
  unfold class? Store.newClass at found
  rw [Array.getElem?_push] at found
  split at found
  · rename_i last
    cases found
    refine .inr ?_
    obtain rfl : ref = ⟨store.classes.size⟩ := by cases ref; cases last; rfl
    exact made.last lasts
  · exact .inl found

/-- A store stays tidy when an extension adds a method to a class. -/
theorem addMethod (tidy : store.Tidy globals) {target : ClassRef} {decl : FunctionDecl}
    {closure : ScopeRef} {tags : List ScopeTag} (chain : store.Chain globals closure tags)
    (id : NodeId) :
    (store.addMethod target decl.name
      ⟨decl, closure, none, .extensionThis id decl⟩).Tidy globals := by
  have lasts : store.Lasts
      (store.addMethod target decl.name ⟨decl, closure, none, .extensionThis id decl⟩) :=
    .of_scopes_eq (.addMethod store _ _ _) rfl
  refine tidy.of_lasts lasts (fun _ _ found => .inl found) (fun ref other found => ?_)
    (fun _ _ found => .inl found) fun _ _ _ found => .inl found
  unfold class? Store.addMethod at found
  rw [Array.getElem?_modify] at found
  split at found
  · obtain ⟨object, known, rfl⟩ := Option.map_eq_some_iff.mp found
    have old := (tidy.classes ref object known).last lasts
    refine .inr ⟨old.closure, old.inherits, fun query method listed => ?_, fun own member => ?_⟩
    · by_cases hit : decl.name = query
      · subst hit
        rw [Table.find?_put_self] at listed
        cases listed
        exact .added rfl (lasts.chain chain)
      · rw [Table.find?_put_of_ne _ _ hit] at listed
        exact (old.methods query method listed).last ⟨rfl, rfl, rfl⟩ (.refl _)
    · by_cases hit : decl.name = own.name
      · rw [hit, Table.find?_put_self]
        rfl
      · rw [Table.find?_put_of_ne _ _ hit]
        exact old.declared own member
  · exact .inl found

/-- A store stays tidy when an object without fields is made. -/
theorem newObject (tidy : store.Tidy globals) (ofClass : ClassRef) :
    (store.newObject ofClass).2.Tidy globals := by
  refine tidy.of_lasts (.of_scopes_eq (.newObject store ofClass) rfl)
    (fun _ _ found => .inl found) (fun _ _ found => .inl found) (fun _ _ found => .inl found)
    fun ref name slot found => .inl ?_
  rw [← store.field?_newObject ofClass]
  exact found

/-- A store stays tidy when a tidy field is set. -/
theorem putField (tidy : store.Tidy globals) {ref : ObjectRef} {name : String} {slot : FieldSlot}
    (made : slot.Tidy store name) : (store.putField ref name slot).Tidy globals := by
  refine tidy.of_lasts (.putField store ref name slot) (fun _ _ found => .inl found)
    (fun _ _ found => .inl found)
    (fun _ _ found => .inl found) fun other query held found => ?_
  unfold field? at found ⊢
  rw [object?_putField] at found
  cases known : store.object? other with
  | none => simp [known] at found
  | some object =>
      rw [known] at found
      by_cases same : other = ref
      · by_cases hit : name = query
        · subst hit
          obtain rfl : slot = held := by simpa [same] using found
          exact .inr (made.last (.putField store ref name slot))
        · exact .inl (by simpa [same, Table.find?_put_of_ne _ _ hit] using found)
      · exact .inl (by simpa [same] using found)

/-- Changes of arrays and native modules leave a store tidy. -/
theorem of_eq (tidy : store.Tidy globals) (scopes : after.scopes = store.scopes)
    (functions : after.functions = store.functions) (classes : after.classes = store.classes)
    (objects : after.objects = store.objects) : after.Tidy globals := by
  have lasts : store.Lasts after :=
    .of_scopes_eq (.of_eq functions classes objects) scopes
  refine tidy.of_lasts lasts (fun ref function found => .inl ?_) (fun ref object found => .inl ?_)
    (fun ref scope found => .inl ?_) fun ref name slot found => .inl ?_
  · rwa [function?, functions] at found
  · rwa [class?, classes] at found
  · rwa [scope?, scopes] at found
  · rwa [field?, object?, objects] at found

end Store.Tidy

end Lasting

end Scriptlet
