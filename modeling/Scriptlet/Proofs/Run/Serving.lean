import Scriptlet.Proofs.Lexical.Naming
import Scriptlet.Proofs.Run.Tidiness

/-!
# Receivers are objects

A scope of a receiver holds an object; if it is one for code of a class, an object of this
class or of one that builds on it (`Store.Serves`). Such a scope is made where a method is
read from an object, where an object is made, and where a method of the superclass is bound
to the receiver of the code that names it (`Store.PassesOn`). A step supplies the scopes of
receivers that it makes (`Machine.Supplies`).
-/

namespace Scriptlet

/-- A scope that is one for code of a class is one for code of one of these classes. -/
def Scope.OwnedBy (store : Store) (scope : Scope) (classes : List ClassRef) : Prop :=
  ∀ decl, scope.tag = .thisOf decl → ∃ owner ∈ classes, ∃ object,
    store.class? owner = some object ∧ object.decl = decl ∧ scope.enclosing = some object.closure

namespace Store

/-- An object of a class, or of one that builds on it. -/
def IsOf (store : Store) (ref : ObjectRef) (owner : ClassRef) : Prop :=
  ∃ object, store.object? ref = some object ∧ owner ∈ store.lineage object.ofClass

/-- A scope holds a receiver, which is an object of the class that owns the code inside of the
scope, if a class does. -/
structure Serves (store : Store) (scope : Scope) (receiver : ObjectRef) : Prop where
  bindings : scope.bindings = [("this", ⟨.object receiver, true⟩)]
  owned : ∃ object, store.object? receiver = some object ∧
    scope.OwnedBy store (store.lineage object.ofClass)

/-- The scope so many steps out is one of the first scopes of the store, and if it is sealed,
this is what it holds. -/
def Finds (store : Store) (env : ScopeRef) (distance limit : Nat) (bindings : Table Binding) :
    Prop :=
  ∃ ref scope, store.ancestor? env distance = some ref ∧ ref.index < limit ∧
    store.scope? ref = some scope ∧ (scope.tag.isSealed = true → scope.bindings = bindings)

/-- A method of the superclass passes on the receiver of the code that names it, in a scope
that is one for code of the superclass or of a class that this builds on. -/
def PassesOn (store : Store) (setting : Setting) (use : Use) (ref : ScopeRef) (scope : Scope) :
    Prop :=
  ∃ distance superclass, setting.resolutions.distance? use.id = some (distance + 1) ∧
    store.Finds use.env distance ref.index scope.bindings ∧
    store.Finds use.env (distance + 1) ref.index [("super", ⟨.classValue superclass, true⟩)] ∧
    scope.OwnedBy store (store.lineage superclass)

variable {store after : Store} {globals env ref : ScopeRef} {distance limit : Nat}
  {bindings : Table Binding} {scope : Scope}

/-- A scope goes on having the same scopes around it. -/
theorem Lasts.ancestor? (lasts : store.Lasts after)
    (reached : store.ancestor? env distance = some ref) :
    after.ancestor? env distance = some ref := by
  induction distance generalizing env with
  | zero => exact reached
  | succ distance ih =>
      rw [Store.ancestor?] at reached ⊢
      split at reached
      · rename_i scope found
        obtain ⟨later, foundLater, enclosing, _⟩ := lasts.scopes _ _ found
        split at reached
        · rename_i outward
          rw [foundLater]
          simp only [enclosing, outward]
          exact ih reached
        · cases reached
      · cases reached

private theorem Finds.last (finds : store.Finds env distance limit bindings)
    (lasts : store.Lasts after) :
    after.Finds env distance limit bindings := by
  obtain ⟨ref, scope, reached, inside, found, holds⟩ := finds
  obtain ⟨later, foundLater, _, tag, fixed⟩ := lasts.scopes ref scope found
  refine ⟨ref, later, lasts.ancestor? reached, inside, foundLater, fun held => ?_⟩
  rw [tag] at held
  rw [fixed held, holds held]

end Store

section Lasting

variable {store after : Store} {scope : Scope}

/-- A scope goes on being one for code of the same classes. -/
theorem Scope.OwnedBy.last {classes larger : List ClassRef} (owned : scope.OwnedBy store classes)
    (lasts : store.Lasts after) (subset : classes ⊆ larger) : scope.OwnedBy after larger := by
  intro decl tag
  obtain ⟨owner, member, object, found, same, enclosing⟩ := owned decl tag
  obtain ⟨later, foundLater, becomes⟩ := lasts.classes owner object found
  exact ⟨owner, subset member, later, foundLater, becomes.decl.trans same,
    enclosing.trans (congrArg some becomes.closure.symm)⟩

/-- An object goes on being one of a class. -/
theorem Store.IsOf.last {ref : ObjectRef} {owner : ClassRef} (isOf : store.IsOf ref owner)
    (lasts : store.Lasts after) : after.IsOf ref owner := by
  obtain ⟨object, found, member⟩ := isOf
  obtain ⟨later, foundLater, ofClass⟩ := lasts.objects ref object found
  exact ⟨later, foundLater, ofClass ▸ lasts.lineage_subset _ member⟩

/-- A scope goes on serving its receiver. -/
theorem Store.Serves.last {receiver : ObjectRef} (serves : store.Serves scope receiver)
    (lasts : store.Lasts after) : after.Serves scope receiver := by
  obtain ⟨object, found, owned⟩ := serves.owned
  obtain ⟨later, foundLater, ofClass⟩ := lasts.objects receiver object found
  refine ⟨serves.bindings, later, foundLater, ?_⟩
  rw [ofClass]
  exact owned.last lasts (lasts.lineage_subset _)

private theorem Store.PassesOn.last {setting : Setting} {use : Use} {ref : ScopeRef}
    (passes : store.PassesOn setting use ref scope) (lasts : store.Lasts after) :
    after.PassesOn setting use ref scope := by
  obtain ⟨distance, superclass, recorded, receiver, built, owned⟩ := passes
  exact ⟨distance, superclass, recorded, receiver.last lasts, built.last lasts,
    owned.last lasts (lasts.lineage_subset superclass)⟩

end Lasting

namespace Store.Tidy

variable {store : Store} {globals env : ScopeRef} {distance : Nat} {name : String}

/-- A sealed scope holds one name. -/
theorem bindings_of_sealed (tidy : store.Tidy globals) {ref : ScopeRef} {scope : Scope}
    (found : store.scope? ref = some scope) (held : scope.tag.isSealed = true) :
    ∃ key value, scope.bindings = [(key, ⟨value, true⟩)] := by
  have holds := tidy.scopes ref scope found
  unfold Scope.Tidy at holds
  cases tag : scope.tag <;> simp only [tag] at holds
  case thisOf => exact ⟨_, holds.1⟩
  case extensionThis => exact ⟨_, holds⟩
  case superOf =>
    obtain ⟨superclass, bindings⟩ := holds
    exact ⟨_, _, bindings⟩
  all_goals simp [tag, ScopeTag.isSealed] at held

/-- A value that is found so many steps out is all that the scope there holds, if it is
sealed. -/
theorem finds (tidy : store.Tidy globals) {value : Value}
    (found : store.valueAt? env distance name = some value) :
    store.Finds env distance store.scopes.size [(name, ⟨value, true⟩)] := by
  unfold valueAt? at found
  cases reached : store.ancestor? env distance with
  | none => simp [reached] at found
  | some ref =>
      rw [reached] at found
      cases held : store.scope? ref with
      | none => simp [valueIn?, bindingsOf, held, Table.find?] at found
      | some scope =>
          refine ⟨ref, scope, reached, index_lt_of_scope? held, held, fun isSealed => ?_⟩
          obtain ⟨key, single, bindings⟩ := tidy.bindings_of_sealed held isSealed
          by_cases same : key = name
          · subst same
            obtain rfl : single = value := by
              simpa [valueIn?, bindingsOf, held, bindings, Table.find?] using found
            exact bindings
          · simp [valueIn?, bindingsOf, held, bindings, Table.find?, same] at found

/-- A method that is looked up in a class waits for its receiver in a scope for code of one of
the classes the class builds on. -/
theorem ownedBy (tidy : store.Tidy globals) {ref : ClassRef} {method : MethodObject}
    (found : store.method? ref name = some method) (bindings : Table Binding) :
    (⟨bindings, some method.closure, method.receiver⟩ : Scope).OwnedBy store
      (store.lineage ref) := by
  obtain ⟨owner, member, own⟩ := List.exists_of_findSome?_eq_some found
  unfold ownMethod? at own
  split at own
  · rename_i object held
    intro decl tag
    cases (tidy.classes owner object held).methods name method own with
    | declared =>
        cases tag
        exact ⟨owner, member, object, held, rfl, rfl⟩
    | added => cases tag
  · cases own

end Store.Tidy

namespace Machine

variable {setting : Setting} {machine later : Machine} {ref : ScopeRef} {scope : Scope}

/-- A scope of a receiver has its receiver from an object, or from code that names a method of
the superclass. -/
def Furnishes (setting : Setting) (machine : Machine) (ref : ScopeRef) (scope : Scope) : Prop :=
  (∃ receiver, machine.store.Serves scope receiver) ∨
    ∃ use ∈ machine.uses, use.name = "super" ∧ machine.store.PassesOn setting use ref scope

private theorem Furnishes.last (furnishes : machine.Furnishes setting ref scope)
    (lasts : machine.store.Lasts later.store) (uses : machine.uses ⊆ later.uses) :
    later.Furnishes setting ref scope := by
  rcases furnishes with ⟨receiver, serves⟩ | ⟨use, member, named, passes⟩
  · exact .inl ⟨receiver, serves.last lasts⟩
  · exact .inr ⟨use, uses member, named, passes.last lasts⟩

/-- A scope that is made next has its receiver, if it is one of a receiver. -/
def MayReceive (setting : Setting) (machine : Machine) (scope : Scope) : Prop :=
  scope.tag.held? = some "this" →
    machine.Furnishes setting ⟨machine.store.scopes.size⟩ scope

/-- Each scope of a receiver on a later machine was there before or has its receiver. -/
def Supplies (setting : Setting) (machine later : Machine) : Prop :=
  ∀ ref scope, later.store.scope? ref = some scope → scope.tag.held? = some "this" →
    machine.store.scope? ref = some scope ∨ later.Furnishes setting ref scope

namespace Supplies

/-- What two parts of a run supply the whole run supplies. -/
theorem trans {last : Machine} (left : machine.Supplies setting later)
    (right : later.Supplies setting last) (lasts : later.store.Lasts last.store)
    (uses : later.uses ⊆ last.uses) : machine.Supplies setting last := by
  intro ref scope found held
  rcases right ref scope found held with known | furnishes
  · exact (left ref scope known held).imp id fun furnishes => furnishes.last lasts uses
  · exact .inr furnishes

/-- A step that makes no scope and changes none. -/
theorem of_scopes_eq (same : later.store.scopes = machine.store.scopes) :
    machine.Supplies setting later := by
  intro ref scope found _
  rw [Store.scope?, same] at found
  exact .inl found

/-- A machine on which no scope was made since supplies all of them. -/
theorem refl (machine : Machine) : machine.Supplies setting machine :=
  of_scopes_eq rfl

/-- A name that is bound in a scope that is not sealed. -/
theorem define {target : ScopeRef} {name : String} {value : Value} {isFinal : Bool}
    (store : later.store = machine.store.define target name value isFinal)
    (open_ : ∀ scope, machine.store.scope? target = some scope → scope.tag.isSealed = false) :
    machine.Supplies setting later := by
  intro ref scope found held
  rw [store, Store.scope?_define] at found
  obtain ⟨earlier, known, rfl⟩ := Option.map_eq_some_iff.mp found
  by_cases same : ref = target
  · subst same
    simp only [↓reduceIte] at held
    cases (ScopeTag.isSealed_of_held? held).symm.trans (open_ earlier known)
  · simp only [same, ↓reduceIte]
    exact .inl known

/-- A scope that is made, with its receiver if it is one of a receiver. -/
theorem newScope {enclosing : Option ScopeRef} {tag : ScopeTag} {bindings : Table Binding}
    (store : later.store = (machine.store.newScope enclosing tag bindings).2)
    (uses : machine.uses ⊆ later.uses)
    (made : machine.MayReceive setting ⟨bindings, enclosing, tag⟩) :
    machine.Supplies setting later := by
  intro ref scope found held
  rw [store] at found
  have lasts : machine.store.Lasts later.store := store ▸ .newScope _ _ _ _
  unfold Store.scope? Store.newScope at found
  rw [Array.getElem?_push] at found
  split at found
  · rename_i last
    cases found
    obtain rfl : ref = ⟨machine.store.scopes.size⟩ := by
      cases ref
      cases last
      rfl
    exact .inr ((made held).last lasts uses)
  · exact .inl found

end Supplies

end Machine

end Scriptlet
