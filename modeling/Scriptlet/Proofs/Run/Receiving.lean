import Scriptlet.Proofs.Run.Serving

/-!
# Receivers along a chain of scopes

From a scope of a run outwards, the first scope of a receiver stands as many steps out as in the
text, and holds one receiver for good (`Store.Receives`). If it is that of a class which builds on
another one, the scope just outside holds the superclass that the class got when it was declared
(`Store.Captures`).
-/

namespace Scriptlet

namespace Store

/-- The scope of the innermost receiver around a scope of a run, so many scopes out, and the
receiver it holds. -/
structure Receives (store : Store) (env : ScopeRef) (distance : Nat) (scope : Scope)
    (receiver : Value) : Prop where
  reached : ∃ ref, store.ancestor? env distance = some ref ∧ store.scope? ref = some scope
  bindings : scope.bindings = [("this", ⟨receiver, true⟩)]
  tag : scope.tag.held? = some "this"
  nearer : ∀ steps ref between, steps < distance → store.ancestor? env steps = some ref →
    store.scope? ref = some between → between.tag.held? = none

/-- The scope of a receiver is inside of a class that was made with this superclass. -/
def Captures (store : Store) (scope : Scope) (superclass : ClassRef) : Prop :=
  ∃ ref object around, store.class? ref = some object ∧ scope.tag = .thisOf object.decl ∧
    scope.enclosing = some object.closure ∧ object.superclass = some superclass ∧
    store.scope? object.closure =
      some ⟨[("super", ⟨.classValue superclass, true⟩)], some around, .superOf object.decl⟩

/-- The value is a method that is bound to a receiver. -/
def Binds (store : Store) (method : MethodObject) (receiver value : Value) : Prop :=
  ∃ ref scope, value = .function ref ∧
    store.function? ref = some ⟨method.decl, scope, method.owner⟩ ∧
    store.scope? scope =
      some ⟨[("this", ⟨receiver, true⟩)], some method.closure, method.receiver⟩

variable {store after : Store} {globals env ref around : ScopeRef} {scope : Scope}
  {tags : List ScopeTag} {distance : Nat}

/-- The scope one step further out is the one around the scope that was reached. -/
theorem ancestor?_succ (reached : store.ancestor? env distance = some ref)
    (found : store.scope? ref = some scope) (enclosing : scope.enclosing = some around) :
    store.ancestor? env (distance + 1) = some around := by
  induction distance generalizing env with
  | zero =>
      cases reached
      rw [ancestor?, found]
      simp only [enclosing]
      rfl
  | succ distance ih =>
      rw [ancestor?] at reached ⊢
      split at reached
      · split at reached
        · exact ih reached
        · cases reached
      · cases reached

/-- The scope so many steps out along a chain of scopes. -/
theorem Chain.ancestor? (chain : store.Chain globals env tags) {tag : ScopeTag}
    (listed : tags[distance]? = some tag) :
    ∃ ref scope, store.ancestor? env distance = some ref ∧ store.scope? ref = some scope ∧
      scope.tag = tag := by
  induction chain generalizing distance with
  | outermost found _ =>
      cases distance with
      | zero =>
          cases listed
          exact ⟨_, _, rfl, found, rfl⟩
      | succ distance => cases listed
  | inner found enclosed _ ih =>
      cases distance with
      | zero =>
          cases listed
          exact ⟨_, _, rfl, found, rfl⟩
      | succ distance =>
          obtain ⟨target, actual, reached, rest⟩ := ih listed
          refine ⟨target, actual, ?_, rest⟩
          rw [Store.ancestor?, found]
          simp only [enclosed]
          exact reached

/-- The constructs along a chain are those of the scopes there. -/
theorem Chain.tag_of_ancestor? (chain : store.Chain globals env tags)
    (reached : store.ancestor? env distance = some ref) (found : store.scope? ref = some scope) :
    tags[distance]? = some scope.tag := by
  induction chain generalizing distance with
  | outermost held root =>
      cases distance with
      | zero =>
          cases reached
          cases held.symm.trans found
          rfl
      | succ distance =>
          rw [Store.ancestor?, held] at reached
          simp only [root] at reached
          cases reached
  | inner held enclosed _ ih =>
      cases distance with
      | zero =>
          cases reached
          cases held.symm.trans found
          rfl
      | succ distance =>
          rw [Store.ancestor?, held] at reached
          simp only [enclosed] at reached
          exact ih reached

private theorem valueAt?_of_ancestor? (reached : store.ancestor? env distance = some ref)
    (found : store.scope? ref = some scope) {name : String} {value : Value} {isFinal : Bool}
    (bindings : scope.bindings = [(name, ⟨value, isFinal⟩)]) :
    store.valueAt? env distance name = some value := by
  simp [valueAt?, reached, valueIn?, bindingsOf, found, bindings, Table.find?]

/-- The methods of classes are those of the classes alone. -/
theorem method?_congr {other : Store} (same : other.classes = store.classes) (ref : ClassRef)
    (name : String) : other.method? ref name = store.method? ref name := by
  have class? (ref : ClassRef) : other.class? ref = store.class? ref := by
    rw [Store.class?, Store.class?, same]
  have superclass? (ref : ClassRef) : other.superclass? ref = store.superclass? ref := by
    rw [Store.superclass?, Store.superclass?, class?]
  have own : other.ownMethod? name = store.ownMethod? name := by
    funext owner
    rw [ownMethod?, ownMethod?, class?]
  have lineage : other.lineage ref = store.lineage ref := by
    induction ref using lineage_induction store with
    | root ref root => rw [lineage_of_root root, lineage_of_root ((superclass? ref).trans root)]
    | inherits ref superclass upward ih =>
        rw [lineage_of_superclass? upward,
          lineage_of_superclass? ((superclass? ref).trans upward), ih]
  rw [method?, method?, own, lineage]

namespace Tidy

/-- The scope of a receiver holds one. -/
theorem receiver (tidy : store.Tidy globals) (found : store.scope? ref = some scope)
    (receives : scope.tag.held? = some "this") :
    ∃ value, scope.bindings = [("this", ⟨value, true⟩)] := by
  have holds := tidy.scopes ref scope found
  unfold Scope.Tidy at holds
  cases tag : scope.tag with
  | thisOf decl =>
      rw [tag] at holds
      exact holds.1
  | extensionThis id decl =>
      rw [tag] at holds
      exact holds
  | _ => simp [tag, ScopeTag.held?] at receives

/-- The scope of a receiver of a class that builds on another one. -/
theorem captures (tidy : store.Tidy globals) (found : store.scope? ref = some scope)
    {decl : ClassDecl} (tag : scope.tag = .thisOf decl) (derived : decl.superclass.isSome = true) :
    ∃ superclass, store.Captures scope superclass := by
  have holds := tidy.scopes ref scope found
  rw [Scope.Tidy, tag] at holds
  obtain ⟨_, owner, object, held, rfl, enclosing⟩ := holds
  have inherits := (tidy.classes owner object held).inherits
  unfold ClassObject.Inherits at inherits
  split at inherits
  · rw [inherits] at derived
    cases derived
  · rename_i superclass built
    obtain ⟨_, _, around, closure⟩ := inherits
    exact ⟨superclass, owner, object, around, held, tag, enclosing, built, closure⟩

end Tidy

/-- The scope of a receiver goes on being inside of the class it is inside of. -/
theorem Captures.last {superclass : ClassRef} (captures : store.Captures scope superclass)
    (lasts : store.Lasts after) : after.Captures scope superclass := by
  obtain ⟨ref, object, around, found, tag, enclosing, built, closure⟩ := captures
  obtain ⟨later, foundLater, becomes⟩ := lasts.classes ref object found
  obtain ⟨held, foundHeld, _, _, fixed⟩ := lasts.scopes _ _ closure
  rw [fixed rfl] at foundHeld
  refine ⟨ref, later, around, foundLater, ?_, ?_, becomes.superclass.trans built, ?_⟩
  · rw [becomes.decl, tag]
  · rw [becomes.closure, enclosing]
  · rw [becomes.closure, becomes.decl, foundHeld]

/-- The innermost receiver along a chain of scopes. -/
theorem Chain.receives (chain : store.Chain globals env tags) (tidy : store.Tidy globals)
    {tag : ScopeTag} (innermost : InnermostReceiver tags distance tag) :
    ∃ scope receiver, store.Receives env distance scope receiver ∧ scope.tag = tag := by
  obtain ⟨ref, scope, reached, found, same⟩ := chain.ancestor? innermost.listed
  have receives : scope.tag.held? = some "this" := same ▸ innermost.receives
  obtain ⟨receiver, bindings⟩ := tidy.receiver found receives
  refine ⟨scope, receiver, ⟨⟨ref, reached, found⟩, bindings, receives, ?_⟩, same⟩
  intro steps inner between closer reachedInner foundInner
  exact innermost.nearer steps _ closer (chain.tag_of_ancestor? reachedInner foundInner)

/-- The receiver is the value of its name so many scopes out. -/
theorem Receives.valueAt? {receiver : Value}
    (receives : store.Receives env distance scope receiver) :
    store.valueAt? env distance "this" = some receiver := by
  obtain ⟨ref, reached, found⟩ := receives.reached
  exact valueAt?_of_ancestor? reached found receives.bindings

/-- The superclass is the value of its name one scope further out than the receiver. -/
theorem Captures.valueAt? {receiver : Value} {superclass : ClassRef}
    (captures : store.Captures scope superclass)
    (receives : store.Receives env distance scope receiver) :
    store.valueAt? env (distance + 1) "super" = some (.classValue superclass) := by
  obtain ⟨ref, reached, found⟩ := receives.reached
  obtain ⟨_, _, _, _, _, enclosing, _, closure⟩ := captures
  exact valueAt?_of_ancestor? (ancestor?_succ reached found enclosing) closure rfl

/-- The innermost receiver stays where it is. -/
theorem Receives.last {receiver : Value} (receives : store.Receives env distance scope receiver)
    (chain : store.Chain globals env tags) (lasts : store.Lasts after) :
    after.Receives env distance scope receiver := by
  obtain ⟨ref, reached, found⟩ := receives.reached
  obtain ⟨later, foundLater, _, _, fixed⟩ := lasts.scopes ref scope found
  rw [fixed (ScopeTag.isSealed_of_held? receives.tag)] at foundLater
  refine ⟨⟨ref, lasts.ancestor? reached, foundLater⟩, receives.bindings, receives.tag, ?_⟩
  intro steps inner between closer reachedInner foundInner
  -- The chain reaches as far inside as it reaches outside.
  obtain ⟨bound, _⟩ := List.getElem?_eq_some_iff.mp (chain.tag_of_ancestor? reached found)
  obtain ⟨near, scope, reachedNear, foundNear, _⟩ :=
    chain.ancestor? (List.getElem?_eq_getElem (Nat.lt_trans closer bound))
  obtain ⟨other, foundOther, _, tag, _⟩ := lasts.scopes near scope foundNear
  cases reachedInner.symm.trans (lasts.ancestor? reachedNear)
  cases foundInner.symm.trans foundOther
  rw [tag]
  exact receives.nearer steps _ _ closer reachedNear foundNear

end Store

end Scriptlet
