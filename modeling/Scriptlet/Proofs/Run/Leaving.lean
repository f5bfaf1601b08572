import Scriptlet.Proofs.Lexical.Binding
import Scriptlet.Run.Evaluate

/-!
# What a step leaves as it was

Scopes are never removed or moved, and a step of a run binds names in the scope it
stands in only. `Run.Leaves changes step` says that the step comes back to the scope
it started in and that, of all scopes there were before, at most this one binds
names otherwise than before, and of those only the ones listed.
-/

namespace Scriptlet

/-- How a scope binds a name: not at all, for good, or not for good. -/
def Scope.mark (scope : Scope) (name : String) : Option Bool :=
  (scope.bindings.find? name).map (·.isFinal)

/-- A later state of a scope: the same place, and the same names bound in the same
way except for listed changes. -/
structure Scope.Becomes (changes : List (String × Bool)) (before after : Scope) : Prop where
  tag : after.tag = before.tag
  enclosing : after.enclosing = before.enclosing
  mark : ∀ name, after.mark name = before.mark name ∨
    ∃ isFinal, (name, isFinal) ∈ changes ∧ after.mark name = some isFinal

namespace Scope.Becomes

variable {changes : List (String × Bool)}

private theorem refl (scope : Scope) : scope.Becomes changes scope :=
  ⟨rfl, rfl, fun _ => .inl rfl⟩

private theorem trans {first second third : Scope} (left : first.Becomes changes second)
    (right : second.Becomes changes third) : first.Becomes changes third := by
  refine ⟨right.tag.trans left.tag, right.enclosing.trans left.enclosing, fun name => ?_⟩
  rcases right.mark name with same | changed
  · rw [same]
    exact left.mark name
  · exact .inr changed

private theorem mono {larger : List (String × Bool)} {before after : Scope}
    (later : before.Becomes changes after) (subset : changes ⊆ larger) :
    before.Becomes larger after := by
  refine ⟨later.tag, later.enclosing, fun name => ?_⟩
  rcases later.mark name with same | ⟨isFinal, member, marked⟩
  · exact .inl same
  · exact .inr ⟨isFinal, subset member, marked⟩

/-- A name that is bound stays bound. -/
theorem isSome_mark {before after : Scope} (later : before.Becomes changes after) {name : String}
    (bound : (before.mark name).isSome) : (after.mark name).isSome := by
  rcases later.mark name with same | ⟨isFinal, _, marked⟩
  · rw [same]
    exact bound
  · rw [marked]
    rfl

end Scope.Becomes

/-- A reference to a scope stays below the number of scopes. -/
theorem Store.index_lt_of_scope? {store : Store} {ref : ScopeRef} {scope : Scope}
    (found : store.scope? ref = some scope) : ref.index < store.scopes.size :=
  (Array.getElem?_eq_some_iff.mp found).1

/-- A later state of a store: every scope is still there, and only one of them may
have changed the names it binds, as listed. -/
def Store.Keeps (touched : ScopeRef) (changes : List (String × Bool)) (before after : Store) :
    Prop :=
  ∀ ref scope, before.scope? ref = some scope → ∃ later, after.scope? ref = some later ∧
    scope.Becomes (if ref = touched then changes else []) later

namespace Store.Keeps

variable {touched : ScopeRef} {changes : List (String × Bool)}

/-- A store that stays as it is keeps all scopes. -/
theorem refl (store : Store) : store.Keeps touched changes store :=
  fun _ scope found => ⟨scope, found, .refl scope⟩

private theorem trans {first second third : Store} (left : first.Keeps touched changes second)
    (right : second.Keeps touched changes third) : first.Keeps touched changes third := by
  intro ref scope found
  obtain ⟨middle, foundMiddle, firstStep⟩ := left ref scope found
  obtain ⟨later, foundLater, secondStep⟩ := right ref middle foundMiddle
  exact ⟨later, foundLater, firstStep.trans secondStep⟩

private theorem mono {larger : List (String × Bool)} {before after : Store}
    (kept : before.Keeps touched changes after) (subset : changes ⊆ larger) :
    before.Keeps touched larger after := by
  intro ref scope found
  obtain ⟨later, foundLater, becomes⟩ := kept ref scope found
  refine ⟨later, foundLater, becomes.mono ?_⟩
  split
  · exact subset
  · exact List.Subset.refl _

/-- Changes of a scope that was not there before are no changes. -/
theorem of_fresh {before after : Store} (kept : before.Keeps touched changes after)
    (fresh : before.scope? touched = none) (other : ScopeRef) :
    before.Keeps other [] after := by
  intro ref scope found
  obtain ⟨later, foundLater, becomes⟩ := kept ref scope found
  have apart : ref ≠ touched := by
    rintro rfl
    rw [fresh] at found
    cases found
  rw [if_neg apart] at becomes
  exact ⟨later, foundLater, becomes.mono (List.nil_subset _)⟩

/-- What does not touch the scopes keeps them. -/
theorem of_scopes_eq {before after : Store} (same : after.scopes = before.scopes) :
    before.Keeps touched changes after := by
  intro ref scope found
  refine ⟨scope, ?_, .refl scope⟩
  rw [Store.scope?, same]
  exact found

/-- Making a scope keeps the others. -/
theorem newScope (store : Store) (enclosing : Option ScopeRef) (tag : ScopeTag)
    (bindings : Table Binding) :
    store.Keeps touched changes (store.newScope enclosing tag bindings).2 := by
  intro ref scope found
  refine ⟨scope, ?_, .refl scope⟩
  have inside : ref.index < store.scopes.size := Store.index_lt_of_scope? found
  rw [Store.scope?, Store.newScope, Array.getElem?_push, if_neg (Nat.ne_of_lt inside)]
  exact found

/-- Binding a name keeps the scopes, if the change is listed or the name was bound in this way
before. -/
theorem define (store : Store) (ref : ScopeRef) (name : String) (value : Value)
    (isFinal : Bool) (listed : ref = touched ∧ (name, isFinal) ∈ changes ∨
      ∀ scope, store.scope? ref = some scope → scope.mark name = some isFinal) :
    store.Keeps touched changes (store.define ref name value isFinal) := by
  intro other scope found
  by_cases same : other = ref
  · subst same
    refine ⟨{ scope with bindings := scope.bindings.put name ⟨value, isFinal⟩ }, ?_, rfl, rfl, ?_⟩
    · rw [Store.scope?] at found
      simp [Store.scope?, Store.define, Array.getElem?_modify, found]
    · intro query
      by_cases hit : query = name
      · subst hit
        rcases listed with ⟨rfl, member⟩ | already
        · exact .inr ⟨isFinal, by rwa [if_pos rfl], by simp [Scope.mark]⟩
        · exact .inl (by rw [already scope found]; simp [Scope.mark])
      · exact .inl (by simp [Scope.mark, Table.find?_put_of_ne _ _ (Ne.symm hit)])
  · refine ⟨scope, ?_, .refl scope⟩
    have apart : ref.index ≠ other.index := fun equal =>
      same (by cases ref; cases other; cases equal; rfl)
    rw [Store.scope?] at found
    simp [Store.scope?, Store.define, Array.getElem?_modify, apart, found]

end Store.Keeps

/-- A later state of a machine that stands where it stood. -/
structure Machine.Keeps (changes : List (String × Bool)) (before after : Machine) : Prop where
  env : after.env = before.env
  owners : after.owners = before.owners
  callDepth : after.callDepth = before.callDepth
  store : before.store.Keeps before.env changes after.store

namespace Machine.Keeps

variable {changes : List (String × Bool)}

private theorem refl (machine : Machine) : machine.Keeps changes machine :=
  ⟨rfl, rfl, rfl, .refl _⟩

private theorem trans {first second third : Machine} (left : first.Keeps changes second)
    (right : second.Keeps changes third) : first.Keeps changes third := by
  refine ⟨right.env.trans left.env, right.owners.trans left.owners,
    right.callDepth.trans left.callDepth, left.store.trans ?_⟩
  rw [← left.env]
  exact right.store

private theorem mono {larger : List (String × Bool)} {before after : Machine}
    (kept : before.Keeps changes after) (subset : changes ⊆ larger) :
    before.Keeps larger after :=
  ⟨kept.env, kept.owners, kept.callDepth, kept.store.mono subset⟩

end Machine.Keeps

namespace Run

/-- On every path, the step leaves everything as it was but for listed changes of the
scope it stands in. -/
def Leaves {α : Type} (changes : List (String × Bool)) (step : Run α) : Prop :=
  ∀ machine : Machine, machine.Keeps changes (machineAfter (step machine))

namespace Leaves

variable {α β : Type} {changes : List (String × Bool)}

/-- The machine a step ends with, for a step that ends well. -/
theorem of_ok {step : Run α} (leaves : Leaves changes step) {machine after : Machine} {value : α}
    (ended : step machine = .ok value after) : machine.Keeps changes after := by
  have kept := leaves machine
  rw [ended] at kept
  exact kept

/-- A step that leaves everything but for some changes does so but for more changes. -/
theorem mono {larger : List (String × Bool)} {step : Run α} (leaves : Leaves changes step)
    (subset : changes ⊆ larger) : Leaves larger step :=
  fun machine => (leaves machine).mono subset

/-- A step without changes may take part where changes are allowed. -/
theorem quiet {step : Run α} (leaves : Leaves [] step) : Leaves changes step :=
  leaves.mono (List.nil_subset _)

/-- Giving a value leaves everything as it was. -/
protected theorem pure (value : α) : Leaves changes (pure value : Run α) :=
  fun machine => .refl machine

/-- A fault leaves everything as it was. -/
protected theorem fail (fault : RuntimeFault) (location : Location) :
    Leaves changes (Run.fail fault location : Run α) :=
  fun machine => .refl machine

/-- Stopping for the depth leaves everything as it was. -/
protected theorem exhausted : Leaves changes (Run.exhausted : Run α) :=
  fun machine => .refl machine

/-- A step that never ends leaves everything as it was. -/
protected theorem endless : Leaves changes (Run.endless : Run α) :=
  fun machine => .refl machine

/-- Looking at the machine leaves everything as it was. -/
protected theorem get : Leaves changes (get : Run Machine) :=
  fun machine => .refl machine

/-- Looking at the store leaves everything as it was. -/
protected theorem inspect (look : Store → α) : Leaves changes (Run.inspect look) :=
  fun machine => .refl machine

/-- Giving a result, or failing with its fault, leaves everything as it was. -/
protected theorem orFail (result : Except RuntimeFault α) (location : Location) :
    Leaves changes (Run.orFail result location) := by
  cases result with
  | ok value => exact .pure value
  | error fault => exact .fail fault location

/-- One step after another leaves what both of them leave. -/
theorem bind {step : Run α} {next : α → Run β} (first : Leaves changes step)
    (rest : ∀ value, Leaves changes (next value)) : Leaves changes (step >>= next) := by
  intro machine
  have kept := first machine
  change machine.Keeps changes (machineAfter (EStateM.bind step next machine))
  unfold EStateM.bind
  cases ended : step machine with
  | ok value after =>
      rw [ended] at kept
      exact kept.trans (rest value after)
  | error stop after =>
      rw [ended] at kept
      exact kept

/-- A change of the store leaves what the change keeps. -/
theorem change {update : Store → Store}
    (kept : ∀ touched (store : Store), store.Keeps touched changes (update store)) :
    Leaves changes (Run.change update) :=
  fun machine => ⟨rfl, rfl, rfl, kept machine.env machine.store⟩

/-- Making something in the store leaves what the store keeps. -/
theorem create {make : Store → α × Store}
    (kept : ∀ touched (store : Store), store.Keeps touched changes (make store).2) :
    Leaves changes (Run.create make) :=
  fun machine => ⟨rfl, rfl, rfl, kept machine.env machine.store⟩

/-- Binding a name changes this name in the scope the step stands in. -/
protected theorem define (name : String) (value : Value) (isFinal : Bool) :
    Leaves [(name, isFinal)] (Run.define name value isFinal) :=
  fun machine => ⟨rfl, rfl, rfl,
    .define machine.store machine.env name value isFinal
      (.inl ⟨rfl, List.mem_singleton.mpr rfl⟩)⟩

/-- What happens in a new scope leaves the scopes there were before. -/
theorem within {step : Run α} (enclosing : ScopeRef) (tag : ScopeTag) (bindings : Table Binding)
    (inside : Leaves changes step) : Leaves [] (Run.within enclosing tag bindings step) := by
  intro machine
  have opened : machine.store.Keeps ⟨machine.store.scopes.size⟩ changes
      (machine.store.newScope (some enclosing) tag bindings).2 := .newScope _ _ _ _
  have fresh : machine.store.scope? ⟨machine.store.scopes.size⟩ = none :=
    Array.getElem?_eq_none (Nat.le_refl _)
  have kept := inside
    { machine with
      store := (machine.store.newScope (some enclosing) tag bindings).2
      env := ⟨machine.store.scopes.size⟩ }
  have whole := (opened.trans kept.store).of_fresh fresh machine.env
  change machine.Keeps [] (machineAfter (Run.inScope ⟨machine.store.scopes.size⟩ step
    { machine with store := (machine.store.newScope (some enclosing) tag bindings).2 }))
  unfold Run.inScope
  split
  all_goals
    rename_i ended
    rw [ended] at kept whole
    exact ⟨rfl, kept.owners, kept.callDepth, whole⟩

/-- A step as another owner leaves what the step leaves. -/
protected theorem asOwner {step : Run α} (owner : Option ClassRef)
    (inside : Leaves changes step) : Leaves changes (Run.asOwner owner step) := by
  intro machine
  have kept := inside { machine with owners := owner :: machine.owners }
  unfold Run.asOwner
  split
  all_goals
    rename_i ended
    rw [ended] at kept
    exact ⟨kept.env, congrArg List.tail kept.owners, kept.callDepth, kept.store⟩

/-- A step in a call leaves what the step leaves. -/
protected theorem inCall {step : Run α} (inside : Leaves changes step) :
    Leaves changes (Run.inCall step) := by
  intro machine
  have kept := inside { machine with callDepth := machine.callDepth + 1 }
  unfold Run.inCall
  split
  all_goals
    rename_i ended
    rw [ended] at kept
    exact ⟨kept.env, kept.owners, congrArg (· - 1) kept.callDepth, kept.store⟩

/-- An evaluation that is noted leaves what it leaves without the note. -/
protected theorem noting (expr : Expr) {step : Run Value} (inside : Leaves changes step) :
    Leaves changes (Run.noting expr step) := by
  intro machine
  have kept := inside machine
  unfold Run.noting
  dsimp only
  split
  all_goals
    rename_i ended
    rw [ended] at kept
    exact ⟨kept.env, kept.owners, kept.callDepth, kept.store⟩

/-- Evaluating expressions in order leaves what each evaluation leaves. -/
protected theorem valuesOf {evaluate : Expr → Run Value}
    (inside : ∀ expr, Leaves changes (evaluate expr)) (exprs : List Expr) :
    Leaves changes (Run.valuesOf evaluate exprs) := by
  induction exprs with
  | nil => exact .pure []
  | cons expr rest ih =>
      exact bind (inside expr) fun value => bind ih fun values => .pure (value :: values)

/-- A loop leaves what each of its rounds leaves. -/
protected theorem untilDone {step : Run (Option Completion)} (inside : Leaves changes step)
    (bound : Nat) : Leaves changes (Run.untilDone step bound) := by
  induction bound with
  | zero => exact .endless
  | succ bound ih =>
      refine bind inside fun done => ?_
      cases done with
      | some completion => exact .pure completion
      | none => exact ih

/-- A loop of so many rounds leaves what each of them leaves. -/
protected theorem times {step : Run (Option Completion)} (inside : Leaves changes step)
    (count : Nat) : Leaves changes (Run.times step count) := by
  induction count with
  | zero => exact .pure Completion.normal
  | succ count ih =>
      refine bind inside fun done => ?_
      cases done with
      | some completion => exact .pure completion
      | none => exact ih

end Leaves

end Run

end Scriptlet
