import Scriptlet.Proofs.Rerun.Overlay
import Scriptlet.Proofs.Run.Growing

/-!
# Stores on top of stores

A store is on top of what earlier runs left if it shares the scope of the globals with it and has
everything else behind (`Store.atop`): a reference is moved by what there was before. Nothing that
is there already is changed, but for globals of the same name. Whatever can be done to a store
(`Store.Rooted`) can be done to it on top of another one.
-/

namespace Scriptlet

section Moving

variable (past : Store)

/-! ### References -/

def ArrayRef.atop (ref : ArrayRef) : ArrayRef := ⟨past.arrays.size + ref.index⟩

def FunctionRef.atop (ref : FunctionRef) : FunctionRef := ⟨past.functions.size + ref.index⟩

def ClassRef.atop (ref : ClassRef) : ClassRef := ⟨past.classes.size + ref.index⟩

def ObjectRef.atop (ref : ObjectRef) : ObjectRef := ⟨past.objects.size + ref.index⟩

/-- The scope of the globals stays where it is. -/
def ScopeRef.atop (ref : ScopeRef) : ScopeRef :=
  match ref with
  | ⟨0⟩ => ⟨0⟩
  | ⟨index + 1⟩ => ⟨past.scopes.size + index⟩

def Value.atop : Value → Value
  | .nil => .nil
  | .bool value => .bool value
  | .number value => .number value
  | .string value => .string value
  | .char value => .char value
  | .array ref => .array (ref.atop past)
  | .function ref => .function (ref.atop past)
  | .native binding => .native binding
  | .classValue ref => .classValue (ref.atop past)
  | .object ref => .object (ref.atop past)
  | .moduleValue ref => .moduleValue ref

/-! ### What references lead to -/

def Binding.atop (binding : Binding) : Binding :=
  ⟨binding.value.atop past, binding.isFinal⟩

def Scope.atop (scope : Scope) : Scope :=
  ⟨scope.bindings.mapEntries (·.atop past), scope.enclosing.map (·.atop past), scope.tag⟩

def FunctionObject.atop (function : FunctionObject) : FunctionObject :=
  ⟨function.decl, function.closure.atop past, function.owner.map (·.atop past)⟩

def MethodObject.atop (method : MethodObject) : MethodObject :=
  ⟨method.decl, method.closure.atop past, method.owner.map (·.atop past), method.receiver⟩

def ClassObject.atop (object : ClassObject) : ClassObject :=
  ⟨object.decl, object.superclass.map (·.atop past), object.methods.mapEntries (·.atop past),
    object.closure.atop past⟩

def FieldSlot.atop (slot : FieldSlot) : FieldSlot :=
  ⟨slot.value.atop past, slot.visibility, slot.isFinal, slot.assigned, slot.owner.atop past⟩

def Instance.atop (object : Instance) : Instance :=
  ⟨object.ofClass.atop past, object.fields.mapEntries (·.atop past)⟩

/-- An object is of the class in the place its class is moved to. -/
@[simp] theorem Instance.ofClass_atop (object : Instance) :
    (object.atop past).ofClass = object.ofClass.atop past := rfl

/-- An object has the same fields, with values moved. -/
@[simp] theorem Instance.fields_atop (object : Instance) :
    (object.atop past).fields = object.fields.mapEntries (·.atop past) := rfl

/-- The globals of a store on top of those there are. -/
def Scope.under (bindings : Table Binding) (scope : Scope) : Scope :=
  { scope with bindings := (bindings.mapEntries (·.atop past)).atop scope.bindings }

end Moving

/-- A store on top of what earlier runs left. -/
def Store.atop (store past : Store) : Store where
  arrays := past.arrays ++ store.arrays.map (·.map (·.atop past))
  scopes := past.scopes.modify 0 (·.under past (store.bindingsOf ⟨0⟩)) ++
    (store.scopes.toList.drop 1).toArray.map (·.atop past)
  functions := past.functions ++ store.functions.map (·.atop past)
  classes := past.classes ++ store.classes.map (·.atop past)
  formerClasses := store.formerClasses.map (past.classes ++ ·.map (·.atop past)) ++
    past.formerClasses
  objects := past.objects ++ store.objects.map (·.atop past)
  modules := store.modules

/-- The outermost scope is that of the globals, and no global is listed twice. -/
structure Store.Rooted (store : Store) : Prop where
  root : ∃ bindings inner, store.scopes.toList = ⟨bindings, none, .globals⟩ :: inner
  distinct : (store.bindingsOf ⟨0⟩).names.Nodup

namespace Store

variable {past store : Store}

/-! ### Entries of an array that is behind another one -/

private theorem getElem?_behind {α β : Type} (before : Array β) (entries : Array α)
    (change : α → β) (index : Nat) :
    (before ++ entries.map change)[before.size + index]? = entries[index]?.map change := by
  rw [Array.getElem?_append_right (Nat.le_add_right ..), Nat.add_sub_cancel_left,
    Array.getElem?_map]

private theorem modify_behind {α β : Type} (before : Array β) (entries : Array α)
    (change : α → β) (step : α → α) (moved : β → β)
    (same : ∀ entry, moved (change entry) = change (step entry)) (index : Nat) :
    (before ++ entries.map change).modify (before.size + index) moved =
      before ++ (entries.modify index step).map change := by
  refine Array.ext_getElem? fun place => ?_
  rw [Array.getElem?_modify]
  by_cases early : place < before.size
  · have other : before.size + index ≠ place := by omega
    rw [if_neg other, Array.getElem?_append_left early, Array.getElem?_append_left early]
  · have late : before.size ≤ place := Nat.le_of_not_lt early
    rw [Array.getElem?_append_right late, Array.getElem?_append_right late, Array.getElem?_map,
      Array.getElem?_map, Array.getElem?_modify]
    by_cases here : index = place - before.size
    · have there : before.size + index = place := by omega
      rw [if_pos there, if_pos here, Option.map_map, Option.map_map]
      congr 1
      funext entry
      exact same entry
    · have elsewhere : before.size + index ≠ place := by omega
      rw [if_neg elsewhere, if_neg here]

/-! ### Scopes -/

/-- A scope on top of what there was before: that of the globals has those globals too. -/
def moved (past : Store) (ref : ScopeRef) (scope : Scope) : Scope :=
  ⟨if ref = ⟨0⟩ then (scope.bindings.mapEntries (·.atop past)).atop (past.bindingsOf ⟨0⟩)
    else scope.bindings.mapEntries (·.atop past),
    scope.enclosing.map (·.atop past), scope.tag⟩

/-- The outermost scope is that of the globals, with none around it. -/
theorem Rooted.scope? (rooted : store.Rooted) :
    store.scope? ⟨0⟩ = some ⟨store.bindingsOf ⟨0⟩, none, .globals⟩ := by
  obtain ⟨bindings, inner, listed⟩ := rooted.root
  have found : store.scope? ⟨0⟩ = some ⟨bindings, none, .globals⟩ := by
    rw [Store.scope?, ← Array.getElem?_toList, listed]
    rfl
  rw [bindingsOf, found]

/-- A scope of the store is behind the moved reference, moved. -/
theorem scope?_atop (earlier : past.Rooted) (rooted : store.Rooted) (ref : ScopeRef) :
    (store.atop past).scope? (ref.atop past) = (store.scope? ref).map (moved past ref) := by
  obtain ⟨_ | index⟩ := ref
  · have below := earlier.scope?
    rw [rooted.scope?, Option.map_some]
    unfold Store.scope? at below ⊢
    change (past.scopes.modify 0 _ ++ _)[0]? = _
    obtain ⟨bindings, inner, listed⟩ := earlier.root
    have inside : 0 < past.scopes.size := by
      rw [← Array.length_toList, listed]
      exact Nat.succ_pos _
    rw [Array.getElem?_append_left (by rwa [Array.size_modify]), Array.getElem?_modify, if_pos rfl,
      below]
    rfl
  · have behind := getElem?_behind (past.scopes.modify 0 (·.under past (store.bindingsOf ⟨0⟩)))
      (store.scopes.toList.drop 1).toArray (·.atop past) index
    rw [Array.size_modify] at behind
    refine behind.trans ?_
    rw [List.getElem?_toArray, List.getElem?_drop, Nat.add_comm, Array.getElem?_toList]
    rfl

/-- A rooted store has the scope of the globals. -/
theorem Rooted.size_pos (rooted : store.Rooted) : 0 < store.scopes.size := by
  obtain ⟨_, _, listed⟩ := rooted.root
  rw [← Array.length_toList, listed]
  exact Nat.succ_pos _

/-- A step that leaves the outermost scope as it is leaves the globals as they are. -/
theorem bindingsOf_congr {after : Store} {ref : ScopeRef}
    (same : after.scope? ref = store.scope? ref) : after.bindingsOf ref = store.bindingsOf ref := by
  unfold bindingsOf
  rw [same]

private theorem size_scopes_atop (past store : Store) :
    (store.atop past).scopes.size = past.scopes.size + (store.scopes.size - 1) := by
  simp [atop]

section NewScope

variable (enclosing : Option ScopeRef) (tag : ScopeTag) (bindings : Table Binding)

private theorem Rooted.scope?_newScope (rooted : store.Rooted) :
    (store.newScope enclosing tag bindings).2.scope? ⟨0⟩ = store.scope? ⟨0⟩ := by
  unfold Store.scope? newScope
  dsimp only
  rw [Array.getElem?_push, if_neg (Nat.ne_of_lt rooted.size_pos)]

/-- A store stays rooted when a scope is made. -/
theorem Rooted.newScope (rooted : store.Rooted) :
    (store.newScope enclosing tag bindings).2.Rooted := by
  obtain ⟨outermost, inner, listed⟩ := rooted.root
  refine ⟨⟨outermost, inner ++ [⟨bindings, enclosing, tag⟩], ?_⟩, ?_⟩
  · change (store.scopes.push _).toList = _
    rw [Array.toList_push, listed]
    rfl
  · rw [bindingsOf_congr (rooted.scope?_newScope enclosing tag bindings)]
    exact rooted.distinct

/-- A scope is made on top as it is made alone, moved. -/
theorem newScope_atop (rooted : store.Rooted) (past : Store) :
    (store.atop past).newScope (enclosing.map (·.atop past)) tag
        (bindings.mapEntries (·.atop past)) =
      ((store.newScope enclosing tag bindings).1.atop past,
        (store.newScope enclosing tag bindings).2.atop past) := by
  have globals := bindingsOf_congr (rooted.scope?_newScope enclosing tag bindings)
  have inside := rooted.size_pos
  refine Prod.ext ?_ ?_
  · change (⟨(store.atop past).scopes.size⟩ : ScopeRef) = ScopeRef.atop past ⟨store.scopes.size⟩
    rw [size_scopes_atop]
    obtain ⟨size, more⟩ := Nat.exists_eq_succ_of_ne_zero (Nat.ne_of_gt inside)
    rw [more]
    rfl
  · have behind : (store.scopes.push ⟨bindings, enclosing, tag⟩).toList.drop 1 =
        store.scopes.toList.drop 1 ++ [⟨bindings, enclosing, tag⟩] := by
      rw [Array.toList_push, List.drop_append_of_le_length]
      exact inside
    unfold atop
    rw [globals]
    unfold Store.newScope
    dsimp only
    rw [behind]
    simp [Scope.atop]

end NewScope

section Define

variable (name : String) (value : Value) (isFinal : Bool)

private theorem bindingsOf_define_root (rooted : store.Rooted) :
    (store.define ⟨0⟩ name value isFinal).bindingsOf ⟨0⟩ =
      (store.bindingsOf ⟨0⟩).put name ⟨value, isFinal⟩ := by
  have found := rooted.scope?
  unfold bindingsOf Store.scope? define at *
  dsimp only at *
  rw [Array.getElem?_modify, if_pos rfl, found]
  rfl

private theorem bindingsOf_define_inner (index : Nat) :
    (store.define ⟨index + 1⟩ name value isFinal).bindingsOf ⟨0⟩ = store.bindingsOf ⟨0⟩ := by
  refine bindingsOf_congr ?_
  unfold Store.scope? define
  dsimp only
  rw [Array.getElem?_modify, if_neg (Nat.succ_ne_zero index)]

/-- A store stays rooted when a name is bound. -/
theorem Rooted.define (rooted : store.Rooted) (ref : ScopeRef) :
    (store.define ref name value isFinal).Rooted := by
  obtain ⟨outermost, inner, listed⟩ := rooted.root
  obtain ⟨_ | index⟩ := ref
  · refine ⟨⟨outermost.put name ⟨value, isFinal⟩, inner, ?_⟩, ?_⟩
    · unfold Store.define
      rw [Array.toList_modify, listed]
      rfl
    · rw [bindingsOf_define_root _ _ _ rooted]
      exact Table.nodup_put rooted.distinct _ _
  · refine ⟨⟨outermost, inner.modify index fun scope =>
      { scope with bindings := scope.bindings.put name ⟨value, isFinal⟩ }, ?_⟩, ?_⟩
    · unfold Store.define
      rw [Array.toList_modify, listed]
      rfl
    · rw [bindingsOf_define_inner]
      exact rooted.distinct

/-- A name is bound on top as it is bound alone, moved. -/
theorem define_atop (earlier : past.Rooted) (rooted : store.Rooted) (ref : ScopeRef) :
    (store.define ref name value isFinal).atop past =
      (store.atop past).define (ref.atop past) name (value.atop past) isFinal := by
  obtain ⟨outermost, inner, listed⟩ := rooted.root
  obtain ⟨_ | index⟩ := ref
  · unfold atop
    rw [bindingsOf_define_root _ _ _ rooted]
    unfold Store.define
    dsimp only
    obtain ⟨below, behind, listedBelow⟩ := earlier.root
    have distinct := earlier.distinct
    have root : past.bindingsOf ⟨0⟩ = below := by
      unfold bindingsOf Store.scope?
      rw [← Array.getElem?_toList, listedBelow]
      rfl
    congr 1
    refine Array.toList_inj.mp ?_
    simp only [Array.toList_modify, Array.toList_append, listedBelow, listed]
    have written := Table.put_atop ((store.bindingsOf ⟨0⟩).mapEntries (·.atop past)) below name
      (Binding.atop past ⟨value, isFinal⟩) (root ▸ distinct)
    rw [← Table.mapEntries_put] at written
    change Scope.mk _ _ _ :: _ = Scope.mk _ _ _ :: _
    rw [written]
    rfl
  · unfold atop
    rw [bindingsOf_define_inner]
    unfold Store.define
    dsimp only
    rw [Array.toList_modify, listed]
    congr 1
    have behind := modify_behind (past.scopes.modify 0 (·.under past (store.bindingsOf ⟨0⟩)))
      inner.toArray (·.atop past)
      (fun scope => { scope with bindings := scope.bindings.put name ⟨value, isFinal⟩ })
      (fun scope => { scope with bindings := scope.bindings.put name ⟨value.atop past, isFinal⟩ })
      (fun scope => by simp [Scope.atop, Table.mapEntries_put, Binding.atop]) index
    rw [Array.size_modify] at behind
    refine Eq.trans ?_ behind.symm
    rw [List.modify_toArray (l := inner)]
    rfl

end Define

/-! ### Names -/

section Names

variable {ref : ScopeRef} {name : String}

/-- What a scope binds it binds on top of what there was before. -/
theorem find?_bindingsOf_atop (earlier : past.Rooted) (rooted : store.Rooted) {binding : Binding}
    (found : (store.bindingsOf ref).find? name = some binding) :
    ((store.atop past).bindingsOf (ref.atop past)).find? name = some (binding.atop past) := by
  have behind := scope?_atop earlier rooted ref
  unfold bindingsOf at found ⊢
  rw [behind]
  cases held : store.scope? ref with
  | none =>
      rw [held] at found
      cases found
  | some scope =>
      rw [held] at found
      change (moved past ref scope).bindings.find? name = _
      unfold moved
      split
      · rw [Table.find?_atop, Table.find?_mapEntries, found]
        rfl
      · rw [Table.find?_mapEntries, found]
        rfl

/-- An inner scope binds the same names on top of what there was before. -/
theorem bindingsOf_atop_inner (earlier : past.Rooted) (rooted : store.Rooted)
    (inner : ref ≠ ⟨0⟩) :
    (store.atop past).bindingsOf (ref.atop past) =
      (store.bindingsOf ref).mapEntries (·.atop past) := by
  have behind := scope?_atop earlier rooted ref
  unfold bindingsOf
  rw [behind]
  cases store.scope? ref with
  | none => rfl
  | some scope => exact if_neg inner

/-- The globals on top are written on top of those there were. -/
theorem bindingsOf_atop_root (earlier : past.Rooted) (rooted : store.Rooted) :
    (store.atop past).bindingsOf ⟨0⟩ =
      ((store.bindingsOf ⟨0⟩).mapEntries (·.atop past)).atop (past.bindingsOf ⟨0⟩) := by
  have behind := scope?_atop earlier rooted ⟨0⟩
  rw [rooted.scope?] at behind
  unfold bindingsOf
  rw [show (store.atop past).scope? ⟨0⟩ = _ from behind, rooted.scope?]
  rfl

private theorem valueIn?_atop (earlier : past.Rooted) (rooted : store.Rooted) {value : Value}
    (found : store.valueIn? ref name = some value) :
    (store.atop past).valueIn? (ref.atop past) name = some (value.atop past) := by
  unfold valueIn? at found ⊢
  cases bound : (store.bindingsOf ref).find? name with
  | none =>
      rw [bound] at found
      cases found
  | some binding =>
      rw [bound] at found
      cases found
      rw [find?_bindingsOf_atop earlier rooted bound]
      rfl

/-- A name of an inner scope has the value it has alone, moved. -/
theorem valueIn?_atop_inner (earlier : past.Rooted) (rooted : store.Rooted) (inner : ref ≠ ⟨0⟩) :
    (store.atop past).valueIn? (ref.atop past) name =
      (store.valueIn? ref name).map (·.atop past) := by
  unfold valueIn?
  rw [bindingsOf_atop_inner earlier rooted inner, Table.find?_mapEntries]
  cases (store.bindingsOf ref).find? name <;> rfl

private theorem ancestor?_atop (earlier : past.Rooted) (rooted : store.Rooted) (ref : ScopeRef)
    (distance : Nat) :
    (store.atop past).ancestor? (ref.atop past) distance =
      (store.ancestor? ref distance).map (·.atop past) := by
  induction distance generalizing ref with
  | zero => rfl
  | succ distance ih =>
      unfold ancestor?
      rw [scope?_atop earlier rooted]
      cases store.scope? ref with
      | none => rfl
      | some scope =>
          obtain ⟨bindings, enclosing, tag⟩ := scope
          cases enclosing with
          | none => rfl
          | some enclosing => exact ih enclosing

/-- A name that is found so many scopes out is found there on top, moved. -/
theorem valueAt?_atop (earlier : past.Rooted) (rooted : store.Rooted) {distance : Nat}
    {value : Value} (found : store.valueAt? ref distance name = some value) :
    (store.atop past).valueAt? (ref.atop past) distance name = some (value.atop past) := by
  unfold valueAt? at found ⊢
  rw [ancestor?_atop earlier rooted]
  cases reached : store.ancestor? ref distance with
  | none =>
      rw [reached] at found
      cases found
  | some scope =>
      rw [reached] at found
      exact valueIn?_atop earlier rooted found

private theorem checkAssign_atop (earlier : past.Rooted) (rooted : store.Rooted)
    (allowed : store.checkAssign ref name = .ok ()) :
    (store.atop past).checkAssign (ref.atop past) name = .ok () := by
  unfold checkAssign at allowed ⊢
  cases bound : (store.bindingsOf ref).find? name with
  | none =>
      rw [bound] at allowed
      cases allowed
  | some binding =>
      rw [bound] at allowed
      rw [find?_bindingsOf_atop earlier rooted bound]
      exact allowed

/-- A scope whose name may be assigned to is so on top of what there was before. -/
theorem checked_atop (earlier : past.Rooted) (rooted : store.Rooted) {target : ScopeRef}
    (allowed : (store.checkAssign ref name).map (fun _ => ref) = .ok target) :
    ((store.atop past).checkAssign (ref.atop past) name).map (fun _ => ref.atop past) =
      .ok (target.atop past) := by
  cases checked : store.checkAssign ref name with
  | error fault =>
      rw [checked] at allowed
      cases allowed
  | ok =>
      rw [checked] at allowed
      cases allowed
      rw [checkAssign_atop earlier rooted checked]
      rfl

/-- A name that may be assigned to so many scopes out may be so on top. -/
theorem assignTargetAt_atop (earlier : past.Rooted) (rooted : store.Rooted) {distance : Nat}
    {target : ScopeRef} (found : store.assignTargetAt ref distance name = .ok target) :
    (store.atop past).assignTargetAt (ref.atop past) distance name = .ok (target.atop past) := by
  unfold assignTargetAt at found ⊢
  rw [ancestor?_atop earlier rooted]
  cases reached : store.ancestor? ref distance with
  | none =>
      rw [reached] at found
      cases found
  | some scope =>
      rw [reached] at found
      exact checked_atop earlier rooted found

private theorem atop_index_lt (earlier : past.Rooted) (left right : ScopeRef) :
    (left.atop past).index < (right.atop past).index ↔ left.index < right.index := by
  have inside := earlier.size_pos
  obtain ⟨_ | left⟩ := left
  · obtain ⟨_ | right⟩ := right
    · exact Iff.rfl
    · change 0 < past.scopes.size + right ↔ 0 < right + 1
      omega
  · obtain ⟨_ | right⟩ := right
    · change past.scopes.size + left < 0 ↔ left + 1 < 0
      omega
    · change past.scopes.size + left < past.scopes.size + right ↔ left + 1 < right + 1
      omega

private theorem enclosing?_atop (earlier : past.Rooted) (rooted : store.Rooted) (ref : ScopeRef) :
    (store.atop past).enclosing? (ref.atop past) = (store.enclosing? ref).map (·.atop past) := by
  unfold enclosing?
  rw [scope?_atop earlier rooted]
  cases store.scope? ref with
  | none => rfl
  | some scope =>
      change (scope.enclosing.map (·.atop past)).filter _ = (scope.enclosing.filter _).map _
      cases scope.enclosing with
      | none => rfl
      | some enclosing => simp [Option.filter, atop_index_lt earlier, apply_ite]

private theorem binder?_atop (earlier : past.Rooted) (rooted : store.Rooted) {target : ScopeRef}
    (found : store.binder? ref name = some target) :
    (store.atop past).binder? (ref.atop past) name = some (target.atop past) := by
  fun_induction store.binder? ref name with
  | case1 ref bound =>
      cases found
      obtain ⟨binding, listed⟩ := Option.isSome_iff_exists.mp bound
      have known : ((store.atop past).bindingsOf (target.atop past)).contains name = true := by
        rw [Table.contains, find?_bindingsOf_atop earlier rooted listed]
        rfl
      rw [binder?, if_pos known]
  | case2 ref unbound enclosing outward ih =>
      have outwardToo : (store.atop past).enclosing? (ref.atop past) =
          some (enclosing.atop past) := by
        rw [enclosing?_atop earlier rooted, outward]
        rfl
      have inner : ref ≠ ⟨0⟩ := by
        rintro rfl
        exact Nat.not_lt_zero _ (enclosing?_index_lt outward)
      have unknown : ¬((store.atop past).bindingsOf (ref.atop past)).contains name = true := by
        rwa [bindingsOf_atop_inner earlier rooted inner, Table.contains_mapEntries]
      rw [binder?, if_neg unknown]
      split
      · rename_i scope further
        cases outwardToo.symm.trans further
        exact ih found
      · rename_i nowhere
        cases outwardToo.symm.trans nowhere
  | case3 ref unbound nowhere => cases found

/-- A name that is found is found on top, moved, although there may be more globals. -/
theorem value?_atop (earlier : past.Rooted) (rooted : store.Rooted) {value : Value}
    (found : store.value? ref name = some value) :
    (store.atop past).value? (ref.atop past) name = some (value.atop past) := by
  unfold value? at found ⊢
  cases bound : store.binder? ref name with
  | none =>
      rw [bound] at found
      cases found
  | some scope =>
      rw [bound] at found
      rw [binder?_atop earlier rooted bound]
      exact valueIn?_atop earlier rooted found

/-- A name that may be assigned to may be so on top, in the same scope, moved. -/
theorem assignTarget_atop (earlier : past.Rooted) (rooted : store.Rooted) {target : ScopeRef}
    (found : store.assignTarget ref name = .ok target) :
    (store.atop past).assignTarget (ref.atop past) name = .ok (target.atop past) := by
  unfold assignTarget at found ⊢
  cases bound : store.binder? ref name with
  | none =>
      rw [bound] at found
      cases found
  | some scope =>
      rw [bound] at found
      rw [binder?_atop earlier rooted bound]
      exact checked_atop earlier rooted found

end Names

/-! ### Functions, classes, objects and arrays -/

/-- A function is behind the moved reference, moved. -/
theorem function?_atop (store past : Store) (ref : FunctionRef) :
    (store.atop past).function? (ref.atop past) = (store.function? ref).map (·.atop past) :=
  getElem?_behind _ _ _ _

/-- A class is behind the moved reference, moved. -/
theorem class?_atop (store past : Store) (ref : ClassRef) :
    (store.atop past).class? (ref.atop past) = (store.class? ref).map (·.atop past) :=
  getElem?_behind _ _ _ _

/-- An object is behind the moved reference, moved. -/
theorem object?_atop (store past : Store) (ref : ObjectRef) :
    (store.atop past).object? (ref.atop past) = (store.object? ref).map (·.atop past) :=
  getElem?_behind _ _ _ _

/-- An array has the same elements on top, moved. -/
theorem elements_atop (store past : Store) (ref : ArrayRef) :
    (store.atop past).elements (ref.atop past) = (store.elements ref).map (·.atop past) := by
  have behind : (store.atop past).arrays[(ref.atop past).index]? =
      store.arrays[ref.index]?.map (·.map (·.atop past)) := getElem?_behind _ _ _ _
  unfold elements
  rw [behind]
  cases store.arrays[ref.index]? with
  | none => exact Array.map_empty.symm
  | some elements => rfl

/-- An object has the same fields on top, moved. -/
theorem field?_atop (store past : Store) (ref : ObjectRef) (name : String) :
    (store.atop past).field? (ref.atop past) name =
      (store.field? ref name).map (·.atop past) := by
  unfold field?
  rw [object?_atop]
  cases store.object? ref with
  | none => rfl
  | some object => exact Table.find?_mapEntries _ _ _

private theorem superclass?_atop (store past : Store) (ref : ClassRef) :
    (store.atop past).superclass? (ref.atop past) =
      (store.superclass? ref).map (·.atop past) := by
  unfold superclass?
  rw [class?_atop]
  cases store.class? ref with
  | none => rfl
  | some object =>
      change (object.superclass.map (·.atop past)).filter _ = (object.superclass.filter _).map _
      cases object.superclass with
      | none => rfl
      | some superclass => simp [Option.filter, ClassRef.atop, apply_ite]

/-- A class builds on the same classes on top, moved. -/
theorem lineage_atop (store past : Store) (ref : ClassRef) :
    (store.atop past).lineage (ref.atop past) = (store.lineage ref).map (·.atop past) := by
  induction ref using lineage_induction store with
  | root ref root =>
      have rootToo := superclass?_atop store past ref
      rw [root] at rootToo
      rw [lineage_of_root rootToo, lineage_of_root root]
      rfl
  | inherits ref superclass upward ih =>
      have upwardToo := superclass?_atop store past ref
      rw [upward] at upwardToo
      rw [lineage_of_superclass? upwardToo, lineage_of_superclass? upward, List.map_cons, ih]

private theorem ownMethod?_atop (store past : Store) (name : String) (ref : ClassRef) :
    (store.atop past).ownMethod? name (ref.atop past) =
      (store.ownMethod? name ref).map (·.atop past) := by
  unfold ownMethod?
  rw [class?_atop]
  cases store.class? ref with
  | none => rfl
  | some object => exact Table.find?_mapEntries _ _ _

/-- A class has the same methods on top, moved. -/
theorem method?_atop (store past : Store) (ref : ClassRef) (name : String) :
    (store.atop past).method? (ref.atop past) name =
      (store.method? ref name).map (·.atop past) := by
  unfold method?
  rw [lineage_atop, List.findSome?_map, List.map_findSome?]
  congr 1
  funext superclass
  exact ownMethod?_atop _ _ _ _

/-- A class has the same name on top. -/
theorem className_atop (store past : Store) (ref : ClassRef) :
    (store.atop past).className (ref.atop past) = store.className ref := by
  unfold className
  rw [class?_atop]
  cases store.class? ref <;> rfl

/-! ### Changes -/

/-- An array is made on top as it is made alone, moved. -/
theorem newArray_atop (store past : Store) (elements : Array Value) :
    (store.atop past).newArray (elements.map (·.atop past)) =
      ((store.newArray elements).1.atop past, (store.newArray elements).2.atop past) := by
  simp [newArray, atop, ArrayRef.atop, bindingsOf, scope?]

/-- An element is set on top as it is set alone, moved. -/
theorem setElement_atop (store past : Store) (ref : ArrayRef) (index : Nat) (value : Value) :
    (store.setElement ref index value).atop past =
      (store.atop past).setElement (ref.atop past) index (value.atop past) := by
  have behind := modify_behind past.arrays store.arrays (·.map (·.atop past))
    (·.setIfInBounds index value) (·.setIfInBounds index (value.atop past))
    (fun elements => by rw [Array.map_setIfInBounds]) ref.index
  unfold setElement
  exact congrArg (fun arrays => { store.atop past with arrays := arrays }) behind.symm

/-- A function is made on top as it is made alone, moved. -/
theorem newFunction_atop (store past : Store) (function : FunctionObject) :
    (store.atop past).newFunction (function.atop past) =
      ((store.newFunction function).1.atop past, (store.newFunction function).2.atop past) := by
  simp [newFunction, atop, FunctionRef.atop, bindingsOf, scope?]

/-- A class is made on top as it is made alone, moved. -/
theorem newClass_atop (store past : Store) (object : ClassObject) :
    (store.atop past).newClass (object.atop past) =
      ((store.newClass object).1.atop past, (store.newClass object).2.atop past) := by
  simp [newClass, atop, ClassRef.atop, bindingsOf, scope?]

/-- A method is set on top as it is set alone, moved. -/
theorem addMethod_atop (store past : Store) (ref : ClassRef) (name : String)
    (method : MethodObject) :
    (store.addMethod ref name method).atop past =
      (store.atop past).addMethod (ref.atop past) name (method.atop past) := by
  have behind := modify_behind past.classes store.classes (·.atop past)
    (fun object => { object with methods := object.methods.put name method })
    (fun object => { object with methods := object.methods.put name (method.atop past) })
    (fun object => by simp [ClassObject.atop, Table.mapEntries_put]) ref.index
  unfold addMethod
  exact congrArg (fun classes => { store.atop past with
    classes := classes
    formerClasses := (store.atop past).classes :: (store.atop past).formerClasses }) behind.symm

/-- An object is made on top as it is made alone, moved. -/
theorem newObject_atop (store past : Store) (ofClass : ClassRef) :
    (store.atop past).newObject (ofClass.atop past) =
      ((store.newObject ofClass).1.atop past, (store.newObject ofClass).2.atop past) := by
  simp [newObject, atop, ObjectRef.atop, Instance.atop, Table.mapEntries, bindingsOf, scope?]

/-- A field is set on top as it is set alone, moved. -/
theorem putField_atop (store past : Store) (ref : ObjectRef) (name : String) (slot : FieldSlot) :
    (store.putField ref name slot).atop past =
      (store.atop past).putField (ref.atop past) name (slot.atop past) := by
  have behind := modify_behind past.objects store.objects (·.atop past)
    (fun object => { object with fields := object.fields.put name slot })
    (fun object => { object with fields := object.fields.put name (slot.atop past) })
    (fun object => by simp [Instance.atop, Table.mapEntries_put]) ref.index
  unfold putField
  exact congrArg (fun objects => { store.atop past with objects := objects }) behind.symm

/-- A step that leaves the scopes alone leaves the globals where they are. -/
theorem Rooted.of_scopes_eq {after : Store} (rooted : store.Rooted)
    (same : after.scopes = store.scopes) : after.Rooted := by
  refine ⟨?_, ?_⟩
  · rw [same]
    exact rooted.root
  · have globals : after.scope? ⟨0⟩ = store.scope? ⟨0⟩ := by
      unfold Store.scope?
      rw [same]
    rw [bindingsOf_congr globals]
    exact rooted.distinct

end Store

end Scriptlet
