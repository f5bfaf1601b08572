import Scriptlet.Proofs.Renumbering.Stores
import Scriptlet.Proofs.Session.Abreast

/-!
# Hosts that do not look at numbers

A host that hands over no class (`HostCall.Blind`), and whose hooks and native functions do the same
whatever numbers the nodes and the classes have (`Hook.Blind`), cannot tell a script from the script
with other numbers.
-/

namespace Scriptlet

/-- A view with other numbers. -/
structure View.Twin (numbers : Renumbering) (view twin : View) : Prop where
  tokens : twin.tokens = view.tokens
  comments : twin.comments = view.comments
  statements : Program.unnumbered twin.statements = Program.unnumbered view.statements
  resolved : twin.resolved = view.resolved
  diagnostics : twin.diagnostics = view.diagnostics
  output : twin.output = view.output
  tests : twin.tests = view.tests
  store : view.store.Twin numbers twin.store
  globals : twin.globals = view.globals.mapEntries (Binding.renumber numbers)
  log : twin.log = view.log

mutual

/-- An action with other numbers, some of which may be left open: what it binds has the other
numbers, and what it chooses from a view with other numbers has them too. -/
inductive HookAction.Twin (fits : Renumbering → Prop) : HookAction → HookAction → Prop
  | plain {action : HookAction} : action.Plain → Twin fits action action
  | bind (name : String) {value image : Value} :
    (∀ numbers, fits numbers → image = value.renumber numbers) →
    Twin fits (.bind name value) (.bind name image)
  | edit {change : Program → Program} : (∀ onNode program,
      change (Statement.renumberAll onNode program) =
        Statement.renumberAll onNode (change program)) →
    Twin fits (.edit change) (.edit change)
  | report (output : Array String) (tests : Array TestOutcome) :
    Twin fits (.report output tests) (.report output tests)
  | abort (fault : ScriptFault) : Twin fits (.abort fault) (.abort fault)
  | depending {choose image : View → List HookAction} :
    (∀ view twin, (∀ numbers, fits numbers → view.Twin numbers twin) →
      HookAction.AreTwins fits (choose view) (image twin)) →
    Twin fits (.depending choose) (.depending image)

/-- Actions with other numbers, one for one. -/
inductive HookAction.AreTwins (fits : Renumbering → Prop) :
    List HookAction → List HookAction → Prop
  | nil : AreTwins fits [] []
  | cons {action image : HookAction} {rest others : List HookAction} :
    HookAction.Twin fits action image → HookAction.AreTwins fits rest others →
    AreTwins fits (action :: rest) (image :: others)

end

/-- A hook that does not look at numbers: it does the same with others. -/
def Hook.Blind (hook : Hook) : Prop :=
  ∀ fits : Renumbering → Prop, (∃ numbers, fits numbers) →
    HookAction.AreTwins fits hook.actions hook.actions

/-- A call of a host that does not look at numbers. -/
def HostCall.Blind : HostCall → Prop
  | .bindValue _ value => ∀ ref, value ≠ .classValue ref
  | .registerModule native => native.Classless
  | .customize hook => hook.Blind
  | _ => True

/-- Hooks that do not look at a session at all do not look at numbers. -/
theorem Hook.Plain.blind {hook : Hook} (plain : hook.Plain) : hook.Blind := by
  obtain ⟨phase, timing, actions⟩ := hook
  intro fits some
  induction actions with
  | nil => exact .nil
  | cons action rest ih =>
    exact .cons (.plain (plain action List.mem_cons_self)) (ih fun action member =>
      plain action (.tail _ member))

/-- A hook that binds a global to the value of another one does not look at numbers, also where the
value is a class. -/
theorem Hook.blind_alias (phase : Phase) (timing : Timing) (name origin : String) :
    Hook.Blind ⟨phase, timing, [.depending fun view =>
      (view.globals.find? origin).toList.map fun binding => .bind name binding.value]⟩ := by
  rintro fits ⟨some, among⟩
  refine .cons (.depending fun view twin same => ?_) .nil
  have found (numbers : Renumbering) (fit : fits numbers) : twin.globals.find? origin =
      (view.globals.find? origin).map (Binding.renumber numbers) := by
    rw [(same numbers fit).globals, Table.find?_mapEntries]
  cases known : view.globals.find? origin with
  | none =>
    rw [found some among, known]
    exact .nil
  | some binding =>
    rw [found some among, known]
    refine .cons (.bind name fun numbers fit => ?_) .nil
    have both := (found some among).symm.trans (found numbers fit)
    rw [known] at both
    exact congrArg Binding.value (Option.some.inj both)

/-- What a plain action makes of statements does not depend on their numbers. -/
theorem HookAction.Plain.edit {action : HookAction} {change : NodeId → Program → Program}
    {count : Nat} (plain : action.Plain) (edits : action.edit? = some (change, count))
    (onNode : NodeId → NodeId) (id : NodeId) (program : Program) :
    change (onNode id) (Statement.renumberAll onNode program) =
      Statement.renumberAll onNode (change id program) := by
  cases action with
  | dropLast | dropFirst | reverse | appendPrint | appendPrintVar | appendBreak =>
    cases edits
    simp [Statement.relabelAll_eq_map, Statement.relabel, Expr.relabel]
  | edit => exact plain.elim
  | _ => cases edits

/-! ### Values the host hands over -/

namespace Store

mutual

/-- Taking in what a host hands over makes neither classes nor modules. -/
theorem classes_take (store : Store) :
    ∀ value, (store.take value).2.classes = store.classes ∧
      (store.take value).2.modules = store.modules
  | .literal _ => ⟨rfl, rfl⟩
  | .array elements => store.classes_takeAll elements

private theorem classes_takeAll (store : Store) :
    ∀ values, (store.takeAll values).2.classes = store.classes ∧
      (store.takeAll values).2.modules = store.modules
  | [] => ⟨rfl, rfl⟩
  | first :: rest => by
    obtain ⟨classes, modules⟩ := store.classes_take first
    obtain ⟨classesRest, modulesRest⟩ := (store.take first).2.classes_takeAll rest
    exact ⟨classesRest.trans classes, modulesRest.trans modules⟩

end

variable {numbers : Renumbering}

mutual

/-- What a host hands over is taken in as the same value in both stores, with other numbers. -/
theorem Twin.take {store twin : Store} (met : store.Twin numbers twin) :
    ∀ value, (twin.take value).1 = (store.take value).1.renumber numbers ∧
      (store.take value).2.Twin numbers (twin.take value).2
  | .literal value => by
    refine ⟨?_, met⟩
    cases value <;> rfl
  | .array elements => by
    obtain ⟨values, taken⟩ := Twin.takeAll met elements
    have made := taken.newArray (store.takeAll elements).1.toArray
    refine ⟨?_, ?_⟩
    · exact congrArg (Value.array ⟨·⟩) taken.arrays_size
    · rw [List.map_toArray, ← values] at made
      exact made

private theorem Twin.takeAll {store twin : Store} (met : store.Twin numbers twin) :
    ∀ values, (twin.takeAll values).1 = (store.takeAll values).1.map (Value.renumber numbers) ∧
      (store.takeAll values).2.Twin numbers (twin.takeAll values).2
  | [] => ⟨rfl, met⟩
  | first :: rest => by
    obtain ⟨value, taken⟩ := Twin.take met first
    obtain ⟨values, takenRest⟩ := Twin.takeAll taken rest
    exact ⟨congrArg₂ List.cons value values, takenRest⟩

end

/-- A native module is taken in under the same number in both stores. -/
theorem Twin.newModule {store twin : Store} (met : store.Twin numbers twin)
    (native : NativeModule) : (twin.newModule native).1 = (store.newModule native).1 ∧
      (store.newModule native).2.Twin numbers (twin.newModule native).2 := by
  refine ⟨?_, { met with modules := ?_ }⟩
  · exact congrArg (ModuleRef.mk ·.size) met.modules
  · exact congrArg (·.push native) met.modules

/-- A store takes in a module that holds no classes without coming to hold any. -/
theorem Classless.newModule {store : Store} (classless : store.Classless) {native : NativeModule}
    (fresh : native.Classless) : (store.newModule native).2.Classless := by
  intro ref other found
  unfold Store.module? Store.newModule at found
  rw [Array.getElem?_push] at found
  split at found
  · cases found
    exact fresh
  · exact classless ref other found

end Store

end Scriptlet
