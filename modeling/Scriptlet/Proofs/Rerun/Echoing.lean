import Scriptlet.Proofs.Rerun.Programs
import Scriptlet.Proofs.Run.History

/-!
# What is left by a run and by its repetitions

The store a run leaves on top of what earlier runs of the same program left has the globals of the
first run: under the same names, and with the same texts (`Store.Echoes`). Nothing is left to be
seen of the earlier runs, although their globals were there when the run began.
-/

namespace Scriptlet

/-- The text of a global. -/
def Store.globalText? (store : Store) (name : String) : Option String :=
  (store.value? ⟨0⟩ name).map store.text

/-- A store has the globals of another one, with the same texts, and no native modules. -/
structure Store.Echoes (first store : Store) : Prop where
  rooted : store.Rooted
  modules : store.modules = #[]
  names : (store.bindingsOf ⟨0⟩).names = (first.bindingsOf ⟨0⟩).names
  text : ∀ name, store.globalText? name = first.globalText? name

namespace Store

variable {first past store : Store}

private theorem proper_bare : bare.Proper where
  rooted := ⟨⟨[], [], rfl⟩, List.nodup_nil⟩
  functions _ _ found := nomatch found
  classes _ _ found := nomatch found
  modules := rfl

/-- A run that begins with nothing begins on top of earlier runs with what these have left. -/
theorem bare_atop (past : Store) (modules : past.modules = #[]) : bare.atop past = past := by
  have same : past.scopes.modify 0 (·.under past []) = past.scopes := by
    refine Array.ext_getElem? fun place => ?_
    rw [Array.getElem?_modify]
    split
    · cases past.scopes[place]? with
      | none => rfl
      | some scope => simp [Scope.under, Table.mapEntries]
    · rfl
  unfold atop
  rw [show bare.bindingsOf ⟨0⟩ = [] from rfl, same]
  simp [bare, newScope, empty, ← modules]

/-- A global is bound in the outermost scope. -/
theorem Rooted.value?_global (rooted : store.Rooted) (name : String) :
    store.value? ⟨0⟩ name = ((store.bindingsOf ⟨0⟩).find? name).map (·.value) := by
  have outermost : store.enclosing? ⟨0⟩ = none := by
    unfold enclosing?
    rw [rooted.scope?]
    rfl
  unfold value?
  rw [binder?, Table.contains]
  cases bound : (store.bindingsOf ⟨0⟩).find? name with
  | some binding => simp [valueIn?, bound]
  | none =>
      rw [Option.isSome_none, if_neg Bool.false_ne_true]
      split
      · rename_i scope binds
        split at binds
        · rename_i enclosing outward
          cases outermost.symm.trans outward
        · cases binds
      · rfl

/-- Globals that only take the place of earlier ones are not listed twice. -/
theorem Rooted.atop (earlier : past.Rooted) (rooted : store.Rooted)
    (inside : ∀ name ∈ (store.bindingsOf ⟨0⟩).names, name ∈ (past.bindingsOf ⟨0⟩).names) :
    (store.atop past).Rooted := by
  constructor
  · have found : (store.atop past).scopes.toList[0]? =
        some (moved past ⟨0⟩ ⟨store.bindingsOf ⟨0⟩, none, .globals⟩) := by
      rw [Array.getElem?_toList]
      refine (scope?_atop earlier rooted ⟨0⟩).trans ?_
      rw [rooted.scope?]
      rfl
    cases listed : (store.atop past).scopes.toList with
    | nil =>
        rw [listed] at found
        cases found
    | cons outermost inner =>
        rw [listed] at found
        cases found
        exact ⟨_, inner, rfl⟩
  · rw [bindingsOf_atop_root earlier rooted, Table.names_atop]
    · exact earlier.distinct
    · rwa [Table.names_mapEntries]

/-- A store of proper code echoes itself. -/
theorem Echoes.refl (proper : first.Proper) : Echoes first first :=
  ⟨proper.rooted, proper.modules, rfl, fun _ => rfl⟩

/-- The same run on top of a store that has its globals leaves a store that has them. -/
theorem Echoes.again (proper : first.Proper) (echoes : Echoes first past) :
    Echoes first (first.atop past) := by
  have inside : ∀ name ∈ (first.bindingsOf ⟨0⟩).names, name ∈ (past.bindingsOf ⟨0⟩).names :=
    fun name listed => echoes.names ▸ listed
  have rooted := echoes.rooted.atop proper.rooted inside
  refine ⟨rooted, proper.modules, ?_, fun name => ?_⟩
  · rw [bindingsOf_atop_root echoes.rooted proper.rooted, Table.names_atop, echoes.names]
    rwa [Table.names_mapEntries]
  · unfold globalText?
    rw [rooted.value?_global, proper.rooted.value?_global,
      bindingsOf_atop_root echoes.rooted proper.rooted, Table.find?_atop, Table.find?_mapEntries]
    cases bound : (first.bindingsOf ⟨0⟩).find? name with
    | none =>
        have unbound : past.globalText? name = none := by
          rw [echoes.text, globalText?, proper.rooted.value?_global, bound]
          rfl
        rw [globalText?, echoes.rooted.value?_global, Option.map_map] at unbound
        rw [Option.map_none, Option.none_or, Option.map_eq_none_iff.mp unbound]
        rfl
    | some binding => exact congrArg some (text_atop first past binding.value)

end Store

/-- A run of a program that begins with nothing and ends well ends well again on top of whatever
earlier runs have left, and leaves the same behind that, moved. -/
theorem Run.interpret_again {setting : Setting} {program : Program} {machine : Machine}
    (outermost : setting.globals = ⟨0⟩) (isolated : setting.modules = [])
    (proper : Statement.areProper program = true)
    (ran : Run.interpret setting program (.start .bare ⟨0⟩) = .ok () machine) :
    machine.store.Proper ∧ ∀ past : Store, past.Rooted → past.modules = #[] →
      Run.interpret setting program (.start past ⟨0⟩) = .ok () (machine.atop past) := by
  have repeats {past : Store} (earlier : past.Rooted) :=
    Run.interpret_repeats earlier outermost isolated proper _ _ _ Store.proper_bare ran
  refine ⟨(repeats Store.proper_bare.rooted).1, fun past earlier modules => ?_⟩
  have again := (repeats earlier).2
  have begun : (Machine.start .bare ⟨0⟩).atop past = .start past ⟨0⟩ := by
    unfold Machine.atop Machine.start
    dsimp only
    rw [Store.bare_atop past modules]
    rfl
  rwa [begun] at again

end Scriptlet
