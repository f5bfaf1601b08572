import Scriptlet.Proofs.Lexical.Fitting
import Scriptlet.Run.Name

/-!
# The scope a name leads to

A name is looked up in one scope (`Use.target?`): the one its recorded distance leads to, or the
globals. If it cannot be read or assigned to, that is due to how this scope binds it
(`BindingFault.mark`).
-/

namespace Scriptlet

/-- The scope of the text in which a name is looked up that is used in some scopes. -/
def Use.target? (use : Use) (resolutions : Resolutions) (scopes : List LexicalScope) :
    Option LexicalScope :=
  match resolutions.distance? use.id with
  | some distance => scopes[distance]?
  | none => scopes.getLast?

/-- How a scope binds a name that cannot be assigned to. -/
def BindingFault.mark : BindingFault → Option Bool
  | .undefined => none
  | .final => some true

namespace Store

variable {store : Store} {ref : ScopeRef} {actual : Scope} {name : String}

private theorem find?_bindingsOf (held : store.scope? ref = some actual) :
    (store.bindingsOf ref).find? name = actual.bindings.find? name := by
  rw [bindingsOf, held]

private theorem mark_of_valueIn? (held : store.scope? ref = some actual)
    (missing : store.valueIn? ref name = none) : actual.mark name = none := by
  rw [valueIn?, find?_bindingsOf held] at missing
  rw [Scope.mark]
  cases found : actual.bindings.find? name with
  | none => rfl
  | some binding =>
      rw [found] at missing
      cases missing

/-- A name that cannot be assigned to in a scope is not bound there, or for good. -/
theorem mark_of_refused (held : store.scope? ref = some actual) {fault : BindingFault}
    {target : ScopeRef}
    (refused : ((store.checkAssign ref name).map fun _ => target) = .error fault) :
    actual.mark name = fault.mark := by
  rw [checkAssign, find?_bindingsOf held] at refused
  rw [Scope.mark]
  cases found : actual.bindings.find? name with
  | none =>
      rw [found] at refused
      cases refused
      rfl
  | some binding =>
      rw [found] at refused
      dsimp only at refused
      split at refused
      · rename_i final
        cases refused
        exact congrArg some final
      · cases refused

/-- From the outermost scope a name is looked up in that scope only. -/
theorem binder?_outermost (held : store.scope? ref = some actual)
    (root : actual.enclosing = none) :
    store.binder? ref name = if (actual.mark name).isSome then some ref else none := by
  have none : store.enclosing? ref = none := by
    simp [enclosing?, held, root]
  have contains : (store.bindingsOf ref).contains name = (actual.mark name).isSome := by
    simp [bindingsOf, held, Table.contains, Scope.mark]
  rw [binder?, contains]
  split
  · rfl
  · split
    · rename_i around outward
      cases none.symm.trans outward
    · rfl

/-- A name that is looked up from the outermost scope and has no value is not bound there. -/
theorem mark_of_value? (held : store.scope? ref = some actual) (root : actual.enclosing = none)
    (missing : store.value? ref name = none) : actual.mark name = none := by
  rw [value?, binder?_outermost held root] at missing
  by_cases bound : (actual.mark name).isSome
  · rw [if_pos bound] at missing
    exact mark_of_valueIn? held missing
  · exact Option.not_isSome_iff_eq_none.mp bound

/-- A name that is looked up from the outermost scope and cannot be assigned to is not bound
there, or for good. -/
theorem mark_of_assignTarget (held : store.scope? ref = some actual)
    (root : actual.enclosing = none) {fault : BindingFault}
    (refused : store.assignTarget ref name = .error fault) : actual.mark name = fault.mark := by
  rw [assignTarget, binder?_outermost held root] at refused
  by_cases bound : (actual.mark name).isSome
  · rw [if_pos bound] at refused
    exact mark_of_refused held refused
  · rw [if_neg bound] at refused
    cases refused
    exact Option.not_isSome_iff_eq_none.mp bound

end Store

/-- The scope a name leads to is described by the scope of the text there, and it is to blame
if the name cannot be read or assigned to. -/
theorem Course.Fits.target {course : Course} {store : Store} {scopes : List LexicalScope}
    {scope : LexicalScope} {setting : Setting} {use : Use}
    (fits : course.Fits store scopes use.env) (globals : setting.globals = course.globals)
    (leads : use.target? setting.resolutions scopes = some scope) :
    ∃ ref actual, store.scope? ref = some actual ∧ scope.Describes course.foreign actual ∧
      (Run.valueOf? setting use store = none → actual.mark use.name = none) ∧
      ∀ fault, Run.assignTarget setting use store = .error fault →
        actual.mark use.name = fault.mark := by
  unfold Use.target? at leads
  unfold Run.valueOf? Run.assignTarget
  cases recorded : setting.resolutions.distance? use.id with
  | some distance =>
      rw [recorded] at leads
      obtain ⟨target, actual, reached, held, describes⟩ := fits.ancestor? leads
      refine ⟨target, actual, held, describes, fun missing => ?_, fun fault refused => ?_⟩
      · dsimp only at missing
        rw [Store.valueAt?, reached] at missing
        exact Store.mark_of_valueIn? held missing
      · dsimp only at refused
        rw [Store.assignTargetAt, reached] at refused
        exact Store.mark_of_refused held refused
  | none =>
      rw [recorded] at leads
      obtain ⟨last, actual, outermost, held, root, describes⟩ := fits.last
      cases leads.symm.trans outermost
      rw [globals]
      exact ⟨course.globals, actual, held, describes, Store.mark_of_value? held root,
        fun fault refused => Store.mark_of_assignTarget held root refused⟩

end Scriptlet
