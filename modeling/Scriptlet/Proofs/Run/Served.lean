import Scriptlet.Proofs.Resolution.ReceiverDistance
import Scriptlet.Proofs.Run.Owners
import Scriptlet.Proofs.Run.Receiving

/-!
# The receivers of a run are objects

In a run of an accepted program that declares no name like that of a receiver, each scope of a
receiver holds an object, of the class that owns the code inside of the scope if a class does
(`serving_of_successive`, `serving_run`). A method of the superclass gets the receiver of the
code that names it. The scope of this receiver is older than the one that is made for the
method, so what is said of receivers goes from older scopes to newer ones.
-/

namespace Scriptlet

namespace Store

/-- Each scope of a receiver holds an object. -/
def Serving (store : Store) : Prop :=
  ∀ ref scope, store.scope? ref = some scope → scope.tag.held? = some "this" →
    ∃ receiver, store.Serves scope receiver

variable {store : Store} {globals : ScopeRef}

/-- A class builds on the class whose scope its code closes over. -/
private theorem Tidy.superclass?_of_captured (tidy : store.Tidy globals)
    {owner superclass : ClassRef} {object : ClassObject} (found : store.class? owner = some object)
    (derived : object.decl.superclass.isSome = true) {scope : Scope}
    (closure : store.scope? object.closure = some scope)
    (bindings : scope.bindings = [("super", ⟨.classValue superclass, true⟩)]) :
    store.superclass? owner = some superclass := by
  have inherits := (tidy.classes owner object found).inherits
  unfold ClassObject.Inherits at inherits
  split at inherits
  · rw [inherits] at derived
    cases derived
  · rename_i built held
    obtain ⟨earlier, _, around, captured⟩ := inherits
    cases closure.symm.trans captured
    cases bindings
    simp [superclass?, found, held, earlier]

/-- A receiver that is passed on is an object of the class that gets it. -/
private theorem PassesOn.serves {setting : Setting} {use : Use} {ref : ScopeRef} {scope : Scope}
    (passes : store.PassesOn setting use ref scope) (tidy : store.Tidy globals)
    {tags : List ScopeTag} (chain : store.Chain globals use.env tags)
    (paired : ∀ distance, setting.resolutions.distance? use.id = some (distance + 1) →
      ∃ decl, decl.superclass.isSome = true ∧ tags[distance]? = some (.thisOf decl) ∧
        tags[distance + 1]? = some (.superOf decl))
    (earlier : ∀ other inner, other.index < ref.index → store.scope? other = some inner →
      inner.tag.held? = some "this" → ∃ receiver, store.Serves inner receiver) :
    ∃ receiver, store.Serves scope receiver := by
  obtain ⟨distance, superclass, recorded, receiver, built, owned⟩ := passes
  obtain ⟨decl, derived, inside, outside⟩ := paired distance recorded
  obtain ⟨innerRef, inner, reached, before, found, holds⟩ := receiver
  obtain ⟨outerRef, outer, reachedOuter, _, foundOuter, holdsOuter⟩ := built
  have innerTag : inner.tag = .thisOf decl :=
    Option.some.inj ((chain.tag_of_ancestor? reached found).symm.trans inside)
  have outerTag : outer.tag = .superOf decl :=
    Option.some.inj ((chain.tag_of_ancestor? reachedOuter foundOuter).symm.trans outside)
  obtain ⟨receiver, serves⟩ := earlier innerRef inner before found (by rw [innerTag]; rfl)
  obtain ⟨object, held, innerOwned⟩ := serves.owned
  obtain ⟨owner, member, made, class?, rfl, enclosing⟩ := innerOwned decl innerTag
  obtain rfl : made.closure = outerRef :=
    Option.some.inj ((ancestor?_succ reached found enclosing).symm.trans reachedOuter)
  -- The scope the class closes over tells the class it builds on.
  have upward := tidy.superclass?_of_captured class? derived foundOuter
    (holdsOuter (by rw [outerTag]; rfl))
  have lineage : store.lineage superclass ⊆ store.lineage object.ofClass := by
    refine List.Subset.trans ?_ (lineage_subset_of_mem member)
    rw [lineage_of_superclass? upward]
    exact List.subset_cons_self _ _
  refine ⟨receiver, ?_, object, held, owned.last (.refl store) lineage⟩
  rw [← holds (by rw [innerTag]; rfl), serves.bindings]

end Store

section Runs

variable {program : Program} {analysis : Analysis} {done : Unit} {globals : ScopeRef}
  {first store : Store} {setting : Setting}

/-- If the receivers are objects where a run begins, they are objects where it ends. -/
theorem serving_of_supplies {course : Course} {machine later : Machine}
    (accepted : Resolve.program course.program .start = .ok done analysis)
    (numbered : course.program.Numbered) (spares : course.program.SparesReceivers)
    (resolved : setting.resolutions = analysis.resolutions) (sound : course.Sound later)
    (tidy : later.store.Tidy course.globals) (lasts : machine.store.Lasts later.store)
    (supplies : machine.Supplies setting later) (begins : machine.store.Serving) :
    later.store.Serving := by
  suffices upTo : ∀ size (ref : ScopeRef) scope, ref.index = size →
      later.store.scope? ref = some scope → scope.tag.held? = some "this" →
      ∃ receiver, later.store.Serves scope receiver from
    fun ref scope found held => upTo ref.index ref scope rfl found held
  intro size
  induction size using Nat.strongRecOn with
  | ind size ih =>
      rintro ref scope rfl found held
      rcases supplies ref scope found held with before | ⟨receiver, serves⟩ |
        ⟨use, member, named, passes⟩
      · obtain ⟨receiver, serves⟩ := begins ref scope before held
        exact ⟨receiver, serves.last lasts⟩
      · exact ⟨receiver, serves⟩
      · obtain ⟨scopes, code, stands, mentioned, fits⟩ := sound.uses use member
        have chain := fits.chain
        rw [LexicalScope.map_tag_defer] at chain
        refine passes.serves tidy chain (fun distance recorded => ?_)
          fun other inner older => ih other.index older other inner rfl
        obtain ⟨nearer, decl, same, derived, inside, outside⟩ := superOf_of_recorded accepted
          numbered spares stands (named ▸ mentioned) (resolved ▸ recorded)
        cases same
        exact ⟨decl, derived, inside, outside⟩

variable (accepted : Resolve.program program .start = .ok done analysis)
  (numbered : program.Numbered) (spares : program.SparesReceivers) (blank : first.Blank globals)
include accepted numbered spares blank

private theorem serving_interpret
    (successive : Successive program analysis.resolutions globals first store)
    (begins : store.Serving) (resolved : setting.resolutions = analysis.resolutions) :
    (Run.machineAfter (Run.interpret setting program (.start store globals))).store.Serving := by
  have sound := Course.sound_of_successive blank.fresh successive setting
  obtain ⟨starts, tidies⟩ := tidies_interpret
    (Course.ready_of_successive blank.fresh successive)
    (tidy_of_successive blank successive) setting program
  exact serving_of_supplies accepted numbered spares resolved sound (tidies.tidy starts).1.store
    (tidies.tidy starts).2 (tidies.supplies starts) begins

/-- The receivers in every store between successive runs are objects. -/
theorem serving_of_successive
    (successive : Successive program analysis.resolutions globals first store) :
    store.Serving := by
  induction successive with
  | start =>
      intro ref scope found held
      obtain ⟨root, foundRoot, _, tag⟩ := blank.fresh.root
      cases blank.alone ref scope found
      cases found.symm.trans foundRoot
      simp [tag, ScopeTag.held?] at held
  | @bind store name value earlier ih =>
      obtain ⟨root, found, _, tag⟩ := (Course.ready_of_successive blank.fresh earlier).root
      have unsealed (scope : Scope) (held : store.scope? globals = some scope) :
          scope.tag.isSealed = false := by
        cases found.symm.trans held
        rw [tag]
        rfl
      intro ref scope known held
      rw [Store.scope?_define] at known
      obtain ⟨before, there, rfl⟩ := Option.map_eq_some_iff.mp known
      by_cases same : ref = globals
      · subst same
        simp only [↓reduceIte] at held
        cases (ScopeTag.isSealed_of_held? held).symm.trans (unsealed before there)
      · simp only [same, ↓reduceIte] at held ⊢
        obtain ⟨receiver, serves⟩ := ih ref before there held
        exact ⟨receiver, serves.last (.define unsealed name value false)⟩
  | run earlier resolved outermost ih =>
      exact serving_interpret accepted numbered spares blank earlier ih resolved

/-- The receivers in the store that a run leaves are objects. -/
theorem serving_run (successive : Successive program analysis.resolutions globals first store)
    (resolved : setting.resolutions = analysis.resolutions) :
    (Run.machineAfter (Run.interpret setting program (.start store globals))).store.Serving :=
  serving_interpret accepted numbered spares blank successive
    (serving_of_successive accepted numbered spares blank successive) resolved

end Runs

end Scriptlet
