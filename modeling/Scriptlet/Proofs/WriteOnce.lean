import Scriptlet.Proofs.Run.Making
import Scriptlet.Proofs.Run.History

/-!
# Final fields

Once a field is final and has its value (`finalField_cases`), no assignment, initialiser,
constructor or method changes it, nor who may use it or which class owns it. One thing can: an
initialiser that declares the same field of the object once more, in the same class or in one that
builds on it. An assignment to a final field is refused at run time, such an initialiser is not.
-/

namespace Scriptlet

/-- The slots a run leaves are those of the uses it notes, and a use leaves a final field
that has its value as it is unless it declares the field anew. -/
theorem finalField_cases (setting : Setting) (program : Program) (first : Store)
    (globals : ScopeRef) {machine : Machine}
    (ended : Run.machineAfter (Run.interpret setting program (.start first globals)) = machine) :
    machine.store.field? = slotAfter first.field? machine.fieldUses ∧
    ∀ later use earlier slot, machine.fieldUses = later ++ use :: earlier →
      slotAfter first.field? earlier use.object use.name = some slot → slot.isFinal = true →
      slot.assigned = true → use.slot = slot ∨ use.Redeclares machine.store := by
  subst ended
  obtain ⟨_, _, latest, noted, recounts, fields⟩ :=
    Run.grows_interpret setting program (.start first globals)
  have all : latest = (Run.machineAfter
      (Run.interpret setting program (.start first globals))).fieldUses := by
    rw [noted]
    exact (List.append_nil latest).symm
  subst all
  refine ⟨fields, fun later use earlier slot split held final given => ?_⟩
  rw [split] at recounts
  exact recounts.respects.fixed slot held final given

/-- `class A { final var x = true; } class B extends A { var x = nil; } B();` -/
def subclassSample : Program :=
  [.classDecl ⟨"A", none, [⟨"x", .everyone, true, some (.literal (.bool true) ⟨1, 25⟩), ⟨1, 11⟩⟩],
      [], false, ⟨1, 1⟩⟩,
    .classDecl ⟨"B", some ⟨0, "A", ⟨1, 50⟩⟩,
      [⟨"x", .everyone, false, some (.literal .nil ⟨1, 62⟩), ⟨1, 54⟩⟩], [], false, ⟨1, 34⟩⟩,
    .expression (.call (.var 1 "B" ⟨1, 69⟩) [] ⟨1, 70⟩) ⟨1, 69⟩]

/-- What a run of the sample leaves of its fields: which, whether the use declares it, and whether
it is final and has its value. -/
private theorem fieldUses_subclassSample :
    ∃ analysis, Resolve.program subclassSample .start = .ok () analysis ∧
      (Run.machineAfter (Run.interpret (.bare analysis.resolutions) subclassSample
        (.start .bare ⟨0⟩))).fieldUses.map (fun use =>
          (use.object, use.name, use.kind, use.slot.isFinal, use.slot.assigned)) =
        [(⟨0⟩, "x", .declared, false, true), (⟨0⟩, "x", .declared, true, true)] :=
  ⟨_, rfl, by decide +kernel⟩

/-- The initialiser of `B` gives the final field of `A` another value, and the field is no longer
final. -/
theorem finalField_cases_subclassSample :
    ∃ analysis machine, Resolve.program subclassSample .start = .ok () analysis ∧
      Run.machineAfter (Run.interpret (.bare analysis.resolutions) subclassSample
        (.start .bare ⟨0⟩)) = machine ∧
      ∃ use earlier slot, machine.fieldUses = use :: earlier ∧
        slotAfter Store.bare.field? earlier use.object use.name = some slot ∧
        slot.isFinal = true ∧ slot.assigned = true ∧ use.slot ≠ slot ∧
        use.Redeclares machine.store := by
  obtain ⟨analysis, accepted, uses⟩ := fieldUses_subclassSample
  obtain ⟨use, earlier, noted, shown, before⟩ := List.map_eq_cons_iff.mp uses
  obtain ⟨first, rest, rfl, shownFirst, nothing⟩ := List.map_eq_cons_iff.mp before
  simp only [Prod.mk.injEq] at shown shownFirst
  obtain ⟨object, name, _, changed, _⟩ := shown
  obtain ⟨sameObject, sameName, _, final, given⟩ := shownFirst
  have held : slotAfter Store.bare.field? (first :: rest) use.object use.name =
    some first.slot := by
    rw [slotAfter, if_pos ⟨sameObject.trans object.symm, sameName.trans name.symm⟩]
  have other : use.slot ≠ first.slot := fun same => by
    rw [same, final] at changed
    cases changed
  have either := (finalField_cases (.bare analysis.resolutions) subclassSample .bare ⟨0⟩ rfl).2 []
    use (first :: rest) first.slot noted held final given
  exact ⟨analysis, _, accepted, rfl, use, first :: rest, first.slot, noted, held, final, given,
    other, either.resolve_left other⟩

end Scriptlet
