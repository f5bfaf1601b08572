import Scriptlet.Proofs.Resolution.CheckedStatements

/-!
# Names used before their declaration

The analysis refuses a program that refers to a name early, in any way but by an operator of the
script, and it says so only of such a reference (`early_use_rejected`). Calls of operators are not
asked about. Since the condition of a loop comes before its body in the analysis, what the body of a
do-while loop declares does not count in the condition, although it stands before it in the text.
-/

namespace Scriptlet

/-- The analysis starts in a scope without names. -/
theorem Analysis.standsIn_start : Analysis.start.StandsIn 0 [⟨[], [], [], 0⟩] :=
  ⟨rfl, .cons ⟨fun name => by simp [Table.contains, Table.find?],
    fun name => by simp [Table.contains, Table.find?], rfl⟩ .nil⟩

/-- What the analysis does not have by then, though the text does, stands in a loop body that comes
after its condition. -/
theorem Occurrence.Early.written_or_passed {occurrence : Occurrence}
    (early : occurrence.Early NameScope.entered) :
    occurrence.Early NameScope.written ∨
      ∃ scope ∈ occurrence.scopes, occurrence.reference.name ∈ scope.passed := by
  obtain ⟨inner, scope, outer, split, level, listed, without⟩ := early
  by_cases passed : ∃ scope ∈ occurrence.scopes, occurrence.reference.name ∈ scope.passed
  · exact .inr passed
  · refine .inl ⟨inner, scope, outer, split, level, listed, fun nearer member inside => ?_⟩
    rcases List.mem_append.mp inside with has | has
    · exact without nearer member has
    · refine passed ⟨nearer, ?_, has⟩
      rw [split, List.append_cons]
      exact List.mem_append_left _ member

/-- A program with an early reference, other than a call of an operator, is rejected. That a name
is used early is only reported of such a reference, or of one in the condition of a do-while loop
to a name that the body of the loop declares. -/
theorem early_use_rejected (program : Program) :
    (∀ occurrence ∈ program.occurrences, occurrence.reference.kind.isOperator = false →
      occurrence.Early NameScope.written → ∃ fault, resolve program = .error fault) ∧
    ∀ name location, resolve program = .error ⟨.useBeforeDeclaration name, location⟩ →
      ∃ occurrence ∈ program.occurrences, occurrence.reference.kind.isOperator = false ∧
        occurrence.reference.name = name ∧ occurrence.reference.location = location ∧
        occurrence.Early NameScope.entered ∧ (occurrence.Early NameScope.written ∨
          ∃ scope ∈ occurrence.scopes, name ∈ scope.passed) := by
  obtain ⟨later, checks⟩ := Resolve.Checks.program program
  unfold resolve
  constructor
  · intro occurrence member asked early
    cases ended : Resolve.program program .start with
    | error fault after => exact ⟨fault, rfl⟩
    | ok value after =>
      obtain ⟨_, free⟩ := checks.passes _ _ _ Analysis.standsIn_start ended
      exact absurd ⟨asked, early.entered⟩ (free occurrence member)
  · intro name location reported
    cases ended : Resolve.program program .start with
    | ok value after =>
      rw [ended] at reported
      cases reported
    | error fault after =>
      rw [ended] at reported
      cases reported
      obtain ⟨occurrence, member, ⟨asked, early⟩, rfl, rfl⟩ :=
        checks.stops _ _ _ _ Analysis.standsIn_start ended
      exact ⟨occurrence, member, asked, rfl, rfl, early, early.written_or_passed⟩

/-- `prefix fun neg(x) { return x; }` from a column on. -/
def negation (id : NodeId) (column : Nat) : Statement :=
  .function ⟨"neg", .prefixOperator, [⟨"x", ⟨1, column + 15⟩⟩],
    [.returning (some (.var id "x" ⟨1, column + 27⟩)) ⟨1, column + 20⟩], false, ⟨1, column⟩⟩

/-- `{ prefix fun neg(x) { return x; } } print …; prefix fun neg(x) { return x; }` -/
def forwardSample (printed : Expr) : Program :=
  [.block [negation 0 3] ⟨1, 1⟩, .print printed ⟨1, 37⟩, negation 2 52]

/-- `neg nil` after `print` -/
def negated : Expr :=
  .prefixCall 1 "neg" (.literal .nil ⟨1, 47⟩) ⟨1, 43⟩

/-- Where a read of the operator is refused, a call of it is not. -/
theorem early_use_rejected_operatorSample :
    (∃ occurrence ∈ (forwardSample negated).occurrences,
      occurrence.reference.kind = .prefixCall ∧ occurrence.Early NameScope.written) ∧
    (∃ resolutions, resolve (forwardSample negated) = .ok resolutions) ∧
    (∃ fault, resolve (forwardSample (.var 1 "neg" ⟨1, 43⟩)) = .error fault) ∧
    ∃ occurrence ∈ (forwardSample (.var 1 "neg" ⟨1, 43⟩)).occurrences,
      occurrence.reference.kind.isOperator = false ∧ occurrence.reference.name = "neg" ∧
      occurrence.reference.location = ⟨1, 43⟩ ∧
      occurrence.Early NameScope.entered ∧ (occurrence.Early NameScope.written ∨
        ∃ scope ∈ occurrence.scopes, "neg" ∈ scope.passed) := by
  have early (kind : ReferenceKind) :
      Occurrence.Early NameScope.written ⟨⟨kind, "neg", ⟨1, 43⟩⟩, [⟨[], [], ["neg"], 0⟩], 0⟩ :=
    ⟨[], _, [], rfl, rfl, by simp, by simp [NameScope.written]⟩
  refine ⟨⟨_, ?_, rfl, early .prefixCall⟩, ⟨_, rfl⟩, ?_, ?_⟩
  · decide +kernel
  · exact (early_use_rejected _).1 _ (by decide +kernel) rfl (early .read)
  · exact (early_use_rejected _).2 "neg" ⟨1, 43⟩ rfl

/-- `do var x = true; while (x); var x = nil;` -/
def loopSample : Program :=
  [.doWhile (.varDecl "x" (some (.literal (.bool true) ⟨1, 12⟩)) false ⟨1, 4⟩)
      (.var 0 "x" ⟨1, 25⟩) ⟨1, 1⟩,
    .varDecl "x" (some (.literal .nil ⟨1, 37⟩)) false ⟨1, 29⟩]

example : resolve loopSample = .error ⟨.useBeforeDeclaration "x", ⟨1, 25⟩⟩ := rfl

end Scriptlet
