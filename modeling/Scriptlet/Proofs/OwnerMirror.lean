import Scriptlet.Proofs.Resolution.Posting
import Scriptlet.Proofs.Resolution.Visiting
import Scriptlet.Proofs.Run.Owners
import Scriptlet.Proofs.ScopeMirror

/-!
# Code runs as code of the class it is written in

A run keeps on a stack whose code it runs: a call puts the owner of the function there, the
initialisers of a class put the class. The analysis keeps the class it goes through. An expression
is evaluated as code of a class made from a declaration if the analysis of the expression was inside
that declaration, and as code of no class if it was inside none (`ExprVisit.Mirrors`). So a private
field is used in scopes inside the body of its class only (`FieldUse.InBody`).
-/

namespace Scriptlet

/-- An expression was analysed in scopes of the constructs that opened the scopes of a run,
from one of them out to the globals. -/
def ExprVisit.Mirrors (visit : ExprVisit) (store : Store) (globals env : ScopeRef) : Prop :=
  store.Chain globals env (visit.scopes.map (·.tag))

/-- A scope of a run is in the body of a class: of the scopes that hold a receiver the innermost
one around it was opened by the declaration of the class, which declares the field. -/
def FieldUse.InBody (use : FieldUse) (store : Store) (globals : ScopeRef) : Prop :=
  ∃ object field tags, store.class? use.slot.owner = some object ∧
    field ∈ object.decl.fields ∧ field.name = use.name ∧ field.visibility = .ownClass ∧
    store.Chain globals use.env tags ∧ classAround tags = some object.decl

variable {program : Program} {analysis : Analysis} {done : Unit} {globals : ScopeRef}
  {first store : Store}

/-- Code that stands in the program was analysed in scopes that mirror those it runs in. -/
theorem mirrors_of_places {course : Course} {evaluation : Evaluation}
    (accepted : Resolve.program course.program .start = .ok done analysis)
    (placed : course.Places store evaluation) :
    ∃ visit ∈ analysis.walk, visit.expr = evaluation.expr ∧
      visit.Mirrors store course.globals evaluation.env := by
  obtain ⟨scopes, stands, fits⟩ := placed
  obtain ⟨before, after, visited⟩ := visited_of_stands accepted stands
  refine ⟨_, visited.walked, rfl, ?_⟩
  have chain := fits.chain
  rw [List.map_map] at chain
  have same : scopes.map (LexicalScope.tag ∘ LexicalScope.defer) = before.scopes.map (·.tag) :=
    visited.reflected.map_tag.symm
  rwa [same] at chain

/-- Code that runs in scopes that an expression was analysed in is owned by the class it was
analysed in. -/
theorem owns_of_mirrors {visit : ExprVisit} (posted : visit.Posted) {env : ScopeRef}
    {owner : Option ClassRef} (mirrors : visit.Mirrors store globals env)
    (houses : store.Houses globals env owner) :
    store.Owns owner (visit.current.map (·.own.decl)) := by
  obtain ⟨tags, chain, owns⟩ := houses
  rw [posted.current]
  rwa [mirrors.unique chain] at owns

/-- A private field is used in the body of its class. -/
theorem FieldUse.Tidy.inBody {use : FieldUse} (tidy : use.Tidy store globals)
    (used : use.kind ≠ .declared) (ownClass : use.slot.visibility = .ownClass) :
    use.InBody store globals := by
  obtain ⟨tags, chain, owns⟩ := tidy.houses
  rcases tidy.slot with ⟨everyone, _⟩ | ⟨object, field, found, member, named, visible, _⟩
  · cases everyone.symm.trans ownClass
  · rw [tidy.ownClass used ownClass] at owns
    exact ⟨object, field, tags, found, member, named, visible.symm.trans ownClass, chain,
      owns.eq_of_class? found⟩

/-- Every expression that a run of an accepted program evaluates was analysed, and wherever it
was, it runs as code of a class made from the declaration it was analysed in, or as code of
no class if it was analysed in none. Private fields are used inside of their class only. The
run may be any of successive runs on the same globals, and may end with a fault. -/
theorem owner_mirrors_class (accepted : Resolve.program program .start = .ok done analysis)
    (blank : first.Blank globals)
    (successive : Successive program analysis.resolutions globals first store)
    (setting : Setting) {machine : Machine}
    (ended : Run.machineAfter (Run.interpret setting program (.start store globals)) = machine) :
    (∀ evaluation ∈ machine.evaluations,
      (∃ visit ∈ analysis.walk, visit.expr = evaluation.expr ∧
        visit.Mirrors machine.store globals evaluation.env) ∧
      ∀ visit ∈ analysis.walk, visit.Mirrors machine.store globals evaluation.env →
        machine.store.Owns evaluation.owner (visit.current.map (·.own.decl))) ∧
    ∀ use ∈ machine.fieldUses, use.kind ≠ .declared → use.slot.visibility = .ownClass →
      use.InBody machine.store globals := by
  subst ended
  have sound := Course.sound_of_successive blank.fresh successive setting
  have tidy := tidy_run blank successive setting
  refine ⟨fun evaluation member => ⟨?_, fun visit visited mirrors => ?_⟩, fun use member used
    ownClass => (tidy.fieldUses use member).inBody used ownClass⟩
  · exact mirrors_of_places accepted
      (sound.evaluations evaluation member)
  · have posted := (posted_of_program accepted Analysis.at_start).walk visit visited
    obtain ⟨start, depth, begins⟩ := tidy.evaluations evaluation member
    have houses := begins.begun.houses begins.houses
    rw [begins.env] at houses
    have owner : start.owner = evaluation.owner := by
      rw [Machine.owner, begins.owners]
      rfl
    exact owns_of_mirrors posted mirrors (owner ▸ houses)

/-- `class A { private var x = true; fun get() { return this.x; } } A().get();` -/
def privateSample : Program :=
  [.classDecl ⟨"A", none,
      [⟨"x", .ownClass, false, some (.literal (.bool true) ⟨1, 27⟩), ⟨1, 19⟩⟩],
      [⟨"get", .method, [],
        [.returning (some (.get (.thisRef 0 ⟨1, 52⟩) "x" ⟨1, 57⟩)) ⟨1, 45⟩], false, ⟨1, 33⟩⟩],
      false, ⟨1, 1⟩⟩,
    .expression (.call (.get (.call (.var 1 "A" ⟨1, 64⟩) [] ⟨1, 65⟩) "get" ⟨1, 68⟩) [] ⟨1, 71⟩)
      ⟨1, 64⟩]

/-- In the second of two runs the code of `A` is owned by the second class made from it, and the
field is read inside of its body. -/
theorem owner_mirrors_class_privateSample :
    ∃ analysis, Resolve.program privateSample .start = .ok () analysis ∧
      (Machine.afterTwo privateSample analysis.resolutions).evaluations.map (·.owner) =
        [none, some ⟨1⟩, some ⟨1⟩, none, none, some ⟨1⟩, none] ∧
      (Machine.afterTwo privateSample analysis.resolutions).fieldUses.map (·.kind) =
        [.read, .declared] ∧
      (∀ evaluation ∈ (Machine.afterTwo privateSample analysis.resolutions).evaluations,
        (∃ visit ∈ analysis.walk, visit.expr = evaluation.expr ∧
          visit.Mirrors (Machine.afterTwo privateSample analysis.resolutions).store ⟨0⟩
            evaluation.env) ∧
        ∀ visit ∈ analysis.walk,
          visit.Mirrors (Machine.afterTwo privateSample analysis.resolutions).store ⟨0⟩
            evaluation.env →
          (Machine.afterTwo privateSample analysis.resolutions).store.Owns evaluation.owner
            (visit.current.map (·.own.decl))) ∧
      ∀ use ∈ (Machine.afterTwo privateSample analysis.resolutions).fieldUses,
        use.kind ≠ .declared → use.slot.visibility = .ownClass →
        use.InBody (Machine.afterTwo privateSample analysis.resolutions).store ⟨0⟩ :=
  ⟨_, rfl, by decide +kernel, by decide +kernel,
    owner_mirrors_class rfl Store.blank_bare (.once privateSample _) (.bare _) rfl⟩

end Scriptlet
