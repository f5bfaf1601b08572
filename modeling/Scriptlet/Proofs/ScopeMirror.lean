import Mathlib.Data.List.Nodup
import Scriptlet.Proofs.Resolution.Mention
import Scriptlet.Proofs.Run.History

/-!
# A run stands in the scopes of the analysis

The analysis and a run go through a program in ways of their own: the analysis once, in the order of
the text, a run along calls of functions that may have left the scopes they were made in long ago.
Still a name is always used in scopes of the constructs in which it was looked up (`Visit.Mirrors`),
so a recorded distance leads to the scope that was meant (`Visit.Locates`).
-/

namespace Scriptlet

/-- A name is used by the node that looked it up, and the scopes from there out to the globals
were opened by the constructs whose scopes it was looked up in. A scope stays where it is
(`Store.Lasts.chain`), so this can be said of any later store. -/
structure Visit.Mirrors (visit : Visit) (store : Store) (globals : ScopeRef) (use : Use) :
    Prop where
  id : visit.id = use.id
  name : visit.name = use.name
  chain : ∀ tags, store.Chain globals use.env tags ↔ tags = visit.scopes.map (·.tag)

/-- A distance leads from where a name is used to a scope of the construct that declares the
name, as the visit found it: the nearest one that does. -/
def Visit.Locates (visit : Visit) (store : Store) (use : Use) (distance : Nat) : Prop :=
  ∃ static target actual, visit.scopes[distance]? = some static ∧
    (static.names.find? use.name).isSome ∧
    (∀ nearer other, nearer < distance → visit.scopes[nearer]? = some other →
      other.names.find? use.name = none) ∧
    store.ancestor? use.env distance = some target ∧ store.scope? target = some actual ∧
    actual.tag = static.tag

variable {program : Program} {analysis : Analysis} {done : Unit} {setting : Setting}
  {globals : ScopeRef} {first store : Store}

/-- A name that code mentions is used in the scopes it was looked up in. -/
theorem mirrors_of_explains {course : Course} {use : Use} {visit : Visit}
    {scopes : List LexicalScope} (id : visit.id = use.id) (name : visit.name = use.name)
    (shown : Shown program use.name scopes visit.scopes)
    (fits : course.Fits store (scopes.map (·.defer)) use.env) :
    visit.Mirrors store course.globals use := by
  have chain := fits.chain
  rw [List.map_map] at chain
  have same : scopes.map (LexicalScope.tag ∘ LexicalScope.defer) = visit.scopes.map (·.tag) :=
    shown.map_tag.symm
  rw [same] at chain
  refine ⟨id, name, fun tags => ⟨fun other => chain.unique other, ?_⟩⟩
  rintro rfl
  exact chain

/-- A recorded distance leads to the scope in which the visit found the name. -/
theorem locates_of_recorded {course : Course} {use : Use} {visit : Visit}
    {scopes : List LexicalScope} {distance : Nat} (recorded : analysis.Recorded)
    (visited : visit ∈ analysis.visits) (name : visit.name = use.name)
    (found : analysis.resolutions.distance? visit.id = some distance)
    (shown : Shown program use.name scopes visit.scopes)
    (fits : course.Fits store (scopes.map (·.defer)) use.env) :
    visit.Locates store use distance := by
  obtain ⟨_, static, declared, listed, declares, _, nearest⟩ :=
    Analysis.declared_of_recorded recorded visited found
  rw [name] at declares nearest
  obtain ⟨scope, inText, shows⟩ := getElem?_of_forall₂ shown listed
  have deferred : (scopes.map (·.defer))[distance]? = some scope.defer := by
    rw [List.getElem?_map, inText]
    rfl
  obtain ⟨target, actual, reached, held, describes⟩ := fits.ancestor? deferred
  refine ⟨static, target, actual, listed, ?_, nearest, reached, held, ?_⟩
  · rw [declares]
    rfl
  · exact describes.tag.trans shows.tag.symm

/-- Every name that a run of an accepted program uses was looked up exactly once, and it is
used in scopes of the same constructs. A recorded distance leads to a scope of the construct
that declares the name. The run may be any of successive runs on the same globals. -/
theorem uses_mirror_visits (accepted : Resolve.program program .start = .ok done analysis)
    (numbered : program.Numbered) (fresh : first.Fresh globals)
    (successive : Successive program analysis.resolutions globals first store)
    (resolved : setting.resolutions = analysis.resolutions) :
    ∀ use ∈ (Run.machineAfter (Run.interpret setting program (.start store globals))).uses,
      ∃ visit ∈ analysis.visits,
        visit.Mirrors (Run.machineAfter
          (Run.interpret setting program (.start store globals))).store globals use ∧
        (∀ other ∈ analysis.visits, other.id = use.id → other = visit) ∧
        ∀ distance, setting.resolutions.distance? use.id = some distance →
          visit.Locates (Run.machineAfter
            (Run.interpret setting program (.start store globals))).store use distance := by
  intro use member
  have sound := Course.sound_of_successive fresh successive setting
  obtain ⟨scopes, code, stands, mentioned, fits⟩ := sound.uses use member
  obtain ⟨statics, visited, shown, _⟩ := visit_of_mention accepted stands mentioned
  obtain ⟨recorded, distinct⟩ := Analysis.recorded_of_accepted accepted numbered
  refine ⟨⟨use.id, use.name, statics⟩, visited, mirrors_of_explains rfl rfl shown fits,
    fun other listed same => ?_, fun distance found => ?_⟩
  · exact List.inj_on_of_nodup_map distinct listed visited same
  · rw [resolved] at found
    exact locates_of_recorded recorded visited rfl found shown fits

/-- `{ var x = true; fun f() { x; } f(); }` -/
def closureSample : Program :=
  [.block [
    .varDecl "x" (some (.literal (.bool true) ⟨1, 11⟩)) false ⟨1, 3⟩,
    .function ⟨"f", .function, [], [.expression (.var 0 "x" ⟨1, 28⟩) ⟨1, 28⟩], false, ⟨1, 17⟩⟩,
    .expression (.call (.var 1 "f" ⟨1, 33⟩) [] ⟨1, 34⟩) ⟨1, 33⟩] ⟨1, 1⟩]

/-- The machine after two runs of a program, with nothing in the store before. -/
def Machine.afterTwo (program : Program) (resolutions : Resolutions) : Machine :=
  Run.machineAfter (Run.interpret (.bare resolutions) program (.start (Run.machineAfter
    (Run.interpret (.bare resolutions) program (.start .bare ⟨0⟩))).store ⟨0⟩))

/-- The second of two runs uses `f` in the block and `x` in the body of `f`. -/
theorem uses_mirror_visits_closureSample :
    ∃ analysis, Resolve.program closureSample .start = .ok () analysis ∧
      (Machine.afterTwo closureSample analysis.resolutions).uses.map (·.name) = ["x", "f"] ∧
      ∀ use ∈ (Machine.afterTwo closureSample analysis.resolutions).uses,
        ∃ visit ∈ analysis.visits,
          visit.Mirrors (Machine.afterTwo closureSample analysis.resolutions).store ⟨0⟩ use ∧
          (∀ other ∈ analysis.visits, other.id = use.id → other = visit) ∧
          ∀ distance, analysis.resolutions.distance? use.id = some distance →
            visit.Locates (Machine.afterTwo closureSample analysis.resolutions).store
              use distance :=
  ⟨_, rfl, by decide +kernel,
    uses_mirror_visits rfl (by decide) Store.fresh_bare (.once closureSample _) rfl⟩

end Scriptlet
