import Scriptlet.Proofs.Run.History
import Scriptlet.Proofs.Run.Room

/-!
# The depth of recursion

Calls nest at most as deep as the options allow. All other active code are initialisers of fields,
which nothing counts: how deep a run nests is bounded by the height of the program, the depth of
calls that is allowed, and how deep initialisers nest (`nesting_bounded`). If the initial values of
fields call nothing then they do not nest, and the bound is one of the program and the options
(`Bounds.of`).
-/

namespace Scriptlet

/-- The bounds of the code of a program, which is run with some options. -/
def Bounds.of (program : Program) (options : Options) (inits : Nat) : Bounds :=
  ⟨options.maxCallDepth, inits, Statement.heightOf program + 1, Statement.areQuiet program⟩

/-- All code of a program keeps to its bounds. -/
theorem Stands.fits {program : Program} {scopes : List LexicalScope} {code : Code}
    (stands : Stands program scopes code) (options : Options) (inits : Nat) :
    code.Fits (.of program options inits) := by
  induction stands with
  | program => exact ⟨Nat.lt_succ_self _, id⟩
  | first _ fits => exact fits.inside .first
  | rest _ fits => exact fits.inside .rest
  | value _ member fits => exact fits.inside (.value member)
  | initial _ fits => exact fits.inside .initial
  | branch _ member fits => exact fits.inside (.branch member)
  | condition _ looped fits => exact fits.inside (.condition looped)
  | loopBody _ looped fits => exact fits.inside (.loopBody looped)
  | part _ member fits => exact fits.inside (.part member)
  | opened _ opens fits => exact fits.opened opens
  | function _ fits => exact fits.function.body
  | extension _ fits => exact fits.extension.body
  | method _ member fits => exact (fits.classDecl.members.2 _ member).body
  | field _ member given fits =>
    exact ⟨(fits.classDecl.members.1.initial member given).1, fun _ => rfl⟩

/-- A store that holds code of a program only keeps to its bounds. -/
theorem Course.SoundStore.holds {course : Course} {store : Store} (sound : course.SoundStore store)
    (options : Options) (inits : Nat) : store.Holds (.of course.program options inits) := by
  have written {ref : ClassRef} {object : ClassObject} (found : store.class? ref = some object) :=
    sound.written ref object found
  constructor
  · intro ref function found
    obtain ⟨_, stands, _⟩ := sound.functions ref function found
    have fits := stands.fits options inits
    refine ⟨?_, ?_⟩
    · rw [FunctionDecl.height_eq]
      exact fits.low
    · rw [FunctionDecl.isQuiet_eq]
      exact fits.quiet
  · intro ref object found
    obtain ⟨_, stands⟩ := (written found).stands
    exact (stands.fits options inits).classDecl.members.1
  · intro ref object name method found listed
    obtain ⟨_, declared | ⟨_, _, _, _, _, stands⟩⟩ := (written found).methods name method listed
    · obtain ⟨_, stands⟩ := (written found).stands
      exact (stands.fits options inits).classDecl.members.2 _ declared.1
    · exact (stands.fits options inits).extension

/-- Any number of runs of a program on the same globals, and one more. In whatever it evaluates
calls nest no deeper than the options allow, and all other active code is as many initialisers of
fields as were noted to nest. If nothing may nest deeper than the height of the program for each
call that is allowed and each of some number of initialisers, the run reaches this bound only after
more initialisers have nested. They do not nest at all if the initial values of fields call
nothing. -/
theorem nesting_bounded {program : Program} {resolutions : Resolutions} {globals : ScopeRef}
    {first store : Store} (fresh : first.Fresh globals)
    (successive : Successive program resolutions globals first store) (setting : Setting)
    (inits depth : Nat) (enough : (Statement.heightOf program + 1) *
      (setting.options.maxCallDepth + inits + 1) ≤ depth) :
    let result := Run.interpretBy (Run.routines setting depth).execute program
      (.start store globals)
    let later := Run.machineAfter result
    (∀ evaluation ∈ later.evaluations,
      evaluation.callDepth ≤ setting.options.maxCallDepth ∧
        evaluation.owners.length ≤ evaluation.callDepth + later.initDepth) ∧
    (result = .error .exhausted later → inits < later.initDepth) ∧
    (Statement.areQuiet program = true → later.initDepth ≤ 1) := by
  intro result later
  let bounds := Bounds.of program setting.options inits
  have sound := (Course.ready_of_successive fresh successive).sound
  have nested : (Machine.start store globals).Nested bounds :=
    ⟨sound.holds _ _, Nat.zero_le _, Nat.le_refl _, Nat.le_refl _, fun _ => Nat.zero_le _⟩
  have allowed (statement : Statement) (member : statement ∈ program) :
      (Run.nestingRegime bounds).allows depth (.statement statement) (.start store globals) := by
    have low := Statement.height_lt_heightOf member
    refine ⟨nested, ⟨Nat.lt_succ_of_lt low, fun known => Statement.isQuiet_of_mem known member⟩,
      .inr ?_, fun _ _ => rfl⟩
    have room : statement.height + (Statement.heightOf program + 1) *
        (setting.options.maxCallDepth + inits) < depth := by
      rw [Nat.mul_succ] at enough
      omega
    exact room
  have lawful : (Run.nestingRegime bounds).Lawful setting := Run.lawful_nesting rfl
  have ended : Run.Ends (nesting bounds) (.start store globals) (fun _ _ => True) result :=
    lawful.interpretBy depth program (.start store globals) allowed
  have deepens : (Machine.start store globals).Deepens bounds later := ended.deepens
  refine ⟨fun evaluation member => ?_, fun out => ?_, fun quiet => ?_⟩
  · exact (deepens.evaluations evaluation member).resolve_left List.not_mem_nil
  · rw [out] at ended
    exact ended.2 rfl
  · exact deepens.quiet quiet (Nat.zero_le _)

/-- A function that calls itself for ever. -/
def recursiveSample : Program :=
  [.function ⟨"f", .function, [], [.returning (some (.call (.var 1 "f" .start) [] .start)) .start],
      false, .start⟩,
    .expression (.call (.var 0 "f" .start) [] .start) .start]

/-- The recursion that never ends is not stopped by the bound on the depth of a run, and at most one
initialiser nests in it. -/
theorem nesting_bounded_recursiveSample :
    let result := Run.interpretBy (Run.routines (.bare .empty) 6012).execute recursiveSample
      (.start .bare ⟨0⟩)
    result ≠ .error .exhausted (Run.machineAfter result) ∧
      (Run.machineAfter result).initDepth ≤ 1 := by
  intro result
  obtain ⟨_, deeper, single⟩ := nesting_bounded Store.fresh_bare
    (.start : Successive recursiveSample .empty ⟨0⟩ .bare .bare) (.bare .empty) 1 6012 (by decide)
  have flat := single (by decide)
  exact ⟨fun out => absurd flat (Nat.not_le_of_lt (deeper out)), flat⟩

end Scriptlet
