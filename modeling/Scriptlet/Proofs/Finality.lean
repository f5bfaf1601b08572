import Scriptlet.Proofs.Resolution.Mention
import Scriptlet.Proofs.Run.History
import Scriptlet.Proofs.Run.Target

/-!
# Assignments to final names

An assignment is refused if a declaration that came before it in the text makes its name
final, and inside of a function also if a global of that name will be final. A run can still
reach a final binding in three ways (`LexicalScope.FixesUnseen`): the final declaration is the
branch of a condition or the body of a loop; a local scope declares the name anew, for good,
after the function or class whose code assigns to it; or code that is in no function assigns to
a global in its own initial value, or after a branch or a loop body that may declare it, and an
earlier run has left it final. There are no others (`finalReassignment_cases`).
-/

namespace Scriptlet

namespace Analysis

variable {name : String} {start level : Nat} {scopes : List StaticScope} {globals : StaticScope}

private theorem undeclared_of_lookupFrom (missing : lookupFrom name start scopes = none) :
    ∀ static ∈ scopes, static.names.find? name = none := by
  induction scopes generalizing start with
  | nil => nofun
  | cons scope outer ih =>
      unfold lookupFrom at missing
      cases here : scope.names.find? name with
      | some declared => simp [here] at missing
      | none =>
          rw [here] at missing
          exact List.forall_mem_cons.mpr ⟨here, ih missing⟩

/-- A name without a distance is found in the globals, if at all. -/
theorem find?_of_lookupFrom (last : scopes.getLast? = some globals)
    (outside : ((lookupFrom name start scopes).bind (·.1)) = none) :
    globals.names.find? name = (lookupFrom name start scopes).map (·.2) := by
  induction scopes generalizing start with
  | nil => cases last
  | cons scope outer ih =>
      unfold lookupFrom at outside ⊢
      cases here : scope.names.find? name with
      | some declared =>
          cases outer with
          | nil =>
              cases last
              simpa using here
          | cons around rest => simp [here] at outside
      | none =>
          rw [here] at outside
          cases outer with
          | nil =>
              cases last
              simpa [lookupFrom] using here
          | cons around rest => exact ih (by simpa using last) outside

/-- A global that is declared nowhere yet, but will be by the same function, is used early. -/
theorem usedEarlyIn_of_upcoming (last : scopes.getLast? = some globals)
    (undeclared : ∀ static ∈ scopes, static.names.find? name = none)
    (same : globals.level = level) (coming : (globals.upcoming.find? name).isSome) :
    usedEarlyIn name level scopes = true := by
  induction scopes with
  | nil => cases last
  | cons scope outer ih =>
      obtain ⟨here, around⟩ := List.forall_mem_cons.mp undeclared
      unfold usedEarlyIn
      simp only [Table.contains, here]
      cases outer with
      | nil =>
          obtain rfl : scope = globals := by simpa using last
          simp [same, coming]
      | cons next rest =>
          have outward := ih (by simpa using last) around
          simp [outward]

end Analysis

/-- A scope may bind a name for good although an assignment to it has passed the analysis. The
second way is open to local names only, in code that runs later than the code around it, and
the last to globals only, in code that does not. -/
def LexicalScope.FixesUnseen (program : Program) (scope : LexicalScope) (name : String)
    (distance? : Option Nat) : Prop :=
  (name, true) ∈ scope.tag.binds program ∧
    (scope.tag.LooselyBinds program (name, true) ∨
      distance?.isSome ∧ scope.deferred = true ∧ scope.DeclaresLater program name ∨
      scope.tag = .globals ∧ scope.deferred = false ∧
        (scope.pending = some name ∨ scope.tag.Loose program name))

variable {program : Program} {analysis : Analysis} {done : Unit} {setting : Setting}
  {globals : ScopeRef} {first store : Store} {scopes : List LexicalScope} {scope : LexicalScope}
  {name : String}

private theorem fixesUnseen_of_local {reached : Analysis} {distance : Nat} {declared : Declared}
    {static : StaticScope} (found : reached.lookup name = some (some distance, declared))
    (unfixed : Resolve.finalTarget? reached name = none)
    (declares : static.names.find? name = some declared)
    (reflects : scope.Reflects program reached.functionDepth static)
    (around : scope.deferred = true → scope.Surrounds program)
    (final : (name, true) ∈ scope.tag.binds program)
    (known : scope.deferred = false → name ∈ scope.finals) :
    scope.FixesUnseen program name (some distance) := by
  refine ⟨final, ?_⟩
  have changeable : declared.isFinal = false := by
    by_contra fixed
    simp [Resolve.finalTarget?, found, fixed] at unfixed
  have flagged : static.flags name = some (declared.defined, false) := by
    rw [StaticScope.flags, declares, ← changeable]
    rfl
  have unfixed : ¬ static.Fixes name := by
    rintro ⟨defined, fixed⟩
    rw [flagged] at fixed
    cases fixed
  cases late : scope.deferred with
  | true =>
      -- A declaration that has been made would be known to be final.
      have undeclared : (name, true) ∉ scope.declared := fun made =>
        unfixed (reflects.fixed name made)
      exact ((around late).declaresLater final undeclared).imp id fun later =>
        .inl ⟨rfl, rfl, later⟩
  | false =>
      rcases reflects.finals late name (known late) with loose | fixed | ⟨outermost, _, fresh⟩
      · exact .inl loose
      · exact absurd fixed unfixed
      · refine .inr (.inr ⟨outermost, rfl, fresh.resolve_left fun unknown => ?_⟩)
        rw [flagged] at unknown
        cases unknown

/-- An assignment to a global passes if the global is not final and will not be. -/
theorem Resolve.finalTarget?_global {reached : Analysis}
    (outside : ((reached.lookup name).bind (·.1)) = none)
    (unfixed : Resolve.finalTarget? reached name = none) :
    (∀ entry, reached.lookup name = some entry → entry.2.isFinal = false) ∧
      reached.laterFinalGlobal? name = none := by
  unfold Resolve.finalTarget? at unfixed
  cases found : reached.lookup name with
  | none =>
      rw [found] at unfixed
      exact ⟨nofun, Option.map_eq_none_iff.mp unfixed⟩
  | some entry =>
      obtain ⟨distance, declared⟩ := entry
      rw [found] at unfixed outside
      obtain rfl : distance = none := outside
      cases changeable : declared.isFinal with
      | true => simp [changeable] at unfixed
      | false =>
          simp only [changeable, Bool.false_eq_true, ↓reduceIte] at unfixed
          refine ⟨fun entry same => ?_, Option.map_eq_none_iff.mp unfixed⟩
          cases same
          exact changeable

private theorem fixesUnseen_of_global {reached : Analysis} {static : StaticScope}
    (last : reached.scopes.getLast? = some static)
    (outside : ((reached.lookup name).bind (·.1)) = none)
    (timely : Analysis.usedEarlyIn name reached.functionDepth reached.scopes = false)
    (unfixed : Resolve.finalTarget? reached name = none)
    (reflects : scope.Reflects program reached.functionDepth static)
    (deep : scope.deferred = true → 0 < reached.functionDepth)
    (outermost : scope.tag = .globals) (final : (name, true) ∈ scope.tag.binds program)
    (known : scope.deferred = false → name ∈ scope.finals) :
    scope.FixesUnseen program name none := by
  refine ⟨final, ?_⟩
  have found : static.names.find? name = (reached.lookup name).map (·.2) :=
    Analysis.find?_of_lookupFrom last outside
  have upcoming := reflects.upcoming outermost
  obtain ⟨changeable, later⟩ := Resolve.finalTarget?_global outside unfixed
  cases late : scope.deferred with
  | true =>
      -- Inside of a function the globals to come are taken into account.
      rw [outermost] at final
      rcases loose_or_hoistsFinal final with loose | ⟨hoisted, coming, fixed⟩
      · exact .inl (outermost ▸ loose)
      · rw [Analysis.laterFinalGlobal?, if_neg (Nat.ne_of_gt (deep late)), last] at later
        dsimp only at later
        rw [upcoming, show (hoistedOf program).find? name = some hoisted from coming] at later
        simp [fixed] at later
  | false =>
      rcases reflects.finals late name (known late) with loose | ⟨defined, fixed⟩ |
        ⟨_, ⟨hoisted, coming, _⟩, unknown | remains⟩
      · exact .inl loose
      · obtain ⟨declared, declares, same⟩ := Option.map_eq_some_iff.mp fixed
        rw [found] at declares
        obtain ⟨entry, looked, rfl⟩ := Option.map_eq_some_iff.mp declares
        cases (changeable entry looked).symm.trans (congrArg Prod.snd same)
      · -- A global that is declared nowhere yet cannot be assigned to before it is.
        have missing : reached.lookup name = none := by
          have undeclared := Option.map_eq_none_iff.mp unknown
          rw [found] at undeclared
          exact Option.map_eq_none_iff.mp undeclared
        have early := Analysis.usedEarlyIn_of_upcoming last
          (Analysis.undeclared_of_lookupFrom missing) (reflects.level late)
          (by rw [upcoming, coming]; rfl)
        cases early.symm.trans timely
      · exact .inr (.inr ⟨outermost, rfl, remains⟩)

/-- The assignment of an accepted program that reaches a final binding. -/
theorem fixesUnseen_of_assign (accepted : Resolve.program program .start = .ok done analysis)
    (numbered : program.Numbered) {use : Use} {value : Expr} {location : Location}
    (stands : Stands program scopes (.expression (.assign use.id use.name value location))) :
    ∃ scope, use.target? analysis.resolutions scopes = some scope ∧
      ((use.name, true) ∈ scope.tag.binds program →
        (scope.deferred = false → use.name ∈ scope.finals) →
        (analysis.resolutions.distance? use.id = none → scope.tag = .globals) →
        scope.FixesUnseen program use.name (analysis.resolutions.distance? use.id)) := by
  obtain ⟨before, after, visited⟩ := visited_of_stands accepted stands
  obtain ⟨reached, nodes, later, visit, timely, unfixed⟩ := visit_of_assign visited
  have reflected := visited.reflected.quiet later
  have recorded := (Analysis.recorded_of_accepted accepted numbered).1
  unfold Use.target?
  cases distance : analysis.resolutions.distance? use.id with
  | some distance =>
      obtain ⟨_, static, declared, listed, declares, found, _⟩ :=
        Analysis.declared_of_recorded recorded visit distance
      obtain ⟨scope, inText, reflects⟩ := getElem?_of_forall₂ reflected listed
      have around := stands.surrounds_of_deferred (List.mem_of_getElem? inText)
      exact ⟨scope, inText, fun final known _ =>
        fixesUnseen_of_local found unfixed declares reflects around final known⟩
  | none =>
      have outside : ((reached.lookup use.name).bind (·.1)) = none :=
        (recorded.visited _ visit).symm.trans distance
      have filled : reached.scopes ≠ [] := by
        intro empty
        rw [empty] at reflected
        exact stands.ne_nil (List.forall₂_nil_right_iff.mp reflected)
      obtain ⟨static, last⟩ := Option.isSome_iff_exists.mp (List.getLast?_isSome.mpr filled)
      have listed := last
      rw [List.getLast?_eq_getElem?, ← reflected.length_eq] at listed
      obtain ⟨scope, inText, reflects⟩ := getElem?_of_forall₂ reflected listed
      rw [← List.getLast?_eq_getElem?] at inText
      have deep : scope.deferred = true → 0 < reached.functionDepth := by
        rw [later.functionDepth]
        exact visited.deep scope (List.mem_of_getLast? inText)
      exact ⟨scope, inText, fun final known outermost =>
        fixesUnseen_of_global last outside timely unfixed reflects deep (outermost rfl) final known⟩

/-- A run of an accepted program that assigns to a final name does so in one of three ways, if
no name was final before the first run. -/
theorem finalReassignment_cases (accepted : Resolve.program program .start = .ok done analysis)
    (numbered : program.Numbered) (fresh : first.Fresh globals)
    (changeable : ∀ name, ¬ first.Fixes name)
    (successive : Successive program analysis.resolutions globals first store)
    (resolved : setting.resolutions = analysis.resolutions) (outermost : setting.globals = globals)
    {location : Location} {machine : Machine}
    (stopped : Run.interpret setting program (.start store globals) =
      .error (.fault ⟨.finalReassignment name, location⟩) machine) :
    ∃ use earlier scopes value location scope, machine.uses = use :: earlier ∧ use.name = name ∧
      Stands program scopes (.expression (.assign use.id name value location)) ∧
      use.target? setting.resolutions scopes = some scope ∧
      scope.FixesUnseen program name (setting.resolutions.distance? use.id) := by
  have blamed := Course.blames_of_successive fresh successive stopped
  obtain ⟨use, earlier, scopes, value, place, last, rfl, stands, fits, refused⟩ :=
    blamed.finalReassignment
  have sound := Course.sound_of_successive fresh successive setting
  have ready := (Course.ready_of_successive fresh successive).run setting
  change Course.Ready _ (Run.machineAfter (Run.interpret setting program
    (.start store globals))).store at ready
  rw [stopped] at sound ready
  obtain ⟨scope, leads, unseen⟩ := fixesUnseen_of_assign accepted numbered stands
  rw [← resolved] at leads unseen
  obtain ⟨ref, actual, held, describes, _, marked⟩ := fits.target outermost leads
  have final : actual.mark use.name = some true := marked .final refused
  refine ⟨use, earlier, scopes, value, place, scope, last, rfl, stands, leads,
    unseen ?_ (fun current => ?_) fun unrecorded => ?_⟩
  · rw [← describes.tag]
    exact (sound.store.finals ref actual use.name held final).resolve_right (changeable _)
  · exact (describes.finals current use.name final).resolve_right (changeable _)
  · obtain ⟨global, found, _, tag⟩ := ready.root
    obtain ⟨outer, other, listed, again, _, describesOther⟩ := fits.last
    cases found.symm.trans again
    rw [Use.target?, unrecorded] at leads
    cases leads.symm.trans listed
    exact describesOther.tag.symm.trans tag

/-- `{ var x = true; fun f() { x = false; } final var x = nil; f(); }` -/
def redeclarationSample : Program :=
  [.block [
    .varDecl "x" (some (.literal (.bool true) ⟨1, 11⟩)) false ⟨1, 3⟩,
    .function ⟨"f", .function, [], [.expression
      (.assign 0 "x" (.literal (.bool false) ⟨1, 31⟩) ⟨1, 27⟩) ⟨1, 27⟩], false, ⟨1, 17⟩⟩,
    .varDecl "x" (some (.literal .nil ⟨1, 55⟩)) true ⟨1, 45⟩,
    .expression (.call (.var 1 "f" ⟨1, 60⟩) [] ⟨1, 61⟩) ⟨1, 60⟩] ⟨1, 1⟩]

/-- The block declares `x` anew, for good, after the function that assigns to it. -/
theorem finalReassignment_cases_redeclarationSample :
    ∃ analysis machine, Resolve.program redeclarationSample .start = .ok () analysis ∧
      Run.interpret (.bare analysis.resolutions) redeclarationSample (.start .bare ⟨0⟩) =
        .error (.fault ⟨.finalReassignment "x", ⟨1, 27⟩⟩) machine ∧
      ∃ use earlier scopes value location scope, machine.uses = use :: earlier ∧
        use.name = "x" ∧
        Stands redeclarationSample scopes (.expression (.assign use.id "x" value location)) ∧
        use.target? analysis.resolutions scopes = some scope ∧
        scope.FixesUnseen redeclarationSample "x" (analysis.resolutions.distance? use.id) := by
  have stopped : ∃ analysis machine,
      Resolve.program redeclarationSample .start = .ok () analysis ∧
      Run.interpret (.bare analysis.resolutions) redeclarationSample (.start .bare ⟨0⟩) =
        .error (.fault ⟨.finalReassignment "x", ⟨1, 27⟩⟩) machine :=
    ⟨_, _, rfl, Run.eq_error_of_fault? (by decide +kernel)⟩
  obtain ⟨analysis, machine, accepted, stopped⟩ := stopped
  exact ⟨analysis, machine, accepted, stopped, finalReassignment_cases accepted (by decide)
    Store.fresh_bare Store.not_fixes_bare .start rfl rfl stopped⟩

/-- `fun f() { x = true; } if (true) final var x = nil; f();` -/
def chosenSample : Program :=
  [.function ⟨"f", .function, [], [.expression
      (.assign 0 "x" (.literal (.bool true) ⟨1, 15⟩) ⟨1, 11⟩) ⟨1, 11⟩], false, ⟨1, 1⟩⟩,
    .ifElse (.literal (.bool true) ⟨1, 27⟩)
      (.varDecl "x" (some (.literal .nil ⟨1, 47⟩)) true ⟨1, 33⟩) none ⟨1, 23⟩,
    .expression (.call (.var 1 "f" ⟨1, 52⟩) [] ⟨1, 53⟩) ⟨1, 52⟩]

example : ∃ analysis, Resolve.program chosenSample .start = .ok () analysis ∧
    Run.fault? (Run.interpret (.bare analysis.resolutions) chosenSample (.start .bare ⟨0⟩)) =
      some ⟨.finalReassignment "x", ⟨1, 11⟩⟩ :=
  ⟨_, rfl, by decide +kernel⟩

/-- `var x = (x = true); final var x = nil;` -/
def repeatedSample : Program :=
  [.varDecl "x" (some (.grouping (.assign 0 "x" (.literal (.bool true) ⟨1, 14⟩) ⟨1, 10⟩) ⟨1, 9⟩))
      false ⟨1, 1⟩,
    .varDecl "x" (some (.literal .nil ⟨1, 35⟩)) true ⟨1, 21⟩]

-- The host binds `x`; the first run passes, the second does not.
example : ∃ analysis, Resolve.program repeatedSample .start = .ok () analysis ∧
    Run.fault? (Run.interpret (.bare analysis.resolutions) repeatedSample
      (.start (Store.bare.define ⟨0⟩ "x" .nil false) ⟨0⟩)) = none ∧
    Run.fault? (Run.interpret (.bare analysis.resolutions) repeatedSample (.start
      (Run.machineAfter (Run.interpret (.bare analysis.resolutions) repeatedSample
        (.start (Store.bare.define ⟨0⟩ "x" .nil false) ⟨0⟩))).store ⟨0⟩)) =
      some ⟨.finalReassignment "x", ⟨1, 10⟩⟩ :=
  ⟨_, rfl, by decide +kernel, by decide +kernel⟩

end Scriptlet
