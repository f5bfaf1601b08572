import Scriptlet.Proofs.Resolution.Mention
import Scriptlet.Proofs.Run.History
import Scriptlet.Proofs.Run.Target

/-!
# Locals that are not bound

A local name is looked up in the scope that declares it, and its declaration comes first in the
text. Still the scope need not bind the name yet (`LexicalScope.Misses`): a declaration that is the
branch of a condition or the body of a loop may not have run, and an initial value may assign to the
variable it is for, or call it as an operator. Nothing else can leave a local name unbound
(`undefinedVariable_cases`).
-/

namespace Scriptlet

/-- Whether code is a name that is read. -/
def Code.Reads (code : Code) (name : String) : Prop :=
  ∃ id location, code = .expression (.var id name location)

/-- A scope does not bind a name that it declares: the declaration is the branch of a
condition or the body of a loop, or the code that uses the name, other than to read it, is
part of the initial value. -/
def LexicalScope.Misses (program : Program) (scope : LexicalScope) (name : String) (code : Code) :
    Prop :=
  name ∉ scope.bound ∧
    (scope.tag.Loose program name ∨ scope.pending = some name ∧ ¬ code.Reads name)

variable {program : Program} {analysis : Analysis} {done : Unit} {setting : Setting}
  {globals : ScopeRef} {first store : Store}

/-- A scope that a recorded distance leads to declares the name. If the name is not bound
there, the declaration was not reached. -/
theorem misses_of_recorded (accepted : Resolve.program program .start = .ok done analysis)
    (numbered : program.Numbered) {scopes : List LexicalScope} {code : Code} {use : Use}
    (stands : Stands program scopes code) (mentioned : (use.id, use.name) ∈ code.mentions)
    {distance : Nat} (recorded : analysis.resolutions.distance? use.id = some distance)
    (unbound : ∀ scope, scopes[distance]? = some scope → use.name ∉ scope.bound) :
    ∃ scope, scopes[distance]? = some scope ∧ scope.Misses program use.name code := by
  obtain ⟨statics, visited, shown, read⟩ := visit_of_mention accepted stands mentioned
  obtain ⟨inside, static, declared, listed, declares, _⟩ := Analysis.declared_of_recorded
    (Analysis.recorded_of_accepted accepted numbered).1 visited recorded
  obtain ⟨scope, inText, shows⟩ := getElem?_of_forall₂ shown listed
  refine ⟨scope, inText, unbound scope inText, ?_⟩
  have flagged : static.flags use.name = some (declared.defined, declared.isFinal) := by
    rw [StaticScope.flags, declares]
    rfl
  cases defined : declared.defined with
  | true =>
      rw [defined] at flagged
      exact .inl ((shows.defined _ flagged).resolve_left (unbound scope inText))
  | false =>
      rw [defined] at flagged
      have pending := shows.undefined _ flagged
      refine .inr ⟨pending, ?_⟩
      rintro ⟨id, location, rfl⟩
      cases List.mem_singleton.mp mentioned
      -- Only the innermost scope can wait for an initial value.
      cases distance with
      | succ distance =>
          have outside : scope ∈ scopes.tail := by
            rw [List.getElem?_tail.symm] at inText
            exact List.mem_of_getElem? inText
          cases (stands.settled.1 scope outside).symm.trans pending
      | zero =>
          cases statics with
          | nil => cases listed
          | cons inner outer =>
              obtain rfl : inner = static := Option.some.inj listed
              cases outer with
              | nil => exact absurd inside (Nat.lt_irrefl 1)
              | cons around rest => exact read location rfl inner around rest rfl _ flagged

/-- A name that an accepted program uses and that turns out to be undefined is no local name,
or a local name in a scope that misses it. A reference to the superclass can be found wanting
for another reason. -/
theorem undefinedVariable_cases (accepted : Resolve.program program .start = .ok done analysis)
    (numbered : program.Numbered) (fresh : first.Fresh globals)
    (successive : Successive program analysis.resolutions globals first store)
    (resolved : setting.resolutions = analysis.resolutions) (outermost : setting.globals = globals)
    {name : String} {location : Location} {machine : Machine}
    (stopped : Run.interpret setting program (.start store globals) =
      .error (.fault ⟨.undefinedVariable name, location⟩) machine) :
    ∃ use earlier scopes code, machine.uses = use :: earlier ∧ Stands program scopes code ∧
      (use.id, use.name) ∈ code.mentions ∧
      ((∃ method location, code = .expression (.superRef use.id method location)) ∨
        use.name = name ∧ ∀ distance, setting.resolutions.distance? use.id = some distance →
          ∃ scope, scopes[distance]? = some scope ∧ scope.Misses program name code) := by
  have blamed := Course.blames_of_successive fresh successive stopped
  obtain ⟨use, earlier, scopes, code, last, stands, mentioned, due⟩ := blamed.undefinedVariable
  refine ⟨use, earlier, scopes, code, last, stands, mentioned, due.imp id ?_⟩
  rintro ⟨rfl, fits, failed⟩
  refine ⟨rfl, fun distance recorded => ?_⟩
  have target (scope : LexicalScope) (listed : scopes[distance]? = some scope) :
      use.target? setting.resolutions scopes = some scope := by
    rw [Use.target?, recorded]
    exact listed
  refine misses_of_recorded accepted numbered stands mentioned (resolved ▸ recorded) ?_
  intro scope listed bound
  obtain ⟨ref, actual, held, describes, unread, refused⟩ :=
    fits.target outermost (target scope listed)
  have marked := describes.bound use.name bound
  have unmarked : actual.mark use.name = none := failed.elim unread (refused .undefined)
  rw [unmarked] at marked
  cases marked

/-- `{ var x = (x = true); }` -/
def initializerSample : Program :=
  [.block [.varDecl "x" (some (.grouping (.assign 0 "x" (.literal (.bool true) ⟨1, 16⟩) ⟨1, 12⟩)
    ⟨1, 11⟩)) false ⟨1, 3⟩] ⟨1, 1⟩]

/-- The initial value of `x` assigns to `x`, whose distance is recorded. -/
theorem undefinedVariable_cases_initializerSample :
    ∃ analysis machine, Resolve.program initializerSample .start = .ok () analysis ∧
      Run.interpret (.bare analysis.resolutions) initializerSample (.start .bare ⟨0⟩) =
        .error (.fault ⟨.undefinedVariable "x", ⟨1, 12⟩⟩) machine ∧
      analysis.resolutions.distance? 0 = some 0 ∧
      ∃ use earlier scopes code, machine.uses = use :: earlier ∧
        Stands initializerSample scopes code ∧ (use.id, use.name) ∈ code.mentions ∧
        ((∃ method location, code = .expression (.superRef use.id method location)) ∨
          use.name = "x" ∧ ∀ distance, analysis.resolutions.distance? use.id = some distance →
            ∃ scope, scopes[distance]? = some scope ∧
              scope.Misses initializerSample "x" code) := by
  have stopped : ∃ analysis machine, Resolve.program initializerSample .start = .ok () analysis ∧
      Run.interpret (.bare analysis.resolutions) initializerSample (.start .bare ⟨0⟩) =
        .error (.fault ⟨.undefinedVariable "x", ⟨1, 12⟩⟩) machine ∧
      analysis.resolutions.distance? 0 = some 0 :=
    ⟨_, _, rfl, Run.eq_error_of_fault? (by decide +kernel), by decide +kernel⟩
  obtain ⟨analysis, machine, accepted, stopped, recorded⟩ := stopped
  exact ⟨analysis, machine, accepted, stopped, recorded,
    undefinedVariable_cases accepted (by decide) Store.fresh_bare .start rfl rfl stopped⟩

/-- `{ if (false) var x = true; x; }` -/
def skippedSample : Program :=
  [.block [
    .ifElse (.literal (.bool false) ⟨1, 7⟩)
      (.varDecl "x" (some (.literal (.bool true) ⟨1, 22⟩)) false ⟨1, 14⟩) none ⟨1, 3⟩,
    .expression (.var 0 "x" ⟨1, 28⟩) ⟨1, 28⟩] ⟨1, 1⟩]

example : ∃ analysis, Resolve.program skippedSample .start = .ok () analysis ∧
    analysis.resolutions.distance? 0 = some 0 ∧
    Run.fault? (Run.interpret (.bare analysis.resolutions) skippedSample (.start .bare ⟨0⟩)) =
      some ⟨.undefinedVariable "x", ⟨1, 28⟩⟩ :=
  ⟨_, rfl, by decide +kernel, by decide +kernel⟩

end Scriptlet
