import Scriptlet.Proofs.Resolution.Visiting
import Scriptlet.Proofs.Run.History

/-!
# Jumps lead somewhere

The analysis lets a break or continue stand in a loop only and a return in a function or test only,
where bodies hide the loops around them (`Analysis.Allows`). A run ends with the jumps written in
its code, so a jump never leaves the body it stands in, and none leaves the program
(`jumps_contained`).
-/

namespace Scriptlet

/-- Whether the analysis lets a jump stand here. -/
def Analysis.Allows (analysis : Analysis) : Jump → Prop
  | .breaking | .continuing => analysis.loopDepth ≠ 0
  | .returning => analysis.body ≠ .none

namespace Analysis.Allows

variable {analysis other : Analysis} {jump : Jump}

private theorem congr (allows : other.Allows jump)
    (loopDepth : other.loopDepth = analysis.loopDepth)
    (body : other.body = analysis.body) : analysis.Allows jump := by
  cases jump with
  | breaking | continuing =>
      rw [Analysis.Allows, ← loopDepth]
      exact allows
  | returning =>
      rw [Analysis.Allows, ← body]
      exact allows

private theorem earlier {nodes : List NodeId} {changes : List (String × Bool)}
    {before after : Analysis}
    (allows : after.Allows jump) (later : before.Later nodes changes after) :
    before.Allows jump :=
  allows.congr later.loopDepth later.body

end Analysis.Allows

namespace Resolve

variable {before after : Analysis} {jump : Jump} {done : Unit} {location : Location}

private theorem allows_of_checkInLoop
    (checked : checkInLoop jump location before = .ok done after) :
    before.loopDepth ≠ 0 := by
  intro outside
  change (if before.loopDepth = 0 then fail (.illegalControlFlow jump) location
    else pure () : Resolve Unit) before = _ at checked
  rw [if_pos outside] at checked
  cases checked

private theorem allows_of_checkReturn {hasValue : Bool}
    (checked : checkReturn hasValue location before = .ok done after) : before.body ≠ .none := by
  intro outside
  unfold checkReturn at checked
  obtain ⟨_, _, same, returned⟩ := bind_eq_ok.mp checked
  cases same
  rw [outside] at returned
  cases returned

/-- If the step passes, these jumps are allowed where it begins. -/
def Permits (jumps : List Jump) (step : Resolve Unit) : Prop :=
  ∀ before done after, step before = .ok done after → ∀ jump ∈ jumps, before.Allows jump

mutual

/-- A jump out of a statement that passes the analysis is allowed where the statement stands. -/
theorem permits_statement : (statement : Statement) →
    Permits statement.jumps (Resolve.statement statement)
  | .block body location => by
    intro before done after passed jump member
    obtain ⟨inside, analysed, rfl⟩ := inScope_hoist_eq_ok.mp passed
    rw [Statement.jumps] at member
    exact (permits_statements body _ _ _ analysed jump member).congr rfl rfl
  | .ifElse condition thenBranch none _ => by
    intro before done after passed jump member
    obtain ⟨_, middle, tested, analysed⟩ := bind_eq_ok.mp passed
    rw [Statement.jumps] at member
    exact (permits_statement thenBranch _ _ _ analysed jump member).earlier
      (Steps.expression condition _ _ _ tested)
  | .ifElse condition thenBranch (some elseBranch) _ => by
    intro before done after passed jump member
    obtain ⟨_, middle, tested, branches⟩ := bind_eq_ok.mp passed
    obtain ⟨_, last, first, second⟩ := bind_eq_ok.mp branches
    have earlier := Steps.expression condition _ _ _ tested
    rw [Statement.jumps] at member
    rcases List.mem_append.mp member with inThen | inElse
    · exact (permits_statement thenBranch _ _ _ first jump inThen).earlier earlier
    · have between := Steps.statement thenBranch _ _ _ first
      exact ((permits_statement elseBranch _ _ _ second jump inElse).earlier between).earlier
        earlier
  | .whileLoop condition body _ | .doWhile body condition _ | .repeatLoop condition body _ => by
    intro before done after passed jump member
    obtain ⟨_, middle, tested, looped⟩ := bind_eq_ok.mp passed
    obtain ⟨inside, analysed, rfl⟩ := inLoop_eq_ok.mp looped
    rw [Statement.jumps] at member
    obtain ⟨inBody, returns⟩ := List.mem_filter.mp member
    obtain rfl : jump = .returning := of_decide_eq_true returns
    have returning : middle.Allows .returning := permits_statement body _ _ _ analysed _ inBody
    exact returning.earlier (Steps.expression condition _ _ _ tested)
  | .returning value location => by
    intro before done after passed jump member
    obtain ⟨_, middle, checked, _⟩ := bind_eq_ok.mp passed
    rw [Statement.jumps] at member
    cases List.mem_singleton.mp member
    exact allows_of_checkReturn checked
  | .breaking location | .continuing location => by
    intro before done after passed jump member
    rw [Statement.jumps] at member
    cases List.mem_singleton.mp member
    exact allows_of_checkInLoop passed
  | .expression _ _ | .varDecl _ _ _ _ | .function _ | .classDecl _ | .print _ _ | .test _ _ _
  | .moduleDecl _ _ | .nativeFunction _ _ _ _ | .extension _ _ _ _ => by
    intro before done after passed jump member
    simp [Statement.jumps] at member

private theorem permits_statements : (statements : List Statement) →
    Permits (jumpsAll statements) (Resolve.statements statements)
  | [] => by
    intro before done after passed jump member
    cases member
  | first :: rest => by
    intro before done after passed jump member
    obtain ⟨_, middle, analysed, remaining⟩ := bind_eq_ok.mp passed
    rw [jumpsAll] at member
    rcases List.mem_append.mp member with here | later
    · exact permits_statement first _ _ _ analysed jump here
    · exact (permits_statements rest _ _ _ remaining jump later).earlier
        (Steps.statement first _ _ _ analysed)

end

end Resolve

variable {program : Program} {analysis : Analysis} {done : Unit} {setting : Setting}
  {globals : ScopeRef} {first store : Store}

private theorem jumps_of_accepted (accepted : Resolve.program program .start = .ok done analysis) :
    jumpsAll program = [] := by
  obtain ⟨_, start, hoisted, analysed⟩ := bind_eq_ok.mp accepted
  cases hoisted
  refine List.eq_nil_iff_forall_not_mem.mpr fun jump member => ?_
  have allowed := Resolve.permits_statements program _ _ _ analysed jump member
  cases jump <;> exact allowed rfl

private theorem jumps_of_body (accepted : Resolve.program program .start = .ok done analysis)
    {tag : ScopeTag} {outer : List LexicalScope} {inside : List Statement}
    (stands : Stands program (.opened tag :: outer) (.statements inside))
    (body : tag.isBody = true) : ∀ jump ∈ jumpsAll inside, jump = .returning := by
  intro jump member
  obtain ⟨before, after, visited⟩ := visited_of_stands accepted stands
  have allowed := Resolve.permits_statements inside _ _ _ visited.passed jump member
  have unlooped := visited.unlooped inside _ outer rfl rfl body
  cases jump with
  | returning => rfl
  | breaking | continuing => exact absurd unlooped allowed

/-- Jumps stay in the code they stand in, in every run of an accepted program: no run stops
because of a jump that leads nowhere, statements of the program end normally, and bodies of
functions and tests end normally or with a return. -/
theorem jumps_contained (accepted : Resolve.program program .start = .ok done analysis)
    (fresh : first.Fresh globals)
    (successive : Successive program analysis.resolutions globals first store) :
    (∀ fault machine, Run.interpret setting program (.start store globals) =
      .error (.fault fault) machine → ∀ jump, fault.cause ≠ .illegalControlFlow jump) ∧
    (∀ statement ∈ program, ∀ depth machine completion after,
      Run.execute setting depth statement machine = .ok completion after →
        completion = .normal) ∧
    ∀ tag outer inside, Stands program (.opened tag :: outer) (.statements inside) →
      tag.isBody = true → ∀ depth machine completion after,
        Run.executeAll setting depth inside machine = .ok completion after →
          completion = .normal ∨ ∃ value, completion = .returning value := by
  refine ⟨?_, ?_, ?_⟩
  · rintro ⟨_, location⟩ machine stopped jump rfl
    have blamed := Course.blames_of_successive fresh successive stopped
    rcases blamed.illegalControlFlow with ⟨tag, outer, inside, stands, body, leads, other⟩ | escapes
    · exact other (jumps_of_body accepted stands body jump leads)
    · change jump ∈ jumpsAll program at escapes
      rw [jumps_of_accepted accepted] at escapes
      cases escapes
  · intro statement member depth machine completion after ended
    have within := (Run.contained_routines setting depth).execute statement _ _ _ ended
    have none := jumps_subset_jumpsAll member
    rw [jumps_of_accepted accepted] at none
    cases completion with
    | normal => rfl
    | breaking | continuing | returning => cases none (within _ rfl)
  · intro tag outer inside stands body depth machine completion after ended
    have within := (Run.contained_routines setting depth).executeAll inside _ _ _ ended
    have returns := jumps_of_body accepted stands body
    cases completion with
    | normal => exact .inl rfl
    | returning value => exact .inr ⟨value, rfl⟩
    | breaking | continuing => cases returns _ (within _ rfl)

/-- `fun f() { while (true) { break; } return true; } f();` -/
def leavingSample : Program :=
  [.function ⟨"f", .function, [],
    [.whileLoop (.literal (.bool true) ⟨1, 18⟩) (.block [.breaking ⟨1, 26⟩] ⟨1, 24⟩) ⟨1, 11⟩,
      .returning (some (.literal (.bool true) ⟨1, 42⟩)) ⟨1, 35⟩], false, ⟨1, 1⟩⟩,
    .expression (.call (.var 0 "f" ⟨1, 50⟩) [] ⟨1, 51⟩) ⟨1, 50⟩]

/-- A function that breaks out of a loop and returns is accepted, and no run of it stops for a jump.
-/
theorem jumps_contained_leavingSample :
    ∃ analysis, Resolve.program leavingSample .start = .ok () analysis ∧
      ∀ fault machine, Run.interpret (.bare analysis.resolutions) leavingSample
        (.start .bare ⟨0⟩) = .error (.fault fault) machine →
        ∀ jump, fault.cause ≠ .illegalControlFlow jump :=
  ⟨_, rfl, (jumps_contained rfl Store.fresh_bare .start).1⟩

end Scriptlet
