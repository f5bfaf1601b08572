import Scriptlet.Proofs.Outcome
import Scriptlet.Run.Evaluate

/-!
# Jumps out of statements

A statement ends with a jump only if the jump is written in it (`Statement.jumps`), outside of the
functions and tests it holds, and a break or continue only outside of its loops
(`Run.Routines.Contained`).
-/

namespace Scriptlet

mutual

/-- The jumps that can lead out of a statement. -/
def Statement.jumps : Statement → List Jump
  | .block body _ => jumpsAll body
  | .ifElse _ thenBranch none _ => thenBranch.jumps
  | .ifElse _ thenBranch (some elseBranch) _ => thenBranch.jumps ++ elseBranch.jumps
  | .whileLoop _ body _ | .doWhile body _ _ | .repeatLoop _ body _ =>
    body.jumps.filter (· = .returning)
  | .returning _ _ => [.returning]
  | .breaking _ => [.breaking]
  | .continuing _ => [.continuing]
  | _ => []

/-- The jumps that can lead out of statements in order. -/
def jumpsAll : List Statement → List Jump
  | [] => []
  | first :: rest => first.jumps ++ jumpsAll rest

end

/-- A jump out of one of some statements is a jump out of them all. -/
theorem jumps_subset_jumpsAll {statement : Statement} {statements : List Statement}
    (member : statement ∈ statements) : statement.jumps ⊆ jumpsAll statements := by
  induction statements with
  | nil => cases member
  | cons first rest ih =>
      rw [jumpsAll]
      rcases List.mem_cons.mp member with rfl | later
      · exact List.subset_append_left _ _
      · exact List.subset_append_of_subset_right _ (ih later)

/-- A completion with no other jumps than these. -/
def Completion.Within (completion : Completion) (jumps : List Jump) : Prop :=
  ∀ jump, completion.jump? = some jump → jump ∈ jumps

namespace Run

/-- Every value a step can end with has a property. -/
def Yields {α : Type} (property : α → Prop) (step : Run α) : Prop :=
  ∀ machine value after, step machine = .ok value after → property value

namespace Yields

variable {α β : Type} {property : α → Prop} {target : β → Prop}

/-- A step that gives a value ends with this one only. -/
protected theorem pure {value : α} (holds : property value) :
    Yields property (pure value : Run α) := by
  intro machine result after ended
  cases ended
  exact holds

/-- A step that fails ends with no value. -/
protected theorem fail (fault : RuntimeFault) (location : Location) :
    Yields property (Run.fail fault location : Run α) :=
  fun _ _ _ ended => by cases ended

/-- A step that stops for its depth ends with no value. -/
protected theorem exhausted : Yields property (Run.exhausted : Run α) :=
  fun _ _ _ ended => by cases ended

/-- A step that never ends has no value to end with. -/
protected theorem endless : Yields property (Run.endless : Run α) :=
  fun _ _ _ ended => by cases ended

private theorem bind {step : Run α} {next : α → Run β} (first : Yields property step)
    (rest : ∀ value, property value → Yields target (next value)) :
    Yields target (step >>= next) := by
  intro machine result after ended
  obtain ⟨value, middle, firstEnded, restEnded⟩ := bind_eq_ok.mp ended
  exact rest value (first _ _ _ firstEnded) _ _ _ restEnded

/-- The last of two steps decides. -/
theorem last {step : Run α} {next : α → Run β} (rest : ∀ value, Yields target (next value)) :
    Yields target (step >>= next) := by
  have any : Yields (fun _ => True) step := fun _ _ _ _ => trivial
  exact bind any fun value _ => rest value

private theorem mono {larger : α → Prop} {step : Run α} (yields : Yields property step)
    (implies : ∀ value, property value → larger value) : Yields larger step :=
  fun machine value after ended => implies value (yields machine value after ended)

/-- A step ends in a scope of its own with the values it ends with anyway. -/
protected theorem within {step : Run α} (enclosing : ScopeRef) (tag : ScopeTag)
    (bindings : Table Binding) (inside : Yields property step) :
    Yields property (Run.within enclosing tag bindings step) := by
  refine last fun scope => ?_
  intro machine value after ended
  unfold Run.inScope at ended
  split at ended
  · rename_i reached
    cases ended
    exact inside _ _ _ reached
  · cases ended

/-- A loop ends with a completion that one of its rounds was done with. -/
protected theorem untilDone {step : Run (Option Completion)} {holds : Completion → Prop}
    (inside : Yields (fun done => ∀ completion, done = some completion → holds completion) step)
    (bound : Nat) : Yields holds (Run.untilDone step bound) := by
  induction bound with
  | zero => exact .endless
  | succ bound ih =>
      refine bind inside fun done ends => ?_
      cases done with
      | some completion => exact .pure (ends completion rfl)
      | none => exact ih

/-- A loop of so many rounds ends normally, or with a completion that one of its rounds was done
with. -/
protected theorem times {step : Run (Option Completion)} {holds : Completion → Prop}
    (inside : Yields (fun done => ∀ completion, done = some completion → holds completion) step)
    (normal : holds .normal) (count : Nat) : Yields holds (Run.times step count) := by
  induction count with
  | zero => exact .pure normal
  | succ count ih =>
      refine bind inside fun done ends => ?_
      cases done with
      | some completion => exact .pure (ends completion rfl)
      | none => exact ih

end Yields

private theorem within_normal (jumps : List Jump) : Completion.normal.Within jumps :=
  fun _ jumped => by cases jumped

/-- Out of a loop only a return leads. -/
theorem within_afterBody {completion ended : Completion} {jumps : List Jump}
    (inside : completion.Within jumps) (after : afterBody completion = some ended) :
    ended.Within (jumps.filter (· = .returning)) := by
  intro jump jumped
  cases completion with
  | normal => cases after
  | continuing => cases after
  | breaking =>
      cases after
      cases jumped
  | returning value =>
      cases after
      cases jumped
      exact List.mem_filter.mpr ⟨inside .returning rfl, by decide⟩

/-- Routines that end with jumps written in the code only. -/
structure Routines.Contained (inner : Routines) : Prop where
  execute : ∀ statement, Yields (·.Within statement.jumps) (inner.execute statement)
  executeAll : ∀ statements, Yields (·.Within (jumpsAll statements)) (inner.executeAll statements)

namespace Routines.Contained

variable {setting : Setting} {inner : Routines}

private theorem executeStep (contained : inner.Contained) (statement : Statement) :
    Yields (·.Within statement.jumps) (Run.executeStep setting inner statement) := by
  cases statement with
  | expression expr location => exact .last fun _ => .pure (within_normal _)
  | varDecl name initial isFinal location =>
      exact .last fun _ => .last fun _ => .pure (within_normal _)
  | block body location =>
      refine .last fun _ => .within _ _ _ ?_
      exact (contained.executeAll body).mono fun _ inside => by rwa [Statement.jumps]
  | ifElse condition thenBranch elseBranch location =>
      refine .last fun value => ?_
      split
      · refine (contained.execute thenBranch).mono fun completion inside jump jumped => ?_
        cases elseBranch with
        | none => simpa [Statement.jumps] using inside jump jumped
        | some elseBranch => simpa [Statement.jumps] using .inl (inside jump jumped)
      · split
        · rename_i elseBranch
          refine (contained.execute elseBranch).mono fun completion inside jump jumped => ?_
          simpa [Statement.jumps] using .inr (inside jump jumped)
        · exact .pure (within_normal _)
  | whileLoop condition body location =>
      refine .untilDone ?_ _
      refine .last fun value => ?_
      split
      · refine .bind (contained.execute body) fun completion inside => .pure ?_
        rw [Statement.jumps]
        exact fun _ after => within_afterBody inside after
      · refine .pure fun completion ended => ?_
        cases ended
        exact within_normal _
  | doWhile body condition location =>
      refine .untilDone ?_ _
      refine .bind (contained.execute body) fun completion inside => ?_
      split
      · rename_i ended after
        refine .pure fun completion same => ?_
        cases same
        rw [Statement.jumps]
        exact within_afterBody inside after
      · refine .last fun value => ?_
        split
        · exact .pure fun _ ended => by cases ended
        · refine .pure fun completion ended => ?_
          cases ended
          exact within_normal _
  | repeatLoop count body location =>
      refine .last fun _ => .last fun _ => .times ?_ (within_normal _) _
      refine .bind (contained.execute body) fun completion inside => .pure ?_
      rw [Statement.jumps]
      exact fun _ after => within_afterBody inside after
  | function decl => exact .last fun _ => .pure (within_normal _)
  | classDecl decl => exact .last fun _ => .pure (within_normal _)
  | returning value location =>
      refine .last fun _ => .pure fun jump jumped => ?_
      cases jumped
      simp [Statement.jumps]
  | breaking location =>
      refine .pure fun jump jumped => ?_
      cases jumped
      simp [Statement.jumps]
  | continuing location =>
      refine .pure fun jump jumped => ?_
      cases jumped
      simp [Statement.jumps]
  | print expr location => exact .last fun _ => .last fun _ => .pure (within_normal _)
  | test name body location =>
      refine .last fun _ => .last fun completion => ?_
      have recorded (passed : Bool) : Yields (·.Within [])
          (Run.recordTest name passed location) := by
        refine .last fun _ => ?_
        split
        · exact .pure (within_normal _)
        · exact .fail _ _
      simp only [Statement.jumps]
      cases completion with
      | normal => exact recorded true
      | returning value => exact recorded _
      | breaking => exact .fail _ _
      | continuing => exact .fail _ _
  | moduleDecl name location => exact .last fun _ => .pure (within_normal _)
  | nativeFunction moduleName name params location =>
      exact .last fun _ => .pure (within_normal _)
  | extension id className decl location => exact .last fun _ => .pure (within_normal _)

private theorem executeAllStep (contained : inner.Contained) (statements : List Statement) :
    Yields (·.Within (jumpsAll statements)) (Run.executeAllStep inner statements) := by
  cases statements with
  | nil => exact .pure (within_normal _)
  | cons statement rest =>
      refine .bind (contained.execute statement) fun completion inside => ?_
      rw [jumpsAll]
      split
      · refine (contained.executeAll rest).mono fun _ later jump jumped => ?_
        exact List.mem_append_right _ (later jump jumped)
      · refine .pure fun jump jumped => ?_
        exact List.mem_append_left _ (inside jump jumped)

end Routines.Contained

/-- The routines of every depth end with jumps written in the code only. -/
theorem contained_routines (setting : Setting) (depth : Nat) :
    (routines setting depth).Contained := by
  induction depth with
  | zero => exact ⟨fun _ => .exhausted, fun _ => .exhausted⟩
  | succ depth ih => exact ⟨ih.executeStep, ih.executeAllStep⟩

end Run

end Scriptlet
