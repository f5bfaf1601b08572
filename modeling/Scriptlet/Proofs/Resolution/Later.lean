import Mathlib.Data.List.Forall2
import Scriptlet.Proofs.Outcome
import Scriptlet.Resolution.Statement

/-!
# What the analysis of code leaves behind

Code that passes the analysis leaves the scopes around it as they were, except that the
innermost one has learned the names the code declares there, and leaves a visit for each
node that mentions a name. `Resolve.Steps nodes changes step` says so of a step of the
analysis. What is recorded for a node is the distance its visit found, if no other node
has its number.
-/

namespace Scriptlet

/-- How many scopes out a name lives, as its visit found it, if it is local. -/
def Visit.distance? (visit : Visit) : Option Nat :=
  (Analysis.lookupFrom visit.name 0 visit.scopes).bind (·.1)

namespace StaticScope

/-- Whether a declared name has its value, and whether it is final. -/
def flags (scope : StaticScope) (name : String) : Option (Bool × Bool) :=
  (scope.names.find? name).map fun declared => (declared.defined, declared.isFinal)

/-- A name is declared for good. -/
def Fixes (scope : StaticScope) (name : String) : Prop :=
  ∃ defined, scope.flags name = some (defined, true)

/-- A later state of a scope: the same construct, and the same names declared in the same
way except for listed ones, which have their values. A name that is declared for good stays
so. -/
structure Becomes (changes : List (String × Bool)) (before after : StaticScope) : Prop where
  tag : after.tag = before.tag
  level : after.level = before.level
  upcoming : after.upcoming = before.upcoming
  flags : ∀ name, after.flags name = before.flags name ∨
    ∃ isFinal, (name, isFinal) ∈ changes ∧ after.flags name = some (true, isFinal)
  fixed : ∀ name, before.Fixes name → after.Fixes name

namespace Becomes

variable {changes : List (String × Bool)}

/-- A scope may stay as it is. -/
theorem refl (scope : StaticScope) : scope.Becomes changes scope :=
  ⟨rfl, rfl, rfl, fun _ => .inl rfl, fun _ fixed => fixed⟩

private theorem trans {first second third : StaticScope} (left : first.Becomes changes second)
    (right : second.Becomes changes third) : first.Becomes changes third := by
  refine ⟨right.tag.trans left.tag, right.level.trans left.level,
    right.upcoming.trans left.upcoming, fun name => ?_,
    fun name fixed => right.fixed name (left.fixed name fixed)⟩
  rcases right.flags name with same | changed
  · rw [same]
    exact left.flags name
  · exact .inr changed

private theorem mono {larger : List (String × Bool)} {before after : StaticScope}
    (later : before.Becomes changes after) (subset : changes ⊆ larger) :
    before.Becomes larger after := by
  refine ⟨later.tag, later.level, later.upcoming, fun name => ?_, later.fixed⟩
  rcases later.flags name with same | ⟨isFinal, member, flagged⟩
  · exact .inl same
  · exact .inr ⟨isFinal, subset member, flagged⟩

/-- A scope that has not changed declares every name as it did. -/
theorem flags_eq {before after : StaticScope} (later : before.Becomes [] after) (name : String) :
    after.flags name = before.flags name := by
  rcases later.flags name with same | ⟨_, member, _⟩
  · exact same
  · cases member

/-- A scope in which only what is known of a declared name has changed. -/
theorem adjusted (scope : StaticScope) {name : String} {old new : Declared}
    (found : scope.names.find? name = some old) (defined : new.defined = old.defined)
    (final : new.isFinal = old.isFinal) :
    scope.Becomes changes { scope with names := scope.names.put name new } := by
  have same (query : String) :
      ({ scope with names := scope.names.put name new } : StaticScope).flags query =
        scope.flags query := by
    by_cases hit : name = query
    · subst hit
      simp [StaticScope.flags, found, defined, final]
    · simp [StaticScope.flags, Table.find?_put_of_ne _ _ hit]
  refine ⟨rfl, rfl, rfl, fun query => .inl (same query), fun query => ?_⟩
  rintro ⟨whether, fixed⟩
  exact ⟨whether, (same query).trans fixed⟩

end Becomes

end StaticScope

/-- Later states of some scopes, of which only the innermost may have changed. -/
inductive ScopesLater (changes : List (String × Bool)) :
    List StaticScope → List StaticScope → Prop where
  | nil : ScopesLater changes [] []
  | cons {before after : StaticScope} {outer outerAfter : List StaticScope} :
      before.Becomes changes after → outer.Forall₂ (·.Becomes [] ·) outerAfter →
      ScopesLater changes (before :: outer) (after :: outerAfter)

namespace ScopesLater

variable {changes : List (String × Bool)}

/-- Scopes may all stay as they are. -/
theorem forall₂_refl (scopes : List StaticScope) : scopes.Forall₂ (·.Becomes [] ·) scopes :=
  List.forall₂_same.mpr fun scope _ => .refl scope

/-- Scopes that all stay as they are have changed as listed, in whatever way. -/
theorem refl (scopes : List StaticScope) : ScopesLater changes scopes scopes := by
  cases scopes with
  | nil => exact .nil
  | cons scope outer => exact .cons (.refl scope) (forall₂_refl outer)

private theorem forall₂_trans {first second third : List StaticScope}
    (left : first.Forall₂ (·.Becomes [] ·) second) (right : second.Forall₂ (·.Becomes [] ·) third) :
    first.Forall₂ (·.Becomes [] ·) third := by
  induction left generalizing third with
  | nil => exact right
  | cons head _ ih =>
      cases right with
      | cons next rest => exact .cons (head.trans next) (ih rest)

private theorem trans {first second third : List StaticScope}
    (left : ScopesLater changes first second)
    (right : ScopesLater changes second third) : ScopesLater changes first third := by
  cases left with
  | nil => exact right
  | cons head outer =>
      cases right with
      | cons next rest => exact .cons (head.trans next) (forall₂_trans outer rest)

private theorem mono {larger : List (String × Bool)} {before after : List StaticScope}
    (later : ScopesLater changes before after) (subset : changes ⊆ larger) :
    ScopesLater larger before after := by
  cases later with
  | nil => exact .nil
  | cons head outer => exact .cons (head.mono subset) outer

/-- Scopes of which none has changed are later ones without listed changes. -/
theorem of_forall₂ {before after : List StaticScope}
    (later : before.Forall₂ (·.Becomes [] ·) after) : ScopesLater [] before after := by
  cases later with
  | nil => exact .nil
  | cons head outer => exact .cons head outer

/-- Without listed changes none of the scopes has changed. -/
theorem forall₂ {before after : List StaticScope} (later : ScopesLater [] before after) :
    before.Forall₂ (·.Becomes [] ·) after := by
  cases later with
  | nil => exact .nil
  | cons head outer => exact .cons head outer

end ScopesLater

namespace Analysis

/-- What is recorded is what the visits found. -/
structure Recorded (analysis : Analysis) : Prop where
  visited : ∀ visit ∈ analysis.visits,
    analysis.resolutions.distance? visit.id = visit.distance?
  unvisited : ∀ id, id ∉ analysis.visits.map (·.id) → analysis.resolutions.distance? id = none

/-- What is recorded depends on visits and resolutions only. -/
theorem Recorded.congr {analysis other : Analysis} (recorded : analysis.Recorded)
    (visits : other.visits = analysis.visits)
    (resolutions : other.resolutions = analysis.resolutions) : other.Recorded := by
  refine ⟨?_, ?_⟩
  · rw [visits, resolutions]
    exact recorded.visited
  · rw [visits, resolutions]
    exact recorded.unvisited

/-- What was visited by one state of an analysis was visited by another. -/
structure Precedes (before after : Analysis) : Prop where
  visits : before.visits <:+ after.visits
  walk : before.walk <:+ after.walk

/-- What was visited was visited. -/
theorem Precedes.refl (analysis : Analysis) : analysis.Precedes analysis :=
  ⟨List.suffix_refl _, List.suffix_refl _⟩

/-- What was visited before something that was visited before was visited. -/
theorem Precedes.trans {first second third : Analysis} (left : first.Precedes second)
    (right : second.Precedes third) : first.Precedes third :=
  ⟨left.visits.trans right.visits, left.walk.trans right.walk⟩

/-- Two states of an analysis in which the same was visited and recorded. -/
structure Alike (analysis other : Analysis) : Prop where
  visits : other.visits = analysis.visits
  resolutions : other.resolutions = analysis.resolutions
  walk : other.walk = analysis.walk

/-- A later state of an analysis that stands where it stood and has visited some nodes. -/
structure Later (nodes : List NodeId) (changes : List (String × Bool))
    (before after : Analysis) : Prop where
  scopes : ScopesLater changes before.scopes after.scopes
  body : after.body = before.body
  classContext : after.classContext = before.classContext
  current : after.current = before.current
  loopDepth : after.loopDepth = before.loopDepth
  functionDepth : after.functionDepth = before.functionDepth
  nodes : after.visits.map (·.id) = nodes.reverse ++ before.visits.map (·.id)
  precedes : before.Precedes after
  recorded : (after.visits.map (·.id)).Nodup → before.Recorded → after.Recorded

namespace Later

variable {nodes : List NodeId} {changes : List (String × Bool)}

/-- An analysis that visits nothing may stay where it is. -/
theorem refl (analysis : Analysis) : analysis.Later [] changes analysis :=
  ⟨.refl _, rfl, rfl, rfl, rfl, rfl, rfl, .refl _, fun _ recorded => recorded⟩

/-- An analysis that goes on twice has visited the nodes of both parts. -/
theorem trans {others : List NodeId} {first second third : Analysis}
    (left : first.Later nodes changes second) (right : second.Later others changes third) :
    first.Later (nodes ++ others) changes third := by
  refine ⟨left.scopes.trans right.scopes, right.body.trans left.body,
    right.classContext.trans left.classContext, right.current.trans left.current,
    right.loopDepth.trans left.loopDepth, right.functionDepth.trans left.functionDepth, ?_,
    left.precedes.trans right.precedes, ?_⟩
  · rw [right.nodes, left.nodes, List.reverse_append, List.append_assoc]
  · intro distinct recorded
    have earlier : (second.visits.map (·.id)).Nodup :=
      distinct.sublist (right.precedes.visits.sublist.map _)
    exact right.recorded distinct (left.recorded earlier recorded)

/-- An analysis that changed its scopes as listed did so also as a longer list says. -/
theorem mono {larger : List (String × Bool)} {before after : Analysis}
    (later : before.Later nodes changes after) (subset : changes ⊆ larger) :
    before.Later nodes larger after :=
  { later with scopes := later.scopes.mono subset }

/-- A change of the scopes alone. -/
theorem of_scopes (analysis : Analysis) {scopes : List StaticScope}
    (later : ScopesLater changes analysis.scopes scopes) :
    analysis.Later [] changes { analysis with scopes := scopes } :=
  ⟨later, rfl, rfl, rfl, rfl, rfl, rfl, ⟨List.suffix_refl _, List.suffix_refl _⟩,
    fun _ recorded => recorded.congr rfl rfl⟩

/-- A later state seen from another place, and put in another place. -/
theorem relocate {larger : List (String × Bool)} {before inner after outer : Analysis}
    (later : inner.Later nodes changes after)
      (scopes : ScopesLater larger before.scopes outer.scopes)
    (body : outer.body = before.body) (classContext : outer.classContext = before.classContext)
    (current : outer.current = before.current) (loopDepth : outer.loopDepth = before.loopDepth)
    (functionDepth : outer.functionDepth = before.functionDepth) (entered : before.Alike inner)
    (left : after.Alike outer) : before.Later nodes larger outer := by
  refine ⟨scopes, body, classContext, current, loopDepth, functionDepth, ?_, ⟨?_, ?_⟩,
    fun distinct known => ?_⟩
  · rw [left.visits, later.nodes, entered.visits]
  · rw [left.visits, ← entered.visits]
    exact later.precedes.visits
  · rw [left.walk, ← entered.walk]
    exact later.precedes.walk
  · rw [left.visits] at distinct
    exact (later.recorded distinct (known.congr entered.visits entered.resolutions)).congr
      left.visits left.resolutions

end Later

end Analysis

namespace Resolve

section Passing

variable {α : Type} {step : Resolve α} {before after : Analysis} {value : α}

/-- A step between two changes passes if the step passes after the first of them. -/
theorem between_eq_ok {enter leave : Analysis → Analysis} :
    between enter leave step before = .ok value after ↔
      ∃ inside, step (enter before) = .ok value inside ∧ after = leave inside := by
  unfold between
  cases step (enter before) with
  | ok result inside =>
      constructor
      · intro passed
        cases passed
        exact ⟨inside, rfl, rfl⟩
      · rintro ⟨_, same, rfl⟩
        cases same
        rfl
  | error fault inside =>
      constructor
      · intro passed
        cases passed
      · rintro ⟨_, same, _⟩
        cases same

/-- A step in a scope of its own passes if it passes in the new scope, which is closed after it. -/
theorem inScope_eq_ok {tag : ScopeTag} :
    inScope tag step before = .ok value after ↔
      ∃ inside, step (before.openScope tag) = .ok value inside ∧ after = inside.closeScope :=
  between_eq_ok

/-- A step in a body passes if it passes as code of the body, in no loop. -/
theorem inBody_eq_ok {context : BodyContext} :
    inBody context step before = .ok value after ↔
      ∃ inside, step { before with body := context, loopDepth := 0 } = .ok value inside ∧
        after = { inside with body := before.body, loopDepth := before.loopDepth } := by
  change between ({ · with body := context, loopDepth := 0 })
    ({ · with body := before.body, loopDepth := before.loopDepth }) step before = _ ↔ _
  exact between_eq_ok

/-- A step in a loop passes if it passes one loop deeper. -/
theorem inLoop_eq_ok :
    inLoop step before = .ok value after ↔
      ∃ inside, step { before with loopDepth := before.loopDepth + 1 } = .ok value inside ∧
        after = { inside with loopDepth := inside.loopDepth - 1 } :=
  between_eq_ok

/-- A step that is deferred passes if it passes one function deeper. -/
theorem deferred_eq_ok :
    deferred step before = .ok value after ↔
      ∃ inside, step { before with functionDepth := before.functionDepth + 1 } =
          .ok value inside ∧ after = { inside with functionDepth := inside.functionDepth - 1 } :=
  between_eq_ok

/-- A step in a class passes if it passes as code of the class. -/
theorem inClass_eq_ok {context : ClassContext} {facts : Option ClassFacts} :
    inClass context facts step before = .ok value after ↔
      ∃ inside, step { before with classContext := context, current := facts } =
          .ok value inside ∧
        after =
          { inside with classContext := before.classContext, current := before.current } := by
  change between ({ · with classContext := context, current := facts })
    ({ · with classContext := before.classContext, current := before.current }) step before =
      _ ↔ _
  exact between_eq_ok

end Passing

/-- If the step passes, it leaves everything as it was but for listed changes of the
innermost scope, and visits these nodes in order. -/
def Steps {α : Type} (nodes : List NodeId) (changes : List (String × Bool)) (step : Resolve α) :
    Prop :=
  ∀ (before : Analysis) (value : α) (after : Analysis), step before = .ok value after →
    before.Later nodes changes after

namespace Steps

variable {α β : Type} {nodes others : List NodeId} {changes : List (String × Bool)}
  {step : Resolve α}

/-- A step that changes the innermost scope as listed does so also as a longer list says. -/
theorem mono {larger : List (String × Bool)} (steps : Steps nodes changes step)
    (subset : changes ⊆ larger) : Steps nodes larger step :=
  fun before value after passed => (steps before value after passed).mono subset

/-- A step without changes may take part where changes are allowed. -/
theorem quiet (steps : Steps nodes [] step) : Steps nodes changes step :=
  steps.mono (List.nil_subset _)

/-- Giving a value visits nothing. -/
protected theorem pure (value : α) : Steps [] changes (pure value : Resolve α) := by
  intro before result after passed
  cases passed
  exact .refl before

/-- A fault passes nothing on. -/
protected theorem fail (fault : ResolveFault) (location : Location) :
    Steps nodes changes (Resolve.fail fault location : Resolve α) :=
  fun _ _ _ passed => by cases passed

/-- Looking at the analysis visits nothing. -/
protected theorem get : Steps [] changes (get : Resolve Analysis) := by
  intro before result after passed
  cases passed
  exact .refl before

/-- One step after another visits the nodes of both, in order. -/
theorem bind {next : α → Resolve β} (first : Steps nodes changes step)
    (rest : ∀ value, Steps others changes (next value)) :
    Steps (nodes ++ others) changes (step >>= next) := by
  intro before result after passed
  obtain ⟨value, middle, firstPassed, restPassed⟩ := bind_eq_ok.mp passed
  exact (first before value middle firstPassed).trans (rest value middle result after restPassed)

/-- Looking at the state visits nothing. -/
theorem look {next : Analysis → Resolve β}
    (rest : ∀ analysis, Steps nodes changes (next analysis)) :
    Steps nodes changes (get >>= next) := by
  have first : Steps [] changes (get : Resolve Analysis) := .get
  exact bind first rest

/-- A check before a step visits nothing. -/
theorem after {next : α → Resolve β} (first : Steps [] changes step)
    (rest : ∀ value, Steps nodes changes (next value)) : Steps nodes changes (step >>= next) :=
  bind first rest

/-- What is declared in a scope of its own is forgotten with it. -/
protected theorem inScope (tag : ScopeTag) (steps : Steps nodes changes step) :
    Steps nodes [] (Resolve.inScope tag step) := by
  intro before value after passed
  obtain ⟨inside, stepped, rfl⟩ := inScope_eq_ok.mp passed
  have later := steps _ _ _ stepped
  refine later.relocate ?_ later.body later.classContext later.current later.loopDepth
    later.functionDepth
    ⟨rfl, rfl, rfl⟩ ⟨rfl, rfl, rfl⟩
  have scopes := later.scopes
  unfold Analysis.openScope at scopes
  unfold Analysis.closeScope
  dsimp only at scopes ⊢
  generalize inside.scopes = nested at scopes ⊢
  cases scopes with
  | cons _ outer => exact .of_forall₂ outer

/-- A step in a body visits the nodes that the step visits. -/
protected theorem inBody (context : BodyContext) (steps : Steps nodes changes step) :
    Steps nodes changes (Resolve.inBody context step) := by
  intro before value after passed
  obtain ⟨inside, stepped, rfl⟩ := inBody_eq_ok.mp passed
  have later := steps _ _ _ stepped
  exact later.relocate later.scopes rfl later.classContext later.current rfl later.functionDepth
    ⟨rfl, rfl, rfl⟩ ⟨rfl, rfl, rfl⟩

/-- A step in a loop visits the nodes that the step visits. -/
protected theorem inLoop (steps : Steps nodes changes step) :
    Steps nodes changes (Resolve.inLoop step) := by
  intro before value after passed
  obtain ⟨inside, stepped, rfl⟩ := inLoop_eq_ok.mp passed
  have later := steps _ _ _ stepped
  exact later.relocate later.scopes later.body later.classContext later.current
    (congrArg (· - 1) later.loopDepth) later.functionDepth ⟨rfl, rfl, rfl⟩ ⟨rfl, rfl, rfl⟩

/-- A step that is deferred visits the nodes that the step visits. -/
protected theorem deferred (steps : Steps nodes changes step) :
    Steps nodes changes (Resolve.deferred step) := by
  intro before value after passed
  obtain ⟨inside, stepped, rfl⟩ := deferred_eq_ok.mp passed
  have later := steps _ _ _ stepped
  exact later.relocate later.scopes later.body later.classContext later.current later.loopDepth
    (congrArg (· - 1) later.functionDepth) ⟨rfl, rfl, rfl⟩ ⟨rfl, rfl, rfl⟩

/-- A step in a class visits the nodes that the step visits. -/
protected theorem inClass (context : ClassContext) (facts : Option ClassFacts)
    (steps : Steps nodes changes step) :
    Steps nodes changes (Resolve.inClass context facts step) := by
  intro before value after passed
  obtain ⟨inside, stepped, rfl⟩ := inClass_eq_ok.mp passed
  have later := steps _ _ _ stepped
  exact later.relocate later.scopes later.body rfl rfl later.loopDepth later.functionDepth
    ⟨rfl, rfl, rfl⟩ ⟨rfl, rfl, rfl⟩

end Steps

end Resolve

end Scriptlet
