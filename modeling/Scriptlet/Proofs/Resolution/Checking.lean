import Scriptlet.Proofs.Lexical.References
import Scriptlet.Proofs.Resolution.Walk

/-!
# References checked by the analysis

The analysis asks of each reference to a name, except by an operator, whether the name is used
early. `Resolve.Checks` says so of a step of the analysis: if it passes, none of the references that
it comes to is early; and if it stops because a name is used early, one of them is. What the scopes
of the analysis have by then is what is said of the scopes of the text.
-/

namespace Scriptlet

/-- A scope of the analysis has the names that are said of a scope of the text. -/
structure NameScope.Agrees (scope : NameScope) (static : StaticScope) : Prop where
  entered : ∀ name, static.names.contains name = true ↔ name ∈ scope.entered
  listed : ∀ name, static.upcoming.contains name = true ↔ name ∈ scope.listed
  level : static.level = scope.level

/-- An early reference that the analysis refuses. -/
def Occurrence.Refused (occurrence : Occurrence) : Prop :=
  occurrence.reference.kind.isOperator = false ∧ occurrence.Early NameScope.entered

variable {depth : Nat} {scopes later : List NameScope}

namespace Analysis

/-- The analysis stands in scopes of the text. -/
structure StandsIn (depth : Nat) (scopes : List NameScope) (analysis : Analysis) : Prop where
  depth : analysis.functionDepth = depth
  scopes : List.Forall₂ NameScope.Agrees scopes analysis.scopes

/-- The analysis finds a name to be used early just if it is in the text. -/
theorem usedEarlyIn_iff {reference : Reference} {statics : List StaticScope}
    (agree : List.Forall₂ NameScope.Agrees scopes statics) :
    usedEarlyIn reference.name depth statics = true ↔
      Occurrence.Early NameScope.entered ⟨reference, scopes, depth⟩ := by
  induction agree with
  | nil =>
    constructor
    · nofun
    · rintro ⟨inner, scope, outer, split, _⟩
      exact absurd split (by simp)
  | @cons scope static scopes statics agrees rest ih =>
    unfold usedEarlyIn
    by_cases has : static.names.contains reference.name
    · rw [if_pos has]
      constructor
      · nofun
      · -- The first scope is the one that lists the name or one between it and the reference.
        rintro ⟨inner, lister, outer, split, _, _, without⟩
        have first : scope ∈ inner ++ [lister] := by
          cases inner with
          | nil =>
            obtain ⟨rfl, _⟩ := List.cons.inj split
            exact List.mem_cons_self
          | cons nearest inner =>
            obtain ⟨rfl, _⟩ := List.cons.inj split
            exact List.mem_cons_self
        exact absurd ((agrees.entered _).mp has) (without scope first)
    · rw [if_neg has]
      have lacks : reference.name ∉ scope.entered :=
        fun inside => has ((agrees.entered _).mpr inside)
      by_cases here : scope.level = depth ∧ reference.name ∈ scope.listed
      · have found : (static.level = depth && static.upcoming.contains reference.name) = true := by
          simp [agrees.level, here.1, (agrees.listed _).mpr here.2]
        rw [if_pos (by simpa using found)]
        refine ⟨fun _ => ⟨[], scope, scopes, rfl, here.1, here.2, ?_⟩, fun _ => rfl⟩
        intro nearer member
        rw [List.nil_append, List.mem_singleton] at member
        rwa [member]
      · have missing : ¬ (static.level = depth && static.upcoming.contains reference.name) := by
          intro found
          obtain ⟨level, listed⟩ : static.level = depth ∧ _ := by simpa using found
          exact here ⟨agrees.level ▸ level, (agrees.listed _).mp listed⟩
        rw [if_neg missing, ih]
        constructor
        · rintro ⟨inner, lister, outer, split, level, listed, without⟩
          dsimp only at split
          refine ⟨scope :: inner, lister, outer, by rw [split, List.cons_append], level, listed, ?_⟩
          exact List.forall_mem_cons.mpr ⟨lacks, without⟩
        · rintro ⟨inner, lister, outer, split, level, listed, without⟩
          cases inner with
          | nil =>
            obtain ⟨rfl, _⟩ := List.cons.inj split
            exact absurd ⟨level, listed⟩ here
          | cons nearest inner =>
            obtain ⟨rfl, around⟩ := List.cons.inj split
            exact ⟨inner, lister, outer, around, level, listed,
              (List.forall_mem_cons.mp without).2⟩

/-- Where nothing is declared the analysis still stands in the same scopes. -/
theorem StandsIn.quiet {before after : Analysis} {nodes : List NodeId}
    (stands : before.StandsIn depth scopes) (quiet : before.Later nodes [] after) :
    after.StandsIn depth scopes := by
  refine ⟨quiet.functionDepth.trans stands.depth, ?_⟩
  have becomes := quiet.scopes.forall₂
  have agree := stands.scopes
  clear stands
  generalize before.scopes = earlier at becomes agree
  generalize after.scopes = reached at becomes ⊢
  induction agree generalizing reached with
  | nil =>
    cases becomes
    exact .nil
  | cons agrees _ ih =>
    cases becomes with
    | @cons static next _ _ becomes rest =>
      refine .cons ⟨fun name => ?_, ?_, becomes.level.trans agrees.level⟩ (ih _ rest)
      · have same := congrArg Option.isSome (becomes.flags_eq name)
        rw [StaticScope.flags, StaticScope.flags, Option.isSome_map, Option.isSome_map] at same
        rw [← agrees.entered, Table.contains, Table.contains, same]
      · rw [becomes.upcoming]
        exact agrees.listed

end Analysis

namespace Resolve

variable {α β : Type} {occurrences : List Occurrence} {step : Resolve α}

/-- A step that goes from some scopes to others comes to these references: if it passes, none of
them is refused, and if it stops because a name is used early, it refuses one of them. -/
structure Checks (depth : Nat) (scopes later : List NameScope) (occurrences : List Occurrence)
    (step : Resolve α) : Prop where
  passes : ∀ before value after, before.StandsIn depth scopes → step before = .ok value after →
    after.StandsIn depth later ∧ ∀ occurrence ∈ occurrences, ¬ occurrence.Refused
  stops : ∀ before name location after, before.StandsIn depth scopes →
    step before = .error ⟨.useBeforeDeclaration name, location⟩ after →
    ∃ occurrence ∈ occurrences, occurrence.Refused ∧ occurrence.reference.name = name ∧
      occurrence.reference.location = location

namespace Checks

/-- Giving a value comes to no references. -/
protected theorem pure (value : α) : Checks depth scopes scopes [] (pure value : Resolve α) where
  passes before result after stands passed := by
    cases passed
    exact ⟨stands, nofun⟩
  stops before name location after _ stopped := by cases stopped

/-- A fault about anything but early use refuses no reference. -/
protected theorem fail {fault : ResolveFault} (other : ∀ name, fault ≠ .useBeforeDeclaration name)
    (location : Location) :
    Checks depth scopes later occurrences (Resolve.fail fault location : Resolve α) where
  passes _ _ _ _ passed := by cases passed
  stops before name location after _ stopped := by
    cases stopped
    exact absurd rfl (other name)

/-- One step after another comes to the references of both, in order. -/
theorem bind {middle : List NameScope} {others : List Occurrence} {next : α → Resolve β}
    (first : Checks depth scopes middle occurrences step)
    (rest : ∀ value, Checks depth middle later others (next value)) :
    Checks depth scopes later (occurrences ++ others) (step >>= next) where
  passes before result after stands passed := by
    obtain ⟨value, reached, firstPassed, restPassed⟩ := bind_eq_ok.mp passed
    obtain ⟨inside, free⟩ := first.passes _ _ _ stands firstPassed
    obtain ⟨last, others⟩ := (rest value).passes _ _ _ inside restPassed
    exact ⟨last, List.forall_mem_append.mpr ⟨free, others⟩⟩
  stops before name location after stands stopped := by
    cases ended : step before with
    | error fault reached =>
      rw [bind_of_error ended] at stopped
      cases stopped
      obtain ⟨occurrence, member, refused⟩ := first.stops _ _ _ _ stands ended
      exact ⟨occurrence, List.mem_append_left _ member, refused⟩
    | ok value reached =>
      rw [bind_of_ok ended] at stopped
      obtain ⟨inside, _⟩ := first.passes _ _ _ stands ended
      obtain ⟨occurrence, member, refused⟩ := (rest value).stops _ _ _ _ inside stopped
      exact ⟨occurrence, List.mem_append_right _ member, refused⟩

/-- A first step without references. -/
theorem after {middle : List NameScope} {next : α → Resolve β}
    (first : Checks depth scopes middle [] step)
    (rest : ∀ value, Checks depth middle later occurrences (next value)) :
    Checks depth scopes later occurrences (step >>= next) := bind first rest

/-- A last step without references. -/
theorem last {middle : List NameScope} {next : α → Resolve β}
    (first : Checks depth scopes middle occurrences step)
    (rest : ∀ value, Checks depth middle later [] (next value)) :
    Checks depth scopes later occurrences (step >>= next) := by
  have whole := bind first rest
  rwa [List.append_nil] at whole

/-- A step may look at the analysis, of which it is known in which scopes it stands. -/
theorem look {next : Analysis → Resolve β}
    (rest : ∀ analysis : Analysis, analysis.StandsIn depth scopes →
      Checks depth scopes later occurrences (next analysis)) :
    Checks depth scopes later occurrences (get >>= next) where
  passes before _ _ stands passed := (rest before stands).passes _ _ _ stands passed
  stops before _ _ _ stands stopped := (rest before stands).stops _ _ _ _ stands stopped

/-- A change of the analysis comes to no references, if it leads from scopes to scopes. -/
theorem modify {change : Analysis → Analysis}
    (leads : ∀ before : Analysis, before.StandsIn depth scopes →
      (change before).StandsIn depth later) :
    Checks depth scopes later [] (modify change : Resolve Unit) where
  passes before value after stands passed := by
    cases passed
    exact ⟨leads before stands, nofun⟩
  stops before name location after _ stopped := by cases stopped

/-- A step between two changes comes to the references that it comes to in between. -/
theorem between {inner : Nat} {inside left : List NameScope} {enter leave : Analysis → Analysis}
    (enters : ∀ before : Analysis, before.StandsIn depth scopes →
      (enter before).StandsIn inner inside)
    (checks : Checks inner inside left occurrences step)
    (leaves : ∀ after : Analysis, after.StandsIn inner left → (leave after).StandsIn depth later) :
    Checks depth scopes later occurrences (Resolve.between enter leave step) where
  passes before value after stands passed := by
    obtain ⟨reached, stepped, rfl⟩ := between_eq_ok.mp passed
    obtain ⟨last, free⟩ := checks.passes _ _ _ (enters before stands) stepped
    exact ⟨leaves reached last, free⟩
  stops before name location after stands stopped := by
    unfold Resolve.between at stopped
    split at stopped
    · cases stopped
    · rename_i innerStopped
      cases stopped
      exact checks.stops _ _ _ _ (enters before stands) innerStopped

/-- A step that declares nothing, and stops for no early use. -/
theorem quiet {nodes : List NodeId} (steps : Steps nodes [] step)
    (other : ∀ before name location after,
      step before ≠ .error ⟨.useBeforeDeclaration name, location⟩ after) :
    Checks depth scopes scopes [] step where
  passes before value after stands passed :=
    ⟨stands.quiet (steps before value after passed), nofun⟩
  stops before name location after _ stopped := absurd stopped (other before name location after)

/-- Scopes that the analysis stands in as well. -/
theorem weaken {others : List NameScope} (checks : Checks depth scopes later occurrences step)
    (leads : ∀ analysis : Analysis, analysis.StandsIn depth later →
      analysis.StandsIn depth others) : Checks depth scopes others occurrences step where
  passes before value after stands passed := by
    obtain ⟨inside, free⟩ := checks.passes _ _ _ stands passed
    exact ⟨leads after inside, free⟩
  stops := checks.stops

/-! ### Expressions -/

/-- Asking whether a name is used early refuses the reference if it is. -/
protected theorem checkDeclared (reference : Reference)
    (asked : reference.kind.isOperator = false) :
    Checks depth scopes scopes [⟨reference, scopes, depth⟩]
      (Resolve.checkDeclared reference.name reference.location) := by
  have asks (before : Analysis) (stands : before.StandsIn depth scopes) :
      Resolve.checkDeclared reference.name reference.location before =
        (if Analysis.usedEarlyIn reference.name depth before.scopes then
          Resolve.fail (.useBeforeDeclaration reference.name) reference.location
        else pure ()) before := by
    rw [← stands.depth]
    rfl
  constructor
  · intro before value after stands passed
    rw [asks before stands] at passed
    split at passed
    · cases passed
    · rename_i timely
      cases passed
      refine ⟨stands, List.forall_mem_singleton.mpr ?_⟩
      exact fun refused => timely ((Analysis.usedEarlyIn_iff stands.scopes).mpr refused.2)
  · intro before name location after stands stopped
    rw [asks before stands] at stopped
    split at stopped
    · rename_i early
      cases stopped
      refine ⟨_, List.mem_singleton_self _, ⟨asked, ?_⟩, rfl, rfl⟩
      exact (Analysis.usedEarlyIn_iff stands.scopes).mp early
    · cases stopped

/-- Resolving a name comes to no references, as the use of the name was checked before. -/
protected theorem resolveName (id : NodeId) (name : String) :
    Checks depth scopes scopes [] (Resolve.resolveName id name) :=
  quiet (.resolveName id name) fun _ _ _ _ stopped => by cases stopped

/-- Noting an expression comes to no references. -/
protected theorem noteExpr (expr : Expr) :
    Checks depth scopes scopes [] (Resolve.noteExpr expr) :=
  quiet (.noteExpr expr) fun _ _ _ _ stopped => by cases stopped

/-- Reading a name is a reference to it. -/
protected theorem readName (id : NodeId) (name : String) (location : Location) :
    Checks depth scopes scopes [⟨⟨.read, name, location⟩, scopes, depth⟩]
      (Resolve.readName id name location) := by
  refine look fun analysis _ => ?_
  split
  · exact .fail (fun _ => by simp) _
  · exact last (.checkDeclared ⟨.read, name, location⟩ rfl) fun _ => .resolveName id name

/-- Assigning to a name is a reference to it. -/
protected theorem assignName (id : NodeId) (name : String) (location : Location) :
    Checks depth scopes scopes [⟨⟨.assigned, name, location⟩, scopes, depth⟩]
      (Resolve.assignName id name location) := by
  refine last (.checkDeclared ⟨.assigned, name, location⟩ rfl) fun _ => look fun analysis _ => ?_
  split
  · exact .fail (fun _ => by simp) _
  · refine after (.resolveName id name) fun _ => modify fun before stands => ?_
    have forgotten := Steps.forall₂_forgetInstanceIn name before.scopes
    exact stands.quiet (.of_scopes before (.of_forall₂ forgotten))

/-- A field is refused for other reasons. -/
theorem fieldFault?_other {current : Option ClassFacts} {owner : ClassLayer} {field : FieldFacts}
    {name : String} {isAssignment : Bool} {fault : ResolveFault}
    (refused : fieldFault? current owner field name isAssignment = some fault) (other : String) :
    fault ≠ .useBeforeDeclaration other := by
  rintro rfl
  unfold fieldFault? at refused
  split at refused
  · cases refused
  · split at refused <;> cases refused

/-- Checking the access to a field comes to no references. -/
protected theorem checkField (object : Expr) (name : String) (location : Location)
    (isAssignment : Bool) :
    Checks depth scopes scopes [] (Resolve.checkField object name location isAssignment) := by
  refine look fun analysis _ => ?_
  split
  · exact .pure _
  · split
    · exact .pure _
    · rename_i fault refused
      split
      · exact .fail (fieldFault?_other refused) _
      · exact quiet (.noteRefusal _ _ _ _ _ _ _) fun _ _ _ _ stopped => by cases stopped

end Checks

/-- A step without declarations that comes to some references. -/
def Asks (depth : Nat) (scopes : List NameScope) (references : List Reference)
    (step : Resolve α) : Prop :=
  Checks depth scopes scopes (occurring depth scopes references) step

namespace Asks

variable {references others : List Reference} {next : α → Resolve β}

/-- One step after another comes to the references of both, in order. -/
theorem bind (first : Asks depth scopes references step)
    (rest : ∀ value, Asks depth scopes others (next value)) :
    Asks depth scopes (references ++ others) (step >>= next) := by
  unfold Asks occurring
  rw [List.map_append]
  exact Checks.bind first rest

/-- An expression is noted before anything in it is. -/
theorem noted {expr : Expr} {next : Unit → Resolve β}
    (rest : Asks depth scopes references (next ())) :
    Asks depth scopes references (Resolve.noteExpr expr >>= next) :=
  Checks.after (.noteExpr expr) fun _ => rest

/-- No reference by an operator is refused. -/
theorem operator {reference : Reference} (unasked : reference.kind.isOperator = true)
    (rest : Asks depth scopes references step) :
    Asks depth scopes (reference :: references) step where
  passes before value after stands passed := by
    obtain ⟨inside, free⟩ := rest.passes before value after stands passed
    refine ⟨inside, List.forall_mem_cons.mpr ⟨fun refused => ?_, free⟩⟩
    exact absurd (refused.1.symm.trans unasked) Bool.false_ne_true
  stops before name location after stands stopped := by
    obtain ⟨occurrence, member, refused⟩ := rest.stops before name location after stands stopped
    exact ⟨occurrence, List.mem_cons_of_mem _ member, refused⟩

mutual

/-- The analysis of an expression comes to its references. -/
protected theorem expression : (expr : Expr) →
    Asks depth scopes expr.references (Resolve.expression expr)
  | .literal _ _ => noted (Checks.pure ())
  | .array elements _ => noted (Asks.expressions elements)
  | .var id name location => noted (Checks.readName id name location)
  | .assign id name value location =>
    noted (bind (Asks.expression value) fun _ => Checks.assignName id name location)
  | .binary _ left right _ | .logical _ left right _ | .bitwise _ left right _
  | .elvis left right _ | .getIndex left right _ =>
    noted (bind (Asks.expression left) fun _ => Asks.expression right)
  | .unary _ operand _ | .grouping operand _ => noted (Asks.expression operand)
  | .prefixCall id name operand _ =>
    operator rfl (noted (Checks.after (.resolveName id name) fun _ => Asks.expression operand))
  | .infixCall id name left right _ =>
    operator rfl (noted (Checks.after (.resolveName id name) fun _ =>
      bind (Asks.expression left) fun _ => Asks.expression right))
  | .ternary condition thenBranch elseBranch _ =>
    noted (bind (Asks.expression condition) fun _ =>
      bind (Asks.expression thenBranch) fun _ => Asks.expression elseBranch)
  | .call callee arguments _ =>
    noted (bind (Asks.expression callee) fun _ => Asks.expressions arguments)
  | .get object name location =>
    noted (Checks.last (Asks.expression object) fun _ => .checkField object name location false)
  | .set object name value location =>
    noted (bind (Asks.expression value) fun _ =>
      Checks.last (Asks.expression object) fun _ => .checkField object name location true)
  | .setIndex target index value _ =>
    noted (bind (Asks.expression target) fun _ =>
      bind (Asks.expression index) fun _ => Asks.expression value)
  | .thisRef id _ => by
    refine noted (Checks.look fun analysis _ => ?_)
    split
    · exact .fail (fun _ => by simp) _
    · exact .resolveName id "this"
  | .superRef id _ _ => by
    refine noted (Checks.look fun analysis _ => ?_)
    split
    · exact .resolveName id "super"
    · exact .fail (fun _ => by simp) _

/-- Expressions in order come to the references in them, in order. -/
protected theorem expressions : (exprs : List Expr) →
    Asks depth scopes (Expr.referencesAll exprs) (Resolve.expressions exprs)
  | [] => Checks.pure ()
  | first :: rest => bind (Asks.expression first) fun _ => Asks.expressions rest

end

end Asks

end Resolve

end Scriptlet
