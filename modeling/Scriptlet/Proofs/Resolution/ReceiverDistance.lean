import Scriptlet.Proofs.Resolution.Mention
import Scriptlet.Proofs.Resolution.Posting

/-!
# How far out receivers and superclasses are

In a program that declares no name like that of a receiver, what is recorded for a receiver
leads to the scope of the innermost one (`distance_of_thisRef`), and what is recorded for a
superclass to the scope just outside of that, which is one of a class that builds on another
one (`distance_of_superRef`, `superOf_of_recorded`).
-/

namespace Scriptlet

/-- A name is found in the nearest scope that declares it. -/
private theorem Analysis.lookupFrom_of_nearest {name : String} {scopes : List StaticScope}
    {distance : Nat} {static : StaticScope} {declared : Declared}
    (inside : distance + 1 < scopes.length) (listed : scopes[distance]? = some static)
    (found : static.names.find? name = some declared)
    (nearest : ∀ nearer other, nearer < distance → scopes[nearer]? = some other →
      other.names.find? name = none) (start : Nat) :
    lookupFrom name start scopes = some (some (start + distance), declared) := by
  induction scopes generalizing distance start with
  | nil => cases listed
  | cons scope outer ih =>
      rw [lookupFrom]
      cases distance with
      | zero =>
          cases listed
          have around : outer.isEmpty = false := by
            cases outer with
            | nil => exact absurd inside (Nat.lt_irrefl 1)
            | cons => rfl
          simp [found, around]
      | succ distance =>
          rw [nearest 0 scope (Nat.succ_pos _) rfl]
          have rest := ih (Nat.lt_of_succ_lt_succ inside) listed
            (fun nearer other closer held =>
              nearest (nearer + 1) other (Nat.succ_lt_succ closer) held) (start + 1)
          rw [rest, Nat.add_right_comm, Nat.add_assoc]

variable {program : Program} {analysis : Analysis} {done : Unit} {name : String}
  {scopes : List LexicalScope} {code : Code} {before after : Analysis} {id : NodeId}
  {location : Location}

/-- A name that the scopes spare is declared in a scope for the name only. -/
private theorem LexicalScope.Spares.held {scope : LexicalScope} {static : StaticScope}
    {declared : Declared} (spares : scope.Spares program name)
    (shows : scope.Shows program name static)
    (found : static.names.find? name = some declared) : scope.tag.held? = some name := by
  have flagged : static.flags name = some (declared.defined, declared.isFinal) := by
    rw [StaticScope.flags, found]
    rfl
  cases defined : declared.defined with
  | true =>
      rw [defined] at flagged
      exact spares.bound ((shows.defined _ flagged).resolve_right spares.loose)
  | false =>
      rw [defined] at flagged
      exact absurd (shows.undefined _ flagged) spares.pending

/-- A name that a program does not declare is found in the nearest scope for the name. -/
private theorem Visited.lookup_held (visited : Visited program analysis scopes code before after)
    (stands : Stands program scopes code) (spare : name ∉ Statement.namesAll program)
    (holds : ∀ static ∈ before.scopes, static.Holds) {distance : Nat} {tag : ScopeTag}
    (inside : distance + 1 < (scopes.map (·.tag)).length)
    (listed : (scopes.map (·.tag))[distance]? = some tag) (held : tag.held? = some name)
    (nearer : ∀ steps other, steps < distance → (scopes.map (·.tag))[steps]? = some other →
      other.held? ≠ some name) :
    ∃ declared, Analysis.lookupFrom name 0 before.scopes = some (some distance, declared) := by
  have spares := (stands.spares spare).1
  rw [← visited.reflected.map_tag] at inside listed
  rw [List.length_map] at inside
  rw [List.getElem?_map] at listed
  obtain ⟨static, listedStatic, rfl⟩ := Option.map_eq_some_iff.mp listed
  have declares := holds static (List.mem_of_getElem? listedStatic) name held
  obtain ⟨declared, found⟩ := Option.isSome_iff_exists.mp declares
  refine ⟨declared, ?_⟩
  have whole := Analysis.lookupFrom_of_nearest inside listedStatic found
    (fun steps other closer between => ?_) 0
  · rwa [Nat.zero_add] at whole
  · cases known : other.names.find? name with
    | none => rfl
    | some entry =>
        obtain ⟨scope, inText, shows⟩ :=
          getElem?_of_forall₂ (Shown.of_reflected visited.reflected) between
        have same := (spares scope (List.mem_of_getElem? inText)).held shows known
        refine absurd same (nearer steps scope.tag closer ?_)
        rw [List.getElem?_map, inText]
        rfl

/-- A receiver is looked up where it is named, in code of a class. -/
private theorem Visited.receiver (visited : Visited program analysis scopes
    (.expression (.thisRef id location)) before after) :
    ⟨id, "this", before.scopes⟩ ∈ analysis.visits ∧ before.classContext ≠ .none := by
  obtain ⟨_, noted, noting, passed⟩ := bind_eq_ok.mp visited.passed
  cases noting
  change (if before.classContext = .none then Resolve.fail .thisOutsideClass location
    else Resolve.resolveName id "this" : Resolve Unit) _ = .ok () after at passed
  split at passed
  · cases passed
  · rename_i inside
    cases passed
    exact ⟨visited.precedes.visits.subset (List.mem_cons_self ..), inside⟩

/-- A superclass is looked up where it is named, in code of a class that builds on one. -/
private theorem Visited.superclass {method : String} (visited : Visited program analysis scopes
    (.expression (.superRef id method location)) before after) :
    ⟨id, "super", before.scopes⟩ ∈ analysis.visits ∧ before.classContext = .derived := by
  obtain ⟨_, noted, noting, passed⟩ := bind_eq_ok.mp visited.passed
  cases noting
  change (if before.classContext = .derived then Resolve.resolveName id "super"
    else Resolve.fail .superOutsideSubclass location : Resolve Unit) _ = .ok () after at passed
  split at passed
  · rename_i derived
    cases passed
    exact ⟨visited.precedes.visits.subset (List.mem_cons_self ..), derived⟩
  · cases passed

/-- What is recorded for a receiver leads to the scope of the innermost one. -/
theorem distance_of_thisRef (accepted : Resolve.program program .start = .ok done analysis)
    (numbered : program.Numbered) (spares : program.SparesReceivers)
    (stands : Stands program scopes (.expression (.thisRef id location))) :
    ∃ distance tag, InnermostReceiver (scopes.map (·.tag)) distance tag ∧
      analysis.resolutions.distance? id = some distance := by
  obtain ⟨before, after, visited⟩ := visited_of_stands accepted stands
  obtain ⟨looked, within⟩ := visited.receiver
  have posted := (posted_of_program accepted Analysis.at_start).walk _ visited.walked
  have context : before.classContext = contextAround (scopes.map (·.tag)) :=
    visited.reflected.map_tag ▸ posted.context
  obtain ⟨distance, tag, innermost, _⟩ := stands.paired.innermost (context ▸ within)
  obtain ⟨declared, found⟩ := visited.lookup_held stands spares.1 posted.holds
    (stands.paired.inside_of_held innermost.listed innermost.receives) innermost.listed
    innermost.receives fun steps other closer listed => by
      rw [innermost.nearer steps other closer listed]
      exact nofun
  refine ⟨distance, tag, innermost, ?_⟩
  rw [(Analysis.recorded_of_accepted accepted numbered).1.visited _ looked]
  exact Option.bind_eq_some_iff.mpr ⟨_, found, rfl⟩

/-- What is recorded for a superclass leads to the scope just outside of that of the innermost
receiver, which is one of a class that builds on another one. -/
theorem distance_of_superRef {method : String}
    (accepted : Resolve.program program .start = .ok done analysis)
    (numbered : program.Numbered) (spares : program.SparesReceivers)
    (stands : Stands program scopes (.expression (.superRef id method location))) :
    ∃ distance decl, InnermostReceiver (scopes.map (·.tag)) distance (.thisOf decl) ∧
      decl.superclass.isSome = true ∧
      analysis.resolutions.distance? id = some (distance + 1) := by
  obtain ⟨before, after, visited⟩ := visited_of_stands accepted stands
  obtain ⟨looked, derived⟩ := visited.superclass
  have posted := (posted_of_program accepted Analysis.at_start).walk _ visited.walked
  have context : before.classContext = contextAround (scopes.map (·.tag)) :=
    visited.reflected.map_tag ▸ posted.context
  rw [derived] at context
  obtain ⟨distance, tag, innermost, superclass⟩ := stands.paired.innermost
    (context ▸ (nofun : ClassContext.derived ≠ .none))
  obtain ⟨decl, rfl, builds, outside⟩ := superclass context.symm
  have inside := stands.paired.inside_of_held outside rfl
  obtain ⟨declared, found⟩ := visited.lookup_held stands spares.2 posted.holds inside outside rfl
    fun steps other closer listed same => by
      rcases Nat.lt_succ_iff_lt_or_eq.mp closer with nearer | rfl
      · cases (innermost.nearer steps other nearer listed).symm.trans same
      · cases innermost.listed.symm.trans listed
        simp [ScopeTag.held?] at same
  refine ⟨distance, decl, innermost, builds, ?_⟩
  rw [(Analysis.recorded_of_accepted accepted numbered).1.visited _ looked]
  exact Option.bind_eq_some_iff.mpr ⟨_, found, rfl⟩

/-- What is recorded for the name of a superclass leads to the scope of one, which is just
outside of the scope of a receiver of the class that builds on it. -/
theorem superOf_of_recorded (accepted : Resolve.program program .start = .ok done analysis)
    (numbered : program.Numbered) (spares : program.SparesReceivers)
    (stands : Stands program scopes code) (mentioned : (id, "super") ∈ code.mentions)
    {distance : Nat} (recorded : analysis.resolutions.distance? id = some distance) :
    ∃ nearer decl, distance = nearer + 1 ∧ decl.superclass.isSome = true ∧
      (scopes.map (·.tag))[nearer]? = some (.thisOf decl) ∧
      (scopes.map (·.tag))[nearer + 1]? = some (.superOf decl) := by
  obtain ⟨statics, visited, shown, _⟩ := visit_of_mention accepted stands mentioned
  obtain ⟨_, static, declared, listed, declares, _⟩ := Analysis.declared_of_recorded
    (Analysis.recorded_of_accepted accepted numbered).1 visited recorded
  obtain ⟨scope, inText, shows⟩ := getElem?_of_forall₂ shown listed
  have spare := (stands.spares spares.2).1 scope (List.mem_of_getElem? inText)
  have held := spare.held shows declares
  have tagged : (scopes.map (·.tag))[distance]? = some scope.tag := by
    rw [List.getElem?_map, inText]
    rfl
  cases tag : scope.tag with
  | superOf decl =>
      rw [tag] at tagged
      obtain ⟨nearer, rfl, inside, builds⟩ := stands.paired.inside_superOf tagged
      exact ⟨nearer, decl, rfl, builds, inside, tagged⟩
  | _ => simp [tag, ScopeTag.held?] at held

end Scriptlet
