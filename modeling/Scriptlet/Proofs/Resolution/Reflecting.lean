import Scriptlet.Proofs.Lexical.Standing
import Scriptlet.Proofs.Resolution.StatementWalk

/-!
# Scopes of the analysis and scopes of the text

`scope.Reflects program depth static` compares what is said of a scope of the text around
some code with the scope the analysis has when it comes to the code. A name that the
analysis takes to have its value is certainly bound, unless a branch or a loop body
declares it; a name that is perhaps bound for good is known to be final, unless a branch or
a loop body declares it so, or it is a global that an earlier run has left behind. What is
declared for good is known to be final from then on.
-/

namespace Scriptlet

/-- Some statements declare a name for good, each on its own. -/
def HoistsFinal (statements : List Statement) (name : String) : Prop :=
  ∃ hoisted, (hoistedOf statements).find? name = some hoisted ∧ hoisted.isFinal = true

/-- A coming declaration that is final stays. -/
theorem find?_addHoisted_of_final {table : Table Hoisted} {name : String} {known : Hoisted}
    (found : table.find? name = some known) (fixed : known.isFinal = true) (key : String)
    (coming : Hoisted) : (addHoisted table key coming).find? name = some known := by
  by_cases same : key = name
  · subst same
    simp [addHoisted, found, fixed]
  · unfold addHoisted
    split
    · rwa [Table.find?_put_of_ne _ _ same]
    · split
      · rwa [Table.find?_put_of_ne _ _ same]
      · exact found

/-- A coming declaration that is final is noted, if no other was. -/
theorem find?_addHoisted_self (table : Table Hoisted) (name : String) {coming : Hoisted}
    (fixed : coming.isFinal = true) :
    ∃ hoisted, (addHoisted table name coming).find? name = some hoisted ∧
      hoisted.isFinal = true := by
  unfold addHoisted
  split
  · exact ⟨coming, Table.find?_put_self _ _ _, fixed⟩
  · rename_i known found
    split
    · exact ⟨coming, Table.find?_put_self _ _ _, fixed⟩
    · rename_i kept
      refine ⟨known, found, ?_⟩
      simpa [fixed] using kept

private theorem final_foldl_addHoisted {name : String} (entries : List (String × Hoisted))
    (table : Table Hoisted)
    (final : (∃ hoisted, table.find? name = some hoisted ∧ hoisted.isFinal = true) ∨
      ∃ hoisted, (name, hoisted) ∈ entries ∧ hoisted.isFinal = true) :
    ∃ hoisted, (entries.foldl (fun upcoming (key, hoisted) => addHoisted upcoming key hoisted)
      table).find? name = some hoisted ∧ hoisted.isFinal = true := by
  induction entries generalizing table with
  | nil =>
      rcases final with known | ⟨_, member, _⟩
      · exact known
      · cases member
  | cons entry rest ih =>
      refine ih _ ?_
      rcases final with ⟨known, found, fixed⟩ | ⟨listed, member, fixed⟩
      · exact .inl ⟨known, find?_addHoisted_of_final found fixed _ _, fixed⟩
      · rcases List.mem_cons.mp member with rfl | later
        · exact .inl (find?_addHoisted_self table name fixed)
        · exact .inr ⟨listed, later, fixed⟩

/-- A name that is bound for good among some statements is declared so by one of them, or
only perhaps. -/
theorem loose_or_hoistsFinal {program : Program} {tag : ScopeTag} {name : String}
    (bound : (name, true) ∈ (tag.statements program).flatMap Statement.binds) :
    tag.LooselyBinds program (name, true) ∨ HoistsFinal (tag.statements program) name := by
  obtain ⟨statement, member, binds⟩ := List.mem_flatMap.mp bound
  cases declared : statement.declares? with
  | none => exact .inl ⟨statement, member, declared, binds⟩
  | some entry =>
      obtain ⟨key, hoisted⟩ := entry
      rw [Statement.binds_of_declares declared] at binds
      obtain ⟨rfl, final⟩ : name = key ∧ true = hoisted.isFinal := by simpa using binds
      refine .inr (final_foldl_addHoisted _ [] (.inr ⟨hoisted, ?_, final.symm⟩))
      exact List.mem_filterMap.mpr ⟨statement, member, declared⟩

/-- What is said of a scope of the text is what the analysis has found. -/
structure LexicalScope.Reflects (program : Program) (depth : Nat) (scope : LexicalScope)
    (static : StaticScope) : Prop where
  tag : static.tag = scope.tag
  level : scope.deferred = false → static.level = depth
  upcoming : scope.tag = .globals → static.upcoming = hoistedOf program
  defined : ∀ name isFinal, static.flags name = some (true, isFinal) →
    name ∈ scope.bound ∨ scope.tag.Loose program name
  undefined : ∀ name isFinal, static.flags name = some (false, isFinal) →
    scope.pending = some name
  fixed : ∀ name, (name, true) ∈ scope.declared → static.Fixes name
  finals : scope.deferred = false → ∀ name ∈ scope.finals,
    scope.tag.LooselyBinds program (name, true) ∨ static.Fixes name ∨
    scope.tag = .globals ∧ HoistsFinal program name ∧
      (static.flags name = none ∨ scope.pending = some name ∨ scope.tag.Loose program name)

namespace LexicalScope.Reflects

variable {program : Program} {depth : Nat} {scope : LexicalScope} {static later : StaticScope}
  {changes : List (String × Bool)}

/-- Names that are declared only perhaps may be declared. -/
theorem shift (reflects : scope.Reflects program depth static)
    (becomes : static.Becomes changes later)
    (loose : ∀ entry ∈ changes, scope.tag.LooselyBinds program entry) :
    scope.Reflects program depth later := by
  refine ⟨becomes.tag.trans reflects.tag, fun current => becomes.level.trans
    (reflects.level current),
    fun outermost => becomes.upcoming.trans (reflects.upcoming outermost),
    fun name isFinal flagged => ?_, fun name isFinal flagged => ?_,
    fun name member => becomes.fixed name (reflects.fixed name member),
    fun current name member => ?_⟩
  · rcases becomes.flags name with same | ⟨whether, listed, _⟩
    · exact reflects.defined name isFinal (same ▸ flagged)
    · exact .inr ⟨whether, loose _ listed⟩
  · rcases becomes.flags name with same | ⟨_, _, changed⟩
    · exact reflects.undefined name isFinal (same ▸ flagged)
    · rw [changed] at flagged
      cases flagged
  · rcases reflects.finals current name member with sometimes | fixed | ⟨outermost, hoists, fresh⟩
    · exact .inl sometimes
    · exact .inr (.inl (becomes.fixed name fixed))
    · refine .inr (.inr ⟨outermost, hoists, ?_⟩)
      rcases becomes.flags name with same | ⟨whether, listed, _⟩
      · exact same ▸ fresh
      · exact .inr (.inr ⟨whether, loose _ listed⟩)

/-- A scope goes on reflecting what is said of it, if it did not change. -/
theorem quiet (reflects : scope.Reflects program depth static) (becomes : static.Becomes [] later) :
    scope.Reflects program depth later :=
  reflects.shift becomes nofun

/-- Names that are declared only perhaps may be bound for good. -/
theorem loosen (reflects : scope.Reflects program depth static)
    (loose : ∀ entry ∈ changes, scope.tag.LooselyBinds program entry) :
    (scope.loosen changes).Reflects program depth static := by
  refine ⟨reflects.tag, reflects.level, reflects.upcoming, reflects.defined, reflects.undefined,
    reflects.fixed, fun current name member => ?_⟩
  rcases List.mem_append.mp member with known | changed
  · exact reflects.finals current name known
  · exact .inl (loose _ (mem_finalsOf.mp changed))

/-- A declaration is known to have given its name a value. -/
theorem bind (reflects : scope.Reflects program depth static) {name : String} {isFinal : Bool}
    (becomes : static.Becomes [(name, isFinal)] later)
    (flagged : later.flags name = some (true, isFinal)) :
    (scope.bind name isFinal).Reflects program depth later := by
  have others {other : String} (apart : other ≠ name) : later.flags other = static.flags other := by
    rcases becomes.flags other with same | ⟨_, listed, _⟩
    · exact same
    · simp [apart] at listed
  refine ⟨becomes.tag.trans reflects.tag, fun current => becomes.level.trans
    (reflects.level current),
    fun outermost => becomes.upcoming.trans (reflects.upcoming outermost),
    fun other final known => ?_, fun other final known => ?_, fun other member => ?_,
    fun current other member => ?_⟩
  · by_cases hit : other = name
    · exact .inl (hit ▸ List.mem_cons_self ..)
    · rw [others hit] at known
      exact (reflects.defined other final known).imp (List.mem_cons_of_mem _) id
  · by_cases hit : other = name
    · subst hit
      rw [flagged] at known
      cases known
    · exact reflects.undefined other final (others hit ▸ known)
  · rcases List.mem_cons.mp member with last | before
    · cases last
      exact ⟨true, flagged⟩
    · exact becomes.fixed other (reflects.fixed other before)
  · by_cases hit : other = name
    · subst hit
      cases isFinal with
      | true => exact .inr (.inl ⟨true, flagged⟩)
      | false => simp [LexicalScope.bind] at member
    · unfold StaticScope.Fixes
      rw [others hit]
      refine reflects.finals current other ?_
      unfold LexicalScope.bind at member
      cases isFinal with
      | true => simpa [hit] using member
      | false => exact (List.mem_filter.mp member).1

/-- After a statement a scope reflects what is said of it after the statement. -/
theorem after (reflects : scope.Reflects program depth static) {statement : Statement}
    (becomes : static.Becomes statement.binds later)
    (placed : Stands.Placed program scope.tag (.statement statement))
    (flagged : ∀ name hoisted, statement.declares? = some (name, hoisted) →
      later.flags name = some (true, hoisted.isFinal)) :
    (scope.after statement).Reflects program depth later := by
  suffices settled : (scope.settle statement).Reflects program depth later from
    ⟨settled.tag, settled.level, settled.upcoming, settled.defined, settled.undefined,
      settled.fixed, settled.finals⟩
  unfold LexicalScope.settle
  split
  · rename_i name hoisted declared
    rw [Statement.binds_of_declares declared] at becomes
    exact reflects.bind becomes (flagged name hoisted declared)
  · rename_i undeclared
    have loose := placed.loose undeclared
    exact (reflects.shift becomes loose).loosen loose

/-- A variable whose initial value is analysed. A name that is known to be final is not
declared again. -/
theorem pending (reflects : scope.Reflects program depth static) (settled : scope.pending = none)
    {name : String} {isFinal : Bool} (becomes : ∀ other, other ≠ name →
      later.flags other = static.flags other)
    (same : later.tag = static.tag ∧ later.level = static.level ∧ later.upcoming = static.upcoming)
    (flagged : later.flags name = some (false, isFinal))
    (changeable : ∀ defined, static.flags name ≠ some (defined, true)) :
    { scope with pending := some name }.Reflects program depth later := by
  have stays (other : String) (fixed : static.Fixes other) : later.Fixes other := by
    obtain ⟨defined, final⟩ := fixed
    by_cases hit : other = name
    · exact absurd (hit ▸ final) (changeable defined)
    · exact ⟨defined, (becomes other hit).trans final⟩
  refine ⟨same.1.trans reflects.tag, fun current => same.2.1.trans (reflects.level current),
    fun outermost => same.2.2.trans (reflects.upcoming outermost),
    fun other final known => ?_, fun other final known => ?_,
    fun other member => stays other (reflects.fixed other member), fun current other member => ?_⟩
  · by_cases hit : other = name
    · subst hit
      rw [flagged] at known
      cases known
    · exact reflects.defined other final (becomes other hit ▸ known)
  · by_cases hit : other = name
    · rw [hit]
    · have earlier := reflects.undefined other final (becomes other hit ▸ known)
      rw [settled] at earlier
      cases earlier
  · rcases reflects.finals current other member with loose | fixed | ⟨outermost, hoists, fresh⟩
    · exact .inl loose
    · exact .inr (.inl (stays other fixed))
    · refine .inr (.inr ⟨outermost, hoists, ?_⟩)
      by_cases hit : other = name
      · exact .inr (.inl (hit ▸ rfl))
      · rw [becomes other hit]
        refine fresh.imp id (Or.imp (fun waiting => ?_) id)
        rw [settled] at waiting
        cases waiting

/-- Less is said of a scope that is deferred, at any depth. -/
theorem defer (reflects : scope.Reflects program depth static) (settled : scope.pending = none)
    (deeper : Nat) : scope.defer.Reflects program deeper static := by
  refine ⟨reflects.tag, nofun, reflects.upcoming, reflects.defined, fun name isFinal known => ?_,
    reflects.fixed, nofun⟩
  have waiting := reflects.undefined name isFinal known
  rw [settled] at waiting
  cases waiting

/-- A scope that was just opened reflects what is said of one that its construct opened. -/
theorem opened {tag : ScopeTag} (nested : tag ≠ .globals) (sameTag : static.tag = tag)
    (level : static.level = depth)
    (flags : ∀ name, static.flags name = none ∨
      ∃ isFinal, (name, isFinal) ∈ tag.implicit ∧ static.flags name = some (true, isFinal))
    (finals : ∀ name, (name, true) ∈ tag.implicit → static.Fixes name) :
    (LexicalScope.opened tag).Reflects program depth static := by
  refine ⟨sameTag, fun _ => level, fun outermost => absurd outermost nested,
    fun name isFinal known => ?_, fun name isFinal known => ?_, finals, fun _ name member => ?_⟩
  · rcases flags name with none | ⟨_, listed, _⟩
    · rw [none] at known
      cases known
    · exact .inl (List.mem_map_of_mem listed)
  · rcases flags name with none | ⟨_, _, flagged⟩
    · rw [none] at known
      cases known
    · rw [flagged] at known
      cases known
  · exact .inr (.inl (finals name (mem_finalsOf.mp member)))

end LexicalScope.Reflects

end Scriptlet
