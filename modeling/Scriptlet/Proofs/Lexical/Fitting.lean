import Scriptlet.Proofs.Lexical.Standing
import Scriptlet.Proofs.Run.Leaving

/-!
# Scopes of the text and scopes of a run

`course.Fits store scopes ref` says that the chain of scopes from `ref` out to the
globals is, scope by scope, what is said of the scopes of the text: opened by the same
construct, with the names bound that are certainly bound, and with no other name bound
for good than those that perhaps are. What a step changes leaves chains fitting, because
it changes the innermost scope only and the scopes around it were made earlier.
-/

namespace Scriptlet

/-- What successive runs of a program share: the program, the scope of its globals, the names
the host may have bound for good, and what the classes were before the first run. -/
structure Course where
  program : Program
  globals : ScopeRef
  foreign : String → Prop
  former : List (Array ClassObject)

/-- What is said of a scope of the text holds of a scope of a run. -/
structure LexicalScope.Describes (foreign : String → Prop) (scope : LexicalScope)
    (actual : Scope) : Prop where
  tag : actual.tag = scope.tag
  bound : ∀ name ∈ scope.bound, (actual.mark name).isSome
  finals : scope.deferred = false → ∀ name, actual.mark name = some true →
    name ∈ scope.finals ∨ foreign name

namespace LexicalScope.Describes

variable {foreign : String → Prop} {scope : LexicalScope} {actual later : Scope}
  {changes : List (String × Bool)}

/-- Changes of a scope that is not deferred may bind more names for good. -/
theorem loosen (describes : scope.Describes foreign actual)
    (becomes : actual.Becomes changes later) :
    (scope.loosen changes).Describes foreign later := by
  refine ⟨becomes.tag.trans describes.tag, fun name member => ?_, fun current name marked => ?_⟩
  · exact becomes.isSome_mark (describes.bound name member)
  · rcases becomes.mark name with same | ⟨isFinal, member, changed⟩
    · rw [same] at marked
      exact (describes.finals current name marked).imp (List.mem_append_left _) id
    · rw [changed] at marked
      cases marked
      exact .inl (List.mem_append_right _ (mem_finalsOf.mpr member))

/-- What is said of a scope goes on holding where no names were bound. -/
theorem quiet (describes : scope.Describes foreign actual) (becomes : actual.Becomes [] later) :
    scope.Describes foreign later := by
  have loose := describes.loosen becomes
  refine ⟨loose.tag, loose.bound, fun current name marked => ?_⟩
  simpa [LexicalScope.loosen, finalsOf] using loose.finals current name marked

/-- What is said of a deferred scope stays true whatever it binds. -/
theorem defer (describes : scope.Describes foreign actual)
    (becomes : actual.Becomes changes later) : scope.defer.Describes foreign later :=
  ⟨becomes.tag.trans describes.tag,
    fun name member => becomes.isSome_mark (describes.bound name member),
    fun current => by cases current⟩

private theorem bind (describes : scope.Describes foreign actual) {name : String} {isFinal : Bool}
    (becomes : actual.Becomes [(name, isFinal)] later) (marked : later.mark name = some isFinal) :
    (scope.bind name isFinal).Describes foreign later := by
  refine ⟨becomes.tag.trans describes.tag, fun other member => ?_, fun current other final => ?_⟩
  · rcases List.mem_cons.mp member with rfl | known
    · rw [marked]
      rfl
    · exact becomes.isSome_mark (describes.bound other known)
  · by_cases hit : other = name
    · subst hit
      rw [marked] at final
      cases final
      exact .inl (by simp [LexicalScope.bind])
    · have same : later.mark other = actual.mark other := by
        rcases becomes.mark other with same | ⟨_, member, _⟩
        · exact same
        · simp [hit] at member
      rw [same] at final
      refine (describes.finals current other final).imp (fun member => ?_) id
      unfold LexicalScope.bind
      split
      · exact List.mem_cons_of_mem _ member
      · exact List.mem_filter.mpr ⟨member, by simpa using hit⟩

/-- Less may be said of a scope: fewer names that are certainly bound, and more that perhaps are for
good. -/
theorem mono {weaker : LexicalScope} (describes : scope.Describes foreign actual)
    (tag : weaker.tag = scope.tag) (bound : weaker.bound ⊆ scope.bound)
    (finals : scope.finals ⊆ weaker.finals) (deferred : weaker.deferred = scope.deferred) :
    weaker.Describes foreign actual := by
  refine ⟨describes.tag.trans tag.symm, fun name member => describes.bound name (bound member),
    fun current name marked => ?_⟩
  rw [deferred] at current
  exact (describes.finals current name marked).imp (fun member => finals member) id

end LexicalScope.Describes

/-- The chain of scopes from a scope out to the globals, by the constructs that opened
them. -/
inductive Store.Chain (store : Store) (globals : ScopeRef) : ScopeRef → List ScopeTag → Prop where
  | outermost {actual : Scope} : store.scope? globals = some actual → actual.enclosing = none →
      Chain store globals globals [actual.tag]
  | inner {ref around : ScopeRef} {actual : Scope} {tags : List ScopeTag} :
      store.scope? ref = some actual → actual.enclosing = some around →
      Chain store globals around tags → Chain store globals ref (actual.tag :: tags)

namespace Store.Chain

variable {store : Store} {globals ref : ScopeRef} {tags others : List ScopeTag}

/-- A scope has one chain of scopes around it. -/
theorem unique (chain : store.Chain globals ref tags) (other : store.Chain globals ref others) :
    others = tags := by
  induction chain generalizing others with
  | outermost found root =>
      cases other with
      | outermost again =>
          cases found.symm.trans again
          rfl
      | inner again enclosed =>
          cases found.symm.trans again
          cases root.symm.trans enclosed
  | inner found enclosed _ ih =>
      cases other with
      | outermost again root =>
          cases found.symm.trans again
          cases root.symm.trans enclosed
      | inner again around rest =>
          cases found.symm.trans again
          cases enclosed.symm.trans around
          rw [ih rest]

end Store.Chain

namespace Course

variable (course : Course)

/-- The scopes from a scope of a run out to the globals are what is said of scopes of the
text. -/
inductive Fits (store : Store) : List LexicalScope → ScopeRef → Prop where
  | outermost {scope : LexicalScope} {actual : Scope} :
      store.scope? course.globals = some actual → actual.enclosing = none →
      scope.Describes course.foreign actual → Fits store [scope] course.globals
  | inner {scope : LexicalScope} {outer : List LexicalScope} {ref around : ScopeRef}
      {actual : Scope} :
      store.scope? ref = some actual → actual.enclosing = some around →
      around.index < ref.index → scope.Describes course.foreign actual →
      Fits store outer around → Fits store (scope :: outer) ref

namespace Fits

variable {course} {store after : Store} {scopes outer : List LexicalScope} {scope : LexicalScope}
  {ref touched : ScopeRef} {changes : List (String × Bool)}

/-- The constructs along a chain are those of the text. -/
theorem chain (fits : course.Fits store scopes ref) :
    store.Chain course.globals ref (scopes.map (·.tag)) := by
  induction fits with
  | outermost found root describes =>
      rw [List.map_singleton, ← describes.tag]
      exact .outermost found root
  | inner found enclosed _ describes _ ih =>
      rw [List.map_cons, ← describes.tag]
      exact .inner found enclosed ih

/-- A scope that fits is a scope of the store. -/
theorem scope?_isSome (fits : course.Fits store scopes ref) : (store.scope? ref).isSome := by
  cases fits with
  | outermost found => simp [found]
  | inner found => simp [found]

/-- The innermost scope is what is said of it. -/
theorem head (fits : course.Fits store (scope :: outer) ref) :
    ∃ actual, store.scope? ref = some actual ∧ scope.Describes course.foreign actual := by
  cases fits with
  | outermost found _ describes => exact ⟨_, found, describes⟩
  | inner found _ _ describes _ => exact ⟨_, found, describes⟩

/-- What is said of the innermost scope can be said anew. -/
theorem replaceHead {other : LexicalScope} (fits : course.Fits store (scope :: outer) ref)
    (renewed : ∀ actual, store.scope? ref = some actual → scope.Describes course.foreign actual →
      other.Describes course.foreign actual) : course.Fits store (other :: outer) ref := by
  cases fits with
  | outermost found root describes =>
      exact .outermost found root (renewed _ found describes)
  | inner found enclosed inward describes rest =>
      exact .inner found enclosed inward (renewed _ found describes) rest

/-- A scope made after a chain is not part of it. -/
theorem of_lt (fits : course.Fits store scopes ref) (kept : store.Keeps touched changes after)
    (earlier : ref.index < touched.index) : course.Fits after scopes ref := by
  induction fits with
  | outermost found root describes =>
      obtain ⟨later, foundLater, becomes⟩ := kept _ _ found
      rw [if_neg (fun same => Nat.lt_irrefl _ (same ▸ earlier))] at becomes
      exact .outermost foundLater (becomes.enclosing.trans root) (describes.quiet becomes)
  | inner found enclosed inward describes _ ih =>
      obtain ⟨later, foundLater, becomes⟩ := kept _ _ found
      rw [if_neg (fun same => Nat.lt_irrefl _ (same ▸ earlier))] at becomes
      exact .inner foundLater (becomes.enclosing.trans enclosed) inward (describes.quiet becomes)
        (ih (Nat.lt_trans inward earlier))

/-- Changes of the innermost scope change what is said of that scope only. -/
theorem changeHead {other : LexicalScope} (fits : course.Fits store (scope :: outer) ref)
    (kept : store.Keeps ref changes after)
    (renewed : ∀ actual later, after.scope? ref = some later → actual.Becomes changes later →
      scope.Describes course.foreign actual → other.Describes course.foreign later) :
    course.Fits after (other :: outer) ref := by
  cases fits with
  | outermost found root describes =>
      obtain ⟨later, foundLater, becomes⟩ := kept _ _ found
      rw [if_pos rfl] at becomes
      exact .outermost foundLater (becomes.enclosing.trans root)
        (renewed _ _ foundLater becomes describes)
  | inner found enclosed inward describes rest =>
      obtain ⟨later, foundLater, becomes⟩ := kept _ _ found
      rw [if_pos rfl] at becomes
      exact .inner foundLater (becomes.enclosing.trans enclosed) inward
        (renewed _ _ foundLater becomes describes) (rest.of_lt kept inward)

/-- A chain goes on fitting where some names of the innermost scope may have been bound. -/
theorem loosen (fits : course.Fits store (scope :: outer) ref)
    (kept : store.Keeps ref changes after) :
    course.Fits after (scope.loosen changes :: outer) ref :=
  fits.changeHead kept fun _ _ _ becomes describes => describes.loosen becomes

/-- A chain goes on fitting where a declaration of the innermost scope is done. -/
theorem bind (fits : course.Fits store (scope :: outer) ref) {name : String} {isFinal : Bool}
    (kept : store.Keeps ref [(name, isFinal)] after)
    (marked : ∀ later, after.scope? ref = some later → later.mark name = some isFinal) :
    course.Fits after (scope.bind name isFinal :: outer) ref :=
  fits.changeHead kept fun _ later found becomes describes =>
    describes.bind becomes (marked later found)

/-- A chain goes on fitting where no names were bound. -/
theorem quiet (fits : course.Fits store scopes ref) (kept : store.Keeps touched [] after) :
    course.Fits after scopes ref := by
  induction fits with
  | outermost found root describes =>
      obtain ⟨later, foundLater, becomes⟩ := kept _ _ found
      rw [ite_self] at becomes
      exact .outermost foundLater (becomes.enclosing.trans root) (describes.quiet becomes)
  | inner found enclosed inward describes _ ih =>
      obtain ⟨later, foundLater, becomes⟩ := kept _ _ found
      rw [ite_self] at becomes
      exact .inner foundLater (becomes.enclosing.trans enclosed) inward (describes.quiet becomes) ih

/-- What is said of deferred scopes stays true whatever is changed. -/
theorem deferAfter (fits : course.Fits store scopes ref)
    (kept : store.Keeps touched changes after) :
    course.Fits after (scopes.map (·.defer)) ref := by
  induction fits with
  | outermost found root describes =>
      obtain ⟨later, foundLater, becomes⟩ := kept _ _ found
      exact .outermost foundLater (becomes.enclosing.trans root) (describes.defer becomes)
  | inner found enclosed inward describes _ ih =>
      obtain ⟨later, foundLater, becomes⟩ := kept _ _ found
      exact .inner foundLater (becomes.enclosing.trans enclosed) inward (describes.defer becomes) ih

/-- A chain fits what is said of it later, for code that runs later. -/
theorem defer (fits : course.Fits store scopes ref) :
    course.Fits store (scopes.map (·.defer)) ref := by
  have kept : store.Keeps ref [] store := .refl store
  exact fits.deferAfter kept

/-- Deferring twice is deferring once. -/
theorem keepDeferred (fits : course.Fits store (scopes.map (·.defer)) ref)
    (kept : store.Keeps touched changes after) :
    course.Fits after (scopes.map (·.defer)) ref := by
  have deferred := fits.deferAfter kept
  rw [List.map_map] at deferred
  exact deferred

/-- A new scope around which a chain fits. -/
theorem push (fits : course.Fits store outer ref) (tag : ScopeTag) (bindings : Table Binding)
    (describes : scope.Describes course.foreign ⟨bindings, some ref, tag⟩) :
    course.Fits (store.newScope (some ref) tag bindings).2 (scope :: outer)
      (store.newScope (some ref) tag bindings).1 := by
  obtain ⟨actual, found⟩ := Option.isSome_iff_exists.mp fits.scope?_isSome
  have inside : ref.index < store.scopes.size := Store.index_lt_of_scope? found
  have kept : store.Keeps ref [] (store.newScope (some ref) tag bindings).2 :=
    .newScope store _ tag bindings
  have made : (store.newScope (some ref) tag bindings).2.scope?
      (store.newScope (some ref) tag bindings).1 = some ⟨bindings, some ref, tag⟩ := by
    simp [Store.scope?, Store.newScope]
  exact .inner made rfl inside describes (fits.quiet kept)

/-- The scope a number of steps out is described by the scope of the text there. -/
theorem ancestor? (fits : course.Fits store scopes ref) {distance : Nat}
    (listed : scopes[distance]? = some scope) :
    ∃ target actual, store.ancestor? ref distance = some target ∧
      store.scope? target = some actual ∧ scope.Describes course.foreign actual := by
  induction fits generalizing distance with
  | outermost found root describes =>
      cases distance with
      | zero =>
          cases listed
          exact ⟨_, _, rfl, found, describes⟩
      | succ distance => cases listed
  | inner found enclosed inward describes _ ih =>
      cases distance with
      | zero =>
          cases listed
          exact ⟨_, _, rfl, found, describes⟩
      | succ distance =>
          obtain ⟨target, actual, reached, rest⟩ := ih listed
          refine ⟨target, actual, ?_, rest⟩
          rw [Store.ancestor?, found]
          simp only [enclosed]
          exact reached

/-- The globals are described by the last scope of the text. -/
theorem last (fits : course.Fits store scopes ref) :
    ∃ scope actual, scopes.getLast? = some scope ∧ store.scope? course.globals = some actual ∧
      actual.enclosing = none ∧ scope.Describes course.foreign actual := by
  induction fits with
  | outermost found root describes => exact ⟨_, _, rfl, found, root, describes⟩
  | @inner scope outer ref around actual found enclosed inward describes rest ih =>
      obtain ⟨globals, actual, listed, others⟩ := ih
      refine ⟨globals, actual, ?_, others⟩
      rw [List.getLast?_cons, listed]
      rfl

end Fits

end Course

end Scriptlet
