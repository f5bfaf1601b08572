import Mathlib.Data.List.Infix
import Mathlib.Tactic.Common
import Scriptlet.Token.Trie

/-!
# Paths of the tree of operators

A sequence of characters has a path in a tree if the tree goes on below each of them
(`Trie.HasPath`). Binding a sequence gives paths to its beginnings and to nothing else, and changes
what is bound to no other sequence. What an input is matched with is told by the paths and bindings
of its beginnings (`Trie.IsLongest`).
-/

namespace Scriptlet.Trie

/-- Whether a tree goes on along a sequence. -/
def HasPath : Trie → List Char → Prop
  | _, [] => True
  | tree, c :: cs => ∃ child, tree.child? c = some child ∧ child.HasPath cs

/-- The empty sequence has a path in every tree. -/
theorem hasPath_nil (tree : Trie) : tree.HasPath [] := by
  cases tree
  trivial

/-- A sequence has a path if its rest has one below its first character. -/
theorem hasPath_cons {tree : Trie} {c : Char} {cs : List Char} :
    tree.HasPath (c :: cs) ↔ ∃ child, tree.child? c = some child ∧ child.HasPath cs := by
  cases tree
  rfl

private theorem find?_cons {tree : Trie} {c : Char} {cs : List Char} :
    tree.find? (c :: cs) = (tree.child? c).bind (·.find? cs) := by
  rw [find?]
  cases tree.child? c <;> rfl

/-! ### Binding a sequence -/

private theorem lookup_putChild (children : List (Char × Trie)) (c d : Char) (child : Trie) :
    (putChild children c child).lookup d = if d = c then some child else children.lookup d := by
  induction children with
  | nil => simp only [putChild, List.lookup_cons, List.lookup_nil]; split <;> simp_all
  | cons head rest ih =>
    obtain ⟨first, other⟩ := head
    by_cases same : c = first
    · subst same
      simp only [putChild, beq_self_eq_true, ↓reduceIte, List.lookup_cons]
      split <;> simp_all
    · simp only [putChild, beq_iff_eq, same, ↓reduceIte, List.lookup_cons, ih]
      by_cases found : d = first
      · have distinct : d ≠ c := fun equal => same (equal.symm.trans found)
        simp [found, Ne.symm same]
      · have unlike : (d == first) = false := by simpa using found
        simp [unlike]

private theorem child?_insert (tree : Trie) (c d : Char) (cs : List Char) (kind : TokenKind) :
    (tree.insert (c :: cs) kind).child? d =
      if d = c then some (((tree.child? c).getD empty).insert cs kind) else tree.child? d := by
  cases tree
  exact lookup_putChild _ c d _

private theorem kind?_insert_cons (tree : Trie) (c : Char) (cs : List Char) (kind : TokenKind) :
    (tree.insert (c :: cs) kind).kind? = tree.kind? := by
  cases tree
  rfl

private theorem kind?_insert_nil (tree : Trie) (kind : TokenKind) :
    (tree.insert [] kind).kind? = some kind := by
  cases tree
  rfl

private theorem child?_insert_nil (tree : Trie) (kind : TokenKind) (c : Char) :
    (tree.insert [] kind).child? c = tree.child? c := by
  cases tree
  rfl

/-- Nothing is bound in the empty tree. -/
theorem find?_empty (sequence : List Char) : empty.find? sequence = none := by
  cases sequence <;> rfl

/-- Only the empty sequence has a path in the empty tree. -/
theorem hasPath_empty {path : List Char} : empty.HasPath path ↔ path = [] := by
  cases path with
  | nil => simp [hasPath_nil]
  | cons c cs => simp [hasPath_cons, child?, empty]

/-- A sequence that is bound is found, and any other is found as before. -/
theorem find?_insert (sequence other : List Char) (kind : TokenKind) : ∀ tree : Trie,
    (tree.insert sequence kind).find? other =
      if other = sequence then some kind else tree.find? other := by
  induction sequence generalizing other with
  | nil =>
    intro tree
    cases other with
    | nil => simp [find?, kind?_insert_nil]
    | cons d ds => simp [find?_cons, child?_insert_nil]
  | cons c cs ih =>
    intro tree
    cases other with
    | nil => simp [find?, kind?_insert_cons]
    | cons d ds =>
      rw [find?_cons, child?_insert]
      by_cases same : d = c
      · subst same
        rw [if_pos rfl, Option.bind_some, ih, find?_cons]
        cases tree.child? d <;> simp [find?_empty]
      · simp [same, find?_cons]

/-- The new paths are those of the beginnings of the sequence. -/
theorem hasPath_insert (sequence path : List Char) (kind : TokenKind) : ∀ tree : Trie,
    (tree.insert sequence kind).HasPath path ↔ tree.HasPath path ∨ path <+: sequence := by
  induction sequence generalizing path with
  | nil =>
    intro tree
    cases path with
    | nil => simp [hasPath_nil]
    | cons d ds => simp [hasPath_cons, child?_insert_nil]
  | cons c cs ih =>
    intro tree
    cases path with
    | nil => simp [hasPath_nil]
    | cons d ds =>
      rw [hasPath_cons, child?_insert, hasPath_cons, List.cons_prefix_cons]
      by_cases same : d = c
      · subst same
        cases below : tree.child? d with
        | none =>
          simp only [↓reduceIte, Option.some.injEq, exists_eq_left', ih, Option.getD_none,
            hasPath_empty, true_and, reduceCtorEq, false_and, exists_false, false_or]
          refine ⟨fun either => ?_, .inr⟩
          rcases either with rfl | short
          · exact List.nil_prefix
          · exact short
        | some child => simp [ih]
      · simp [same]

/-! ### Matching an input -/

/-- The part of an input that has a path: it has one, and nothing longer has. -/
theorem hasPath_take_iff {input : List Char} {length : Nat} (within : length ≤ input.length) :
    ∀ tree : Trie, tree.HasPath (input.take length) ↔ length ≤ tree.reach input := by
  induction input generalizing length with
  | nil =>
    intro tree
    obtain rfl : length = 0 := by simpa using within
    simp [hasPath_nil]
  | cons c cs ih =>
    intro tree
    cases length with
    | zero => simp [hasPath_nil]
    | succ length =>
      rw [List.take_succ_cons, hasPath_cons, reach]
      cases tree.child? c with
      | none => simp
      | some child =>
        rw [List.length_cons, Nat.succ_le_succ_iff] at within
        simp [ih within child]

/-- A tree is followed at most to the end of the input. -/
theorem reach_le_length (input : List Char) : ∀ tree : Trie, tree.reach input ≤ input.length := by
  induction input with
  | nil =>
    intro tree
    simp [reach]
  | cons c cs ih =>
    intro tree
    rw [reach]
    cases tree.child? c with
    | none => simp
    | some child => simpa using ih child

/-- A match of an input is the longest: a beginning that is bound, while none that is longer is
bound; or nothing, if no beginning is bound. -/
def IsLongest (tree : Trie) (input : List Char) : Option (TokenKind × Nat) → Prop
  | some (kind, length) => length ≤ input.length ∧ tree.find? (input.take length) = some kind ∧
    ∀ longer, length < longer → longer ≤ input.length → tree.find? (input.take longer) = none
  | none => ∀ length, length ≤ input.length → tree.find? (input.take length) = none

/-- Where no beginning is bound but perhaps the empty one, the root tells the match. -/
theorem isLongest_root {tree : Trie} {input : List Char}
    (nothing : ∀ length, 0 < length → length ≤ input.length →
      tree.find? (input.take length) = none) : tree.IsLongest input (tree.kind?.map (·, 0)) := by
  cases rooted : tree.kind? with
  | none =>
    intro length within
    rcases Nat.eq_zero_or_pos length with rfl | more
    · simpa [find?] using rooted
    · exact nothing length more within
  | some kind => exact ⟨Nat.zero_le _, by simpa [find?] using rooted, nothing⟩

/-- What is found in a tree is the longest match of the input. -/
theorem isLongest_longest? (input : List Char) :
    ∀ tree : Trie, tree.IsLongest input (tree.longest? input) := by
  induction input with
  | nil =>
    intro tree
    apply isLongest_root
    intro length more within
    simp at within
    omega
  | cons c cs ih =>
    intro tree
    have below (subtree : Option Trie) (child : tree.child? c = subtree) (shorter : Nat) :
        tree.find? ((c :: cs).take (shorter + 1)) = subtree.bind (·.find? (cs.take shorter)) := by
      rw [List.take_succ_cons, find?_cons, child]
    rw [longest?]
    cases child : tree.child? c with
    | none =>
      apply isLongest_root
      intro length more within
      obtain ⟨shorter, rfl⟩ : ∃ shorter, length = shorter + 1 := ⟨length - 1, by omega⟩
      exact below none child shorter
    | some subtree =>
      have longest := ih subtree
      dsimp only
      cases matched : subtree.longest? cs with
      | none =>
        rw [matched] at longest
        apply isLongest_root
        intro length more within
        obtain ⟨shorter, rfl⟩ : ∃ shorter, length = shorter + 1 := ⟨length - 1, by omega⟩
        rw [below _ child]
        exact longest shorter (Nat.le_of_succ_le_succ within)
      | some entry =>
        obtain ⟨kind, length⟩ := entry
        rw [matched] at longest
        obtain ⟨within, bound, maximal⟩ := longest
        refine ⟨Nat.succ_le_succ within, by rw [below _ child]; exact bound, ?_⟩
        intro longer more inside
        obtain ⟨shorter, rfl⟩ : ∃ shorter, longer = shorter + 1 := ⟨longer - 1, by omega⟩
        rw [below _ child]
        exact maximal shorter (Nat.lt_of_succ_lt_succ more) (Nat.le_of_succ_le_succ inside)

/-- What lies beyond the longest path of a tree never counts. -/
theorem match_take (input : List Char) {length : Nat} : ∀ {tree : Trie},
    (∀ path, tree.HasPath path → path.length ≤ length) →
      tree.longest? (input.take length) = tree.longest? input ∧
        tree.reach (input.take length) = tree.reach input := by
  induction input generalizing length with
  | nil =>
    intro tree _
    simp
  | cons c cs ih =>
    intro tree deep
    have childless (absent : tree.child? c = none) :
        tree.longest? (c :: cs) = tree.kind?.map (·, 0) ∧ tree.reach (c :: cs) = 0 := by
      simp [longest?, reach, absent]
    cases length with
    | zero =>
      cases below : tree.child? c with
      | none =>
        obtain ⟨matched, reached⟩ := childless below
        rw [matched, reached]
        exact ⟨rfl, rfl⟩
      | some child =>
        have long := deep [c] (hasPath_cons.mpr ⟨child, below, hasPath_nil child⟩)
        exact absurd long (by simp)
    | succ length =>
      rw [List.take_succ_cons]
      cases below : tree.child? c with
      | none => simp [longest?, reach, below]
      | some child =>
        have deepBelow (path : List Char) (has : child.HasPath path) : path.length ≤ length := by
          have long := deep (c :: path) (hasPath_cons.mpr ⟨child, below, has⟩)
          simpa using long
        obtain ⟨matched, reached⟩ := ih deepBelow
        simp [longest?, reach, below, matched, reached]

end Scriptlet.Trie
