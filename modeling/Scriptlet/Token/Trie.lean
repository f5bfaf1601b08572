import Scriptlet.Token.Kind

/-!
# The tree of operator sequences

Operator sequences that share a beginning share a path. Following an input down
the tree as far as it goes, and taking the deepest kind met on the way, gives the
longest sequence the input begins with.
-/

namespace Scriptlet

/-- A tree of operator sequences: the kind that ends here, and what follows. -/
inductive Trie where
  | node (kind : Option TokenKind) (children : List (Char × Trie))
  deriving Inhabited

namespace Trie

/-- The tree without sequences. -/
def empty : Trie := .node none []

/-- The kind of the sequence that ends at the root. -/
def kind? : Trie → Option TokenKind
  | .node kind _ => kind

/-- The subtree below a character. -/
def child? : Trie → Char → Option Trie
  | .node _ children, c => children.lookup c

/-- Sets the subtree below a character, in its old place if there is one. -/
def putChild (children : List (Char × Trie)) (c : Char) (child : Trie) : List (Char × Trie) :=
  match children with
  | [] => [(c, child)]
  | (d, other) :: rest =>
    if c == d then (c, child) :: rest else (d, other) :: putChild rest c child

/-- Binds a sequence to a kind. -/
def insert : Trie → List Char → TokenKind → Trie
  | .node _ children, [], kind => .node (some kind) children
  | .node own children, c :: cs, kind =>
    .node own (putChild children c (((children.lookup c).getD empty).insert cs kind))

/-- The kind bound to exactly this sequence. -/
def find? : Trie → List Char → Option TokenKind
  | tree, [] => tree.kind?
  | tree, c :: cs =>
    match tree.child? c with
    | none => none
    | some child => child.find? cs

/-- How many characters of an input have a path in the tree. -/
def reach : Trie → List Char → Nat
  | _, [] => 0
  | tree, c :: cs =>
    match tree.child? c with
    | none => 0
    | some child => child.reach cs + 1

/-- The longest bound sequence an input begins with, as its kind and length. -/
def longest? : Trie → List Char → Option (TokenKind × Nat)
  | tree, [] => tree.kind?.map (·, 0)
  | tree, c :: cs =>
    match tree.child? c with
    | none => tree.kind?.map (·, 0)
    | some child =>
      match child.longest? cs with
      | some (kind, length) => some (kind, length + 1)
      | none => tree.kind?.map (·, 0)

end Trie

end Scriptlet
