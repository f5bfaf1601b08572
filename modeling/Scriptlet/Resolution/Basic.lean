import Scriptlet.Tree.Statement

/-!
# Resolutions

The static analysis records, for each node that mentions a local name, how many
scopes out the name lives. A node without a record mentions a global.
-/

namespace Scriptlet

/-- The recorded distances, by node number. -/
structure Resolutions where
  distances : Array (Option Nat)

namespace Resolutions

/-- Nothing recorded. -/
def empty : Resolutions := ⟨#[]⟩

/-- The recorded distance of a node. -/
def distance? (resolutions : Resolutions) (id : NodeId) : Option Nat :=
  match resolutions.distances[id]? with
  | some distance => distance
  | none => none

/-- Records the distance of a node. -/
def record (resolutions : Resolutions) (id : NodeId) (distance : Nat) : Resolutions :=
  let missing := id + 1 - resolutions.distances.size
  ⟨(resolutions.distances ++ Array.replicate missing none).setIfInBounds id (some distance)⟩

/-- How many nodes have a record. -/
def count (resolutions : Resolutions) : Nat :=
  resolutions.distances.countP Option.isSome

/-- Where nothing is recorded, no node has a distance. -/
@[simp] theorem distance?_empty (id : NodeId) : empty.distance? id = none := by
  simp [empty, distance?]

/-- A node has the distance that was recorded for it last. -/
@[simp] theorem distance?_record_self (resolutions : Resolutions) (id : Nat)
    (distance : Nat) : (resolutions.record id distance).distance? id = some distance := by
  have inside : id < (resolutions.distances ++
      Array.replicate (id + 1 - resolutions.distances.size) (none : Option Nat)).size := by
    simp only [Array.size_append, Array.size_replicate]
    omega
  simp [record, distance?, Array.getElem?_setIfInBounds_self_of_lt inside]

/-- Recording the distance of a node leaves those of the others. -/
theorem distance?_record_of_ne (resolutions : Resolutions) {id other : Nat}
    (distance : Nat) (distinct : id ≠ other) :
    (resolutions.record id distance).distance? other = resolutions.distance? other := by
  simp only [record, distance?, Array.getElem?_setIfInBounds_ne distinct]
  by_cases inside : other < resolutions.distances.size
  · rw [Array.getElem?_append_left inside]
  · rw [Array.getElem?_append_right (Nat.le_of_not_lt inside),
      Array.getElem?_eq_none (Nat.le_of_not_lt inside)]
    by_cases padded :
      other - resolutions.distances.size < id + 1 - resolutions.distances.size <;>
    simp [padded]

end Resolutions

end Scriptlet
