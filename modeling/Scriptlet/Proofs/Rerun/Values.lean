import Scriptlet.Proofs.Moving
import Scriptlet.Proofs.Rerun.Atop

/-!
# Values on top of what there was before

Putting a store on top of another one moves the references of its values (`Store.movingAtop`). So a
value keeps its type and its text, and what the operators make of values that are moved is what they
make of the values, moved.
-/

namespace Scriptlet

/-- Where references are moved to on top of a store. -/
def Store.movingAtop (past : Store) : Moving :=
  ⟨.atop past, .atop past, .atop past, .atop past⟩

/-- Moving references to where they are on top is putting a value on top. -/
@[simp] theorem Value.move_movingAtop (past : Store) :
    Value.move past.movingAtop = Value.atop past := by
  funext value
  cases value <;> rfl

namespace Store

/-- Every kind of reference is moved by a number of its own. -/
theorem movingAtop_apart (past : Store) : past.movingAtop.Apart := by
  constructor
  all_goals
    rintro ⟨left⟩ ⟨right⟩ same
    simpa [movingAtop, ArrayRef.atop, FunctionRef.atop, ClassRef.atop, ObjectRef.atop] using same

variable (store past : Store)

private theorem moved_atop : store.Moved past.movingAtop (store.atop past) where
  arrays ref := by
    rw [Value.move_movingAtop]
    change (past.arrays ++ _)[past.arrays.size + ref.index]? = _
    rw [Array.getElem?_append_right (Nat.le_add_right ..), Nat.add_sub_cancel_left,
      Array.getElem?_map]
  functions ref := by
    change ((store.atop past).function? (ref.atop past)).map _ = _
    rw [function?_atop, Option.map_map]
    rfl
  classes ref := className_atop store past ref
  objects ref := by
    change ((store.atop past).object? (ref.atop past)).map _ = _
    rw [object?_atop, Option.map_map]
    rfl
  modules _ := rfl

/-- A value has the same text on top. -/
theorem text_atop (value : Value) :
    (store.atop past).text (value.atop past) = store.text value := by
  simpa using (moved_atop store past).text past.movingAtop_apart value

end Store

namespace Value

variable (store past : Store)

/-- A value that is moved is true if it was. -/
@[simp] theorem isTruthy_atop (value : Value) : (value.atop past).isTruthy = value.isTruthy := by
  simpa using isTruthy_move past.movingAtop value

/-- A literal stays as it is on top. -/
@[simp] theorem atop_ofLiteral (value : Literal) :
    (ofLiteral value).atop past = ofLiteral value := by
  rw [← move_movingAtop, move_ofLiteral]

/-- An operator makes of values that are moved what it makes of the values, moved. -/
theorem binary_atop (left right : Value) (op : BinaryOp) :
    binary (store.atop past) op (left.atop past) (right.atop past) =
      (binary store op left right).map (·.atop past) := by
  simpa using binary_move left right (store.moved_atop past) past.movingAtop_apart op

/-- A bitwise operator makes of values that are moved what it makes of the values, moved. -/
theorem bitwise_atop (left right : Value) (op : BitwiseOp) :
    bitwise op (left.atop past) (right.atop past) =
      (bitwise op left right).map (·.atop past) := by
  simpa using bitwise_move past.movingAtop left right op

/-- A unary operator makes of a value that is moved what it makes of the value, moved. -/
theorem unary_atop (op : UnaryOp) (operand : Value) :
    unary op (operand.atop past) = (unary op operand).map (·.atop past) := by
  simpa using unary_move past.movingAtop op operand

/-- An element of an array that is moved is the element, moved. -/
theorem elementAt_atop (target index : Value) :
    elementAt (store.atop past) (target.atop past) (index.atop past) =
      (elementAt store target index).map (·.atop past) := by
  simpa using elementAt_move (store.moved_atop past) target index

/-- The place of an element of an array that is moved is the same place, moved. -/
theorem elementPlace_atop (target index : Value) :
    elementPlace (store.atop past) (target.atop past) (index.atop past) =
      (elementPlace store target index).map fun (ref, place) => (ref.atop past, place) := by
  rw [← move_movingAtop]
  exact elementPlace_move (store.moved_atop past) target index

end Value

end Scriptlet
