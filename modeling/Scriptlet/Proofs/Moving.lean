import Mathlib.Data.List.Basic
import Scriptlet.Value.Operation

/-!
# Values whose references are moved

The references of a value can be moved from one store to another (`Value.move`) without touching
what it says. A value that is moved has the same type, and the same text where what its references
lead to looks the same (`Store.Moved`), and equals the same values if no two references are moved to
one (`Moving.Apart`). What the operators make of values that are moved is what they make of the
values, moved.
-/

namespace Scriptlet

/-- Where references are moved to. -/
structure Moving where
  array : ArrayRef → ArrayRef
  function : FunctionRef → FunctionRef
  classRef : ClassRef → ClassRef
  object : ObjectRef → ObjectRef

/-- Different references stay different. -/
structure Moving.Apart (moving : Moving) : Prop where
  array : Function.Injective moving.array
  function : Function.Injective moving.function
  classRef : Function.Injective moving.classRef
  object : Function.Injective moving.object

namespace Value

/-- A value whose references are moved. -/
def move (moving : Moving) : Value → Value
  | .nil => .nil
  | .bool value => .bool value
  | .number value => .number value
  | .string value => .string value
  | .char value => .char value
  | .array ref => .array (moving.array ref)
  | .function ref => .function (moving.function ref)
  | .native binding => .native binding
  | .classValue ref => .classValue (moving.classRef ref)
  | .object ref => .object (moving.object ref)
  | .moduleValue ref => .moduleValue ref

variable (moving : Moving)

/-- A value that is moved has the same type. -/
@[simp] theorem type_move (value : Value) : (value.move moving).type = value.type := by
  cases value <;> rfl

/-- A value that is moved is true if it was. -/
@[simp] theorem isTruthy_move (value : Value) :
    (value.move moving).isTruthy = value.isTruthy := by
  cases value <;> rfl

/-- A literal stays where it is. -/
@[simp] theorem move_ofLiteral (value : Literal) :
    (ofLiteral value).move moving = ofLiteral value := by
  cases value <;> rfl

variable {moving}

/-- References that are moved are the same ones if they were before. -/
theorem same_move (apart : moving.Apart) (left right : Value) :
    (left.move moving).same (right.move moving) = left.same right := by
  cases left <;> cases right <;> try rfl
  case array.array left right =>
    simp [same, move, Bool.beq_eq_decide_eq, apart.array.eq_iff]
  case function.function left right =>
    simp [same, move, Bool.beq_eq_decide_eq, apart.function.eq_iff]
  case classValue.classValue left right =>
    simp [same, move, Bool.beq_eq_decide_eq, apart.classRef.eq_iff]
  case object.object left right =>
    simp [same, move, Bool.beq_eq_decide_eq, apart.object.eq_iff]

end Value

/-- What moved references lead to in one store looks as what the references lead to in another. -/
structure Store.Moved (moving : Moving) (store image : Store) : Prop where
  arrays : ∀ ref, image.arrays[(moving.array ref).index]? =
    (store.arrays[ref.index]?).map (·.map (Value.move moving))
  functions : ∀ ref, (image.function? (moving.function ref)).map (·.decl.name) =
    (store.function? ref).map (·.decl.name)
  classes : ∀ ref, image.className (moving.classRef ref) = store.className ref
  objects : ∀ ref, (image.object? (moving.object ref)).map (·.ofClass) =
    (store.object? ref).map fun object => moving.classRef object.ofClass
  modules : ∀ ref, (image.module? ref).map (·.name) = (store.module? ref).map (·.name)

namespace Store.Moved

variable {moving : Moving} {store image : Store}

/-- An array that is moved has its elements moved. -/
theorem elements (moved : store.Moved moving image) (ref : ArrayRef) :
    image.elements (moving.array ref) = (store.elements ref).map (Value.move moving) := by
  unfold Store.elements
  rw [moved.arrays]
  cases store.arrays[ref.index]? <;> simp

private theorem plainText (moved : store.Moved moving image) (value : Value) :
    image.plainText (value.move moving) = store.plainText value := by
  cases value with
  | function ref =>
      have same := moved.functions ref
      unfold Store.plainText Value.move
      dsimp only
      generalize image.function? (moving.function ref) = found at same ⊢
      generalize store.function? ref = known at same ⊢
      cases found <;> cases known <;> simp_all
  | classValue ref => exact moved.classes ref
  | object ref =>
      have same := moved.objects ref
      unfold Store.plainText Value.move
      dsimp only
      generalize image.object? (moving.object ref) = found at same ⊢
      generalize store.object? ref = known at same ⊢
      cases found <;> cases known <;> simp_all [moved.classes]
  | moduleValue ref =>
      have same := moved.modules ref
      unfold Store.plainText Value.move
      dsimp only
      generalize image.module? ref = found at same ⊢
      generalize store.module? ref = known at same ⊢
      cases found <;> cases known <;> simp_all
  | _ => rfl

private theorem write (moved : store.Moved moving image) (apart : moving.Apart)
    (opened : List ArrayRef) :
    ∀ value : Value, (image.write (opened.map moving.array) (value.move moving)).result =
      (store.write opened value).result := by
  induction opened using Store.opened_induction store with
  | opens opened ih =>
      intro value
      cases value with
      | array ref =>
          have member : moving.array ref ∈ opened.map moving.array ↔ ref ∈ opened :=
            List.mem_map_of_injective apart.array
          rw [Value.move]
          by_cases closed : ref ∈ opened
          · rw [Store.write_of_mem (member.mpr closed), Store.write_of_mem closed]
          rw [Store.write_of_not_mem fun listed => closed (member.mp listed),
            Store.write_of_not_mem closed, moved.elements, Array.toList_map, List.map_map]
          refine congrArg (fun texts => "[" ++ ", ".intercalate texts ++ "]")
            (List.map_congr_left fun element held => ?_)
          have inside : ref.index < store.arrays.size := by
            by_contra outside
            rw [Store.elements, Array.getElem?_eq_none (Nat.le_of_not_lt outside)] at held
            cases held
          exact ih ref closed inside element
      | _ =>
          rw [Store.write_of_plain (by rintro _ ⟨⟩), Store.write_of_plain (by rintro _ ⟨⟩)]
          exact moved.plainText _

/-- A value that is moved has the same text. -/
theorem text (moved : store.Moved moving image) (apart : moving.Apart) (value : Value) :
    image.text (value.move moving) = store.text value :=
  moved.write apart [] value

end Store.Moved

namespace Value

variable (moving : Moving) (left right : Value)

private theorem compare?_move :
    (left.move moving).compare? (right.move moving) = left.compare? right := by
  cases left <;> cases right <;> rfl

private theorem binaryMismatch_move (op : BinaryOp) :
    binaryMismatch op (left.move moving) (right.move moving) = binaryMismatch op left right := by
  simp [binaryMismatch]

private theorem ordering_move (op : BinaryOp) :
    ordering op (left.move moving) (right.move moving) =
      (ordering op left right).map (Value.move moving) := by
  unfold ordering
  rw [compare?_move, binaryMismatch_move]
  cases left.compare? right <;> rfl

private theorem arithmetic_move (op : BinaryOp) (compute : Float → Float → Float) :
    arithmetic op compute (left.move moving) (right.move moving) =
      (arithmetic op compute left right).map (Value.move moving) := by
  cases left <;> cases right <;> rfl

/-- A bitwise operator makes of values that are moved what it makes of the values, moved. -/
theorem bitwise_move (op : BitwiseOp) :
    bitwise op (left.move moving) (right.move moving) =
      (bitwise op left right).map (Value.move moving) := by
  cases left <;> cases right <;> try rfl
  cases op <;> rfl

/-- A unary operator makes of a value that is moved what it makes of the value, moved. -/
theorem unary_move (op : UnaryOp) (operand : Value) :
    unary op (operand.move moving) = (unary op operand).map (Value.move moving) := by
  cases op <;> cases operand <;> rfl

private theorem indexNumber_move (index : Value) :
    indexNumber (index.move moving) = indexNumber index := by
  cases index <;> rfl

variable {moving} {store image : Store} (moved : store.Moved moving image)
include moved

private theorem add_move (apart : moving.Apart) :
    add image (left.move moving) (right.move moving) =
      (add store left right).map (Value.move moving) := by
  have same (value : Value) : image.text (value.move moving) = store.text value :=
    moved.text apart value
  cases left with
  | string text => exact congrArg (fun other => Except.ok (string (text ++ other))) (same right)
  | number value =>
      cases right with
      | string text =>
          exact congrArg (fun other => Except.ok (string (other ++ text))) (same (.number value))
      | _ => rfl
  | _ =>
      cases right with
      | string text => exact congrArg (fun other => Except.ok (string (other ++ text))) (same _)
      | _ => rfl

/-- An operator makes of values that are moved what it makes of the values, moved, if they stay
apart. -/
theorem binary_move (apart : moving.Apart) (op : BinaryOp) :
    binary image op (left.move moving) (right.move moving) =
      (binary store op left right).map (Value.move moving) := by
  cases op with
  | add => exact add_move left right moved apart
  | sub | mul | div | mod => exact arithmetic_move moving left right _ _
  | equal | notEqual =>
      unfold binary
      dsimp only
      rw [same_move apart]
      rfl
  | _ => exact ordering_move moving left right _

/-- An element of an array that is moved is the element, moved. -/
theorem elementAt_move (target index : Value) :
    elementAt image (target.move moving) (index.move moving) =
      (elementAt store target index).map (Value.move moving) := by
  unfold elementAt
  rw [indexNumber_move]
  cases indexNumber index with
  | error fault => rfl
  | ok position =>
      cases target with
      | array ref =>
          change (checkedIndex position (image.elements (moving.array ref)).size >>= _) =
            (checkedIndex position (store.elements ref).size >>= _).map _
          rw [moved.elements, Array.size_map]
          cases checkedIndex position (store.elements ref).size with
          | error fault => rfl
          | ok place =>
              change Except.ok ((((store.elements ref).map (Value.move moving))[place]?).getD nil) =
                Except.ok ((((store.elements ref)[place]?).getD nil).move moving)
              rw [Array.getElem?_map]
              cases (store.elements ref)[place]? <;> rfl
      | string value =>
          change (checkedIndex position value.length >>= _) = (checkedIndex position _ >>= _).map _
          cases checkedIndex position value.length with
          | error fault => rfl
          | ok place =>
              change Except.ok (((value.toList[place]?).map char).getD nil) =
                Except.ok ((((value.toList[place]?).map char).getD nil).move moving)
              cases value.toList[place]? <;> rfl
      | _ => rfl

/-- The place of an element of an array that is moved is the same place, moved. -/
theorem elementPlace_move (target index : Value) :
    elementPlace image (target.move moving) (index.move moving) =
      (elementPlace store target index).map (Prod.map moving.array id) := by
  unfold elementPlace
  rw [indexNumber_move]
  cases indexNumber index with
  | error fault => rfl
  | ok position =>
      cases target with
      | array ref =>
          change (checkedIndex position (image.elements (moving.array ref)).size >>= _) = _
          rw [moved.elements, Array.size_map]
          change (checkedIndex position (store.elements ref).size >>= _) =
            (checkedIndex position (store.elements ref).size >>= _).map _
          cases checkedIndex position (store.elements ref).size <;> rfl
      | _ => rfl

end Value

end Scriptlet
