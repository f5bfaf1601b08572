import Scriptlet.Number.Decimal
import Scriptlet.Value.Store

/-!
# Texts of values

The text of a value is what scripts print and what string concatenation joins. An
array is written out with its elements; an array that occurs inside itself is
written `[...]` there, so the text is finite whatever refers to what.
-/

namespace Scriptlet.Store

/-- The text of a value that is not an array. -/
def plainText (store : Store) : Value → String
  | .nil => "nil"
  | .bool value => if value then "true" else "false"
  | .number value => Number.text value
  | .string value => value
  | .char value => value.toString
  | .array _ => "[...]"
  | .function ref =>
    match store.function? ref with
    | some function => "<fun " ++ function.decl.name ++ ">"
    | none => "<fun >"
  | .native binding => "<native fun " ++ binding.moduleName ++ "." ++ binding.name ++ ">"
  | .classValue ref => store.className ref
  | .object ref =>
    match store.object? ref with
    | some object => store.className object.ofClass ++ " instance"
    | none => " instance"
  | .moduleValue ref =>
    match store.module? ref with
    | some found => "<module " ++ found.name ++ ">"
    | none => "<module >"

/-- How many arrays of the store are not among the open ones. -/
def unopened (store : Store) (opened : List ArrayRef) : Nat :=
  ((List.range store.arrays.size).filter fun index => !opened.contains ⟨index⟩).length

private theorem unopened_cons_lt (store : Store) {opened : List ArrayRef} {ref : ArrayRef}
    (inside : ref.index < store.arrays.size) (closed : ¬ref ∈ opened) :
    store.unopened (ref :: opened) < store.unopened opened := by
  unfold unopened
  have shrinks : ∀ indices : List Nat, ref.index ∈ indices →
      (indices.filter fun index => !(ref :: opened).contains ⟨index⟩).length <
        (indices.filter fun index => !opened.contains ⟨index⟩).length := by
    intro indices
    induction indices with
    | nil => simp
    | cons index rest ih =>
      intro member
      have weaker : (rest.filter fun index => !(ref :: opened).contains ⟨index⟩).length ≤
          (rest.filter fun index => !opened.contains ⟨index⟩).length := by
        rw [← List.countP_eq_length_filter, ← List.countP_eq_length_filter]
        refine List.countP_mono_left fun other _ kept => ?_
        simp_all
      by_cases same : index = ref.index
      · subst same
        have dropped : (!(ref :: opened).contains ⟨ref.index⟩) = false := by simp
        have kept : (!opened.contains ⟨ref.index⟩) = true := by simpa using closed
        rw [List.filter_cons, List.filter_cons, dropped, kept]
        simpa using Nat.lt_succ_of_le weaker
      · have later := ih (by simpa [Ne.symm same] using member)
        have agree : (!(ref :: opened).contains ⟨index⟩) = (!opened.contains ⟨index⟩) := by
          have apart : (⟨index⟩ : ArrayRef) ≠ ref := by
            intro equal
            exact same (by simp [← equal])
          simp [apart]
        rw [List.filter_cons, List.filter_cons, agree]
        split
        · simpa using later
        · exact later
  exact shrinks _ (List.mem_range.2 inside)

/-- What was written inside the open arrays, and the arrays that are open then. -/
structure Written (opened : List ArrayRef) (α : Type) where
  result : α
  left : List ArrayRef
  balanced : left = opened

/-- Closes the innermost array after its elements. -/
def Written.close {α β : Type} {ref : ArrayRef} {opened : List ArrayRef}
    (written : Written (ref :: opened) α) (finish : α → β) : Written opened β :=
  ⟨finish written.result, written.left.tail, by rw [written.balanced]; rfl⟩

mutual

/-- Writes a value inside the open arrays. An array is open while its elements are written. -/
def write (store : Store) (opened : List ArrayRef) : Value → Written opened String
  | .array ref =>
    if closed : ¬ref ∈ opened then
      if inside : ref.index < store.arrays.size then
        (store.writeAll (ref :: opened) (store.arrays[ref.index]).toList).close fun texts =>
          "[" ++ ", ".intercalate texts ++ "]"
      else ⟨"[]", opened, rfl⟩
    else ⟨"[...]", opened, rfl⟩
  | value => ⟨store.plainText value, opened, rfl⟩
termination_by (store.unopened opened, 0)
decreasing_by exact Prod.Lex.left _ _ (store.unopened_cons_lt inside closed)

/-- Writes values inside the open arrays, each with the arrays that the one before leaves
open. -/
def writeAll (store : Store) (opened : List ArrayRef) :
    List Value → Written opened (List String)
  | [] => ⟨[], opened, rfl⟩
  | first :: rest =>
    let text := store.write opened first
    let texts := store.writeAll text.left rest
    ⟨text.result :: texts.result, texts.left, texts.balanced.trans text.balanced⟩
termination_by values => (store.unopened opened, values.length)
decreasing_by
  · exact Prod.Lex.right _ (Nat.succ_pos _)
  · rw [text.balanced]
    exact Prod.Lex.right _ (Nat.lt_succ_self _)

end

/-- The text of a value. -/
def text (store : Store) (value : Value) : String :=
  (store.write [] value).result

/-! ### What is written -/

variable {store : Store} {opened : List ArrayRef}

/-- Each of some values is written inside the same arrays. -/
theorem writeAll_result (values : List Value) :
    (store.writeAll opened values).result =
      values.map fun value => (store.write opened value).result := by
  induction values with
  | nil => rw [writeAll, List.map_nil]
  | cons first rest ih =>
    rw [writeAll, List.map_cons]
    dsimp only
    rw [(store.write opened first).balanced, ih]

/-- An array that is being written out is not written out again inside itself. -/
theorem write_of_mem {ref : ArrayRef} (member : ref ∈ opened) :
    (store.write opened (.array ref)).result = "[...]" := by
  rw [write, dif_neg (not_not_intro member)]

/-- An array that is not open is written with its elements, each of them inside the array. -/
theorem write_of_not_mem {ref : ArrayRef} (closed : ref ∉ opened) :
    (store.write opened (.array ref)).result =
      "[" ++ ", ".intercalate ((store.elements ref).toList.map fun element =>
        (store.write (ref :: opened) element).result) ++ "]" := by
  rw [write, dif_pos closed, elements]
  by_cases inside : ref.index < store.arrays.size
  · rw [dif_pos inside, Array.getElem?_eq_getElem inside, Option.getD_some, Written.close,
      writeAll_result]
  · rw [dif_neg inside, Array.getElem?_eq_none (Nat.le_of_not_lt inside)]
    rfl

/-- A value that is not an array is written the same inside whatever arrays. -/
theorem write_of_plain {value : Value} (plain : ∀ ref, value ≠ .array ref) :
    (store.write opened value).result = store.plainText value := by
  rw [write]
  exact plain

/-- What holds of some open arrays if it holds with one more of the store open holds of all. -/
theorem opened_induction (store : Store) {property : List ArrayRef → Prop}
    (opens : ∀ opened, (∀ ref : ArrayRef, ref ∉ opened → ref.index < store.arrays.size →
      property (ref :: opened)) → property opened) (opened : List ArrayRef) : property opened :=
  opens opened fun ref _closed _inside => opened_induction store opens (ref :: opened)
termination_by store.unopened opened
decreasing_by exact store.unopened_cons_lt _inside _closed

end Scriptlet.Store
