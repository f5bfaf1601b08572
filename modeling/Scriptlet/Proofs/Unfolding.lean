import Mathlib.Data.List.Forall2
import Mathlib.Tactic.Choose
import Scriptlet.Value.Text

/-!
# The unfolding of arrays

Arrays may share elements and may contain themselves, so the unfolding of a value is a tree that
need not be finite (`Store.Unfolds`). What is shown of it is: it is cut where an array occurs inside
of itself (`Store.Heads`), and nowhere else. The text of a value is that of the one picture that
shows its unfolding so (`Picture`).
-/

namespace Scriptlet

/-- A picture of a value: the text of a value that is no array, the mark of an array inside of
itself, or the pictures of the elements of an array. -/
inductive Picture where
  | plain (text : String)
  | again
  | listing (parts : List Picture)
  deriving Inhabited

namespace Picture

mutual

/-- The text of a picture. -/
def text : Picture → String
  | plain text => text
  | again => "[...]"
  | listing parts => "[" ++ ", ".intercalate (textAll parts) ++ "]"

/-- The texts of some pictures. -/
def textAll : List Picture → List String
  | [] => []
  | first :: rest => first.text :: textAll rest

end

private theorem textAll_eq_map (parts : List Picture) : textAll parts = parts.map text := by
  induction parts with
  | nil => rfl
  | cons first rest ih => rw [textAll, List.map_cons, ih]

/-- The part of a picture at a place: which element, which element of that, and so on. -/
def part? (picture : Picture) : List Nat → Option Picture
  | [] => some picture
  | index :: place =>
    match picture with
    | listing parts =>
      match parts[index]? with
      | some part => part.part? place
      | none => none
    | _ => none

end Picture

namespace Store

/-- What occurs at a place of the unfolding of a value, with the arrays that enclose the
occurrence, innermost first. -/
def occurrence? (store : Store) (enclosing : List ArrayRef) (value : Value) :
    List Nat → Option (List ArrayRef × Value)
  | [] => some (enclosing, value)
  | index :: place =>
    match value with
    | .array ref =>
      match (store.elements ref)[index]? with
      | some element => store.occurrence? (ref :: enclosing) element place
      | none => none
    | _ => none

/-- What a picture begins with at an occurrence of a value. An array is cut if it encloses the
occurrence, and shown with all of its elements if not. -/
def Heads (store : Store) (enclosing : List ArrayRef) : Value → Picture → Prop
  | .array ref, .again => ref ∈ enclosing
  | .array ref, .listing parts => ref ∉ enclosing ∧ parts.length = (store.elements ref).size
  | .array _, .plain _ => False
  | value, picture => picture = .plain (store.plainText value)

/-- The picture shows the unfolding of a value that occurs inside of some arrays: each part of it
begins as it is to begin at the occurrence it stands for. -/
def Unfolds (store : Store) (enclosing : List ArrayRef) (value : Value) (picture : Picture) :
    Prop :=
  ∀ place part, picture.part? place = some part → ∃ around occurring,
    store.occurrence? enclosing value place = some (around, occurring) ∧
      store.Heads around occurring part

variable {store : Store} {enclosing : List ArrayRef} {value : Value} {picture : Picture}
  {ref : ArrayRef}

private theorem Unfolds.heads (unfolds : store.Unfolds enclosing value picture) :
    store.Heads enclosing value picture := by
  obtain ⟨_, _, occurs, heads⟩ := unfolds [] picture rfl
  cases occurs
  exact heads

/-- A picture without parts shows what it begins as. -/
private theorem unfolds_of_heads (heads : store.Heads enclosing value picture)
    (whole : ∀ index place, picture.part? (index :: place) = none) :
    store.Unfolds enclosing value picture := by
  intro place part found
  cases place with
  | nil =>
      cases found
      exact ⟨enclosing, value, rfl, heads⟩
  | cons index place => cases (whole index place).symm.trans found

private theorem unfolds_plain_iff (plain : ∀ ref, value ≠ .array ref) :
    store.Unfolds enclosing value picture ↔ picture = .plain (store.plainText value) := by
  have heads : store.Heads enclosing value picture ↔ picture = .plain (store.plainText value) := by
    cases value with
    | array ref => exact absurd rfl (plain ref)
    | _ => exact Iff.rfl
  refine ⟨fun unfolds => heads.mp unfolds.heads, ?_⟩
  rintro rfl
  exact unfolds_of_heads (heads.mpr rfl) fun _ _ => rfl

private theorem unfolds_again_iff (member : ref ∈ enclosing) :
    store.Unfolds enclosing (.array ref) picture ↔ picture = .again := by
  constructor
  · intro unfolds
    have heads := unfolds.heads
    cases picture with
    | plain text => exact heads.elim
    | again => rfl
    | listing parts => exact absurd member heads.1
  · rintro rfl
    exact unfolds_of_heads member fun _ _ => rfl

/-- An array that does not enclose itself is shown by pictures of its elements, inside of it. -/
theorem unfolds_listing_iff (closed : ref ∉ enclosing) :
    store.Unfolds enclosing (.array ref) picture ↔
      ∃ parts, picture = .listing parts ∧
        (store.elements ref).toList.Forall₂ (store.Unfolds (ref :: enclosing)) parts := by
  constructor
  · intro unfolds
    have heads := unfolds.heads
    cases picture with
    | plain text => exact heads.elim
    | again => exact absurd heads closed
    | listing parts =>
        refine ⟨parts, rfl, List.forall₂_iff_get.mpr ⟨heads.2.symm, fun index inside listed => ?_⟩⟩
        intro place part found
        have below : (Picture.listing parts).part? (index :: place) = some part := by
          rw [Picture.part?, List.getElem?_eq_getElem listed]
          exact found
        obtain ⟨around, occurring, occurs, begins⟩ := unfolds (index :: place) part below
        refine ⟨around, occurring, ?_, begins⟩
        rw [occurrence?, Array.getElem?_eq_getElem (by simpa using inside)] at occurs
        exact occurs
  · rintro ⟨parts, rfl, each⟩ place part found
    obtain ⟨same, shown⟩ := List.forall₂_iff_get.mp each
    cases place with
    | nil =>
        cases found
        exact ⟨enclosing, .array ref, rfl, closed, same.symm⟩
    | cons index place =>
        rw [Picture.part?] at found
        cases listed : parts[index]? with
        | none =>
            rw [listed] at found
            cases found
        | some element =>
            rw [listed] at found
            obtain ⟨inside, rfl⟩ := List.getElem?_eq_some_iff.mp listed
            have held : index < (store.elements ref).toList.length := same ▸ inside
            obtain ⟨around, occurring, occurs, begins⟩ := shown index held inside place part found
            refine ⟨around, occurring, ?_, begins⟩
            rw [occurrence?, Array.getElem?_eq_getElem (by simpa using held)]
            exact occurs

/-- If each value has one picture, so have some values in a row. -/
private theorem forall₂_iff_eq_map {relation : Value → Picture → Prop} {draw : Value → Picture}
    {values : List Value} (each : ∀ value ∈ values, ∀ picture,
      relation value picture ↔ picture = draw value) (pictures : List Picture) :
    values.Forall₂ relation pictures ↔ pictures = values.map draw := by
  induction values generalizing pictures with
  | nil => simp
  | cons value values ih =>
      obtain ⟨first, others⟩ := List.forall_mem_cons.mp each
      cases pictures with
      | nil => simp
      | cons picture pictures => simp [first, ih others]

/-- One picture shows the unfolding of a value, and what is written is its text. -/
theorem exists_picture (store : Store) (opened : List ArrayRef) : ∀ value : Value,
    ∃ picture, (∀ other, store.Unfolds opened value other ↔ other = picture) ∧
      (store.write opened value).result = picture.text := by
  -- By the arrays that are not open yet, of which one less is left for the elements of an array.
  induction opened using opened_induction store with
  | opens opened ih =>
      intro value
      by_cases plain : ∀ ref, value ≠ .array ref
      · exact ⟨_, fun other => unfolds_plain_iff plain, write_of_plain plain⟩
      simp only [not_forall, not_not] at plain
      obtain ⟨ref, rfl⟩ := plain
      by_cases member : ref ∈ opened
      · exact ⟨_, fun other => unfolds_again_iff member, write_of_mem member⟩
      have drawn : ∀ element ∈ (store.elements ref).toList, ∃ picture,
          (∀ other, store.Unfolds (ref :: opened) element other ↔ other = picture) ∧
            (store.write (ref :: opened) element).result = picture.text := by
        intro element held
        refine ih ref member ?_ element
        by_contra outside
        rw [elements, Array.getElem?_eq_none (Nat.le_of_not_lt outside)] at held
        cases held
      choose! draw shown texts using drawn
      refine ⟨.listing ((store.elements ref).toList.map draw), fun other => ?_, ?_⟩
      · rw [unfolds_listing_iff member]
        simp only [forall₂_iff_eq_map shown, exists_eq_right]
      · rw [write_of_not_mem member, Picture.text, Picture.textAll_eq_map, List.map_map,
          List.map_congr_left texts]
        rfl

end Store

/-- A value is written, inside whatever arrays are open, as the one picture that shows its
unfolding: an occurrence of an array is written `[...]` exactly if the array is one of those that
enclose the occurrence, and in full if not, however often it occurs beside. The arrays that are
open are the same before and after. The text of a value is what is written inside of no array. -/
theorem write_unfolds (store : Store) (value : Value) :
    ∃ draw : List ArrayRef → Picture,
      (∀ opened picture, store.Unfolds opened value picture ↔ picture = draw opened) ∧
      (∀ opened, (store.write opened value).result = (draw opened).text ∧
        (store.write opened value).left = opened) ∧
      store.text value = (draw []).text := by
  choose draw unfolds written using fun opened => store.exists_picture opened value
  exact ⟨draw, unfolds, fun opened => ⟨written opened, (store.write opened value).balanced⟩,
    written []⟩

/-- An array that holds itself, and another one twice. -/
example : ({ Store.empty with
    arrays := #[#[.bool true, .array ⟨0⟩, .array ⟨1⟩, .array ⟨1⟩], #[.nil, .array ⟨0⟩]] } :
      Store).text (.array ⟨0⟩) = "[true, [...], [nil, [...]], [nil, [...]]]" := by
  cbv

end Scriptlet
