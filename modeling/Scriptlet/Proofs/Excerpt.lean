import Scriptlet.Diagnostic
import Scriptlet.Proofs.SourcePieces

/-!
# Where a caret stands

A location is counted from the characters before it, an excerpt from the lines of the source. The
two agree: a diagnostic at the location behind some characters shows the line that the next
character stands in (`Diagnostic.PointsAt`), without what ends the line, and its caret stands under
this character (`Diagnostic.pointsAt`).
-/

namespace Scriptlet.Diagnostic

/-- What ends a line of a text, before what is left of the text: a line feed, together with a
return before it; or the text ends. -/
inductive Ends (line : List Char) : List Char → List Char → Prop
  | returned (later : List Char) : Ends line ['\r', '\n'] later
  | fed (later : List Char) : line.getLast? ≠ some '\r' → Ends line ['\n'] later
  | text : Ends line [] []

/-- A diagnostic that points at the culprit behind some characters of a source: below its header
it shows the line of the culprit, and below this line a caret under the culprit, behind as many
blanks as there are characters of the line before it, which are tabs where those are. -/
def PointsAt (source before : List Char) (culprit : Char) (location : Location)
    (header rendered : List Char) : Prop :=
  ∃ earlier content ending later pads,
    source = earlier ++ (content ++ ending ++ later) ∧
    (earlier = [] ∨ earlier.getLast? = some '\n') ∧ '\n' ∉ content ∧ Ends content ending later ∧
    before = earlier ++ content.take (location.column - 1) ∧
    location.line = 1 + earlier.count '\n' ∧ 1 ≤ location.column ∧
    content[location.column - 1]? = some culprit ∧
    rendered = header ++ '\n' :: content ++ '\n' :: pads ++ ['^'] ∧
    pads.length = location.column - 1 ∧
    ∀ place, place < location.column - 1 →
      pads[place]? = some (if content[place]? = some '\t' then '\t' else ' ')

/-! ### The lines of a text -/

private theorem stretches_ne_nil (text : List Char) : stretches text ≠ [] := by
  cases text with
  | nil => exact List.cons_ne_nil _ _
  | cons c rest =>
    rw [stretches]
    split
    · exact List.cons_ne_nil _ _
    · split <;> exact List.cons_ne_nil _ _

private theorem stretches_feed (rest : List Char) :
    stretches ('\n' :: rest) = [] :: stretches rest := by
  rw [stretches]
  split
  · rename_i none
    exact absurd none (stretches_ne_nil rest)
  · rename_i first others found
    rw [if_pos rfl, found]

private theorem stretches_cons {c : Char} (other : c ≠ '\n') (rest : List Char) :
    ∃ first others, stretches rest = first :: others ∧
      stretches (c :: rest) = (c :: first) :: others := by
  obtain ⟨first, others, found⟩ := List.exists_cons_of_ne_nil (stretches_ne_nil rest)
  refine ⟨first, others, found, ?_⟩
  rw [stretches, found]
  exact if_neg other

/-- A text without line feeds is one stretch. -/
theorem stretches_of_not_mem : ∀ {text : List Char}, '\n' ∉ text → stretches text = [text]
  | [], _ => rfl
  | c :: rest, unfed => by
    have other := (List.ne_of_not_mem_cons unfed).symm
    obtain ⟨first, others, found, whole⟩ := stretches_cons other rest
    rw [stretches_of_not_mem (List.not_mem_of_not_mem_cons unfed)] at found
    obtain ⟨rfl, rfl⟩ := List.cons.inj found
    exact whole

/-- The first line feed ends the first stretch. -/
theorem stretches_append : ∀ {text : List Char} (rest : List Char), '\n' ∉ text →
    stretches (text ++ '\n' :: rest) = text :: stretches rest
  | [], rest, _ => stretches_feed rest
  | c :: text, rest, unfed => by
    have other := (List.ne_of_not_mem_cons unfed).symm
    obtain ⟨first, others, found, whole⟩ := stretches_cons other (text ++ '\n' :: rest)
    rw [stretches_append rest (List.not_mem_of_not_mem_cons unfed)] at found
    obtain ⟨rfl, rfl⟩ := List.cons.inj found
    exact whole

private theorem linesOf_cons (line : List Char) {rest : List (List Char)} (more : rest ≠ []) :
    linesOf (line :: rest) = dropReturn line :: linesOf rest := by
  cases rest with
  | nil => exact absurd rfl more
  | cons next others => rfl

/-- The first line of a text does not matter for the later ones. -/
theorem linesOf_getElem?_succ (line other : List Char) (rest : List (List Char)) (index : Nat) :
    (linesOf (line :: rest))[index + 1]? = (linesOf (other :: rest))[index + 1]? := by
  cases rest with
  | nil => cases line <;> cases other <;> rfl
  | cons next others => rfl

/-- The lines of a text that begins with whole lines go on with those of the rest. -/
theorem lines_behind (rest : List Char) : ∀ {earlier : List Char},
    earlier = [] ∨ earlier.getLast? = some '\n' →
      (linesOf (stretches (earlier ++ rest)))[earlier.count '\n']? =
        (linesOf (stretches rest))[0]? := by
  intro earlier
  induction earlier with
  | nil => exact fun _ => rfl
  | cons c more ih =>
    intro whole
    have tail : more = [] ∨ more.getLast? = some '\n' := by
      cases more with
      | nil => exact .inl rfl
      | cons d others =>
        rcases whole with none | last
        · cases none
        · exact .inr (by rwa [List.getLast?_cons_cons] at last)
    have behind := ih tail
    by_cases feed : c = '\n'
    · subst feed
      rw [List.count_cons_self, List.cons_append, stretches_feed,
        linesOf_cons _ (stretches_ne_nil _), List.getElem?_cons_succ]
      exact behind
    · -- A line that is begun is ended later on, so the index is not that of the first line.
      have positive : 0 < more.count '\n' := by
        rcases tail with rfl | last
        · simp [feed] at whole
        · exact List.count_pos_iff.mpr (List.mem_of_getLast? last)
      obtain ⟨first, others, found, extended⟩ := stretches_cons feed (more ++ rest)
      rw [List.count_cons_of_ne feed, List.cons_append, extended]
      obtain ⟨index, count⟩ := Nat.exists_eq_succ_of_ne_zero (Nat.ne_of_gt positive)
      rw [count] at behind ⊢
      rw [found] at behind
      exact (linesOf_getElem?_succ (c :: first) first others index).trans behind

/-- A return at the end of a line is no part of it if a line feed follows. -/
theorem dropReturn_cases (line : List Char) :
    line.getLast? ≠ some '\r' ∧ dropReturn line = line ∨ line = dropReturn line ++ ['\r'] := by
  unfold dropReturn
  split
  · rename_i last
    obtain ⟨short, rfl⟩ := List.getLast?_eq_some_iff.mp last
    rw [List.dropLast_concat]
    exact .inr rfl
  · rename_i other
    exact .inl ⟨other, rfl⟩

/-- The first line of a text that holds a character which ends no line, from the characters before
this one on. -/
theorem first_line {start : List Char} {culprit : Char} (unfed : '\n' ∉ start)
    (noFeed : culprit ≠ '\n') (noReturn : culprit ≠ '\r') (rest : List Char) :
    ∃ line ending later, start ++ culprit :: rest = line ++ ending ++ later ∧ '\n' ∉ line ∧
      Ends line ending later ∧ start ++ [culprit] <+: line ∧
      (linesOf (stretches (start ++ culprit :: rest)))[0]? = some line := by
  by_cases fed : '\n' ∈ rest
  · obtain ⟨body, later, rfl, short⟩ := List.eq_append_cons_of_mem fed
    have whole : '\n' ∉ start ++ culprit :: body := by
      simp [unfed, short, noFeed.symm]
    have split : start ++ culprit :: (body ++ '\n' :: later) =
        (start ++ culprit :: body) ++ '\n' :: later := by simp
    rw [split, stretches_append later whole, linesOf_cons _ (stretches_ne_nil later)]
    rcases dropReturn_cases (start ++ culprit :: body) with ⟨last, same⟩ | dropped
    · rw [same]
      exact ⟨_, ['\n'], later, by simp, whole, .fed later last, ⟨body, by simp⟩, rfl⟩
    · -- The return is behind the culprit.
      rcases List.eq_nil_or_concat body with rfl | ⟨inner, last, rfl⟩
      · obtain ⟨_, same⟩ := List.append_inj' dropped rfl
        cases same
        exact absurd rfl noReturn
      · have concat : start ++ culprit :: inner.concat last =
            start ++ culprit :: inner ++ [last] := by
          simp
        rw [concat] at dropped
        obtain ⟨same, returned⟩ := List.append_inj' dropped rfl
        cases returned
        rw [← concat] at same
        rw [← same]
        refine ⟨_, ['\r', '\n'], later, by simp, ?_, .returned later, ⟨inner, by simp⟩, rfl⟩
        intro member
        apply whole
        rw [concat]
        exact List.mem_append_left _ member
  · have whole : '\n' ∉ start ++ culprit :: rest := by
      simp [unfed, fed, noFeed.symm]
    rw [stretches_of_not_mem whole]
    refine ⟨_, [], [], by simp, whole, .text, ⟨rest, by simp⟩, ?_⟩
    simp [linesOf]

/-! ### The caret -/

private theorem length_padding (line : List Char) (column : Nat) :
    (padding line column).length = column - 1 := by
  simp only [padding, List.length_append, List.length_map, List.length_replicate, List.length_take]
  omega

/-- A tab stands under a tab, and a blank under anything else. -/
theorem getElem?_padding {content : List Char} {column place : Nat}
    (within : column - 1 ≤ content.length) (before : place < column - 1) :
    (padding content column)[place]? =
      some (if content[place]? = some '\t' then '\t' else ' ') := by
  have inside : place < content.length := by omega
  rw [padding, List.getElem?_append_left (by simp; omega), List.getElem?_map,
    List.getElem?_take_of_lt before, List.getElem?_eq_getElem inside]
  simp

/-- What stands above the excerpt. -/
def header (phase : Phase) (message : String) (location : Location) : List Char :=
  (phase.name ++ " error at " ++ location.text ++ ": " ++ message).toList

/-- Where the line begins that a text ends in. -/
theorem begun_line (before : List Char) : ∃ earlier start, before = earlier ++ start ∧
    (earlier = [] ∨ earlier.getLast? = some '\n') ∧ '\n' ∉ start ∧
    Location.behind before = ⟨1 + earlier.count '\n', 1 + start.length⟩ := by
  refine ⟨(before.reverse.dropWhile (· ≠ '\n')).reverse,
    (before.reverse.takeWhile (· ≠ '\n')).reverse, ?_, ?_, ?_, ?_⟩
  · rw [← List.reverse_append, List.takeWhile_append_dropWhile, List.reverse_reverse]
  · rw [List.getLast?_reverse]
    have first := List.head?_dropWhile_not (fun c => decide (c ≠ '\n')) before.reverse
    cases found : (before.reverse.dropWhile (· ≠ '\n')).head? with
    | none => exact .inl (by rw [List.head?_eq_none_iff.mp found, List.reverse_nil])
    | some c =>
      rw [found] at first
      exact .inr (by simpa using first)
  · intro member
    have other := List.mem_takeWhile_imp (List.mem_reverse.mp member)
    simp at other
  · have whole : before.count '\n' = (before.reverse.dropWhile (· ≠ '\n')).count '\n' := by
      have none : (before.reverse.takeWhile (· ≠ '\n')).count '\n' = 0 := by
        rw [List.count_eq_zero]
        intro member
        have other := List.mem_takeWhile_imp member
        simp at other
      rw [← List.count_reverse]
      conv_lhs => rw [← List.takeWhile_append_dropWhile (p := (· ≠ '\n')) (l := before.reverse)]
      rw [List.count_append, none, Nat.zero_add]
    rw [Location.behind, whole, List.count_reverse, List.length_reverse]

/-- A diagnostic at the location behind some characters points at the next one, unless this is a
part of what ends a line. -/
theorem pointsAt {before : List Char} {culprit : Char} {rest : List Char} {source : String}
    (split : source.toList = before ++ culprit :: rest) (noFeed : culprit ≠ '\n')
    (noReturn : culprit ≠ '\r') (phase : Phase) (message : String) :
    PointsAt source.toList before culprit (.behind before)
      (header phase message (.behind before))
      (render source phase message (.behind before)).toList := by
  obtain ⟨earlier, start, rfl, begun, unfed, location⟩ := begun_line before
  obtain ⟨line, ending, later, text, short, ends, ⟨tail, behind⟩, first⟩ :=
    first_line unfed noFeed noReturn rest
  rw [List.append_assoc] at split
  have shown : excerpt source (.behind (earlier ++ start)) = line := by
    have indexed := lines_behind (start ++ culprit :: rest) begun
    rw [← split, first] at indexed
    rw [excerpt, lines, location, Nat.add_sub_cancel_left, indexed]
    rfl
  have column : (Location.behind (earlier ++ start)).column - 1 = start.length := by
    rw [location, Nat.add_sub_cancel_left]
  have within : start.length ≤ line.length := by
    rw [← behind]
    simp only [List.length_append]
    omega
  refine ⟨earlier, line, ending, later, padding line (1 + start.length), ?_, begun, short, ends,
    ?_, ?_, ?_, ?_, ?_, ?_, ?_⟩
  · rw [split, text]
  · rw [column, ← behind, List.append_assoc, List.take_left]
  · rw [location]
  · rw [location]
    exact Nat.le_add_right 1 _
  · rw [column, ← behind]
    simp
  · rw [render, shown, header, location]
    simp [String.toList_append]
  · rw [length_padding, column, Nat.add_sub_cancel_left]
  · intro place before
    rw [column] at before
    exact getElem?_padding (by omega) (by omega)

/-- A header is one line if the message is. -/
theorem feed_mem_header (phase : Phase) (message : String) (location : Location) :
    '\n' ∈ header phase message location ↔ '\n' ∈ message.toList := by
  have digits (number : Nat) : '\n' ∉ Nat.toDigits 10 number := by
    intro member
    have digit := Nat.isDigit_of_mem_toDigits (by decide) (by decide) member
    exact absurd digit (by decide)
  have named : '\n' ∉ phase.name.toList := by cases phase <;> decide
  simp [header, Location.text, String.toList_append, digits, named]

end Scriptlet.Diagnostic
