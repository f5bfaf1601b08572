import Mathlib.Data.List.Nodup
import Scriptlet.Table

/-!
# Tables on top of tables

A table that is written on top of another one keeps its entries at their places, and adds its own
ones behind (`Table.atop`). Writing a name on top is the same as writing it in what is on top
(`Table.put_atop`).
-/

namespace Scriptlet.Table

variable {α β : Type}

/-- The table with every entry changed. -/
def mapEntries (change : α → β) (table : Table α) : Table β :=
  table.map fun (key, entry) => (key, change entry)

/-- The table on top of another one: its entries count. -/
def atop (table below : Table α) : Table α :=
  below.map (fun (key, entry) => (key, (table.find? key).getD entry)) ++
    table.filter fun (key, _) => !below.contains key

/-- A name has the changed entry in the changed table. -/
@[simp] theorem find?_mapEntries (change : α → β) (table : Table α) (name : String) :
    (table.mapEntries change).find? name = (table.find? name).map change := by
  induction table with
  | nil => rfl
  | cons head rest ih =>
      obtain ⟨key, entry⟩ := head
      unfold mapEntries at ih ⊢
      by_cases same : key = name
      · simp [find?, same]
      · simp [find?, same, ih]

/-- The changed table has the same names. -/
@[simp] theorem contains_mapEntries (change : α → β) (table : Table α) (name : String) :
    (table.mapEntries change).contains name = table.contains name := by
  simp [contains]

/-- The changed table lists the same names. -/
@[simp] theorem names_mapEntries (change : α → β) (table : Table α) :
    (table.mapEntries change).names = table.names := by
  simp [names, mapEntries, Function.comp_def]

/-- Writing a name and changing the entries go in either order. -/
theorem mapEntries_put (change : α → β) (table : Table α) (name : String) (entry : α) :
    (table.put name entry).mapEntries change =
      (table.mapEntries change).put name (change entry) := by
  induction table with
  | nil => rfl
  | cons head rest ih =>
      obtain ⟨key, old⟩ := head
      unfold mapEntries at ih ⊢
      by_cases same : key = name
      · simp [put, same]
      · simp [put, same, ih]

/-- Exactly the names of a table have an entry. -/
theorem contains_iff {table : Table α} {name : String} :
    table.contains name = true ↔ name ∈ table.names := by
  induction table with
  | nil => simp [contains, find?, names]
  | cons head rest ih =>
      obtain ⟨key, old⟩ := head
      unfold contains names at ih ⊢
      by_cases same : key = name
      · simp [find?, same]
      · simp [find?, same, Ne.symm same, ih]

private theorem names_put (table : Table α) (name : String) (entry : α) :
    (table.put name entry).names =
      if table.contains name then table.names else table.names ++ [name] := by
  induction table with
  | nil => rfl
  | cons head rest ih =>
      obtain ⟨key, old⟩ := head
      unfold names contains at ih ⊢
      by_cases same : key = name
      · simp [put, find?, same]
      · rw [put, if_neg same, List.map_cons, ih, find?, if_neg same]
        split <;> rfl

/-- Writing a name leaves no name twice. -/
theorem nodup_put {table : Table α} (distinct : table.names.Nodup) (name : String) (entry : α) :
    (table.put name entry).names.Nodup := by
  rw [names_put]
  split
  · exact distinct
  · rename_i fresh
    refine distinct.append (List.nodup_singleton _) (List.disjoint_singleton.mpr fun member => ?_)
    exact fresh (contains_iff.mpr member)

private theorem find?_append (table rest : Table α) (name : String) :
    find? (table ++ rest) name = (table.find? name).or (rest.find? name) := by
  induction table with
  | nil => rfl
  | cons head tail ih =>
      obtain ⟨key, old⟩ := head
      by_cases same : key = name
      · simp [find?, same]
      · simpa [find?, same] using ih

private theorem put_append_of_contains {table : Table α} {name : String} (rest : Table α)
    (entry : α) (known : table.contains name = true) :
    put (table ++ rest) name entry = table.put name entry ++ rest := by
  induction table with
  | nil => cases known
  | cons head tail ih =>
      obtain ⟨key, old⟩ := head
      by_cases same : key = name
      · simp [put, same]
      · have inside : contains tail name = true := by simpa [contains, find?, same] using known
        simpa [put, same] using ih inside

private theorem put_append_of_fresh {table : Table α} {name : String} (rest : Table α) (entry : α)
    (fresh : table.contains name = false) :
    put (table ++ rest) name entry = table ++ put rest name entry := by
  induction table with
  | nil => rfl
  | cons head tail ih =>
      obtain ⟨key, old⟩ := head
      by_cases same : key = name
      · simp [contains, find?, same] at fresh
      · have outside : contains tail name = false := by simpa [contains, find?, same] using fresh
        simpa [put, same] using ih outside

section Below

variable (table below : Table α) (name : String)

/-- The names of another table with the entries of this one. -/
private theorem find?_lower : find? (below.map fun (key, entry) =>
    (key, (table.find? key).getD entry)) name =
      (below.find? name).map ((table.find? name).getD ·) := by
  induction below with
  | nil => rfl
  | cons head rest ih =>
      obtain ⟨key, entry⟩ := head
      by_cases same : key = name
      · simp [find?, same]
      · simpa [find?, same] using ih

private theorem find?_upper (fresh : below.contains name = false) :
    find? (table.filter fun (key, _) => !below.contains key) name = table.find? name := by
  induction table with
  | nil => rfl
  | cons head rest ih =>
      obtain ⟨key, entry⟩ := head
      by_cases same : key = name
      · simp [find?, same, fresh]
      · by_cases outside : below.contains key = true
        · simpa [find?, same, outside] using ih
        · simpa [find?, same, outside] using ih

/-- What is on top is found first. -/
theorem find?_atop : (table.atop below).find? name = (table.find? name).or (below.find? name) := by
  unfold atop
  rw [find?_append, find?_lower]
  cases found : below.find? name with
  | some entry => cases table.find? name <;> rfl
  | none =>
      rw [find?_upper _ _ _ (by simp [contains, found])]
      simp

/-- The empty table adds nothing on top. -/
@[simp] theorem nil_atop : atop [] below = below := by
  simp [atop, find?]

/-- A table whose names are below adds none. -/
theorem names_atop (inside : ∀ name ∈ table.names, name ∈ below.names) :
    (table.atop below).names = below.names := by
  have nothing : table.filter (fun (key, _) => !below.contains key) = [] := by
    refine List.filter_eq_nil_iff.mpr fun (key, entry) member => ?_
    simp [contains_iff.mpr (inside key (List.mem_map_of_mem member))]
  simp [atop, nothing, names, Function.comp_def]

private theorem filter_put (entry : α) (fresh : below.contains name = false) :
    (table.put name entry).filter (fun (key, _) => !below.contains key) =
      put (table.filter fun (key, _) => !below.contains key) name entry := by
  induction table with
  | nil => simp [put, fresh]
  | cons head rest ih =>
      obtain ⟨key, old⟩ := head
      by_cases same : key = name
      · simp [put, same, fresh]
      · by_cases outside : below.contains key = true
        · simpa [put, same, outside] using ih
        · simpa [put, same, outside] using ih

private theorem filter_put_of_contains (entry : α) (known : below.contains name = true) :
    (table.put name entry).filter (fun (key, _) => !below.contains key) =
      table.filter fun (key, _) => !below.contains key := by
  induction table with
  | nil => simp [put, known]
  | cons head rest ih =>
      obtain ⟨key, old⟩ := head
      by_cases same : key = name
      · simp [put, same, known]
      · by_cases outside : below.contains key = true
        · simpa [put, same, outside] using ih
        · simpa [put, same, outside] using ih

private theorem lower_put_of_fresh (entry : α) (fresh : below.contains name = false) :
    (below.map fun (key, old) => (key, ((table.put name entry).find? key).getD old)) =
      below.map fun (key, old) => (key, (table.find? key).getD old) := by
  refine List.map_congr_left fun (key, old) member => ?_
  have other : name ≠ key := by
    rintro rfl
    have known : below.contains name = true := contains_iff.mpr (List.mem_map_of_mem member)
    rw [fresh] at known
    cases known
  dsimp only
  rw [find?_put_of_ne _ _ other]

private theorem lower_put (entry : α) (distinct : below.names.Nodup)
    (known : below.contains name = true) :
    (below.map fun (key, old) => (key, ((table.put name entry).find? key).getD old)) =
      put (below.map fun (key, old) => (key, (table.find? key).getD old)) name entry := by
  induction below with
  | nil => cases known
  | cons head rest ih =>
      obtain ⟨key, old⟩ := head
      obtain ⟨unlisted, others⟩ := List.nodup_cons.mp (show (key :: names rest).Nodup from distinct)
      by_cases same : key = name
      · subst same
        have fresh : contains rest key = false := by
          rw [← Bool.not_eq_true]
          exact fun listed => unlisted (contains_iff.mp listed)
        simp [put, lower_put_of_fresh _ _ _ _ fresh]
      · have inside : contains rest name = true := by simpa [contains, find?, same] using known
        have other : name ≠ key := fun equal => same equal.symm
        simp [put, same, find?_put_of_ne _ _ other, ih others inside]

/-- To write a name in what is on top is to write it on top. -/
theorem put_atop (entry : α) (distinct : below.names.Nodup) :
    (table.put name entry).atop below = (table.atop below).put name entry := by
  unfold atop
  by_cases known : below.contains name = true
  · have listed : contains (below.map fun (key, old) => (key, (table.find? key).getD old)) name =
        true := by
      rw [contains, find?_lower]
      simpa [contains] using known
    rw [filter_put_of_contains _ _ _ _ known, lower_put _ _ _ _ distinct known,
      put_append_of_contains _ _ listed]
  · have fresh : below.contains name = false := by simpa using known
    have unlisted : contains (below.map fun (key, old) => (key, (table.find? key).getD old)) name =
        false := by
      rw [contains, find?_lower]
      simpa [contains] using fresh
    rw [filter_put _ _ _ _ fresh, lower_put_of_fresh _ _ _ _ fresh,
      put_append_of_fresh _ _ unlisted]

end Below

end Scriptlet.Table
