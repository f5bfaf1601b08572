/-!
# Tables

A table maps names to entries. Writing a name keeps its place, and a new name goes
to the end.
-/

namespace Scriptlet

/-- A map from names to entries. -/
abbrev Table (α : Type) := List (String × α)

namespace Table

variable {α : Type}

/-- The entry of a name. -/
def find? (table : Table α) (name : String) : Option α :=
  match table with
  | [] => none
  | (key, entry) :: rest => if key = name then some entry else find? rest name

/-- The table with the entry of a name set. -/
def put (table : Table α) (name : String) (entry : α) : Table α :=
  match table with
  | [] => [(name, entry)]
  | (key, old) :: rest =>
    if key = name then (key, entry) :: rest else (key, old) :: put rest name entry

/-- Whether a name has an entry. -/
def contains (table : Table α) (name : String) : Bool :=
  (table.find? name).isSome

/-- The names of a table. -/
def names (table : Table α) : List String :=
  table.map Prod.fst

/-- A name that was just written has the entry that was written. -/
@[simp] theorem find?_put_self (table : Table α) (name : String) (entry : α) :
    (table.put name entry).find? name = some entry := by
  induction table with
  | nil => simp [put, find?]
  | cons head rest ih =>
    obtain ⟨key, old⟩ := head
    by_cases same : key = name <;> simp [put, find?, same, ih]

/-- Writing a name leaves the entries of the others. -/
theorem find?_put_of_ne (table : Table α) {name other : String} (entry : α)
    (distinct : name ≠ other) : (table.put name entry).find? other = table.find? other := by
  induction table with
  | nil => simp [put, find?, distinct]
  | cons head rest ih =>
    obtain ⟨key, old⟩ := head
    by_cases same : key = name
    · subst same
      simp [put, find?, distinct]
    · simp [put, find?, same, ih]

/-- Nothing that has an entry loses it. -/
theorem contains_put {table : Table α} {name : String} (key : String) (entry : α)
    (known : table.contains name = true) : (table.put key entry).contains name = true := by
  unfold contains at known ⊢
  by_cases same : key = name
  · subst same
    simp
  · rwa [find?_put_of_ne _ _ same]

/-- An entry is the one that was put, or was there. -/
theorem find?_put_cases {table : Table α} {key name : String} {entry found : α}
    (listed : (table.put key entry).find? name = some found) :
    name = key ∧ found = entry ∨ table.find? name = some found := by
  by_cases same : key = name
  · subst same
    rw [find?_put_self] at listed
    exact .inl ⟨rfl, (Option.some.inj listed).symm⟩
  · rw [find?_put_of_ne _ _ same] at listed
    exact .inr listed

/-- After a name was written, it and the names from before have entries. -/
theorem contains_put_iff {table : Table α} {key name : String} {entry : α} :
    (table.put key entry).contains name = true ↔ name = key ∨ table.contains name = true := by
  constructor
  · intro known
    obtain ⟨found, listed⟩ := Option.isSome_iff_exists.mp known
    rcases find?_put_cases listed with ⟨same, _⟩ | earlier
    · exact .inl same
    · exact .inr (Option.isSome_iff_exists.mpr ⟨found, earlier⟩)
  · rintro (rfl | known)
    · rw [contains, find?_put_self]
      rfl
    · exact contains_put key entry known

end Table

end Scriptlet
