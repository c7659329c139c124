/-!
# Tables ordered by name

A table from names to values, kept in the order of its names and with one value per name. The
order is that of the characters' code points, which is also that of the bytes of UTF-8.
-/

namespace TagLayers

/-- Values by name, in the order of the names. -/
structure NameTable (α : Type) where
  /-- The rows, by increasing name. -/
  rows : List (String × α) := []
deriving Repr, Inhabited

namespace NameTable

variable {α : Type}

/-- The value of a name. -/
def get? (table : NameTable α) (name : String) : Option α :=
  (table.rows.find? (·.1 == name)).map (·.2)

/-- The rows with a value put under a name: in its place if the name is new, otherwise over
the old value. -/
def insertInto (name : String) (value : α) : List (String × α) → List (String × α)
  | [] => [(name, value)]
  | row :: rest =>
      if row.1 = name then (name, value) :: rest
      else if name < row.1 then (name, value) :: row :: rest
      else row :: insertInto name value rest

/-- Puts a value under a name. -/
def insert (table : NameTable α) (name : String) (value : α) : NameTable α :=
  ⟨insertInto name value table.rows⟩

/-- The table has a value under the name. -/
def contains (table : NameTable α) (name : String) : Bool := (table.get? name).isSome

/-- The names in order. -/
def names (table : NameTable α) : List String := table.rows.map (·.1)

/-- After an insertion the name has the new value, and every other name its old one. -/
theorem get?_insert (table : NameTable α) (name other : String) (value : α) :
    (table.insert name value).get? other =
      if other = name then some value else table.get? other := by
  obtain ⟨rows⟩ := table
  simp only [insert, get?]
  induction rows with
  | nil =>
      by_cases h : other = name
      · simp [insertInto, h]
      · simp [insertInto, h, Ne.symm h]
  | cons row rest ih =>
      by_cases hr : row.1 = name
      · by_cases h : other = name
        · simp [insertInto, hr, h]
        · simp [insertInto, hr, h, Ne.symm h]
      · by_cases hlt : name < row.1
        · by_cases h : other = name
          · simp [insertInto, hr, hlt, h]
          · simp [insertInto, hr, hlt, h, Ne.symm h]
        · by_cases ho : row.1 = other
          · subst ho
            simp [insertInto, hr, hlt]
          · simp [insertInto, hr, hlt, ho, ih]

/-- Of two insertions under one name the later counts. -/
theorem insert_insert (table : NameTable α) (name : String) (a b : α) :
    (table.insert name a).insert name b = table.insert name b := by
  obtain ⟨rows⟩ := table
  simp only [insert, mk.injEq]
  induction rows with
  | nil => simp [insertInto]
  | cons row rest ih =>
      by_cases hr : row.1 = name
      · simp [insertInto, hr]
      · by_cases hlt : name < row.1
        · simp [insertInto, hr, hlt]
        · simp [insertInto, hr, hlt, ih]

end NameTable

end TagLayers
