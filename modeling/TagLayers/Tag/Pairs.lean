import TagLayers.Tag.Basic

/-!
# Pairs of opening and closing tags

A table gives each opening tag at most one closing tag. It keeps the order in which openers
were first registered, and a later registration of the same opener replaces its closer in
place. Look-up is by equality of tags, not by meeting.
-/

namespace TagLayers

/-- The closing tag of each opening tag, in order of registration. -/
structure PairTable where
  /-- The pairs, with pairwise different openers. -/
  entries : List (Tag × Tag) := []
deriving DecidableEq, Repr, Inhabited

namespace PairTable

/-- The closer of an opener. -/
def closer? (table : PairTable) (opener : Tag) : Option Tag :=
  (table.entries.find? (·.1 == opener)).map (·.2)

/-- The pairs with `closer` registered for `opener`. -/
def insertInto (opener closer : Tag) : List (Tag × Tag) → List (Tag × Tag)
  | [] => [(opener, closer)]
  | pair :: rest =>
      if pair.1 = opener then (opener, closer) :: rest
      else pair :: insertInto opener closer rest

/-- Registers a pair. -/
def insert (table : PairTable) (opener closer : Tag) : PairTable :=
  ⟨insertInto opener closer table.entries⟩

/-- Registers every pair of `other`, whose closers win. -/
def extend (table other : PairTable) : PairTable :=
  other.entries.foldl (fun t pair => t.insert pair.1 pair.2) table

/-- The number of openers. -/
def size (table : PairTable) : Nat := table.entries.length

/-- After a registration the opener has the new closer, and every other opener its old one. -/
theorem closer?_insert (table : PairTable) (opener closer tag : Tag) :
    (table.insert opener closer).closer? tag =
      if tag = opener then some closer else table.closer? tag := by
  obtain ⟨entries⟩ := table
  simp only [insert, closer?]
  induction entries with
  | nil =>
      by_cases h : tag = opener
      · simp [insertInto, h]
      · simp [insertInto, h, Ne.symm h]
  | cons pair rest ih =>
      by_cases hp : pair.1 = opener
      · by_cases h : tag = opener
        · simp [insertInto, hp, h]
        · simp [insertInto, hp, h, Ne.symm h]
      · by_cases ht : pair.1 = tag
        · have h : tag ≠ opener := ht ▸ hp
          simp [insertInto, ht, h]
        · simp [insertInto, hp, ht, ih]

end PairTable

end TagLayers
