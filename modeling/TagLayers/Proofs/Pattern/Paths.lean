import TagLayers.Pattern.Basic
import Mathlib.Data.List.Basic

/-!
# Paths

Indices lead from a pattern into its groups and to their tag entries, when each of them is looked
up in the group that those before it lead to. The walk of a pattern is what can be looked up, in
the lexicographic order of the paths: an entry comes before those behind it in its group, whatever
groups these are in.

Results:
1. `mem_walk_iff`: the walk visits exactly the tag entries that indices lead to.
2. `walkFrom_drop`: what a walk visits before an index, and from there on.
3. `walk_sorted`, `walk_nodup`: the walk goes through the paths in order, to each one once.
-/

namespace TagLayers

namespace Pattern

/-- The entries after the first. -/
def tail : Pattern → Pattern
  | nil => nil
  | item _ rest => rest
  | group _ _ rest => rest

/-- The entries from an index on. -/
def drop (p : Pattern) : Nat → Pattern
  | 0 => p
  | i + 1 => (p.drop i).tail

/-- A group inside of a pattern. -/
structure Group where
  optional : Bool
  body : Pattern

/-- The pattern as the group around its entries, which is never absent. -/
def whole (p : Pattern) : Group := ⟨false, p⟩

namespace Group

/-- The group at an index. -/
def group? (g : Group) (i : Nat) : Option Group :=
  match g.body.drop i with
  | .group o body _ => some ⟨o, body⟩
  | _ => none

/-- The tag entry at an index. -/
def item? (g : Group) (i : Nat) : Option TagEntry :=
  match g.body.drop i with
  | .item e _ => some e
  | _ => none

/-- The group that indices lead to. -/
def groupAt? (g : Group) : List Nat → Option Group
  | [] => some g
  | i :: path => (g.group? i).bind (·.groupAt? path)

/-- The tag entry that indices lead to. -/
def entryAt? (g : Group) : List Nat → Option TagEntry
  | [] => none
  | [i] => g.item? i
  | i :: path => (g.group? i).bind (·.entryAt? path)

theorem groupAt?_concat (g : Group) (path : List Nat) (i : Nat) :
    g.groupAt? (path ++ [i]) = (g.groupAt? path).bind (·.group? i) := by
  induction path generalizing g with
  | nil => exact Option.bind_fun_some _
  | cons j path ih =>
    rw [List.cons_append, groupAt?, groupAt?, Option.bind_assoc]
    exact congrArg _ (funext ih)

theorem entryAt?_concat (g : Group) (path : List Nat) (i : Nat) :
    g.entryAt? (path ++ [i]) = (g.groupAt? path).bind (·.item? i) := by
  induction path generalizing g with
  | nil => rfl
  | cons j path ih =>
    have hstep : g.entryAt? (j :: (path ++ [i])) =
        (g.group? j).bind (·.entryAt? (path ++ [i])) := by
      cases path <;> rfl
    rw [List.cons_append, hstep, groupAt?, Option.bind_assoc]
    exact congrArg _ (funext ih)

end Group

theorem tail_drop (p : Pattern) (i : Nat) : p.tail.drop i = p.drop (i + 1) := by
  induction i with
  | zero => rfl
  | succ i ih => exact congrArg tail ih

theorem size_tail (p : Pattern) : p.tail.size = p.size - 1 := by
  cases p <;> rfl

theorem size_drop (p : Pattern) (i : Nat) : (p.drop i).size = p.size - i := by
  induction i with
  | zero => rfl
  | succ i ih => rw [drop, size_tail, ih, Nat.sub_sub]

theorem drop_eq_nil_iff {p : Pattern} {i : Nat} : p.drop i = nil ↔ p.size ≤ i := by
  have hsize := size_drop p i
  constructor
  · intro h
    rw [h, size] at hsize
    omega
  · intro h
    rw [Nat.sub_eq_zero_of_le h] at hsize
    cases hp : p.drop i with
    | nil => rfl
    | item e rest => rw [hp] at hsize; cases hsize
    | group o body rest => rw [hp] at hsize; cases hsize

/-! ## What the walk visits -/

/-- What is looked up from the second entry on is what is looked up one index further. -/
theorem entryAt?_tail (o : Bool) (p : Pattern) (j : Nat) (below : List Nat) :
    Group.entryAt? ⟨o, p.tail⟩ (j :: below) = Group.entryAt? ⟨o, p⟩ ((j + 1) :: below) := by
  have hgroup : Group.group? ⟨o, p.tail⟩ j = Group.group? ⟨o, p⟩ (j + 1) := by
    simp only [Group.group?, tail_drop]
  have hentry : Group.item? ⟨o, p.tail⟩ j = Group.item? ⟨o, p⟩ (j + 1) := by
    simp only [Group.item?, tail_drop]
  cases below with
  | nil => exact hentry
  | cons k below => exact congrArg (Option.bind · _) hgroup

/-- What is looked up lies in the first entry or further on. -/
theorem exists_entryAt?_iff {p : Pattern} {o : Bool} {path q : List Nat} {i : Nat} {e : TagEntry} :
    (∃ j below, q = path ++ (i + j) :: below ∧ Group.entryAt? ⟨o, p⟩ (j :: below) = some e) ↔
      (∃ below, q = path ++ i :: below ∧ Group.entryAt? ⟨o, p⟩ (0 :: below) = some e) ∨
        ∃ j below, q = path ++ (i + 1 + j) :: below ∧
          Group.entryAt? ⟨o, p.tail⟩ (j :: below) = some e := by
  constructor
  · rintro ⟨j, below, rfl, hlook⟩
    cases j with
    | zero => exact .inl ⟨below, rfl, hlook⟩
    | succ j => exact .inr ⟨j, below, by rw [Nat.add_right_comm]; rfl, entryAt?_tail .. ▸ hlook⟩
  · rintro (⟨below, rfl, hlook⟩ | ⟨j, below, rfl, hlook⟩)
    · exact ⟨0, below, rfl, hlook⟩
    · exact ⟨j + 1, below, by rw [Nat.add_right_comm]; rfl, entryAt?_tail .. ▸ hlook⟩

/-- The walk visits what indices lead to. -/
theorem mem_walkFrom_iff {p : Pattern} (o : Bool) {path q : List Nat} {i : Nat} {e : TagEntry} :
    (q, e) ∈ walkFrom path i p ↔
      ∃ j below, q = path ++ (i + j) :: below ∧ Group.entryAt? ⟨o, p⟩ (j :: below) = some e := by
  induction p generalizing o path i with
  | nil =>
    refine ⟨fun h => absurd h List.not_mem_nil, ?_⟩
    rintro ⟨j, below, -, hlook⟩
    have hnil : nil.drop j = nil := drop_eq_nil_iff.mpr (Nat.zero_le j)
    cases below <;> simp [Group.entryAt?, Group.item?, Group.group?, hnil] at hlook
  | item e' rest ih =>
    rw [exists_entryAt?_iff, walkFrom, List.mem_cons, ih o]
    refine or_congr ?_ Iff.rfl
    constructor
    · rintro ⟨⟩
      exact ⟨[], rfl, rfl⟩
    · rintro ⟨below, rfl, hlook⟩
      cases below <;> cases hlook
      rfl
  | group o' body rest ihb ihr =>
    rw [exists_entryAt?_iff, walkFrom, List.mem_append, ihr o, ihb o']
    refine or_congr ?_ Iff.rfl
    constructor
    · rintro ⟨j, below, rfl, hlook⟩
      refine ⟨j :: below, ?_, hlook⟩
      rw [Nat.zero_add, List.append_assoc, List.singleton_append]
    · rintro ⟨_ | ⟨j, below⟩, rfl, hlook⟩
      · cases hlook
      · refine ⟨j, below, ?_, hlook⟩
        rw [Nat.zero_add, List.append_assoc, List.singleton_append]

/-- The walk visits exactly the tag entries that indices lead to. -/
theorem mem_walk_iff {p : Pattern} {path : List Nat} {e : TagEntry} :
    (path, e) ∈ p.walk ↔ p.whole.entryAt? path = some e := by
  rw [walk, mem_walkFrom_iff p.whole.optional]
  constructor
  · rintro ⟨j, below, rfl, hlook⟩
    rwa [Nat.zero_add]
  · intro hlook
    cases path with
    | nil => cases hlook
    | cons j below => exact ⟨j, below, by rw [Nat.zero_add]; rfl, hlook⟩

/-- The items of a walk from an index on lie at that index or behind it. -/
theorem exists_of_mem_walkFrom {p : Pattern} {path : List Nat} {i : Nat}
    {item : List Nat × TagEntry} (h : item ∈ walkFrom path i p) :
    ∃ j below, i ≤ j ∧ item.1 = path ++ j :: below := by
  obtain ⟨j, below, hpath, -⟩ := (mem_walkFrom_iff false).mp h
  exact ⟨i + j, below, Nat.le_add_right i j, hpath⟩

/-- A walk visits the first entry, and then goes on behind it. -/
theorem walkFrom_tail (p : Pattern) (path : List Nat) (i : Nat) :
    ∃ first, walkFrom path i p = first ++ walkFrom path (i + 1) p.tail ∧
      ∀ item ∈ first, ∃ below, item.1 = path ++ i :: below := by
  cases p with
  | nil => exact ⟨[], rfl, fun item h => absurd h List.not_mem_nil⟩
  | item e rest =>
    refine ⟨[(path ++ [i], e)], rfl, fun item h => ⟨[], ?_⟩⟩
    rw [List.mem_singleton.mp h]
  | group o body rest =>
    refine ⟨walkFrom (path ++ [i]) 0 body, rfl, fun item h => ?_⟩
    obtain ⟨j, below, -, hpath⟩ := exists_of_mem_walkFrom h
    exact ⟨j :: below, by rw [hpath, List.append_assoc, List.singleton_append]⟩

/-- A walk visits the entries before an index, and then goes on from there. -/
theorem walkFrom_drop (p : Pattern) (path : List Nat) (i : Nat) :
    ∃ front, walkFrom path 0 p = front ++ walkFrom path i (p.drop i) ∧
      ∀ item ∈ front, ∃ j below, j < i ∧ item.1 = path ++ j :: below := by
  induction i with
  | zero => exact ⟨[], rfl, fun item h => absurd h List.not_mem_nil⟩
  | succ i ih =>
    obtain ⟨front, hwalk, hfront⟩ := ih
    obtain ⟨first, hstep, hfirst⟩ := walkFrom_tail (p.drop i) path i
    refine ⟨front ++ first, by rw [hwalk, hstep, List.append_assoc]; rfl, fun item h => ?_⟩
    rcases List.mem_append.mp h with h | h
    · obtain ⟨j, below, hj, hpath⟩ := hfront item h
      exact ⟨j, below, Nat.lt_succ_of_lt hj, hpath⟩
    · obtain ⟨below, hpath⟩ := hfirst item h
      exact ⟨i, below, Nat.lt_succ_self i, hpath⟩

theorem append_cons_lt {path below below' : List Nat} {i j : Nat} (h : i < j) :
    path ++ i :: below < path ++ j :: below' :=
  List.append_left_lt (List.cons_lt_cons_iff.mpr (.inl h))

theorem walkFrom_sorted (p : Pattern) (path : List Nat) (i : Nat) :
    ((walkFrom path i p).map (·.1)).Pairwise (· < ·) := by
  induction p generalizing path i with
  | nil => exact .nil
  | item e rest ih =>
    refine List.pairwise_cons.mpr ⟨List.forall_mem_map.mpr fun item h => ?_, ih path (i + 1)⟩
    obtain ⟨j, below, hj, hpath⟩ := exists_of_mem_walkFrom h
    exact hpath ▸ append_cons_lt hj
  | group o body rest ihb ihr =>
    rw [walkFrom, List.map_append]
    refine List.pairwise_append.mpr ⟨ihb (path ++ [i]) 0, ihr path (i + 1), ?_⟩
    rw [List.forall_mem_map]
    refine fun inner hinner => List.forall_mem_map.mpr fun outer houter => ?_
    obtain ⟨k, below, -, hpath⟩ := exists_of_mem_walkFrom hinner
    obtain ⟨j, below', hj, hpath'⟩ := exists_of_mem_walkFrom houter
    rw [hpath, hpath', List.append_assoc, List.singleton_append]
    exact append_cons_lt hj

/-- A walk goes through the paths in lexicographic order. -/
theorem walk_sorted (p : Pattern) : (p.walk.map (·.1)).Pairwise (· < ·) := walkFrom_sorted p [] 0

/-- The walk comes to each path once. -/
theorem walk_nodup (p : Pattern) : (p.walk.map (·.1)).Nodup := by
  refine (walk_sorted p).imp ?_
  rintro path _ h rfl
  exact List.lt_irrefl path h

end Pattern

end TagLayers
