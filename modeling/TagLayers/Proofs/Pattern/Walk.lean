import TagLayers.Pattern.Cursor

/-!
# Cursors and walks

A cursor goes through a pattern as the walk does. Its items are the entries from its position on,
each with the indices that lead to it, and these are always an end of the walk.

Results:
1. `items_settle`: a position that a part settles on has the items of the part ahead, and then
   those of the groups around it.
2. `items_start`, `items_advance`, `items_consume`, `items_skip_suffix`: the moves of a cursor.
3. `path_mem_items`: the first item is the entry under the cursor.
-/

namespace TagLayers

namespace Cursor

/-- The indices that lead to the group inside of the frames. -/
def pathOf (outer : List Frame) : List Nat := (outer.map (·.place.index)).reverse

/-- The items of the walk after the group inside of the frames. -/
def itemsAround : List Frame → List (List Nat × TagEntry)
  | [] => []
  | g :: outer => Pattern.walkFrom (pathOf outer) (g.place.index + 1) g.rest ++ itemsAround outer

/-- The items of the walk from the position on. -/
def items : Cursor → List (List Nat × TagEntry)
  | on e here outer =>
      (pathOf outer ++ [here.place.index], e)
        :: (Pattern.walkFrom (pathOf outer) (here.place.index + 1) here.rest ++ itemsAround outer)
  | past _ => []

theorem pathOf_cons (g : Frame) (outer : List Frame) :
    pathOf (g :: outer) = pathOf outer ++ [g.place.index] := by
  simp [pathOf]

theorem path_on (e : TagEntry) (here : Frame) (outer : List Frame) :
    (on e here outer).path = pathOf outer ++ [here.place.index] := by
  simp [path, places, pathOf]

theorem walkFrom_of_entries_nil {part : Pattern} (h : part.entries = []) (at' : List Nat)
    (i : Nat) : Pattern.walkFrom at' i part = [] := by
  rw [Pattern.entries_eq_walkFrom part at' i] at h
  exact List.map_eq_nil_iff.mp h

theorem map_itemsAround (outer : List Frame) :
    (itemsAround outer).map (·.2) = outer.flatMap (·.rest.entries) := by
  induction outer with
  | nil => rfl
  | cons g outer ih =>
    rw [itemsAround, List.map_append, ih, ← Pattern.entries_eq_walkFrom, List.flatMap_cons]

/-- The entries of the items are those ahead of the cursor. -/
theorem map_items (c : Cursor) : c.items.map (·.2) = c.ahead := by
  cases c with
  | on e here outer =>
    rw [items, List.map_cons, List.map_append, ← Pattern.entries_eq_walkFrom, map_itemsAround]
    rfl
  | past place => rfl

theorem items_enter {place : Place} {outer : List Frame} {part : Pattern} {c : Cursor}
    (h : enter place outer part = some c) :
    c.items = Pattern.walkFrom (pathOf outer) place.index part ++ itemsAround outer := by
  induction part generalizing place outer c with
  | nil => cases h
  | item e rest =>
    cases h
    rfl
  | group o body rest ihb ihr =>
    rw [enter] at h
    rw [Pattern.walkFrom, List.append_assoc]
    split at h
    · next hb =>
      cases h
      rw [ihb hb, pathOf_cons]
      rfl
    · next hb =>
      rw [ihr h, walkFrom_of_entries_nil (enter_none hb)]
      rfl

theorem items_settle (place : Place) (part : Pattern) (outer : List Frame) :
    (settle place part outer).items
      = Pattern.walkFrom (pathOf outer) place.index part ++ itemsAround outer := by
  induction outer generalizing place part with
  | nil =>
    rw [settle]
    cases h : enter place [] part with
    | none =>
      rw [walkFrom_of_entries_nil (enter_none h)]
      rfl
    | some c => exact items_enter h
  | cons g outer ih =>
    rw [settle]
    cases h : enter place (g :: outer) part with
    | none =>
      rw [walkFrom_of_entries_nil (enter_none h)]
      exact ih g.place.next g.rest
    | some c => exact items_enter h

/-- A new cursor has the whole walk ahead. -/
theorem items_start (p : Pattern) : (start p).items = p.walk := by
  rw [start, items_settle]
  exact List.append_nil _

theorem items_advance (c : Cursor) : c.advance.items = c.items.tail := by
  cases c with
  | on e here outer => exact items_settle here.place.next here.rest outer
  | past place => rfl

theorem pathOf_consume (outer : List Frame) :
    pathOf (outer.map fun f => { f with place := f.place.consume }) = pathOf outer := by
  rw [pathOf, List.map_map]
  rfl

theorem itemsAround_consume (outer : List Frame) :
    itemsAround (outer.map fun f => { f with place := f.place.consume }) = itemsAround outer := by
  induction outer with
  | nil => rfl
  | cons g outer ih =>
    rw [List.map_cons, itemsAround, ih, pathOf_consume]
    rfl

theorem items_consume (c : Cursor) : c.consume.items = c.items := by
  cases c with
  | on e here outer =>
    rw [consume, items, pathOf_consume, itemsAround_consume]
    rfl
  | past place => rfl

theorem items_skipFrom_suffix {here : Place} {outer : List Frame} {c : Cursor}
    (h : skipFrom here outer = some c) : c.items <:+ itemsAround outer := by
  induction outer generalizing here with
  | nil => cases h
  | cons g outer ih =>
    rw [skipFrom] at h
    split at h
    · cases h
    · split at h
      · cases h
        rw [items_settle]
        exact List.suffix_refl _
      · exact (ih h).trans (List.suffix_append _ _)

theorem items_skip_suffix {c d : Cursor} (h : c.skip? = some d) : d.items <:+ c.items := by
  cases c with
  | on e here outer =>
    exact (items_skipFrom_suffix h).trans
      ((List.suffix_append _ _).trans (List.suffix_cons _ _))
  | past place => cases h

/-- The entry under the cursor is the first item, and the path leads to it. -/
theorem path_mem_items {c : Cursor} {e : TagEntry} (h : c.current? = some e) :
    (c.path, e) ∈ c.items := by
  cases c with
  | on e' here outer =>
    cases h
    rw [path_on]
    exact List.mem_cons_self
  | past place => cases h

end Cursor

end TagLayers
