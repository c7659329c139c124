import TagLayers.Proofs.Pattern.Loops
import Mathlib.Data.List.Nodup

/-!
# Traversals

A cursor keeps the groups that it is in, and settles on the next tag entry when it moves. A walk
goes through all groups of a pattern. They come to the same entries by the same paths, whatever
groups are empty and however many are left at once: what a cursor keeps is what its path leads to
from the whole pattern, and the items from its position on are an end of the walk.

Results:
1. `Leads.walk_eq`: the walk within a group, and what it visits before and after.
2. `Of.items_suffix`, `Of.item?_advance`: what is ahead of a cursor, and where it advances to.
3. `skipFrom_eq_some_iff`, `Of.skip?_of_skips`: the group that a skip leaves, and where it goes.
4. `traverses_walk`: cursors and walks.
-/

namespace TagLayers

open Pattern (Group walkFrom)

namespace Cursor

variable {p : Pattern} {c d : Cursor}

/-! ## The walk around a position -/

theorem not_prefix_of_ne {path below : List Nat} {i j : Nat} (h : i ≠ j) :
    ¬path ++ [i] <+: path ++ j :: below := by
  rw [List.prefix_append_right_inj, List.cons_prefix_cons]
  exact fun hp => h hp.1

/-- The walk visits a group in one go: no path leads into the group before or after. -/
theorem Leads.walk_eq {outer : List Frame} {g : Group} (h : Leads p outer g) :
    ∃ before, p.walk = before ++ (walkFrom (pathOf outer) 0 g.body ++ itemsAround outer) ∧
      ∀ item ∈ before ++ itemsAround outer, ¬pathOf outer <+: item.1 := by
  induction h with
  | whole => exact ⟨[], (List.append_nil _).symm, fun item h => absurd h List.not_mem_nil⟩
  | @into outer g place o body rest _ ha ih =>
    obtain ⟨before, hwalk, hbefore⟩ := ih
    obtain ⟨front, hgroup, hfront⟩ := Pattern.walkFrom_drop g.body (pathOf outer) place.index
    refine ⟨before ++ front, ?_, ?_⟩
    · rw [hwalk, hgroup, ha.drop_eq, pathOf_cons, itemsAround, walkFrom]
      simp only [List.append_assoc]
    intro item hitem
    rw [pathOf_cons]
    simp only [itemsAround, List.mem_append] at hitem
    rcases hitem with (hitem | hitem) | hitem | hitem
    · exact fun hp => hbefore item (List.mem_append_left _ hitem)
        ((List.prefix_append _ _).trans hp)
    · obtain ⟨j, below, hj, hpath⟩ := hfront item hitem
      exact hpath ▸ not_prefix_of_ne (Nat.ne_of_gt hj)
    · obtain ⟨j, below, hj, hpath⟩ := Pattern.exists_of_mem_walkFrom hitem
      exact hpath ▸ not_prefix_of_ne (Nat.ne_of_lt hj)
    · exact fun hp => hbefore item (List.mem_append_right _ hitem)
        ((List.prefix_append _ _).trans hp)

/-- What is ahead of a cursor is an end of the walk. -/
theorem Of.items_suffix (h : c.Of p) : c.items <:+ p.walk := by
  cases c with
  | on e here outer =>
    obtain ⟨g, hl, ha⟩ := h
    obtain ⟨before, hwalk, -⟩ := hl.walk_eq
    obtain ⟨front, hgroup, -⟩ := Pattern.walkFrom_drop g.body (pathOf outer) here.place.index
    refine ⟨before ++ front, ?_⟩
    rw [hwalk, hgroup, ha.drop_eq, walkFrom, items]
    simp only [List.append_assoc, List.cons_append]
  | past place => exact List.nil_suffix

/-- The item of the walk under the cursor. -/
def item? (c : Cursor) : Option (List Nat × TagEntry) := c.current?.map (c.path, ·)

theorem item?_eq (c : Cursor) : c.item? = c.items.head? := by
  cases c with
  | on e here outer => rw [item?, path_on]; rfl
  | past place => rfl

/-- From an item of the walk a cursor advances to the next one, and after the last it is done. -/
theorem Of.item?_advance {before after : List (List Nat × TagEntry)} {item : List Nat × TagEntry}
    (h : c.Of p) (hwalk : p.walk = before ++ item :: after) (hitem : c.item? = some item) :
    c.advance.item? = after.head? := by
  rw [item?_eq] at hitem
  obtain ⟨front, hsuffix⟩ := h.items_suffix
  obtain ⟨ahead, hahead⟩ := List.head?_eq_some_iff.mp hitem
  have hnodup : (before ++ item :: after).Nodup := hwalk ▸ p.walk_nodup.of_map
  rw [hahead, hwalk] at hsuffix
  obtain ⟨hfresh, -⟩ := List.nodup_cons.mp (List.nodup_middle.mp hnodup)
  rw [List.mem_append, not_or] at hfresh
  obtain ⟨-, -, rfl⟩ := (List.append_cons_inj_of_notMem hfresh.1 hfresh.2).mp hsuffix.symm
  rw [item?_eq, items_advance, hahead]
  rfl

/-! ## Skips -/

/-- The positions of a cursor within a group and in those around it, from the whole pattern
inwards. -/
def placesOf (here : Place) (outer : List Frame) : List Place :=
  (outer.map (·.place)).reverse ++ [here]

theorem places_on (e : TagEntry) (here : Frame) (outer : List Frame) :
    (on e here outer).places = placesOf here.place outer := rfl

theorem placesOf_cons (here : Place) (f : Frame) (outer : List Frame) :
    placesOf here (f :: outer) = placesOf f.place outer ++ [here] := by
  simp [placesOf]

theorem length_placesOf (here : Place) (outer : List Frame) :
    (placesOf here outer).length = outer.length + 1 := by
  simp [placesOf]

theorem indices_placesOf (f : Frame) (outer : List Frame) :
    (placesOf f.place outer).map (·.index) = pathOf (f :: outer) := by
  simp [placesOf, pathOf]

/-- Of the groups around these positions the one at a depth is the innermost optional group, and
no token has been taken in it. A token that has been taken in a group further in is in the way. -/
structure Skips (p : Pattern) (places : List Place) (depth : Nat) : Prop where
  around : 0 < depth ∧ depth < places.length
  optional : ∃ body, p.whole.groupAt? ((places.take depth).map (·.index)) = some ⟨true, body⟩
  untaken : ∀ place ∈ places.drop depth, place.consumed = false
  innermost : ∀ i, depth < i → i < places.length →
    ∃ body, p.whole.groupAt? ((places.take i).map (·.index)) = some ⟨false, body⟩

/-- The group around the last of the positions is left if it is optional and no token has been taken
in it. -/
theorem skips_length_iff {places : List Place} {here : Place} {body : Pattern} (hne : places ≠ [])
    (hgroup : p.whole.groupAt? (places.map (·.index)) = some ⟨here.optional, body⟩) :
    Skips p (places ++ [here]) places.length ↔ here.consumed = false ∧ here.optional = true := by
  constructor
  · intro h
    obtain ⟨body', hgroup'⟩ := h.optional
    have hopen := h.untaken
    rw [List.take_left, hgroup] at hgroup'
    rw [List.drop_left] at hopen
    exact ⟨hopen here List.mem_cons_self, congrArg Group.optional (Option.some.inj hgroup')⟩
  · rintro ⟨hopen, hopt⟩
    have hlength : (places ++ [here]).length = places.length + 1 := List.length_append
    refine ⟨⟨List.length_pos_of_ne_nil hne, hlength ▸ Nat.lt_succ_self _⟩, ⟨body, ?_⟩, ?_, ?_⟩
    · rw [List.take_left, hgroup, hopt]
    · rw [List.drop_left]
      exact List.forall_mem_singleton.mpr hopen
    · intro i hi hin
      omega

/-- A group further out is left as without the last position, which has to be passed. -/
theorem skips_concat_iff {places : List Place} {here : Place} {body : Pattern} {depth : Nat}
    (hlt : depth < places.length)
    (hgroup : p.whole.groupAt? (places.map (·.index)) = some ⟨here.optional, body⟩) :
    Skips p (places ++ [here]) depth ↔
      here.consumed = false ∧ here.optional = false ∧ Skips p places depth := by
  have hlength : (places ++ [here]).length = places.length + 1 := List.length_append
  have htake {i : Nat} (hi : i ≤ places.length) : (places ++ [here]).take i = places.take i :=
    List.take_append_of_le_length hi
  have hdrop : (places ++ [here]).drop depth = places.drop depth ++ [here] :=
    List.drop_append_of_le_length (Nat.le_of_lt hlt)
  constructor
  · intro h
    have hopen := h.untaken
    rw [hdrop, List.forall_mem_append] at hopen
    obtain ⟨body', hinner⟩ := h.innermost places.length hlt (hlength ▸ Nat.lt_succ_self _)
    rw [List.take_left, hgroup] at hinner
    refine ⟨hopen.2 here List.mem_cons_self, congrArg Group.optional (Option.some.inj hinner),
      ⟨h.around.1, hlt⟩, htake (Nat.le_of_lt hlt) ▸ h.optional, hopen.1, fun i hi hin => ?_⟩
    rw [← htake (Nat.le_of_lt hin)]
    exact h.innermost i hi (hlength ▸ Nat.lt_succ_of_lt hin)
  · rintro ⟨hopen, hopt, h⟩
    refine ⟨⟨h.around.1, hlength ▸ Nat.lt_succ_of_lt hlt⟩,
      htake (Nat.le_of_lt hlt) ▸ h.optional, ?_, fun i hi hin => ?_⟩
    · rw [hdrop]
      exact List.forall_mem_append.mpr ⟨h.untaken, List.forall_mem_singleton.mpr hopen⟩
    · rcases Nat.lt_or_eq_of_le (show i ≤ places.length by omega) with hi' | rfl
      · rw [htake (Nat.le_of_lt hi')]
        exact h.innermost i hi hi'
      · rw [List.take_left, hgroup, hopt]
        exact ⟨body, rfl⟩

/-- A skip leaves the innermost optional group around a position, if it may. -/
theorem skipFrom_eq_some_iff {outer : List Frame} {g : Group} {here : Place} (hl : Leads p outer g)
    (ho : here.optional = g.optional) :
    skipFrom here outer = some d ↔ ∃ inner f around, outer = inner ++ f :: around ∧
      Skips p (placesOf here outer) (around.length + 1) ∧
        d = settle f.place.next f.rest around := by
  induction hl generalizing here with
  | whole =>
    constructor
    · intro h
      cases h
    · rintro ⟨inner, f, around, hsplit, -⟩
      cases inner <;> cases hsplit
  | @into outer g place o body rest hl ha ih =>
    have hgroup : p.whole.groupAt? ((placesOf place outer).map (·.index))
        = some ⟨here.optional, body⟩ := by
      rw [indices_placesOf ⟨place, rest⟩, (hl.into ha).groupAt?_eq, ho]
    have hne : placesOf place outer ≠ [] :=
      List.ne_nil_of_length_pos (length_placesOf place outer ▸ Nat.succ_pos _)
    rw [skipFrom, placesOf_cons]
    constructor
    · intro h
      split at h
      · cases h
      · next hopen =>
        rw [Bool.not_eq_true] at hopen
        split at h
        · next hopt =>
          cases h
          refine ⟨[], ⟨place, rest⟩, outer, rfl, ?_, rfl⟩
          rw [← length_placesOf place outer]
          exact (skips_length_iff hne hgroup).mpr ⟨hopen, hopt⟩
        · next hopt =>
          rw [Bool.not_eq_true] at hopt
          obtain ⟨inner, f, around, rfl, hskips, rfl⟩ := (ih ha.optional_eq).mp h
          exact ⟨_ :: inner, f, around, rfl,
            (skips_concat_iff hskips.around.2 hgroup).mpr ⟨hopen, hopt, hskips⟩, rfl⟩
    · rintro ⟨inner, f, around, hsplit, hskips, rfl⟩
      cases inner with
      | nil =>
        cases hsplit
        rw [← length_placesOf place outer] at hskips
        obtain ⟨hopen, hopt⟩ := (skips_length_iff hne hgroup).mp hskips
        rw [hopen, hopt]
        rfl
      | cons f' inner =>
        obtain ⟨rfl, rfl⟩ := List.cons.inj (hsplit.trans List.cons_append)
        have hlt : around.length + 1 < (placesOf place (inner ++ f :: around)).length := by
          rw [length_placesOf, List.length_append, List.length_cons]
          omega
        obtain ⟨hopen, hopt, hskips⟩ := (skips_concat_iff hlt hgroup).mp hskips
        rw [hopen, hopt]
        exact (ih ha.optional_eq).mpr ⟨inner, f, around, rfl, hskips, rfl⟩

theorem Leads.around {inner around : List Frame} {g : Group} (h : Leads p (inner ++ around) g) :
    ∃ g', Leads p around g' := by
  induction inner generalizing g with
  | nil => exact ⟨g, h⟩
  | cons f inner ih =>
    cases h with
    | into hl _ => exact ih hl

theorem pathOf_append (inner around : List Frame) :
    pathOf (inner ++ around) = pathOf around ++ pathOf inner := by
  simp [pathOf]

theorem take_path (e : TagEntry) (here f : Frame) (inner around : List Frame) :
    (on e here (inner ++ f :: around)).path.take (around.length + 1) = pathOf (f :: around) := by
  rw [path_on, pathOf_append, List.append_assoc]
  exact List.take_left' (by simp [pathOf])

theorem exists_frame_at {outer : List Frame} {depth : Nat} (hpos : 0 < depth)
    (hle : depth ≤ outer.length) :
    ∃ inner f around, outer = inner ++ f :: around ∧ around.length + 1 = depth := by
  have hlt : outer.length - depth < outer.length := by omega
  refine ⟨_, _, _, (List.take_append_drop (outer.length - depth) outer).symm.trans
    (congrArg _ (List.drop_eq_getElem_cons hlt)), ?_⟩
  rw [List.length_drop]
  omega

/-- An item whose path leads through a group is among those that the walk visits there. -/
theorem mem_inside {before inside after : List (List Nat × TagEntry)} {path : List Nat}
    {item : List Nat × TagEntry} (hmem : item ∈ before ++ (inside ++ after))
    (houtside : ∀ item ∈ before ++ after, ¬path <+: item.1) (hpath : path <+: item.1) :
    item ∈ inside := by
  simp only [List.mem_append] at hmem houtside
  obtain hmem | hmem | hmem := hmem
  · exact absurd hpath (houtside item (.inl hmem))
  · exact hmem
  · exact absurd hpath (houtside item (.inr hmem))

/-- The walk visits the group that a skip leaves in one go, and the skip goes to what it visits
next. -/
theorem Of.skip?_of_skips {depth : Nat} (h : c.Of p) (hskips : Skips p c.places depth) :
    ∃ d before inside after, c.skip? = some d ∧ p.walk = before ++ (inside ++ after) ∧
      (∃ item ∈ inside, c.item? = some item) ∧
      (∀ item ∈ inside, c.path.take depth <+: item.1) ∧
      (∀ item ∈ before ++ after, ¬c.path.take depth <+: item.1) ∧ d.item? = after.head? := by
  obtain ⟨hpos, hlt⟩ := hskips.around
  cases c with
  | past place =>
    rw [places, List.length_singleton] at hlt
    omega
  | on e here outer =>
    have hmem := h.items_suffix.subset (path_mem_items rfl)
    obtain ⟨g, hl, ha⟩ := h
    rw [places_on, length_placesOf] at hlt
    obtain ⟨inner, f, around, rfl, rfl⟩ := exists_frame_at hpos (Nat.le_of_lt_succ hlt)
    have hskip := (skipFrom_eq_some_iff hl ha.optional_eq).mpr ⟨inner, f, around, rfl, hskips, rfl⟩
    obtain ⟨g', hl'⟩ := hl.around
    obtain ⟨before, hwalk, houtside⟩ := hl'.walk_eq
    have hpath := take_path e here f inner around ▸ List.take_prefix (around.length + 1) _
    rw [take_path]
    refine ⟨_, before, walkFrom (pathOf (f :: around)) 0 g'.body, itemsAround (f :: around), hskip,
      hwalk, ⟨_, mem_inside (hwalk ▸ hmem) houtside hpath, rfl⟩, fun item hitem => ?_, houtside, ?_⟩
    · obtain ⟨j, below, -, hitem⟩ := Pattern.exists_of_mem_walkFrom hitem
      exact hitem ▸ List.prefix_append _ _
    · rw [item?_eq, items_settle]
      rfl

/-- Without a group that a cursor may leave there is no skip. -/
theorem Of.skip?_eq_none (h : c.Of p) (hskips : ¬∃ depth, Skips p c.places depth) :
    c.skip? = none := by
  cases c with
  | past place => rfl
  | on e here outer =>
    obtain ⟨g, hl, ha⟩ := h
    refine Option.eq_none_iff_forall_ne_some.mpr fun d hskip => hskips ?_
    obtain ⟨inner, f, around, -, hdepth, -⟩ := (skipFrom_eq_some_iff hl ha.optional_eq).mp hskip
    exact ⟨_, hdepth⟩

/-- A cursor rests on an item of the walk unless it is past the last entry. -/
theorem Of.item?_cases (h : c.Of p) :
    c.isPast = true ∧ c.item? = none ∨ c.isPast = false ∧ ∃ item ∈ p.walk, c.item? = some item := by
  cases c with
  | on e here outer => exact .inr ⟨rfl, _, h.items_suffix.subset (path_mem_items rfl), rfl⟩
  | past place => exact .inl ⟨rfl, rfl⟩

/-- The cursor follows the walk of the pattern. -/
structure Follows (p : Pattern) (c : Cursor) : Prop where
  /-- The entry under the cursor is what its path leads to. -/
  current : c.current? = p.whole.entryAt? c.path
  /-- The cursor is done when its path has come to the end of the whole pattern. -/
  done : c.isPast = true ↔ ∃ i, c.path = [i] ∧ p.size ≤ i
  /-- Otherwise its path and its entry are an item of the walk. -/
  rests : c.isPast = true ∧ c.item? = none ∨
    c.isPast = false ∧ ∃ item ∈ p.walk, c.item? = some item
  /-- It advances to the next item. -/
  advance : ∀ before item after, p.walk = before ++ item :: after → c.item? = some item →
    c.advance.item? = after.head?
  /-- A token that is taken does not move it. -/
  consume : c.consume.item? = c.item?
  /-- What is done stays done. -/
  advance_done : c.isPast = true → c.advance.isPast = true
  /-- A skip goes to the item after those of the group that it leaves. -/
  skip : ∀ depth, Skips p c.places depth → ∃ d before inside after, c.skip? = some d ∧
    p.walk = before ++ (inside ++ after) ∧ (∃ item ∈ inside, c.item? = some item) ∧
      (∀ item ∈ inside, c.path.take depth <+: item.1) ∧
      (∀ item ∈ before ++ after, ¬c.path.take depth <+: item.1) ∧ d.item? = after.head?
  /-- Without a group to leave it changes nothing. -/
  stay : (¬∃ depth, Skips p c.places depth) → c.skip? = none ∧ c.move p .skip = c

theorem Of.follows (h : c.Of p) : Follows p c where
  current := h.current?_eq
  done := h.isPast_iff
  rests := h.item?_cases
  advance _ _ _ := h.item?_advance
  consume := by rw [item?_eq, items_consume, ← item?_eq]
  advance_done hpast := by
    cases c with
    | on e here outer => cases hpast
    | past place => rfl
  skip _ := h.skip?_of_skips
  stay hskips := by
    have hstay := h.skip?_eq_none hskips
    exact ⟨hstay, by rw [Cursor.move, hstay, Option.getD_none]⟩

/-- Cursors and walks go through a pattern alike, groups without entries at any depth included. The
loop of a walk visits the items of the walk. These are the tag entries that indices lead to, in the
order of their paths. A new cursor rests on the first of them, if there is one. After any sequence
of moves the loops of a cursor have come to its positions, and it follows the walk. -/
theorem traverses_walk (p : Pattern) :
    (∀ items, Pattern.Visits [(0, p)] items ↔ items = p.walk) ∧
    (∀ path e, (path, e) ∈ p.walk ↔ p.whole.entryAt? path = some e) ∧
    (p.walk.map (·.1)).Pairwise (· < ·) ∧
    (start p).item? = p.walk.head? ∧
    ∀ moves, (∀ trail, Runs p moves trail ↔ trail = (moved p moves).trail) ∧
      Follows p (moved p moves) := by
  refine ⟨fun items => Pattern.visits_iff, fun path e => Pattern.mem_walk_iff, p.walk_sorted, ?_,
    fun moves => ⟨fun trail => runs_iff, (of_moved p moves).follows⟩⟩
  rw [item?_eq, items_start]

/-- Groups without entries stand before, inside of and behind an optional group, which holds its
entries in a group of its own. -/
def gappedPattern : Pattern :=
  Pattern.nil.nest .nil |>.must (Tag.of 1)
    |>.maybe (Pattern.nil.nest (Pattern.nil.nest .nil)
      |>.nest (Pattern.nil.must (Tag.of 2) |>.can (Tag.of 3)) |>.nest .nil)
    |>.nest (Pattern.nil.nest .nil) |>.must (Tag.of 4)

/-- On the first entry of the optional group, with a token taken before. -/
def inGap : Cursor := moved gappedPattern [.consume, .advance]

theorem skips_inGap : Skips gappedPattern inGap.places 1 where
  around := by decide
  optional := ⟨_, rfl⟩
  untaken := by decide
  innermost i hpos hi := by
    obtain rfl : i = 2 := Nat.le_antisymm (Nat.le_of_lt_succ hi) hpos
    exact ⟨_, rfl⟩

theorem traverses_walk_gappedPattern :
    inGap.path = [2, 1, 0] ∧ Skips gappedPattern inGap.places 1 ∧
      inGap.advance.item?.map (·.1) = some [2, 1, 1] ∧
      ∃ d before inside after, inGap.skip? = some d ∧
        gappedPattern.walk = before ++ (inside ++ after) ∧
          (∃ item ∈ inside, inGap.item? = some item) ∧ d.item? = after.head? ∧ d.path = [4] := by
  obtain ⟨-, -, -, -, hmoved⟩ := traverses_walk gappedPattern
  have hfollows : Follows gappedPattern inGap := (hmoved [.consume, .advance]).2
  refine ⟨by decide, skips_inGap, ?_, ?_⟩
  · rw [hfollows.advance [_] _ [_, _] rfl rfl]
    rfl
  · obtain ⟨d, before, inside, after, hskip, hwalk, hinside, -, -, hd⟩ :=
      hfollows.skip 1 skips_inGap
    refine ⟨d, before, inside, after, hskip, hwalk, hinside, hd, ?_⟩
    have hpath : inGap.skip?.map (·.path) = some [4] := by decide
    rw [hskip] at hpath
    exact Option.some.inj hpath

end Cursor

end TagLayers
