import TagLayers.Pattern.Basic

/-!
# Cursors

A cursor is a position in a pattern: it rests on a tag entry, or it is past the last entry.
Groups are entered and left on the way and never rested on. For every group around the
position a frame keeps the index reached there, whether a token has been taken since the group
was entered, and the entries that follow.

Main statements:
1. `ahead_start`: a new cursor has the entries of the whole walk ahead.
2. `ahead_advance`: advancing leaves out the first entry ahead, and nothing else.
3. `ahead_skip_lt`: skipping an optional group leaves fewer entries ahead.
-/

namespace TagLayers

/-- A position within one group. -/
structure Place where
  /-- The index of the entry. -/
  index : Nat := 0
  /-- A token has been taken since the group was entered. -/
  consumed : Bool := false
  /-- The group may be absent; the whole pattern may not. -/
  optional : Bool := false
deriving DecidableEq, Repr, Inhabited

namespace Place

/-- The position after this one. -/
def next (p : Place) : Place := { p with index := p.index + 1 }

/-- The position with a token taken. -/
def consume (p : Place) : Place := { p with consumed := true }

/-- The group as a whole may still be absent. -/
def passable (p : Place) : Bool := p.optional && !p.consumed

end Place

/-- A position within one group and the entries after it. -/
structure Frame where
  /-- The position. -/
  place : Place
  /-- The entries of the group after the position. -/
  rest : Pattern

/-- A position in a pattern. -/
inductive Cursor where
  /-- On a tag entry; `outer` holds the groups around it, from the innermost outwards. -/
  | on (entry : TagEntry) (here : Frame) (outer : List Frame)
  /-- Past the last entry of the pattern. -/
  | past (place : Place)

namespace Cursor

/-- The first tag entry of a part of a group, if there is one. -/
def enter (place : Place) (outer : List Frame) : Pattern → Option Cursor
  | .nil => none
  | .item e rest => some (on e ⟨place, rest⟩ outer)
  | .group o body rest =>
      match enter { optional := o } (⟨place, rest⟩ :: outer) body with
      | some c => some c
      | none => enter place.next outer rest

/-- The first tag entry of a part of a group or, if there is none, of what follows the groups
around it. -/
def settle (place : Place) (part : Pattern) : List Frame → Cursor
  | [] => (enter place [] part).getD (past { place with index := place.index + part.size })
  | g :: outer => (enter place (g :: outer) part).getD (settle g.place.next g.rest outer)

/-- The position at the first tag entry. -/
def start (p : Pattern) : Cursor := settle {} p []

/-- The entry at the position. -/
def current? : Cursor → Option TagEntry
  | on e _ _ => some e
  | past _ => none

/-- The position is past the last entry. -/
def isPast : Cursor → Bool
  | on _ _ _ => false
  | past _ => true

/-- The positions in the groups from the whole pattern inwards. -/
def places : Cursor → List Place
  | on _ here outer => (outer.map (·.place)).reverse ++ [here.place]
  | past place => [place]

/-- The indices that lead to the position. -/
def path (c : Cursor) : List Nat := c.places.map (·.index)

/-- The next position. Past the end only the index counts on. -/
def advance : Cursor → Cursor
  | on _ here outer => settle here.place.next here.rest outer
  | past place => past place.next

/-- The position with a token taken in every group around it. -/
def consume : Cursor → Cursor
  | on e here outer =>
      on e { here with place := here.place.consume }
        (outer.map fun f => { f with place := f.place.consume })
  | past place => past place.consume

/-- The position after the innermost passable group; a group in which a token has been taken
is not left this way. -/
def skipFrom (here : Place) : List Frame → Option Cursor
  | [] => none
  | g :: outer =>
      if here.consumed then none
      else if here.optional then some (settle g.place.next g.rest outer)
      else skipFrom g.place outer

/-- Skips the innermost optional group around the position if no token was taken in it. -/
def skip? : Cursor → Option Cursor
  | on _ here outer => skipFrom here.place outer
  | past _ => none

/-- What is left of the pattern may be passed over without a token. -/
def restOptional : Cursor → Bool
  | on e here outer =>
      (here.place.passable || (e.isOptional && here.rest.allOptional))
        && outer.all fun f => f.place.passable || f.rest.allOptional
  | past _ => true

/-- The two positions are the same, with tokens taken in the same groups. -/
def same (a b : Cursor) : Bool := a.places == b.places

/-! ## Entries ahead -/

/-- The tag entries from the position on, in the order of the walk. -/
def ahead : Cursor → List TagEntry
  | on e here outer => e :: here.rest.entries ++ outer.flatMap (·.rest.entries)
  | past _ => []

@[simp] theorem ahead_on (e : TagEntry) (here : Frame) (outer : List Frame) :
    (on e here outer).ahead = e :: here.rest.entries ++ outer.flatMap (·.rest.entries) := rfl

@[simp] theorem ahead_past (place : Place) : (past place).ahead = [] := rfl

theorem enter_none {place : Place} {outer : List Frame} {part : Pattern}
    (h : enter place outer part = none) : part.entries = [] := by
  induction part generalizing place outer with
  | nil => rfl
  | item e rest => simp [enter] at h
  | group o body rest ihb ihr =>
      simp only [enter] at h
      split at h
      · exact absurd h (by simp)
      · next hb => simp [Pattern.entries, ihb hb, ihr h]

theorem ahead_enter {place : Place} {outer : List Frame} {part : Pattern} {c : Cursor}
    (h : enter place outer part = some c) :
    c.ahead = part.entries ++ outer.flatMap (·.rest.entries) := by
  induction part generalizing place outer c with
  | nil => simp [enter] at h
  | item e rest =>
      simp only [enter, Option.some.injEq] at h
      subst h
      simp [Pattern.entries]
  | group o body rest ihb ihr =>
      simp only [enter] at h
      split at h
      · next hb =>
          obtain rfl := Option.some.inj h
          simp [ihb hb, Pattern.entries]
      · next hb => simp [ihr h, Pattern.entries, enter_none hb]

theorem ahead_settle (place : Place) (part : Pattern) (outer : List Frame) :
    (settle place part outer).ahead = part.entries ++ outer.flatMap (·.rest.entries) := by
  induction outer generalizing place part with
  | nil =>
      cases h : enter place [] part with
      | none => simp [settle, h, enter_none h]
      | some c => simp [settle, h, ahead_enter h]
  | cons g outer ih =>
      cases h : enter place (g :: outer) part with
      | none => simp [settle, h, ih, enter_none h]
      | some c => simp [settle, h, ahead_enter h]

/-- A new cursor has the whole walk ahead. -/
theorem ahead_start (p : Pattern) : (start p).ahead = p.entries := by
  simp [start, ahead_settle]

/-- Advancing leaves out the first entry ahead. -/
theorem ahead_advance (c : Cursor) : c.advance.ahead = c.ahead.tail := by
  cases c with
  | on e here outer => simp [advance, ahead_settle]
  | past place => rfl

theorem ahead_consume (c : Cursor) : c.consume.ahead = c.ahead := by
  cases c with
  | on e here outer => simp [consume, List.flatMap_map]
  | past place => rfl

theorem ahead_skipFrom {here : Place} {outer : List Frame} {c : Cursor}
    (h : skipFrom here outer = some c) :
    c.ahead.length ≤ (outer.flatMap (·.rest.entries)).length := by
  induction outer generalizing here with
  | nil => simp [skipFrom] at h
  | cons g outer ih =>
      simp only [skipFrom] at h
      split at h
      · exact absurd h (by simp)
      · split at h
        · obtain rfl := Option.some.inj h
          simp [ahead_settle]
        · have := ih h
          simp only [List.flatMap_cons, List.length_append]
          omega

/-- Skipping an optional group leaves fewer entries ahead. -/
theorem ahead_skip_lt {c d : Cursor} (h : c.skip? = some d) :
    d.ahead.length < c.ahead.length := by
  cases c with
  | on e here outer =>
      have := ahead_skipFrom (h : skipFrom here.place outer = some d)
      simp only [ahead_on, List.cons_append, List.length_cons, List.length_append]
      omega
  | past place => simp [skip?] at h

theorem ahead_advance_lt {e : TagEntry} {here : Frame} {outer : List Frame} :
    (on e here outer).advance.ahead.length < (on e here outer).ahead.length := by
  simp [ahead_advance]

end Cursor

end TagLayers
