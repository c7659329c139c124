import TagLayers.Proofs.Pattern.Positions
import Mathlib.Data.List.Induction

/-!
# Loops with stacks

A walk and a cursor can each be told as a loop with a stack of groups. The walk keeps what is left
of each group that it is in, has moved on in a group before it goes into one inside, and drops a
group when it finds nothing left. The cursor keeps nothing but indices, looks the groups up from the
whole pattern in every round, and moves on in a group only when it comes out of one inside.

Results:
1. `visits_iff`: the loop of a walk visits what the walk does.
2. `settles_settle`, `leave?_cases`: the loops that settle a cursor and find a group to leave.
3. `runs_iff`: a cursor moves as these loops do.
-/

namespace TagLayers

open Pattern (Group walkFrom)

/-! ## Walks -/

namespace Pattern

/-- The indices that lead to the group on top of a stack. The indices below it have been counted on
already. -/
def stackPath (stack : List (Nat × Pattern)) : List Nat := (stack.map (·.1 - 1)).reverse

/-- The items that a walk visits when it goes on with a stack of groups, the innermost first. For
each group the stack has the index to go on from and the entries from there on. -/
inductive Visits : List (Nat × Pattern) → List (List Nat × TagEntry) → Prop
  | done : Visits [] []
  | leave {i : Nat} {stack : List (Nat × Pattern)} {items : List (List Nat × TagEntry)} :
      Visits stack items → Visits ((i, .nil) :: stack) items
  | visit {i : Nat} {e : TagEntry} {rest : Pattern} {stack : List (Nat × Pattern)}
      {items : List (List Nat × TagEntry)} : Visits ((i + 1, rest) :: stack) items →
      Visits ((i, .item e rest) :: stack) ((stackPath ((i + 1, rest) :: stack), e) :: items)
  | enter {i : Nat} {o : Bool} {body rest : Pattern} {stack : List (Nat × Pattern)}
      {items : List (List Nat × TagEntry)} : Visits ((0, body) :: (i + 1, rest) :: stack) items →
      Visits ((i, .group o body rest) :: stack) items

theorem stackPath_cons (i : Nat) (part : Pattern) (stack : List (Nat × Pattern)) :
    stackPath ((i + 1, part) :: stack) = stackPath stack ++ [i] := by
  simp [stackPath]

theorem Visits.part {stack : List (Nat × Pattern)} {items : List (List Nat × TagEntry)}
    (h : Visits stack items) (i : Nat) (part : Pattern) :
    Visits ((i, part) :: stack) (walkFrom (stackPath stack) i part ++ items) := by
  induction part generalizing i stack items with
  | nil => exact .leave h
  | item e rest ih =>
    rw [walkFrom, ← stackPath_cons i rest]
    exact .visit (ih h (i + 1))
  | group o body rest ihb ihr =>
    rw [walkFrom, ← stackPath_cons i rest, List.append_assoc]
    exact .enter (ihb (ihr h (i + 1)) 0)

/-- The walk of all groups of a stack. -/
def stackWalk : List (Nat × Pattern) → List (List Nat × TagEntry)
  | [] => []
  | (i, part) :: stack => walkFrom (stackPath stack) i part ++ stackWalk stack

theorem Visits.eq {stack : List (Nat × Pattern)} {items : List (List Nat × TagEntry)}
    (h : Visits stack items) : items = stackWalk stack := by
  induction h with
  | done => rfl
  | leave _ ih => exact ih
  | visit _ ih => rw [ih, stackWalk, stackWalk, walkFrom, stackPath_cons, List.cons_append]
  | enter _ ih =>
    rw [ih, stackWalk, stackWalk, stackWalk, walkFrom, stackPath_cons, List.append_assoc]

/-- The loop of a walk visits what the walk does, and nothing else. -/
theorem visits_iff {p : Pattern} {items : List (List Nat × TagEntry)} :
    Visits [(0, p)] items ↔ items = p.walk := by
  constructor
  · intro h
    rw [h.eq]
    exact List.append_nil _
  · rintro rfl
    have h := Visits.done.part 0 p
    rwa [List.append_nil] at h

end Pattern

/-! ## Cursors -/

namespace Cursor

/-- The positions of a cursor from the innermost group outwards. -/
def trail (c : Cursor) : List Place := c.places.reverse

/-- The group that the positions around a position lead to. -/
def around? (p : Pattern) (around : List Place) : Option Group :=
  p.whole.groupAt? (around.map (·.index)).reverse

/-- One round of the loop that settles a cursor. It goes into a group, or comes out at the end of
one. There is none on a tag entry, nor at the end of the whole pattern. -/
def round? (p : Pattern) : List Place → Option (List Place)
  | [] => none
  | here :: around =>
      (around? p around).bind fun g =>
        match g.body.drop here.index with
        | .item _ _ => none
        | .group o _ _ => some ({ optional := o } :: here :: around)
        | .nil => around.head?.map fun f => f.next :: around.tail

/-- The loop settles a cursor where there is no further round. -/
inductive Settles (p : Pattern) : List Place → List Place → Prop
  | stop {trail : List Place} : round? p trail = none → Settles p trail trail
  | next {trail trail' settled : List Place} : round? p trail = some trail' →
      Settles p trail' settled → Settles p trail settled

/-- The loop that looks for a group to leave, from the innermost outwards. -/
def leave? (p : Pattern) : List Place → Option (List Place)
  | here :: f :: around =>
      if here.consumed then none
      else if (around? p (f :: around)).any (·.optional) then some (f.next :: around)
      else leave? p (f :: around)
  | _ => none

/-- The moves of a cursor by these loops. -/
inductive Moves (p : Pattern) : List Place → Move → List Place → Prop
  | advance {trail settled : List Place} : Settles p (trail.modifyHead Place.next) settled →
      Moves p trail .advance settled
  | consume {trail : List Place} : Moves p trail .consume (trail.map Place.consume)
  | skip {trail left settled : List Place} : leave? p trail = some left →
      Settles p left settled → Moves p trail .skip settled
  | stay {trail : List Place} : leave? p trail = none → Moves p trail .skip trail
  | reset {trail settled : List Place} : Settles p [{}] settled → Moves p trail .reset settled

/-- A new cursor and a sequence of moves, by these loops. -/
inductive Runs (p : Pattern) : List Move → List Place → Prop
  | start {settled : List Place} : Settles p [{}] settled → Runs p [] settled
  | move {moves : List Move} {m : Move} {trail trail' : List Place} : Runs p moves trail →
      Moves p trail m trail' → Runs p (moves ++ [m]) trail'

variable {p : Pattern} {c d : Cursor}

theorem Settles.eq {trail settled settled' : List Place} (h : Settles p trail settled)
    (h' : Settles p trail settled') : settled = settled' := by
  induction h with
  | stop hstop =>
    cases h' with
    | stop => rfl
    | next hnext => cases hstop.symm.trans hnext
  | next hnext _ ih =>
    cases h' with
    | stop hstop => cases hstop.symm.trans hnext
    | next hnext' h' =>
      cases hnext.symm.trans hnext'
      exact ih h'

theorem trail_on (e : TagEntry) (here : Frame) (outer : List Frame) :
    (on e here outer).trail = here.place :: outer.map (·.place) := by
  simp [trail, places]

theorem trail_consume (c : Cursor) : c.consume.trail = c.trail.map Place.consume := by
  cases c with
  | on e here outer =>
    rw [consume, trail_on, trail_on, List.map_cons, List.map_map, List.map_map]
    rfl
  | past place => rfl

section Rounds

variable {outer : List Frame} {g : Group} {place : Place} {part : Pattern}

theorem Leads.around?_eq (h : Leads p outer g) : around? p (outer.map (·.place)) = some g := by
  rw [around?, List.map_map]
  exact h.groupAt?_eq

theorem round?_eq (hl : Leads p outer g) (ha : At g place part) :
    round? p (place :: outer.map (·.place)) = match part with
      | .item _ _ => none
      | .group o _ _ => some ({ optional := o } :: place :: outer.map (·.place))
      | .nil => outer.head?.map fun f => f.place.next :: outer.tail.map (·.place) := by
  rw [round?, hl.around?_eq, Option.bind_some, ha.drop_eq]
  cases part with
  | nil => cases outer <;> rfl
  | item e rest => rfl
  | group o body rest => rfl

/-- A part without tag entries is passed through, up to the end of its group. -/
theorem settles_through {settled : List Place} (hl : Leads p outer g) (ha : At g place part)
    (h : enter place outer part = none)
    (hs : Settles p ({ place with index := place.index + part.size } :: outer.map (·.place))
      settled) : Settles p (place :: outer.map (·.place)) settled := by
  induction part generalizing outer g place settled with
  | nil => exact hs
  | item e rest => cases h
  | group o body rest ihb ihr =>
    have hstart : At ⟨o, body⟩ { optional := o } body := ⟨rfl, rfl⟩
    rw [enter] at h
    split at h
    · cases h
    · next hb =>
      -- into the group, through it and out again
      have hbehind := ihr hl ha.next h (by rwa [Place.next, Nat.add_right_comm])
      have hout := Settles.next (round?_eq (hl.into ha) hstart.finish) hbehind
      exact .next (round?_eq hl ha) (ihb (hl.into ha) hstart hb hout)

theorem settles_enter (hl : Leads p outer g) (ha : At g place part)
    (h : enter place outer part = some c) :
    Settles p (place :: outer.map (·.place)) c.trail := by
  induction part generalizing outer g place with
  | nil => cases h
  | item e rest =>
    cases h
    rw [trail_on]
    exact .stop (round?_eq hl ha)
  | group o body rest ihb ihr =>
    have hstart : At ⟨o, body⟩ { optional := o } body := ⟨rfl, rfl⟩
    rw [enter] at h
    split at h
    · next hb =>
      cases h
      exact .next (round?_eq hl ha) (ihb (hl.into ha) hstart hb)
    · next hb =>
      have hout := Settles.next (round?_eq (hl.into ha) hstart.finish) (ihr hl ha.next h)
      exact .next (round?_eq hl ha) (settles_through (hl.into ha) hstart hb hout)

/-- The loop settles a position as `settle` does. -/
theorem settles_settle (hl : Leads p outer g) (ha : At g place part) :
    Settles p (place :: outer.map (·.place)) (settle place part outer).trail := by
  induction outer generalizing g place part with
  | nil =>
    rw [settle]
    cases h : enter place [] part with
    | none => exact settles_through hl ha h (.stop (round?_eq hl ha.finish))
    | some c => exact settles_enter hl ha h
  | cons f outer ih =>
    rw [settle]
    cases h : enter place (f :: outer) part with
    | none =>
      have hout := round?_eq hl ha.finish
      cases hl with
      | into hl' hf => exact settles_through (hl'.into hf) ha h (.next hout (ih hl' hf.next))
    | some c => exact settles_enter hl ha h

/-- The loop leaves a group when `skipFrom` does, and settles where it goes. -/
theorem leave?_cases {here : Place} (hl : Leads p outer g) (ho : here.optional = g.optional) :
    leave? p (here :: outer.map (·.place)) = none ∧ skipFrom here outer = none ∨
      ∃ left d, leave? p (here :: outer.map (·.place)) = some left ∧
        skipFrom here outer = some d ∧ Settles p left d.trail := by
  induction hl generalizing here with
  | whole => exact .inl ⟨rfl, rfl⟩
  | @into outer g place o body rest hl ha ih =>
    have hgroup : (around? p (place :: outer.map (·.place))).any (·.optional) = here.optional := by
      rw [ho]
      exact congrArg (Option.any (·.optional)) (hl.into ha).around?_eq
    rw [List.map_cons, leave?, skipFrom, hgroup]
    split
    · exact .inl ⟨rfl, rfl⟩
    · split
      · exact .inr ⟨_, _, rfl, rfl, settles_settle hl ha.next⟩
      · exact ih ha.optional_eq

end Rounds

theorem Moves.eq {trail settled settled' : List Place} {m : Move} (h : Moves p trail m settled)
    (h' : Moves p trail m settled') : settled = settled' := by
  cases h with
  | advance hs =>
    cases h' with
    | advance hs' => exact hs.eq hs'
  | consume =>
    cases h'
    rfl
  | skip hleave hs =>
    cases h' with
    | skip hleave' hs' =>
      cases hleave.symm.trans hleave'
      exact hs.eq hs'
    | stay hstay => cases hleave.symm.trans hstay
  | stay hstay =>
    cases h' with
    | skip hleave => cases hleave.symm.trans hstay
    | stay => rfl
  | reset hs =>
    cases h' with
    | reset hs' => exact hs.eq hs'

theorem settles_start (p : Pattern) : Settles p [{}] (start p).trail :=
  settles_settle .whole ⟨rfl, rfl⟩

/-- A cursor moves as the loops do. -/
theorem Of.moves (h : c.Of p) (m : Move) : Moves p c.trail m (c.move p m).trail := by
  cases c with
  | on e here outer =>
    obtain ⟨g, hl, ha⟩ := h
    rw [trail_on]
    cases m with
    | advance => exact .advance (settles_settle hl ha.next)
    | consume =>
      rw [Cursor.move, trail_consume, trail_on]
      exact .consume
    | skip =>
      rw [Cursor.move, Cursor.skip?]
      obtain ⟨hleave, hskip⟩ | ⟨left, d, hleave, hskip, hs⟩ := leave?_cases hl ha.optional_eq
      · rw [hskip, Option.getD_none, trail_on]
        exact .stay hleave
      · rw [hskip]
        exact .skip hleave hs
    | reset => exact .reset (settles_start p)
  | past place =>
    cases m with
    | advance => exact .advance (settles_settle .whole h.next)
    | consume => exact .consume
    | skip => exact .stay rfl
    | reset => exact .reset (settles_start p)

/-- Sequences of moves by these loops come to the positions of the cursor, and to no others. -/
theorem runs_iff {moves : List Move} {trail : List Place} :
    Runs p moves trail ↔ trail = (moved p moves).trail := by
  constructor
  · intro h
    induction h with
    | start hs => exact hs.eq (settles_start p)
    | @move moves m _ _ _ hm ih =>
      subst ih
      rw [moved_concat]
      exact hm.eq ((of_moved p moves).moves m)
  · rintro rfl
    induction moves using List.reverseRecOn with
    | nil => exact .start (settles_start p)
    | append_singleton moves m ih =>
      rw [moved_concat]
      exact .move ih ((of_moved p moves).moves m)

end Cursor

end TagLayers
