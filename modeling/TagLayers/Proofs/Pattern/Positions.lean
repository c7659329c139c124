import TagLayers.Proofs.Pattern.Paths
import TagLayers.Proofs.Pattern.Walk

/-!
# Positions

A cursor keeps the groups around it, each with the entries after its position there, and whether it
may be absent. Every move keeps these as they are in the pattern, so that what the cursor has at
hand is what its path leads to from the whole pattern.

Results:
1. `of_start`, `Of.advance`, `Of.consume`, `Of.skip`: a cursor keeps to its pattern.
2. `Of.current?_eq`: the entry under the cursor is what its path leads to.
3. `Of.isPast_iff`: a cursor is past the last entry when its path has left the whole pattern.
-/

namespace TagLayers

open Pattern (Group)

namespace Cursor

/-- The position lies in the group, in front of a part of it. -/
structure At (g : Group) (place : Place) (part : Pattern) : Prop where
  drop_eq : g.body.drop place.index = part
  optional_eq : place.optional = g.optional

/-- The frames lead from the whole pattern into a group. -/
inductive Leads (p : Pattern) : List Frame → Group → Prop
  | whole : Leads p [] p.whole
  | into {outer : List Frame} {g : Group} {place : Place} {o : Bool} {body rest : Pattern} :
      Leads p outer g → At g place (.group o body rest) → Leads p (⟨place, rest⟩ :: outer) ⟨o, body⟩

/-- The cursor is a position in the pattern. -/
def Of (p : Pattern) : Cursor → Prop
  | on e here outer => ∃ g, Leads p outer g ∧ At g here.place (.item e here.rest)
  | past place => At p.whole place .nil

variable {p : Pattern} {c d : Cursor}

theorem At.next {g : Group} {place : Place} {part : Pattern} (h : At g place part) :
    At g place.next part.tail :=
  ⟨congrArg Pattern.tail h.drop_eq, h.optional_eq⟩

theorem At.finish {g : Group} {place : Place} {part : Pattern} (h : At g place part) :
    At g { place with index := place.index + part.size } .nil := by
  have hsize : g.body.size - place.index = part.size := by
    rw [← Pattern.size_drop, h.drop_eq]
  refine ⟨Pattern.drop_eq_nil_iff.mpr ?_, h.optional_eq⟩
  show g.body.size ≤ place.index + part.size
  omega

theorem of_enter {outer : List Frame} {g : Group} {place : Place} {part : Pattern}
    (hl : Leads p outer g) (ha : At g place part) (h : enter place outer part = some c) :
    c.Of p := by
  induction part generalizing outer g place with
  | nil => cases h
  | item e rest =>
    cases h
    exact ⟨g, hl, ha⟩
  | group o body rest ihb ihr =>
    rw [enter] at h
    split at h
    · next hb =>
      cases h
      exact ihb (hl.into ha) ⟨rfl, rfl⟩ hb
    · exact ihr hl ha.next h

theorem of_settle {outer : List Frame} {g : Group} {place : Place} {part : Pattern}
    (hl : Leads p outer g) (ha : At g place part) : (settle place part outer).Of p := by
  induction outer generalizing g place part with
  | nil =>
    rw [settle]
    cases h : enter place [] part with
    | none =>
      cases hl
      exact ha.finish
    | some c => exact of_enter hl ha h
  | cons f outer ih =>
    rw [settle]
    cases h : enter place (f :: outer) part with
    | none =>
      cases hl with
      | into hl hf => exact ih hl hf.next
    | some c => exact of_enter hl ha h

theorem of_start (p : Pattern) : (start p).Of p := of_settle .whole ⟨rfl, rfl⟩

theorem Of.advance (h : c.Of p) : c.advance.Of p := by
  cases c with
  | on e here outer =>
    obtain ⟨g, hl, ha⟩ := h
    exact of_settle hl ha.next
  | past place => exact h.next

theorem Leads.consume {outer : List Frame} {g : Group} (h : Leads p outer g) :
    Leads p (outer.map fun f => { f with place := f.place.consume }) g := by
  induction h with
  | whole => exact .whole
  | into _ ha ih => exact ih.into ⟨ha.drop_eq, ha.optional_eq⟩

theorem Of.consume (h : c.Of p) : c.consume.Of p := by
  cases c with
  | on e here outer =>
    obtain ⟨g, hl, ha⟩ := h
    exact ⟨g, hl.consume, ha.drop_eq, ha.optional_eq⟩
  | past place => exact ⟨h.drop_eq, h.optional_eq⟩

theorem of_skipFrom {outer : List Frame} {g : Group} {here : Place} (hl : Leads p outer g)
    (h : skipFrom here outer = some d) : d.Of p := by
  induction hl generalizing here with
  | whole => cases h
  | into hl ha ih =>
    rw [skipFrom] at h
    split at h
    · cases h
    · split at h
      · cases h
        exact of_settle hl ha.next
      · exact ih h

theorem Of.skip (h : c.Of p) (hskip : c.skip? = some d) : d.Of p := by
  cases c with
  | on e here outer =>
    obtain ⟨g, hl, -⟩ := h
    exact of_skipFrom hl hskip
  | past place => cases hskip

/-! ## Sequences of moves -/

/-- What a cursor may be asked to do. -/
inductive Move where
  | advance
  | consume
  | skip
  | reset

/-- The cursor after a move. A skip without a group to leave changes nothing. -/
def move (p : Pattern) (c : Cursor) : Move → Cursor
  | .advance => c.advance
  | .consume => c.consume
  | .skip => c.skip?.getD c
  | .reset => start p

/-- A new cursor after a sequence of moves. -/
def moved (p : Pattern) (moves : List Move) : Cursor := moves.foldl (move p) (start p)

theorem moved_concat (p : Pattern) (moves : List Move) (m : Move) :
    moved p (moves ++ [m]) = (moved p moves).move p m := List.foldl_concat ..

theorem Of.move (h : c.Of p) (m : Move) : (c.move p m).Of p := by
  cases m with
  | advance => exact h.advance
  | consume => exact h.consume
  | skip =>
    rw [Cursor.move]
    cases hskip : c.skip? with
    | none => exact h
    | some d => exact h.skip hskip
  | reset => exact of_start p

theorem of_moved (p : Pattern) (moves : List Move) : (moved p moves).Of p :=
  List.foldlRecOn moves (Cursor.move p) (of_start p) fun _ h m _ => h.move m

/-! ## Lookups along the path -/

theorem Leads.groupAt?_eq {outer : List Frame} {g : Group} (h : Leads p outer g) :
    p.whole.groupAt? (pathOf outer) = some g := by
  induction h with
  | whole => rfl
  | into _ ha ih =>
    rw [pathOf_cons, Group.groupAt?_concat, ih, Option.bind_some, Group.group?, ha.drop_eq]

/-- The entry under the cursor is the one that its path leads to. -/
theorem Of.current?_eq (h : c.Of p) : c.current? = p.whole.entryAt? c.path := by
  cases c with
  | on e here outer =>
    obtain ⟨g, hl, ha⟩ := h
    rw [path_on, Group.entryAt?_concat, hl.groupAt?_eq, Option.bind_some, Group.item?, ha.drop_eq]
    rfl
  | past place =>
    show none = p.whole.item? place.index
    rw [Group.item?, h.drop_eq]

/-- A cursor is past the last entry when its path has left the whole pattern. -/
theorem Of.isPast_iff (h : c.Of p) : c.isPast = true ↔ ∃ i, c.path = [i] ∧ p.size ≤ i := by
  cases c with
  | on e here outer =>
    refine ⟨fun hpast => (Bool.false_ne_true hpast).elim, ?_⟩
    rintro ⟨i, hpath, hi⟩
    have hentry := h.current?_eq
    rw [hpath] at hentry
    have hnone : p.whole.item? i = none := by
      rw [Group.item?, show p.whole.body.drop i = .nil from Pattern.drop_eq_nil_iff.mpr hi]
    cases hentry.trans hnone
  | past place =>
    exact ⟨fun _ => ⟨place.index, rfl, Pattern.drop_eq_nil_iff.mp h.drop_eq⟩, fun _ => rfl⟩

end Cursor

end TagLayers
