import Mathlib.Data.List.ModifyLast
import TagLayers.Proofs.Pattern.Loops

/-!
# Guarding a pattern

A guard is given to the last tag entry of a pattern. The search for it goes backwards: what follows
an entry or a group is searched first, and a group without tag entries is left again. The walk goes
forwards, and its last item is the entry that the search finds.

Results:
1. `lands_of_guardLast?`, `guardLast?_eq_none_iff`: which entry the search finds, and when it fails.
2. `Lands.walkFrom_eq`, `Lands.unguarded_eq`: what the guard changes, and what it does not.
3. `guarded_lands_last`: the guarded pattern and its walk.
-/

namespace TagLayers

namespace Pattern

variable {p q : Pattern} {g : Guard}

/-- The guard is given to a tag entry that has no other behind it, neither in its own group nor in
those around it. -/
inductive Lands (g : Guard) : Pattern → Pattern → Prop
  | here {e : TagEntry} {rest : Pattern} : rest.entries = [] →
      Lands g (item e rest) (item { e with guard := some g } rest)
  | behindItem {e : TagEntry} {rest rest' : Pattern} : Lands g rest rest' →
      Lands g (item e rest) (item e rest')
  | behindGroup {o : Bool} {body rest rest' : Pattern} : Lands g rest rest' →
      Lands g (group o body rest) (group o body rest')
  | inside {o : Bool} {body body' rest : Pattern} : rest.entries = [] → Lands g body body' →
      Lands g (group o body rest) (group o body' rest)

/-- An item of a walk with a guard on its entry. -/
def withGuard (g : Guard) (item : List Nat × TagEntry) : List Nat × TagEntry :=
  (item.1, { item.2 with guard := some g })

/-- The pattern without its guards. -/
def unguarded : Pattern → Pattern
  | nil => nil
  | item e rest => item { e with guard := none } rest.unguarded
  | group o body rest => group o body.unguarded rest.unguarded

/-! ## The search -/

theorem guardLast?_eq_none_iff : guardLast? g p = none ↔ p.entries = [] := by
  induction p with
  | nil => exact iff_of_true rfl rfl
  | item e rest ih =>
    refine iff_of_false ?_ (List.cons_ne_nil _ _)
    rw [guardLast?]
    split <;> exact Option.some_ne_none _
  | group o body rest ihb ihr =>
    rw [guardLast?, entries, List.append_eq_nil_iff, ← ihb, ← ihr]
    split
    · next hrest => simp [hrest]
    · next hrest => simp [hrest]

theorem lands_of_guardLast? (h : guardLast? g p = some q) : Lands g p q := by
  induction p generalizing q with
  | nil => cases h
  | item e rest ih =>
    rw [guardLast?] at h
    split at h
    · next hrest =>
      cases h
      exact .behindItem (ih hrest)
    · next hrest =>
      cases h
      exact .here (guardLast?_eq_none_iff.mp hrest)
  | group o body rest ihb ihr =>
    rw [guardLast?] at h
    split at h
    · next hrest =>
      cases h
      exact .behindGroup (ihr hrest)
    · next hrest =>
      obtain ⟨body', hbody, rfl⟩ := Option.map_eq_some_iff.mp h
      exact .inside (guardLast?_eq_none_iff.mp hrest) (ihb hbody)

/-- A pattern without tag entries stays as it is, and in any other the guard lands. -/
theorem guarded_cases (p : Pattern) (g : Guard) :
    p.entries = [] ∧ p.guarded g = p ∨ Lands g p (p.guarded g) := by
  rw [guarded]
  cases h : guardLast? g p with
  | none => exact .inl ⟨guardLast?_eq_none_iff.mp h, rfl⟩
  | some q => exact .inr (lands_of_guardLast? h)

/-! ## The walk -/

theorem Lands.walkFrom_ne_nil (h : Lands g p q) (path : List Nat) (i : Nat) :
    walkFrom path i p ≠ [] := by
  induction h generalizing path i with
  | here => exact List.cons_ne_nil _ _
  | behindItem => exact List.cons_ne_nil _ _
  | behindGroup _ ih => exact List.append_ne_nil_of_right_ne_nil _ (ih path (i + 1))
  | inside _ _ ih => exact List.append_ne_nil_of_left_ne_nil (ih (path ++ [i]) 0) _

/-- The walk changes in the guard of its last item. -/
theorem Lands.walkFrom_eq (h : Lands g p q) (path : List Nat) (i : Nat) :
    walkFrom path i q = (walkFrom path i p).modifyLast (withGuard g) := by
  induction h generalizing path i with
  | here hrest =>
    rw [walkFrom, walkFrom, Cursor.walkFrom_of_entries_nil hrest]
    rfl
  | behindItem h ih =>
    have hne := h.walkFrom_ne_nil path (i + 1)
    rw [walkFrom, walkFrom, ih]
    exact (List.modifyLast_append_of_right_ne_nil _ [_] _ hne).symm
  | behindGroup h ih =>
    have hne := h.walkFrom_ne_nil path (i + 1)
    rw [walkFrom, walkFrom, ih, List.modifyLast_append_of_right_ne_nil _ _ _ hne]
  | inside hrest _ ih =>
    rw [walkFrom, walkFrom, Cursor.walkFrom_of_entries_nil hrest, List.append_nil, List.append_nil,
      ih]

/-- Groups, targets and modes stay as they are. -/
theorem Lands.unguarded_eq (h : Lands g p q) : q.unguarded = p.unguarded := by
  induction h with
  | here => rfl
  | behindItem _ ih => rw [unguarded, unguarded, ih]
  | behindGroup _ ih => rw [unguarded, unguarded, ih]
  | inside _ _ ih => rw [unguarded, unguarded, ih]

theorem walk_guarded (p : Pattern) (g : Guard) :
    (p.guarded g).walk = p.walk.modifyLast (withGuard g) := by
  obtain ⟨hentries, hsame⟩ | hlands := p.guarded_cases g
  · have hwalk : p.walk = [] := Cursor.walkFrom_of_entries_nil hentries [] 0
    rw [hsame, hwalk]
    rfl
  · exact hlands.walkFrom_eq [] 0

theorem unguarded_guarded (p : Pattern) (g : Guard) : (p.guarded g).unguarded = p.unguarded := by
  obtain ⟨-, hsame⟩ | hlands := p.guarded_cases g
  · rw [hsame]
  · exact hlands.unguarded_eq

/-- A guard lands on the last item of the walk and nowhere else. The loop that walks the guarded
pattern visits what the walk of the pattern does, but for the guard of the last item. A pattern with
nothing to walk stays the same. Apart from guards any pattern does: its groups, which of them are
optional, and the targets and modes of its entries are where they were. -/
theorem guarded_lands_last (p : Pattern) (g : Guard) :
    (∀ items, Visits [(0, p.guarded g)] items ↔ items = p.walk.modifyLast (withGuard g)) ∧
    (∀ before path e, p.walk = before ++ [(path, e)] →
      (p.guarded g).walk = before ++ [(path, { e with guard := some g })]) ∧
    (p.walk = [] → p.guarded g = p) ∧
    (p.guarded g).unguarded = p.unguarded := by
  refine ⟨fun items => ?_, fun before path e hwalk => ?_, fun hwalk => ?_, unguarded_guarded p g⟩
  · rw [visits_iff, walk_guarded]
  · rw [walk_guarded, hwalk, List.modifyLast_concat]
    rfl
  · obtain ⟨-, hsame⟩ | hlands := p.guarded_cases g
    · exact hsame
    · exact absurd hwalk (hlands.walkFrom_ne_nil [] 0)

/-- The last tag entry stands in an optional group, and groups without entries follow. -/
def trailingPattern : Pattern :=
  Pattern.nil.must (Tag.of 1)
    |>.maybe (Pattern.nil.complete (Tag.of 2) |>.nest (Pattern.nil.can (Tag.of 3)) |>.nest .nil)
    |>.nest (Pattern.nil.maybe .nil)

/-- Holds for the word that ends a block. -/
def atEnd : Guard := fun token => token.text == "end".toList

theorem guarded_lands_last_trailingPattern :
    (trailingPattern.guarded atEnd).walk =
      [([0], ⟨Tag.of 1, .mandatory, none⟩), ([1, 0], ⟨Tag.of 2, .complete, none⟩),
        ([1, 1, 0], ⟨Tag.of 3, .optional, some atEnd⟩)] ∧
    (Pattern.nil.nest (Pattern.nil.maybe .nil)).guarded atEnd
      = Pattern.nil.nest (Pattern.nil.maybe .nil) := by
  obtain ⟨-, hlast, -, -⟩ := guarded_lands_last trailingPattern atEnd
  obtain ⟨-, -, hempty, -⟩ := guarded_lands_last (Pattern.nil.nest (Pattern.nil.maybe .nil)) atEnd
  exact ⟨hlast [_, _] _ _ rfl, hempty rfl⟩

end Pattern

end TagLayers
