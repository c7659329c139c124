import Mathlib.Data.Set.Prod
import TagLayers.Tag.Basic

/-!
# Meanings of tags

A slot stands for a set of values: a wildcard for all, a list of alternatives for its members,
however often and in whatever order they stand. A tag stands for the triples of such values. Two
tags that stand for something meet when they stand for a triple in common. A slot without
alternatives stands for nothing, and is met by wildcards only.

Results:
1. `Slot.meets_iff`, `Slot.exists_shared`: when two slots meet, and in which value.
2. `meets_of_shared`, `exists_shared`: the triples that tags share when they meet.
3. `meets_of_widens`, `exists_slot_meets`: wildcards, and single slots.
4. `meets_laws`: the laws of meeting.
-/

namespace TagLayers

namespace Slot

/-- The values that a slot stands for. -/
def values : Slot → Set TagValue
  | any => Set.univ
  | is v => {v}
  | oneOf vs => {v | v ∈ vs}

/-- The values that are written in the slot lie below a bound. -/
def Below (limit : Nat) : Slot → Prop
  | any => True
  | is v => v < limit
  | oneOf vs => ∀ v ∈ vs, v < limit

/-- The slot stays, or a wildcard takes its place. -/
def Widens (s s' : Slot) : Prop := s' = s ∨ s' = any

variable {s t : Slot}

theorem meets_any (s : Slot) : s.meets any = true := by
  cases s <;> rfl

theorem meets_is (s : Slot) (v : TagValue) : s.meets (is v) ↔ v ∈ s.values := by
  cases s with
  | any => exact iff_of_true rfl (Set.mem_univ v)
  | is w => exact beq_iff_eq.trans eq_comm
  | oneOf ws => exact List.contains_iff_mem

/-- Slots meet where there is a wildcard or a shared value. -/
theorem meets_iff : s.meets t ↔ s = any ∨ t = any ∨ (s.values ∩ t.values).Nonempty := by
  cases t with
  | any => exact iff_of_true (meets_any s) (.inr (.inl rfl))
  | is w =>
    rw [meets_is, values, Set.inter_singleton_nonempty]
    refine ⟨fun h => .inr (.inr h), ?_⟩
    rintro (rfl | h | h)
    · exact Set.mem_univ w
    · cases h
    · exact h
  | oneOf ws =>
    cases s with
    | any => exact iff_of_true rfl (.inl rfl)
    | is v => simp [meets, values]
    | oneOf vs => simp [meets, values, Set.Nonempty]

theorem meets_comm (s t : Slot) : s.meets t = t.meets s := by
  rw [Bool.eq_iff_iff, meets_iff, meets_iff, Set.inter_comm]
  exact or_left_comm

theorem meets_of_widens {s' t' : Slot} (hs : s.Widens s') (ht : t.Widens t') (h : s.meets t) :
    s'.meets t' := by
  rcases hs with rfl | rfl
  · rcases ht with rfl | rfl
    · exact h
    · exact meets_any _
  · rfl

/-- Without alternatives a slot meets wildcards only. -/
theorem eq_any_of_meets (h : (oneOf []).meets t) : t = any := by
  rcases meets_iff.mp h with h | h | ⟨v, hv, -⟩
  · cases h
  · exact h
  · exact absurd hv List.not_mem_nil

theorem lt_of_below {v : TagValue} {limit : Nat} (hs : s ≠ any) (hv : v ∈ s.values)
    (h : s.Below limit) : v < limit := by
  cases s with
  | any => exact absurd rfl hs
  | is w => exact Set.mem_singleton_iff.mp hv ▸ h
  | oneOf ws => exact h v hv

/-- A slot stands for something unless it has no alternatives. -/
theorem exists_value (hs : s ≠ oneOf []) :
    ∃ v ∈ s.values, ∀ limit, 0 < limit → s.Below limit → v < limit := by
  cases s with
  | any => exact ⟨0, Set.mem_univ 0, fun _ hpos _ => hpos⟩
  | is v => exact ⟨v, rfl, fun _ _ h => h⟩
  | oneOf vs =>
    cases vs with
    | nil => exact absurd rfl hs
    | cons v vs => exact ⟨v, List.mem_cons_self, fun _ _ h => h v List.mem_cons_self⟩

/-- Slots that stand for something and meet share a value. It lies below any bound on the values
that are written in them. -/
theorem exists_shared (hs : s ≠ oneOf []) (ht : t ≠ oneOf []) (h : s.meets t) :
    ∃ v ∈ s.values ∩ t.values,
      ∀ limit, 0 < limit → s.Below limit → t.Below limit → v < limit := by
  by_cases hs' : s = any
  · subst hs'
    obtain ⟨v, hv, hlt⟩ := exists_value ht
    exact ⟨v, ⟨Set.mem_univ v, hv⟩, fun limit hpos _ hbelow => hlt limit hpos hbelow⟩
  by_cases ht' : t = any
  · subst ht'
    obtain ⟨v, hv, hlt⟩ := exists_value hs
    exact ⟨v, ⟨hv, Set.mem_univ v⟩, fun limit hpos hbelow _ => hlt limit hpos hbelow⟩
  obtain ⟨v, hv⟩ := ((meets_iff.mp h).resolve_left hs').resolve_left ht'
  exact ⟨v, hv, fun limit _ hbelow _ => lt_of_below hs' hv.1 hbelow⟩

theorem meets_of_shared {v : TagValue} (h : v ∈ s.values ∩ t.values) : s.meets t :=
  meets_iff.mpr (.inr (.inr ⟨v, h⟩))

theorem meets_self (hs : s ≠ oneOf []) : s.meets s := by
  obtain ⟨v, hv, -⟩ := exists_value hs
  exact meets_of_shared ⟨hv, hv⟩

end Slot

namespace Tag

/-- The tag of three values. -/
def of₃ (x y z : TagValue) : Tag := ⟨.is x, .is y, .is z⟩

/-- The triples that a tag stands for. -/
def triples (t : Tag) : Set (TagValue × TagValue × TagValue) :=
  t.first.values ×ˢ t.second.values ×ˢ t.third.values

/-- Wildcards take the place of some slots, or of none. -/
structure Widens (t t' : Tag) : Prop where
  first : t.first.Widens t'.first
  second : t.second.Widens t'.second
  third : t.third.Widens t'.third

/-- The values that are written in the tag lie below a bound. -/
def Below (limit : Nat) (t : Tag) : Prop := ∀ s ∈ t.slots, s.Below limit

variable {a b : Tag}

theorem meets_iff_slots :
    a.meets b ↔ a.first.meets b.first ∧ a.second.meets b.second ∧ a.third.meets b.third := by
  rw [meets, Bool.and_eq_true, Bool.and_eq_true, and_assoc]

theorem forall_mem_slots {P : Slot → Prop} :
    (∀ s ∈ a.slots, P s) ↔ P a.first ∧ P a.second ∧ P a.third := by
  simp only [slots, List.forall_mem_cons, List.not_mem_nil, false_imp_iff, implies_true, and_true]

/-- A tag meets the triples that it stands for. -/
theorem meets_of₃ (t : Tag) (x y z : TagValue) : t.meets (of₃ x y z) ↔ (x, y, z) ∈ t.triples := by
  rw [meets_iff_slots, triples, Set.mem_prod, Set.mem_prod]
  exact and_congr (t.first.meets_is x) (and_congr (t.second.meets_is y) (t.third.meets_is z))

/-- Two tags meet where they stand for a triple in common. -/
theorem meets_of_shared {x y z : TagValue} (h : (x, y, z) ∈ a.triples ∩ b.triples) :
    a.meets b := by
  obtain ⟨⟨hx, hy, hz⟩, hx', hy', hz'⟩ := h
  exact meets_iff_slots.mpr ⟨Slot.meets_of_shared ⟨hx, hx'⟩, Slot.meets_of_shared ⟨hy, hy'⟩,
    Slot.meets_of_shared ⟨hz, hz'⟩⟩

/-- Two tags that stand for something and meet stand for a triple in common. It lies below any bound
on the values that are written in them. -/
theorem exists_shared (ha : .oneOf [] ∉ a.slots) (hb : .oneOf [] ∉ b.slots) (h : a.meets b) :
    ∃ x y z, (x, y, z) ∈ a.triples ∩ b.triples ∧
      ∀ limit, 0 < limit → a.Below limit → b.Below limit → x < limit ∧ y < limit ∧ z < limit := by
  rw [← List.forall_mem_ne', forall_mem_slots] at ha hb
  rw [meets_iff_slots] at h
  obtain ⟨x, ⟨hx, hx'⟩, hxlt⟩ := Slot.exists_shared ha.1 hb.1 h.1
  obtain ⟨y, ⟨hy, hy'⟩, hylt⟩ := Slot.exists_shared ha.2.1 hb.2.1 h.2.1
  obtain ⟨z, ⟨hz, hz'⟩, hzlt⟩ := Slot.exists_shared ha.2.2 hb.2.2 h.2.2
  refine ⟨x, y, z, ⟨⟨hx, hy, hz⟩, hx', hy', hz'⟩, fun limit hpos hbelow hbelow' => ?_⟩
  rw [Below, forall_mem_slots] at hbelow hbelow'
  exact ⟨hxlt limit hpos hbelow.1 hbelow'.1, hylt limit hpos hbelow.2.1 hbelow'.2.1,
    hzlt limit hpos hbelow.2.2 hbelow'.2.2⟩

theorem meets_of_widens {a' b' : Tag} (ha : a.Widens a') (hb : b.Widens b') (h : a.meets b) :
    a'.meets b' := by
  rw [meets_iff_slots] at h ⊢
  exact ⟨Slot.meets_of_widens ha.first hb.first h.1,
    Slot.meets_of_widens ha.second hb.second h.2.1, Slot.meets_of_widens ha.third hb.third h.2.2⟩

/-- Tags that meet do so in each of their slots. -/
theorem exists_slot_meets {i : Nat} {s : Slot} (h : a.meets b) (hs : a.slots[i]? = some s) :
    ∃ t, b.slots[i]? = some t ∧ s.meets t := by
  obtain ⟨hfirst, hsecond, hthird⟩ := meets_iff_slots.mp h
  match i with
  | 0 => exact ⟨b.first, rfl, Option.some.inj hs ▸ hfirst⟩
  | 1 => exact ⟨b.second, rfl, Option.some.inj hs ▸ hsecond⟩
  | 2 => exact ⟨b.third, rfl, Option.some.inj hs ▸ hthird⟩
  | _ + 3 => cases hs

/-- Tags meet as the sets of triples do that they stand for. Meeting is symmetric, and wildcards in
the place of slots do not make it fail. A tag that has an alternative wherever it lists them meets
itself. Two such tags meet when there are three values whose tag both of them meet, within any bound
on their own values. A tag without alternatives in a slot meets only tags with a wildcard there. -/
theorem meets_laws (a b : Tag) :
    a.meets b = b.meets a ∧
    (∀ a' b' : Tag, a.Widens a' → b.Widens b' → a.meets b → a'.meets b') ∧
    (∀ x y z, a.meets (of₃ x y z) ↔ (x, y, z) ∈ a.triples) ∧
    (.oneOf [] ∉ a.slots → a.meets a) ∧
    (.oneOf [] ∉ a.slots → .oneOf [] ∉ b.slots →
      (a.meets b ↔ ∃ x y z, a.meets (of₃ x y z) ∧ b.meets (of₃ x y z)) ∧
      ∀ limit, 0 < limit → a.Below limit → b.Below limit →
        (a.meets b ↔ ∃ x < limit, ∃ y < limit, ∃ z < limit,
          a.meets (of₃ x y z) ∧ b.meets (of₃ x y z))) ∧
    ∀ i : Nat, a.slots[i]? = some (.oneOf []) → a.meets b → b.slots[i]? = some .any := by
  have hshared (x y z : TagValue) :
      (a.meets (of₃ x y z) ∧ b.meets (of₃ x y z)) ↔ (x, y, z) ∈ a.triples ∩ b.triples :=
    and_congr (meets_of₃ a x y z) (meets_of₃ b x y z)
  refine ⟨?_, fun a' b' => meets_of_widens, meets_of₃ a, fun ha => ?_, fun ha hb => ?_, ?_⟩
  · rw [meets, meets, a.first.meets_comm, a.second.meets_comm, a.third.meets_comm]
  · rw [← List.forall_mem_ne', forall_mem_slots] at ha
    exact meets_iff_slots.mpr
      ⟨Slot.meets_self ha.1, Slot.meets_self ha.2.1, Slot.meets_self ha.2.2⟩
  · simp only [hshared]
    refine ⟨⟨fun h => ?_, ?_⟩, fun limit hpos hbelow hbelow' => ⟨fun h => ?_, ?_⟩⟩
    · obtain ⟨x, y, z, hmem, -⟩ := exists_shared ha hb h
      exact ⟨x, y, z, hmem⟩
    · rintro ⟨x, y, z, hmem⟩
      exact meets_of_shared hmem
    · obtain ⟨x, y, z, hmem, hlt⟩ := exists_shared ha hb h
      obtain ⟨hx, hy, hz⟩ := hlt limit hpos hbelow hbelow'
      exact ⟨x, hx, y, hy, z, hz, hmem⟩
    · rintro ⟨x, -, y, -, z, -, hmem⟩
      exact meets_of_shared hmem
  · intro i hempty h
    obtain ⟨t, ht, hmeets⟩ := exists_slot_meets h hempty
    rw [ht, Slot.eq_any_of_meets hmeets]

/-- Alternatives, one of them twice, a wildcard and a value. -/
def wideTag : Tag := ⟨.oneOf [2, 1, 2], .any, .is 7⟩

/-- Shares one alternative with the other tag. -/
def overlapTag : Tag := ⟨.oneOf [3, 2], .is 4, .any⟩

/-- No alternative in the second slot. -/
def emptyTag : Tag := ⟨.any, .oneOf [], .is 7⟩

theorem meets_laws_overlapTag :
    overlapTag.meets wideTag = wideTag.meets overlapTag ∧
    (∃ x < 8, ∃ y < 8, ∃ z < 8,
      wideTag.meets (of₃ x y z) ∧ overlapTag.meets (of₃ x y z)) ∧
    wideTag.meets wideTag ∧
    Tag.meets ⟨.oneOf [2, 1, 2], .any, .any⟩ ⟨.any, .is 4, .any⟩ ∧
    emptyTag.meets wideTag ∧ wideTag.slots[1]? = some .any := by
  obtain ⟨hcomm, hwiden, -, hself, hshared, -⟩ := meets_laws wideTag overlapTag
  obtain ⟨-, hbelow⟩ := hshared (by decide) (by decide)
  have hempty : emptyTag.meets wideTag := by decide
  have hwildcard := (meets_laws emptyTag wideTag).2.2.2.2.2 1 rfl hempty
  refine ⟨hcomm.symm, (hbelow 8 (by decide) ?_ ?_).mp (by decide), hself (by decide),
    hwiden _ _ ⟨.inl rfl, .inl rfl, .inr rfl⟩ ⟨.inr rfl, .inl rfl, .inl rfl⟩ (by decide),
    hempty, hwildcard⟩
  · simp [Below, slots, Slot.Below, wideTag]
  · simp [Below, slots, Slot.Below, overlapTag]

end Tag

end TagLayers
