import Mathlib.Order.Interval.Set.LinearOrder
import TagLayers.Proofs.Layer.Cuts

/-!
# Spans as sets of bytes

A span stands for the bytes at its offsets, and an empty span for none. To contain a span that is
not empty is to have all of its bytes, and the merge of two spans is the smallest that contains
them. To intersect is to share a byte, but for one case: an empty span strictly between the ends of
another one intersects it, and shares no byte with it.

Results:
1. `contains_iff_subset`, `contains_merge_iff`: what contains a span, and what contains a merge.
2. `inter_nonempty_iff`, `intersects_iff`: when two spans share a byte, and when they intersect.
3. `predicates_tell_bytes`: all of it for two spans that do not end before they start.
4. `intersects_without_byte`: two spans that intersect and share no byte.
-/

namespace TagLayers

namespace Span

/-- The offsets of the bytes in the span. -/
def bytes (s : Span) : Set Nat := {offset | s.holds offset = true}

/-- The first span is empty and lies strictly between the ends of the second one. -/
def EmptyWithin (a b : Span) : Prop :=
  a.isEmpty = true ∧ b.start < a.start ∧ a.stop < b.stop

variable {a b c : Span}

theorem bytes_eq (s : Span) : s.bytes = Set.Ico s.start s.stop := by
  ext offset
  show s.holds offset = true ↔ _
  rw [holds, Bool.and_eq_true, decide_eq_true_eq, decide_eq_true_eq, Set.mem_Ico]

theorem isEmpty_iff : a.isEmpty = true ↔ a.start = a.stop := beq_iff_eq

theorem lt_of_isEmpty (ha : a.start ≤ a.stop) (h : a.isEmpty = false) : a.start < a.stop := by
  refine Nat.lt_of_le_of_ne ha fun heq => ?_
  rw [isEmpty_iff.mpr heq] at h
  cases h

theorem subset_of_contains (h : a.contains b = true) : b.bytes ⊆ a.bytes := by
  obtain ⟨hstart, hstop⟩ := contains_iff.mp h
  rw [bytes_eq, bytes_eq]
  exact Set.Ico_subset_Ico hstart hstop

/-- A span contains one that is not empty when it has all of its bytes. -/
theorem contains_iff_subset (hb : b.start < b.stop) :
    a.contains b = true ↔ b.bytes ⊆ a.bytes := by
  rw [contains_iff, bytes_eq, bytes_eq, Set.Ico_subset_Ico_iff hb]

/-- What contains two spans contains their merge, and nothing else does. -/
theorem contains_merge_iff :
    c.contains (a.merge b) = true ↔ c.contains a = true ∧ c.contains b = true := by
  rw [contains_iff, contains_iff, contains_iff, merge, Nat.le_min, Nat.max_le]
  exact and_and_and_comm

/-- The later start comes before the earlier end where two spans share a byte. -/
theorem inter_nonempty_iff :
    (a.bytes ∩ b.bytes).Nonempty ↔ max a.start b.start < min a.stop b.stop := by
  rw [bytes_eq, bytes_eq, Set.Ico_inter_Ico]
  exact Set.nonempty_Ico

/-- Two spans intersect where they share a byte, or where one of them is empty and lies strictly
between the ends of the other. -/
theorem intersects_iff (ha : a.start ≤ a.stop) (hb : b.start ≤ b.stop) :
    a.intersects b = true ↔
      (a.bytes ∩ b.bytes).Nonempty ∨ a.EmptyWithin b ∨ b.EmptyWithin a := by
  rw [intersects, Bool.and_eq_true, decide_eq_true_eq, decide_eq_true_eq, inter_nonempty_iff,
    EmptyWithin, EmptyWithin, isEmpty_iff, isEmpty_iff]
  omega

/-- For spans that do not end before they start: they intersect if and only if they share a byte, or
one of them is empty and lies strictly between the ends of the other; the first one contains the
second one, if that is not empty, if and only if it has all of its bytes; and their merge contains
both, and every span that contains both contains the merge. Where neither of them is empty, the
merge has no byte that is not in every span with the bytes of both. -/
theorem predicates_tell_bytes {a b : Span} (ha : a.start ≤ a.stop) (hb : b.start ≤ b.stop) :
    (a.intersects b = true ↔
      (a.bytes ∩ b.bytes).Nonempty ∨ a.EmptyWithin b ∨ b.EmptyWithin a) ∧
    (b.isEmpty = false → (a.contains b = true ↔ b.bytes ⊆ a.bytes)) ∧
    ((a.merge b).contains a = true ∧ (a.merge b).contains b = true) ∧
    (∀ c : Span, c.contains a = true → c.contains b = true → c.contains (a.merge b) = true) ∧
    (a.isEmpty = false → b.isEmpty = false → ∀ c : Span, a.bytes ⊆ c.bytes → b.bytes ⊆ c.bytes →
      (a.merge b).bytes ⊆ c.bytes) := by
  refine ⟨intersects_iff ha hb, fun hne => contains_iff_subset (lt_of_isEmpty hb hne),
    contains_merge_iff.mp (contains_self _), fun c hca hcb => contains_merge_iff.mpr ⟨hca, hcb⟩,
    fun hane hbne c hca hcb => ?_⟩
  have hcontains_a := (contains_iff_subset (lt_of_isEmpty ha hane)).mpr hca
  have hcontains_b := (contains_iff_subset (lt_of_isEmpty hb hbne)).mpr hcb
  exact subset_of_contains (contains_merge_iff.mpr ⟨hcontains_a, hcontains_b⟩)

/-- One span goes on beyond the other. -/
theorem predicates_tell_bytes_overlapping :
    ((⟨2, 5⟩ : Span).bytes ∩ (⟨4, 9⟩ : Span).bytes).Nonempty ∧
      ¬(⟨4, 9⟩ : Span).bytes ⊆ (⟨2, 5⟩ : Span).bytes ∧
      (⟨2, 9⟩ : Span).contains ((⟨2, 5⟩ : Span).merge ⟨4, 9⟩) = true := by
  obtain ⟨hintersects, hcontains, -, hleast, -⟩ :=
    predicates_tell_bytes (a := ⟨2, 5⟩) (b := ⟨4, 9⟩) (by decide) (by decide)
  refine ⟨?_, ?_, hleast ⟨2, 9⟩ rfl rfl⟩
  · obtain hshared | hempty | hempty := hintersects.mp rfl
    · exact hshared
    · cases hempty.1
    · cases hempty.1
  · intro hsubset
    cases (hcontains rfl).mpr hsubset

/-- An empty span inside of another one intersects it without a byte that is in both. -/
theorem intersects_without_byte :
    (⟨2, 5⟩ : Span).intersects ⟨3, 3⟩ = true ∧
      ¬((⟨2, 5⟩ : Span).bytes ∩ (⟨3, 3⟩ : Span).bytes).Nonempty := by
  refine ⟨rfl, fun hshared => ?_⟩
  cases Nat.not_lt.mpr (by decide) (inter_nonempty_iff.mp hshared)

end Span

end TagLayers
