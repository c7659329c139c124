import Mathlib.Data.List.Sort

/-!
# Stable sorting by a key

A stable sort keeps the members of each key in their order. As the keys are sorted, nothing else is
left to say about it: a row whose keys are in order is told by the members of each key. So the keys
of a sorted row tell nothing of the order in which it was given, and two rows are sorted alike where
the members of each key come in the same order.

Results:
1. `KeyOrder.filter_mergeSort`, `KeyOrder.pairwise_mergeSort`: the members of one key keep their
   order.
2. `KeyOrder.map_mergeSort`: the same members in another order give the same keys.
3. `KeyOrder.eq_of_filter_eq`, `KeyOrder.mergeSort_eq`: rows in order are told by the members of
   each key.
-/

namespace TagLayers

/-- A total order of keys. -/
structure KeyOrder {κ : Type} (le : κ → κ → Bool) : Prop where
  trans {a b c : κ} : le a b = true → le b c = true → le a c = true
  total (a b : κ) : (le a b || le b a) = true
  antisymm {a b : κ} : le a b = true → le b a = true → a = b

namespace KeyOrder

variable {α κ : Type} {le : κ → κ → Bool} {key : α → κ} {l l' : List α} {a b : α}

theorem refl (ho : KeyOrder le) (k : κ) : le k k = true := by
  simpa using ho.total k k

/-- The keys of the members come in order. -/
def Along (le : κ → κ → Bool) (key : α → κ) (l : List α) : Prop :=
  l.Pairwise fun a b => le (key a) (key b) = true

theorem along_mergeSort (ho : KeyOrder le) (key : α → κ) (l : List α) :
    Along le key (l.mergeSort fun a b => le (key a) (key b)) :=
  List.pairwise_mergeSort (fun a b _ (hab : le (key a) (key b) = true) => ho.trans hab)
    (fun a b => ho.total (key a) (key b)) l

theorem map_mergeSort (ho : KeyOrder le) (h : l.Perm l') :
    (l.mergeSort fun a b => le (key a) (key b)).map key
      = (l'.mergeSort fun a b => le (key a) (key b)).map key := by
  have hperm : ((l.mergeSort fun a b => le (key a) (key b)).map key).Perm
      ((l'.mergeSort fun a b => le (key a) (key b)).map key) :=
    (((List.mergeSort_perm l _).trans h).trans (List.mergeSort_perm l' _).symm).map _
  exact hperm.eq_of_pairwise (fun _ _ _ _ => ho.antisymm)
    (List.pairwise_map.mpr (ho.along_mergeSort key l))
    (List.pairwise_map.mpr (ho.along_mergeSort key l'))

/-- No key comes before the first one. -/
theorem le_of_mem (ho : KeyOrder le) (h : Along le key (a :: l)) (hb : b ∈ a :: l) :
    le (key a) (key b) = true := by
  rcases List.mem_cons.mp hb with rfl | hb
  · exact ho.refl _
  · exact (List.pairwise_cons.mp h).1 b hb

variable [BEq κ] [LawfulBEq κ]

/-- Sorting keeps the order of the members of one key. -/
theorem filter_mergeSort (ho : KeyOrder le) (key : α → κ) (l : List α) (k : κ) :
    (l.mergeSort fun a b => le (key a) (key b)).filter (key · == k) = l.filter (key · == k) := by
  have hkey {a : α} (ha : a ∈ l.filter (key · == k)) : key a = k :=
    beq_iff_eq.mp (List.mem_filter.mp ha).2
  have halong : Along le key (l.filter (key · == k)) := by
    refine List.pairwise_iff_forall_sublist.mpr fun {a b} hab => ?_
    rw [hkey (hab.subset List.mem_cons_self),
      hkey (hab.subset (List.mem_cons_of_mem _ List.mem_cons_self))]
    exact ho.refl k
  have hsub : (l.filter (key · == k)).Sublist (l.mergeSort fun a b => le (key a) (key b)) :=
    List.sublist_mergeSort (fun a b _ (hab : le (key a) (key b) = true) => ho.trans hab)
      (fun a b => ho.total (key a) (key b)) halong List.filter_sublist
  -- the sublist is all of them, since there are as many
  have hfilter := hsub.filter (key · == k)
  rw [List.filter_eq_self.mpr fun a ha => (List.mem_filter.mp ha).2] at hfilter
  exact (hfilter.eq_of_length ((List.mergeSort_perm l _).filter _).length_eq.symm).symm

/-- What holds of each two members of one key, in their order, still holds of them. -/
theorem pairwise_mergeSort (ho : KeyOrder le) {R : α → α → Prop}
    (h : l.Pairwise fun a b => key a = key b → R a b) :
    (l.mergeSort fun a b => le (key a) (key b)).Pairwise fun a b =>
      le (key a) (key b) = true ∧ (key a = key b → R a b) := by
  refine (ho.along_mergeSort key l).and
    (List.pairwise_iff_forall_sublist.mpr fun {a b} hab hk => ?_)
  have hsub := hab.filter (key · == key b)
  rw [ho.filter_mergeSort, List.filter_eq_self.mpr] at hsub
  · exact List.pairwise_iff_forall_sublist.mp h (hsub.trans List.filter_sublist) hk
  · intro c hc
    rcases List.mem_pair.mp hc with rfl | rfl
    · exact beq_iff_eq.mpr hk
    · exact beq_self_eq_true _

theorem mem_iff_of_filter_eq (h : ∀ k, l.filter (key · == k) = l'.filter (key · == k)) (a : α) :
    a ∈ l ↔ a ∈ l' := by
  have hmem : a ∈ l.filter (key · == key a) ↔ a ∈ l'.filter (key · == key a) := by
    rw [h]
  simpa using hmem

/-- Rows in order are told by the members of each key. -/
theorem eq_of_filter_eq (ho : KeyOrder le) (hl : Along le key l) (hl' : Along le key l')
    (h : ∀ k, l.filter (key · == k) = l'.filter (key · == k)) : l = l' := by
  have hmem := mem_iff_of_filter_eq h
  induction l generalizing l' with
  | nil =>
    cases l' with
    | nil => rfl
    | cons b l' => exact nomatch (hmem b).mpr List.mem_cons_self
  | cons a l ih =>
    cases l' with
    | nil => exact nomatch (hmem a).mp List.mem_cons_self
    | cons b l' =>
      have hkey : key b = key a := ho.antisymm
        (ho.le_of_mem hl' ((hmem a).mp List.mem_cons_self))
        (ho.le_of_mem hl ((hmem b).mpr List.mem_cons_self))
      have hfirst := h (key a)
      rw [List.filter_cons, if_pos (beq_self_eq_true (key a)), List.filter_cons,
        if_pos (beq_iff_eq.mpr hkey)] at hfirst
      obtain ⟨rfl, -⟩ := List.cons.inj hfirst
      have hrest (k : κ) : l.filter (key · == k) = l'.filter (key · == k) := by
        have hboth := h k
        rw [List.filter_cons, List.filter_cons] at hboth
        split at hboth
        · exact (List.cons.inj hboth).2
        · exact hboth
      rw [ih (List.Pairwise.of_cons hl) (List.Pairwise.of_cons hl') hrest
        (mem_iff_of_filter_eq hrest)]

/-- The keys of which there are members are enough. -/
theorem mergeSort_eq (ho : KeyOrder le) (hl' : Along le key l')
    (h : ∀ a ∈ l ++ l', l.filter (key · == key a) = l'.filter (key · == key a)) :
    l.mergeSort (fun a b => le (key a) (key b)) = l' := by
  refine ho.eq_of_filter_eq (ho.along_mergeSort key l) hl' fun k => ?_
  rw [ho.filter_mergeSort]
  by_cases hk : ∃ a ∈ l ++ l', key a = k
  · obtain ⟨a, ha, rfl⟩ := hk
    exact h a ha
  · have hnone {row : List α} (hrow : row ⊆ l ++ l') : row.filter (key · == k) = [] :=
      List.filter_eq_nil_iff.mpr fun a ha heq => hk ⟨a, hrow ha, beq_iff_eq.mp heq⟩
    rw [hnone (List.subset_append_left l l'), hnone (List.subset_append_right l l')]

end KeyOrder

end TagLayers
