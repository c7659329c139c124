import TagLayers.Proofs.Text.Fields
import TagLayers.Tag.Basic

/-!
# Displayed tags

The displayed form of a tag reads back. A comma stands between two slots and in none, a bar stands
between two alternatives and in none, and the first character says which kind of slot it is. The
wildcards that are left out are those that a tag built from the shown slots has.

Results:
1. `ofSlots_shownSlots`: the shown slots are a tag's own.
2. `Slot.display_inj`: one slot.
3. `display_inj`, `displays_unambiguous`: tags of the same display are equal.
-/

namespace TagLayers

namespace Slot

theorem display_ne_nil (s : Slot) : s.display ≠ [] := by
  cases s with
  | any => exact List.cons_ne_nil _ _
  | is v => exact Text.decimal_ne_nil v
  | oneOf vs => exact List.cons_ne_nil _ _

/-- Besides digits a displayed slot has only the characters of wildcards and alternatives. -/
theorem notMem_display {c : Char} (s : Slot) (hdigit : c.isDigit = false)
    (hmark : c ∉ ['*', '\x7b', '|', '\x7d']) : c ∉ s.display := by
  simp only [List.mem_cons, List.not_mem_nil, or_false, not_or] at hmark
  obtain ⟨hstar, hopen, hbar, hclose⟩ := hmark
  cases s with
  | any => exact List.not_mem_cons_of_ne_of_not_mem hstar List.not_mem_nil
  | is v => exact Text.notMem_decimal v hdigit
  | oneOf vs =>
    have hsep : c ∉ ['|'] := List.not_mem_cons_of_ne_of_not_mem hbar List.not_mem_nil
    have hjoined : c ∉ Text.joinWith ['|'] (vs.map Text.decimal) :=
      Text.notMem_joinWith hsep
        (List.forall_mem_map.mpr fun v _ => Text.notMem_decimal v hdigit)
    exact List.not_mem_append (List.not_mem_cons_of_ne_of_not_mem hopen hjoined)
      (List.not_mem_cons_of_ne_of_not_mem hclose List.not_mem_nil)

/-- Alternatives are told apart in the order in which they stand, each as often as it does. -/
theorem alternatives_inj {vs ws : List TagValue} :
    Text.joinWith ['|'] (vs.map Text.decimal) = Text.joinWith ['|'] (ws.map Text.decimal) ↔
      vs = ws := by
  have hfield (us : List TagValue) : ∀ f ∈ us.map Text.decimal, f ≠ [] ∧ '|' ∉ f :=
    List.forall_mem_map.mpr fun v _ => ⟨Text.decimal_ne_nil v, Text.notMem_decimal v rfl⟩
  have hdecimal : Function.Injective Text.decimal := fun _ _ => Text.decimal_inj.mp
  rw [Text.joinWith_inj List.not_mem_nil (hfield vs) (hfield ws)]
  exact (List.map_injective_iff.mpr hdecimal).eq_iff

/-- The first character of a displayed slot says of which kind it is, and the rest which one. -/
theorem display_inj {s t : Slot} : s.display = t.display ↔ s = t := by
  refine ⟨fun h => ?_, fun h => h ▸ rfl⟩
  cases s with
  | any =>
    cases t with
    | any => rfl
    | is w => exact absurd h.symm (Text.decimal_ne_cons w rfl [])
    | oneOf ws => exact absurd (List.cons.inj h).1 (by decide)
  | is v =>
    cases t with
    | any => exact absurd h (Text.decimal_ne_cons v rfl [])
    | is w => exact congrArg is (Text.decimal_inj.mp h)
    | oneOf ws => exact absurd h (Text.decimal_ne_cons v rfl _)
  | oneOf vs =>
    cases t with
    | any => exact absurd (List.cons.inj h).1 (by decide)
    | is w => exact absurd h.symm (Text.decimal_ne_cons w rfl _)
    | oneOf ws =>
      have hjoined := List.append_cancel_right (List.cons.inj h).2
      exact congrArg oneOf (alternatives_inj.mp hjoined)

end Slot

namespace Tag

/-- The slots that are not shown are those that are filled up when the shown ones are given. -/
theorem ofSlots_shownSlots (t : Tag) : ofSlots t.shownSlots = .ok t := by
  obtain ⟨first, second, third⟩ := t
  rw [shownSlots]
  by_cases hthird : third = .any
  · subst hthird
    by_cases hsecond : second = .any
    · subst hsecond
      rfl
    · rw [if_neg (not_not_intro rfl), if_pos hsecond]
      rfl
  · rw [if_pos hthird]
    rfl

theorem shownSlots_inj {a b : Tag} : a.shownSlots = b.shownSlots ↔ a = b := by
  refine ⟨fun h => ?_, fun h => h ▸ rfl⟩
  have hbuilt := congrArg ofSlots h
  rw [ofSlots_shownSlots, ofSlots_shownSlots] at hbuilt
  exact Except.ok.inj hbuilt

/-- A displayed tag has the characters of its slots, a separator and brackets. -/
theorem notMem_display {c : Char} (t : Tag) (hdigit : c.isDigit = false)
    (hslot : c ∉ ['*', '\x7b', '|', '\x7d']) (hmark : c ∉ ['(', ',', ' ', ')']) :
    c ∉ t.display := by
  simp only [List.mem_cons, List.not_mem_nil, or_false, not_or] at hmark
  obtain ⟨hopen, hcomma, hblank, hclose⟩ := hmark
  have hsep : c ∉ [',', ' '] := by
    simp only [List.mem_cons, List.not_mem_nil, or_false, not_or]
    exact ⟨hcomma, hblank⟩
  have hjoined : c ∉ Text.joinWith [',', ' '] (t.shownSlots.map Slot.display) :=
    Text.notMem_joinWith hsep
      (List.forall_mem_map.mpr fun s _ => s.notMem_display hdigit hslot)
  exact List.not_mem_append (List.not_mem_cons_of_ne_of_not_mem hopen hjoined)
    (List.not_mem_cons_of_ne_of_not_mem hclose List.not_mem_nil)

theorem display_inj {a b : Tag} : a.display = b.display ↔ a = b := by
  have hslot (t : Tag) : ∀ f ∈ t.shownSlots.map Slot.display, f ≠ [] ∧ ',' ∉ f :=
    List.forall_mem_map.mpr fun s _ => ⟨s.display_ne_nil, s.notMem_display rfl (by decide)⟩
  have hdisplay : Function.Injective Slot.display := fun _ _ => Slot.display_inj.mp
  calc
    a.display = b.display
    _ ↔ Text.joinWith [',', ' '] (a.shownSlots.map Slot.display)
          = Text.joinWith [',', ' '] (b.shownSlots.map Slot.display) := by
      rw [display, display, List.append_cancel_right_eq, List.cons.injEq, and_iff_right rfl]
    _ ↔ a.shownSlots.map Slot.display = b.shownSlots.map Slot.display :=
      Text.joinWith_inj (by decide) (hslot a) (hslot b)
    _ ↔ a.shownSlots = b.shownSlots := (List.map_injective_iff.mpr hdisplay).eq_iff
    _ ↔ a = b := shownSlots_inj

/-- Two tags are displayed alike, as text or as a string, only if they are the same tag. -/
theorem displays_unambiguous (a b : Tag) :
    (a.display = b.display ↔ a = b) ∧ (a.shown = b.shown ↔ a = b) := by
  refine ⟨display_inj, ?_⟩
  rw [shown, shown, String.ofList_inj]
  exact display_inj

end Tag

end TagLayers
