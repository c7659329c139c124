import TagLayers.Layer.Perspective

/-!
# Coverage

A row of intervals fills a range when each interval starts where the one before it stopped,
none is empty, and the row ends where the range ends. Every perspective that comes about by
tagging is filled in this way, and then the tag of an offset is the tag of the one interval
around it.

Results:
1. `Fills.divide`, `tagAt?_divide_fst`, `tagAt?_divide_snd`: a division fills both sides and
   keeps every tag.
2. `tag_eq_error_iff`: a range is refused exactly when it is reversed or ends beyond the text.
3. `fills_tag`: tagging keeps the coverage.
4. `tagAt?_tag`: after tagging, the range has the new tag and every other offset its old one.
-/

namespace TagLayers

namespace Interval

/-- The row lies gapless between `pos` and `stop`, and no interval is empty or reversed. -/
def Fills (stop : Nat) : Nat → List Interval → Prop
  | pos, [] => pos = stop
  | pos, iv :: rest => iv.span.start = pos ∧ pos < iv.span.stop ∧ Fills stop iv.span.stop rest

/-- The tag of the first interval that stops after an offset. -/
def tagAt? (offset : Nat) (row : List Interval) : Option Tag :=
  (row.find? (offset < ·.span.stop)).map (·.tag)

@[simp] theorem tagAt?_nil (offset : Nat) : tagAt? offset [] = none := rfl

theorem tagAt?_cons (offset : Nat) (iv : Interval) (rest : List Interval) :
    tagAt? offset (iv :: rest)
      = if offset < iv.span.stop then some iv.tag else tagAt? offset rest := by
  by_cases h : offset < iv.span.stop <;> simp [tagAt?, h]

namespace Fills

theorem le {stop pos : Nat} {row : List Interval} (h : Fills stop pos row) : pos ≤ stop := by
  induction row generalizing pos with
  | nil => exact Nat.le_of_eq h
  | cons iv rest ih =>
    obtain ⟨-, hlt, hrest⟩ := h
    exact Nat.le_trans (Nat.le_of_lt hlt) (ih hrest)

theorem append {mid stop pos : Nat} {a b : List Interval} (ha : Fills mid pos a)
    (hb : Fills stop mid b) : Fills stop pos (a ++ b) := by
  induction a generalizing pos with
  | nil => exact (show pos = mid from ha) ▸ hb
  | cons iv rest ih => exact ⟨ha.1, ha.2.1, ih ha.2.2⟩

/-- The intervals of a row that fills a range are not empty and lie within it. -/
theorem mem {stop pos : Nat} {row : List Interval} (h : Fills stop pos row) {iv : Interval}
    (hm : iv ∈ row) : pos ≤ iv.span.start ∧ iv.span.start < iv.span.stop ∧ iv.span.stop ≤ stop := by
  induction row generalizing pos with
  | nil => exact absurd hm List.not_mem_nil
  | cons first rest ih =>
    obtain ⟨rfl, hlt, hrest⟩ := h
    rcases List.mem_cons.mp hm with rfl | hm
    · exact ⟨Nat.le_refl _, hlt, hrest.le⟩
    · obtain ⟨hs, hrest⟩ := ih hrest hm
      exact ⟨Nat.le_trans (Nat.le_of_lt hlt) hs, hrest⟩

/-- Dividing a row fills the range on either side of the offset. -/
theorem divide {stop pos offset : Nat} {row : List Interval} (h : Fills stop pos row)
    (hp : pos ≤ offset) (hs : offset ≤ stop) :
    Fills offset pos (divide offset row).1 ∧ Fills stop offset (divide offset row).2 := by
  induction row generalizing pos with
  | nil =>
    have he : pos = stop := h
    have ho : pos = offset := by omega
    exact ⟨ho, show offset = stop by omega⟩
  | cons iv rest ih =>
    obtain ⟨rfl, hlt, hrest⟩ := h
    rw [Interval.divide]
    split
    · next hle =>
      obtain ⟨hb, ha⟩ := ih hrest hle
      exact ⟨⟨rfl, hlt, hb⟩, ha⟩
    · next hle =>
      split
      · next hcut => exact ⟨⟨rfl, hcut, rfl⟩, ⟨rfl, Nat.lt_of_not_le hle, hrest⟩⟩
      · next hcut =>
        have he : iv.span.start = offset := by omega
        exact ⟨he, ⟨he, Nat.lt_of_not_le hle, hrest⟩⟩

end Fills

/-- Nothing of a row lies before an offset at which it has not yet begun. -/
theorem divide_fills {stop pos offset : Nat} {row : List Interval} (h : Fills stop pos row)
    (hle : offset ≤ pos) : divide offset row = ([], row) := by
  cases row with
  | nil => rfl
  | cons iv rest =>
    obtain ⟨hstart, hlt, -⟩ := h
    rw [divide, if_neg (by omega), if_neg (by omega)]

/-- In a row made of two parts, the offsets before the border belong to the first part. -/
theorem tagAt?_append {mid pos offset : Nat} {a : List Interval} (ha : Fills mid pos a)
    (hp : pos ≤ offset) (b : List Interval) :
    tagAt? offset (a ++ b) = if offset < mid then tagAt? offset a else tagAt? offset b := by
  induction a generalizing pos with
  | nil =>
    have he : pos = mid := ha
    rw [List.nil_append, if_neg (by omega)]
  | cons iv rest ih =>
    obtain ⟨-, -, hrest⟩ := ha
    rw [List.cons_append, tagAt?_cons, tagAt?_cons]
    by_cases h : offset < iv.span.stop
    · rw [if_pos h, if_pos h, if_pos (Nat.lt_of_lt_of_le h hrest.le)]
    · rw [if_neg h, if_neg h, ih hrest (Nat.le_of_not_lt h)]

/-- A row that fills a range has a tag for exactly the offsets before its end. -/
theorem tagAt?_isSome {stop pos : Nat} {row : List Interval} (h : Fills stop pos row)
    {offset : Nat} (hp : pos ≤ offset) : (tagAt? offset row).isSome = decide (offset < stop) := by
  induction row generalizing pos with
  | nil =>
    have he : pos = stop := h
    simp only [tagAt?_nil, Option.isSome_none]
    exact (decide_eq_false (by omega)).symm
  | cons iv rest ih =>
    obtain ⟨-, -, hrest⟩ := h
    rw [tagAt?_cons]
    by_cases hlt : offset < iv.span.stop
    · have hs : offset < stop := Nat.lt_of_lt_of_le hlt hrest.le
      rw [if_pos hlt, decide_eq_true hs]
      rfl
    · rw [if_neg hlt, ih hrest (Nat.le_of_not_lt hlt)]

theorem tagAt?_divide_fst {stop pos offset at' : Nat} {row : List Interval}
    (h : Fills stop pos row) (hp : pos ≤ at') (hlt : at' < offset) :
    tagAt? at' (divide offset row).1 = tagAt? at' row := by
  induction row generalizing pos with
  | nil => rfl
  | cons iv rest ih =>
    obtain ⟨rfl, -, hrest⟩ := h
    rw [divide, tagAt?_cons]
    split
    · rw [tagAt?_cons]
      by_cases hs : at' < iv.span.stop
      · rw [if_pos hs, if_pos hs]
      · rw [if_neg hs, if_neg hs, ih hrest (Nat.le_of_not_lt hs)]
    · next hle =>
      rw [if_pos (by omega : at' < iv.span.stop), if_pos (by omega : iv.span.start < offset),
        tagAt?_cons, if_pos hlt]

theorem tagAt?_divide_snd {offset at' : Nat} (h : offset ≤ at') (row : List Interval) :
    tagAt? at' (divide offset row).2 = tagAt? at' row := by
  induction row with
  | nil => rfl
  | cons iv rest ih =>
    rw [divide, tagAt?_cons]
    split
    · next hle => rw [if_neg (by omega : ¬at' < iv.span.stop), ih]
    · split <;> rw [tagAt?_cons]

/-- A second division further on does not see the first. -/
theorem divide_divide_snd {a b : Nat} (h : a ≤ b) (row : List Interval) :
    (divide b (divide a row).2).2 = (divide b row).2 := by
  induction row with
  | nil => rfl
  | cons iv rest ih =>
    by_cases hle : iv.span.stop ≤ a
    · rw [divide, if_pos hle, divide, if_pos (Nat.le_trans hle h)]
      exact ih
    · by_cases hcut : iv.span.start < a
      · rw [divide, if_neg hle, if_pos hcut, divide, divide]
        by_cases hb : iv.span.stop ≤ b
        · rw [if_pos hb, if_pos hb]
        · rw [if_neg hb, if_neg hb, if_pos (Nat.lt_of_lt_of_le hcut h)]
          by_cases hab : a < b
          · rw [if_pos hab]
          · obtain rfl : a = b := by omega
            rw [if_neg hab]
      · rw [show (divide a (iv :: rest)).2 = iv :: rest by rw [divide, if_neg hle, if_neg hcut]]

end Interval

namespace Perspective

def Filled (p : Perspective) : Prop := Interval.Fills p.length 0 p.intervals

theorem coversFrom_of_fills {stop pos : Nat} {row : List Interval}
    (h : Interval.Fills stop pos row) : coversFrom stop pos row := by
  induction row generalizing pos with
  | nil => exact beq_iff_eq.mpr h
  | cons iv rest ih =>
    obtain ⟨rfl, hlt, hrest⟩ := h
    simp [coversFrom, Span.isEmpty, Nat.ne_of_lt hlt, ih hrest]

theorem Filled.isComplete {p : Perspective} (h : p.Filled) : p.isComplete = true :=
  coversFrom_of_fills h

theorem filled_fresh (length : Nat) : (fresh length).Filled := by
  show Interval.Fills length 0 (if length = 0 then [] else [⟨⟨0, length⟩, Tag.generic⟩])
  split
  · next h => exact h.symm
  · next h => exact ⟨rfl, Nat.pos_of_ne_zero h, rfl⟩

theorem tagAt?_fresh (length offset : Nat) :
    (fresh length).tagAt? offset = if offset < length then some Tag.generic else none := by
  show Interval.tagAt? offset (if length = 0 then [] else [⟨⟨0, length⟩, Tag.generic⟩]) = _
  split
  · next h => rw [if_neg (by omega), Interval.tagAt?_nil]
  · rw [Interval.tagAt?_cons, Interval.tagAt?_nil]

/-- A range is refused exactly when it is reversed or ends beyond the text, and the error names
the range and the length of the text. -/
theorem tag_eq_error_iff {p : Perspective} {start stop : Nat} {label : Tag} {e : TagError} :
    p.tag start stop label = .error e
      ↔ (stop < start ∨ p.length < stop) ∧ e = .outOfRange start stop p.length := by
  by_cases h : stop < start ∨ p.length < stop
  · rw [tag, if_pos h, Except.error.injEq]
    exact ⟨fun he => ⟨h, he.symm⟩, fun he => he.2.symm⟩
  · rw [tag, if_neg h]
    refine ⟨fun he => ?_, fun he => absurd he.1 h⟩
    split at he <;> cases he

/-- What a successful call does: nothing for an empty range; otherwise the range takes the place
of what lay between its two ends. -/
theorem tag_eq_ok {p q : Perspective} {start stop : Nat} {label : Tag}
    (h : p.tag start stop label = .ok q) :
    start ≤ stop ∧ stop ≤ p.length ∧ q.length = p.length ∧
      ((start = stop ∧ q = p) ∨ (start < stop ∧ q.intervals
        = (Interval.divide start p.intervals).1 ++ ⟨⟨start, stop⟩, label⟩
          :: (Interval.divide stop p.intervals).2)) := by
  rw [tag] at h
  split at h
  · cases h
  · next hin =>
    have hle : start ≤ stop := by omega
    have hlen : stop ≤ p.length := by omega
    split at h
    · next he =>
      cases h
      exact ⟨hle, hlen, rfl, .inl ⟨he, rfl⟩⟩
    · next he =>
      cases h
      refine ⟨hle, hlen, rfl, .inr ⟨by omega, ?_⟩⟩
      simp only [Interval.divide_divide_snd hle]

theorem length_tag {p q : Perspective} {start stop : Nat} {label : Tag}
    (h : p.tag start stop label = .ok q) : q.length = p.length :=
  (tag_eq_ok h).2.2.1

theorem fills_tag {p q : Perspective} {start stop : Nat} {label : Tag} (hp : p.Filled)
    (h : p.tag start stop label = .ok q) : q.Filled := by
  obtain ⟨hle, hlen, hl, ⟨-, rfl⟩ | ⟨hlt, hq⟩⟩ := tag_eq_ok h
  · exact hp
  · have hb := (Interval.Fills.divide hp (Nat.zero_le start) (Nat.le_trans hle hlen)).1
    have ha := (Interval.Fills.divide hp (Nat.zero_le stop) hlen).2
    rw [Filled, hl, hq]
    exact hb.append ⟨rfl, hlt, ha⟩

/-- After tagging, the range has the new tag, and every other offset keeps its tag. -/
theorem tagAt?_tag {p q : Perspective} {start stop : Nat} {label : Tag} (hp : p.Filled)
    (h : p.tag start stop label = .ok q) (offset : Nat) :
    q.tagAt? offset
      = if start ≤ offset ∧ offset < stop then some label else p.tagAt? offset := by
  obtain ⟨hle, hlen, -, ⟨he, rfl⟩ | ⟨hlt, hq⟩⟩ := tag_eq_ok h
  · rw [if_neg (by omega)]
  · have hb := (Interval.Fills.divide hp (Nat.zero_le start) (Nat.le_trans hle hlen)).1
    show Interval.tagAt? offset q.intervals = _
    rw [hq, Interval.tagAt?_append hb (Nat.zero_le offset), Interval.tagAt?_cons]
    by_cases hs : offset < start
    · rw [if_pos hs, if_neg (by omega), Interval.tagAt?_divide_fst hp (Nat.zero_le _) hs]
      rfl
    · rw [if_neg hs]
      by_cases ho : offset < stop
      · rw [if_pos ho, if_pos ⟨by omega, ho⟩]
      · rw [if_neg ho, if_neg (fun hc => ho hc.2),
          Interval.tagAt?_divide_snd (Nat.le_of_not_lt ho)]
        rfl

end Perspective

end TagLayers
