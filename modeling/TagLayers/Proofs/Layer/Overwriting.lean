import TagLayers.Proofs.Layer.LastWriter

/-!
# Overwriting

Tagging writes one interval in the place of all that it overlaps. An interval that is written over
leaves no end behind, and intervals that lie apart leave each other's ends alone. So two writes come
to the same row as the later one where it covers the earlier one, and to the same row in either
order where they lie apart, also where they share an end.

Results:
1. `divide_divide_fst`, `divide_divide_comm`: divisions at two offsets.
2. `divide_write_before`, `divide_write_after`: a division on either side of a write.
3. `write_covered`, `write_comm`: two writes.
4. `tagging_laws`: two calls after any history.
-/

namespace TagLayers

namespace Interval

/-! ## Two divisions -/

section

variable {start stop offset : Nat} {label : Tag}

theorem divide_cons_before (h : stop ≤ offset) (rest : List Interval) :
    divide offset (⟨⟨start, stop⟩, label⟩ :: rest)
      = (⟨⟨start, stop⟩, label⟩ :: (divide offset rest).1, (divide offset rest).2) := by
  rw [divide, if_pos h]

theorem divide_cons_cut (hstart : start < offset) (hstop : offset < stop) (rest : List Interval) :
    divide offset (⟨⟨start, stop⟩, label⟩ :: rest)
      = ([⟨⟨start, offset⟩, label⟩], ⟨⟨offset, stop⟩, label⟩ :: rest) := by
  rw [divide, if_neg (Nat.not_le.mpr hstop), if_pos hstart]

theorem divide_cons_after (hstart : offset ≤ start) (hstop : offset < stop)
    (rest : List Interval) :
    divide offset (⟨⟨start, stop⟩, label⟩ :: rest) = ([], ⟨⟨start, stop⟩, label⟩ :: rest) := by
  rw [divide, if_neg (Nat.not_le.mpr hstop), if_neg (Nat.not_lt.mpr hstart)]

end

/-- What lies before an offset does not depend on a division further on. -/
theorem divide_divide_fst {a b : Nat} (h : a ≤ b) (row : List Interval) :
    (divide a (divide b row).1).1 = (divide a row).1 := by
  induction row with
  | nil => rfl
  | cons iv rest ih =>
    obtain ⟨⟨start, stop⟩, label⟩ := iv
    rcases Nat.lt_or_ge b stop with hstop | hstop
    · -- nothing of the later intervals lies before `b`, so `ih` is not needed
      rcases Nat.lt_or_ge start a with hstart | hstart
      · rcases Nat.lt_or_eq_of_le h with hlt | rfl
        · simp (disch := omega) only [divide_cons_cut]
        · simp (disch := omega) only [divide_cons_cut, divide_cons_before]
          rfl
      · rcases Nat.lt_or_ge start b with hcut | hcut
        · simp (disch := omega) only [divide_cons_cut, divide_cons_after]
        · simp (disch := omega) only [divide_cons_after]
          rfl
    · rcases Nat.lt_or_ge a stop with hlt | hle
      · rcases Nat.lt_or_ge start a with hstart | hstart
        · simp (disch := omega) only [divide_cons_before, divide_cons_cut]
        · simp (disch := omega) only [divide_cons_before, divide_cons_after]
      · simp (disch := omega) only [divide_cons_before, ih]

/-- Between two offsets lies the same, whichever of them is divided at first. -/
theorem divide_divide_comm {a b : Nat} (h : a ≤ b) (row : List Interval) :
    (divide b (divide a row).2).1 = (divide a (divide b row).1).2 := by
  induction row with
  | nil => rfl
  | cons iv rest ih =>
    obtain ⟨⟨start, stop⟩, label⟩ := iv
    rcases Nat.lt_or_ge a stop with hlt | hle
    · rcases Nat.lt_or_ge b stop with hstop | hstop
      · rcases Nat.lt_or_ge start a with hstart | hstart
        · rcases Nat.lt_or_eq_of_le h with hab | rfl
          · simp (disch := omega) only [divide_cons_cut]
          · simp (disch := omega) only [divide_cons_cut, divide_cons_after, divide_cons_before]
            rfl
        · rcases Nat.lt_or_ge start b with hcut | hcut
          · simp (disch := omega) only [divide_cons_cut, divide_cons_after]
          · simp (disch := omega) only [divide_cons_after]
            rfl
      · rcases Nat.lt_or_ge start a with hstart | hstart
        · simp (disch := omega) only [divide_cons_cut, divide_cons_before]
        · simp (disch := omega) only [divide_cons_after, divide_cons_before]
    · simp (disch := omega) only [divide_cons_before, ih]

/-- A row of two parts is divided in the first part, if the offset lies there. -/
theorem Fills.divide_append {pos mid stop offset : Nat} {front back : List Interval}
    (hfront : Fills mid pos front) (hback : Fills stop mid back) (h : offset ≤ mid) :
    Interval.divide offset (front ++ back)
      = ((Interval.divide offset front).1, (Interval.divide offset front).2 ++ back) := by
  induction front generalizing pos with
  | nil => exact divide_fills hback h
  | cons iv rest ih =>
    obtain ⟨⟨start, stop⟩, label⟩ := iv
    obtain ⟨-, -, hrest⟩ := hfront
    rcases Nat.lt_or_ge offset stop with hlt | hle
    · rcases Nat.lt_or_ge start offset with hstart | hstart
      · simp (disch := omega) only [List.cons_append, divide_cons_cut]
      · simp (disch := omega) only [List.cons_append, divide_cons_after]
    · simp (disch := omega) only [List.cons_append, divide_cons_before, ih hrest]

/-! ## Writes -/

/-- The row with one interval in the place of all that it overlaps. -/
def write (start stop : Nat) (label : Tag) (row : List Interval) : List Interval :=
  (divide start row).1 ++ ⟨⟨start, stop⟩, label⟩ :: (divide stop row).2

variable {length start stop offset : Nat} {label : Tag} {row : List Interval}

/-- A division before a write goes through the row as it was before. -/
theorem divide_write_before (hrow : Fills length 0 row) (hlt : start < stop)
    (hlen : stop ≤ length) (h : offset ≤ start) :
    divide offset (write start stop label row)
      = ((divide offset row).1,
          (divide start (divide offset row).2).1
            ++ ⟨⟨start, stop⟩, label⟩ :: (divide stop row).2) := by
  have hfront : Fills start 0 (divide start row).1 :=
    (hrow.divide (Nat.zero_le start) (by omega)).1
  have hback : Fills length start (⟨⟨start, stop⟩, label⟩ :: (divide stop row).2) :=
    ⟨rfl, hlt, (hrow.divide (Nat.zero_le stop) hlen).2⟩
  rw [Interval.write, hfront.divide_append hback h, divide_divide_fst h, divide_divide_comm h]

/-- So does a division after it. -/
theorem divide_write_after (horder : start ≤ stop) (h : stop ≤ offset) (label : Tag)
    (row : List Interval) :
    divide offset (write start stop label row)
      = ((divide start row).1 ++ ⟨⟨start, stop⟩, label⟩ :: (divide offset (divide stop row).2).1,
          (divide offset row).2) := by
  have hfront : ∀ iv ∈ (divide start row).1, iv.span.stop ≤ offset := fun iv hiv =>
    Nat.le_trans (stop_le_of_mem_divide hiv) (Nat.le_trans horder h)
  rw [Interval.write, divide_append hfront, divide_cons_before h, divide_divide_snd h]

/-- A write that a later one covers leaves nothing behind. -/
theorem write_covered {start' stop' : Nat} (hrow : Fills length 0 row) (hlt : start < stop)
    (hlen : stop ≤ length) (hstart : start' ≤ start) (hstop : stop ≤ stop') (label label' : Tag) :
    write start' stop' label' (write start stop label row) = write start' stop' label' row := by
  rw [Interval.write, divide_write_before hrow hlt hlen hstart,
    divide_write_after (Nat.le_of_lt hlt) hstop, Interval.write]

/-- Two writes that lie apart come to the same in either order. -/
theorem write_comm {start' stop' : Nat} (hrow : Fills length 0 row) (hlt : start < stop)
    (hapart : stop ≤ start') (hlt' : start' < stop') (hlen : stop' ≤ length) (label label' : Tag) :
    write start' stop' label' (write start stop label row)
      = write start stop label (write start' stop' label' row) := by
  have horder : stop ≤ stop' := by omega
  calc
    write start' stop' label' (write start stop label row)
      = (divide start row).1 ++ ⟨⟨start, stop⟩, label⟩ :: (divide start' (divide stop row).2).1
          ++ ⟨⟨start', stop'⟩, label'⟩ :: (divide stop' row).2 := by
        rw [Interval.write, divide_write_after (Nat.le_of_lt hlt) hapart,
          divide_write_after (Nat.le_of_lt hlt) horder]
    _ = write start stop label (write start' stop' label' row) := by
        rw [Interval.write, divide_write_before hrow hlt' hlen (by omega),
          divide_write_before hrow hlt' hlen hapart]
        simp only [List.append_assoc, List.cons_append]

end Interval

/-! ## Calls -/

namespace Perspective

variable {p : Perspective} {c u v : TagCall}

/-- A call writes if its range is not empty and ends within the text. -/
theorem call_of_writes (h : c.start < c.stop ∧ c.stop ≤ p.length) :
    p.call c = ⟨Interval.write c.start c.stop c.label p.intervals, p.length⟩ := by
  have hin : ¬(c.stop < c.start ∨ p.length < c.stop) := by omega
  rw [call, tag, if_neg hin, if_neg (Nat.ne_of_lt h.1), Interval.write,
    ← Interval.divide_divide_snd (Nat.le_of_lt h.1)]
  rfl

/-- All other calls change nothing. -/
theorem call_of_idle (h : ¬(c.start < c.stop ∧ c.stop ≤ p.length)) : p.call c = p := by
  rcases p.call_cases c with ⟨-, hc⟩ | ⟨-, hc⟩
  · exact hc
  · obtain ⟨hle, hlen, -, ⟨-, hsame⟩ | ⟨hlt, -⟩⟩ := tag_eq_ok hc
    · exact hsame
    · exact absurd ⟨hlt, hlen⟩ h

/-- A call that a later one covers leaves nothing behind. -/
theorem call_covered (hp : p.Filled) (hstart : v.start ≤ u.start) (hstop : u.stop ≤ v.stop)
    (hlen : v.stop ≤ p.length) : (p.call u).call v = p.call v := by
  by_cases hu : u.start < u.stop ∧ u.stop ≤ p.length
  · have hv : v.start < v.stop ∧ v.stop ≤ p.length := by omega
    rw [call_of_writes hu, call_of_writes hv, call_of_writes (by exact hv)]
    dsimp only
    rw [Interval.write_covered hp hu.1 hu.2 hstart hstop]
  · rw [call_of_idle hu]

/-- Two calls whose ranges lie apart come to the same in either order. -/
theorem call_comm (hp : p.Filled) (h : u.stop ≤ v.start) :
    (p.call u).call v = (p.call v).call u := by
  by_cases hu : u.start < u.stop ∧ u.stop ≤ p.length
  · by_cases hv : v.start < v.stop ∧ v.stop ≤ p.length
    · rw [call_of_writes hu, call_of_writes hv, call_of_writes (by exact hv),
        call_of_writes (by exact hu)]
      dsimp only
      rw [Interval.write_comm hp hu.1 h hv.1 hv.2]
    · have hv' : ¬(v.start < v.stop ∧ v.stop ≤ (p.call u).length) := by rwa [(call_kept hp u).1]
      rw [call_of_idle hv, call_of_idle hv']
  · have hu' : ¬(u.start < u.stop ∧ u.stop ≤ (p.call v).length) := by rwa [(call_kept hp v).1]
    rw [call_of_idle hu, call_of_idle hu']

/-- After any history of calls from a fresh perspective, two further calls come to the same
perspective as the later one alone if its range covers that of the earlier one and ends within the
text; a call that is made again changes nothing; and two calls whose ranges lie apart come to the
same perspective in either order. This holds of calls that are refused, too, and none is whose
range is in order and ends within the text. -/
theorem tagging_laws (length : Nat) (history : List TagCall) :
    let p := (fresh length).after history
    (∀ u v : TagCall, v.start ≤ u.start → u.stop ≤ v.stop → v.stop ≤ length →
      (p.call u).call v = p.call v) ∧
    (∀ c : TagCall, (p.call c).call c = p.call c) ∧
    (∀ u v : TagCall, u.stop ≤ v.start → (p.call u).call v = (p.call v).call u) ∧
    ∀ (calls : List TagCall) (c : TagCall), c.start ≤ c.stop → c.stop ≤ length →
      (p.after calls).tag c.start c.stop c.label = .ok ((p.after calls).call c) := by
  intro p
  have hp : p.Filled := filled_after length history
  have hlen : p.length = length := length_after length history
  refine ⟨fun u v hstart hstop hend => ?_, fun c => ?_, fun u v h => call_comm hp h,
    fun calls c horder hend => ?_⟩
  · exact call_covered hp hstart hstop (hlen ▸ hend)
  · by_cases hend : c.stop ≤ p.length
    · exact call_covered hp (Nat.le_refl _) (Nat.le_refl _) hend
    · have hidle : p.call c = p := call_of_idle fun h => hend h.2
      rw [hidle, hidle]
  · have hlater : (p.after calls).length = length := (after_kept hp calls).1.trans hlen
    rcases (p.after calls).call_cases c with ⟨hfit, -⟩ | ⟨-, hc⟩
    · simp [TagCall.fits, hlater, horder, hend] at hfit
    · exact hc

/-- Ranges that overlap, and one that ends beyond a text of ten bytes. -/
def overlapping : List TagCall := [⟨2, 6, Tag.of 1⟩, ⟨4, 12, Tag.of 2⟩, ⟨5, 8, Tag.of 3⟩]

theorem tagging_laws_overlapping :
    let p := (fresh 10).after overlapping
    (p.call ⟨3, 6, Tag.of 4⟩).call ⟨3, 9, Tag.of 5⟩ = p.call ⟨3, 9, Tag.of 5⟩ ∧
      (p.call ⟨1, 3, Tag.of 4⟩).call ⟨3, 7, Tag.of 5⟩
        = (p.call ⟨3, 7, Tag.of 5⟩).call ⟨1, 3, Tag.of 4⟩ ∧
      p.tag 3 9 (Tag.of 5) = .ok (p.call ⟨3, 9, Tag.of 5⟩) ∧
      (p.call ⟨3, 9, Tag.of 5⟩).intervals
        = [⟨⟨0, 2⟩, Tag.generic⟩, ⟨⟨2, 3⟩, Tag.of 1⟩, ⟨⟨3, 9⟩, Tag.of 5⟩,
            ⟨⟨9, 10⟩, Tag.generic⟩] := by
  obtain ⟨hcovered, -, hcomm, hok⟩ := tagging_laws 10 overlapping
  exact ⟨hcovered ⟨3, 6, Tag.of 4⟩ ⟨3, 9, Tag.of 5⟩ (by decide) (by decide) (by decide),
    hcomm ⟨1, 3, Tag.of 4⟩ ⟨3, 7, Tag.of 5⟩ (by decide),
    hok [] ⟨3, 9, Tag.of 5⟩ (by decide) (by decide), by decide⟩

end Perspective

end TagLayers
