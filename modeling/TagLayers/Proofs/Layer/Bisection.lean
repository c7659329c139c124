import TagLayers.Proofs.Layer.Coverage

/-!
# Places found by bisection

A row of intervals can be searched by halving: the intervals that pass a test stand in front,
and the search gives the place of the first that does not. Tagging can then be done by place:
find the interval around either end of the range, keep what sticks out of the range on either
side, and put the pieces in the place of the intervals between. Each step that looks at a
place, or cuts the row between two places, may fail when a place lies outside the row.

Results:
1. `bisect_append`: in a row that is divided by a test, the search finds the border.
2. `Fills.around`: in a filled row one interval lies around each offset.
3. `tagByPlace?_eq`: on a filled perspective tagging by place never fails, and does what tagging
   by division does.
4. `tagAtPlace_eq`: the tag of an offset is found by place, too.
-/

namespace TagLayers

namespace Interval

/-- Searches the places from `lo` up to `hi` for the first interval that fails a test. -/
def bisect (test : Interval → Bool) (row : List Interval) (lo hi : Nat) : Nat :=
  if lo < hi then
    match row[(lo + hi) / 2]? with
    | some iv =>
        if test iv then bisect test row ((lo + hi) / 2 + 1) hi
        else bisect test row lo ((lo + hi) / 2)
    | none => lo
  else lo
termination_by hi - lo

/-- The place of the first interval that fails a test, where those that pass stand in front. -/
def border (test : Interval → Bool) (row : List Interval) : Nat := bisect test row 0 row.length

/-- The part of an interval before an offset, if there is any. -/
def before? (offset : Nat) (iv : Interval) : Option Interval :=
  if iv.span.start < offset then some ⟨⟨iv.span.start, offset⟩, iv.tag⟩ else none

/-- The part of an interval from an offset on, if there is any. -/
def after? (offset : Nat) (iv : Interval) : Option Interval :=
  if offset < iv.span.stop then some ⟨⟨offset, iv.span.stop⟩, iv.tag⟩ else none

/-- Puts an interval in the place of all that it overlaps. There is no result when a place lies
outside the row, or when the last place lies before the first. -/
def splice? (start stop : Nat) (label : Tag) (row : List Interval) : Option (List Interval) := do
  let first := border (·.span.stop ≤ start) row
  let last := border (·.span.start < stop) row
  guard (0 < last)
  let head ← row[first]?
  let tail ← row[last - 1]?
  guard (first ≤ last ∧ last ≤ row.length)
  return row.take first ++ (head.before? start).toList ++ ⟨⟨start, stop⟩, label⟩
    :: ((tail.after? stop).toList ++ row.drop last)

/-- In a row divided by a test, the search between two places around the border finds it. -/
theorem bisect_append {test : Interval → Bool} {a b : List Interval}
    (ha : ∀ iv ∈ a, test iv = true) (hb : ∀ iv ∈ b, test iv = false) {lo hi : Nat}
    (hlo : lo ≤ a.length) (hhi : a.length ≤ hi) (hlen : hi ≤ (a ++ b).length) :
    bisect test (a ++ b) lo hi = a.length := by
  induction hn : hi - lo using Nat.strongRecOn generalizing lo hi with
  | ind n ih =>
    rw [bisect]
    by_cases h : lo < hi
    · have hmid : (lo + hi) / 2 < (a ++ b).length := by omega
      rw [if_pos h, List.getElem?_eq_getElem hmid]
      -- the middle lies in front of the border, or at it or behind
      by_cases hm : (lo + hi) / 2 < a.length
      · have ht : test (a ++ b)[(lo + hi) / 2] = true := by
          rw [List.getElem_append_left hm]
          exact ha _ (List.getElem_mem _)
        simp only [ht, if_true]
        exact ih _ (by omega) (by omega) hhi hlen rfl
      · have ht : test (a ++ b)[(lo + hi) / 2] = false := by
          rw [List.getElem_append_right (Nat.le_of_not_lt hm)]
          exact hb _ (List.getElem_mem _)
        simp only [ht, Bool.false_eq_true, if_false]
        exact ih _ (by omega) hlo (by omega) (by omega) rfl
    · rw [if_neg h]
      omega

theorem border_append {test : Interval → Bool} {a b : List Interval}
    (ha : ∀ iv ∈ a, test iv = true) (hb : ∀ iv ∈ b, test iv = false) :
    border test (a ++ b) = a.length :=
  bisect_append ha hb (Nat.zero_le _) (by simp) (Nat.le_refl _)

/-- In a filled row one interval lies around each offset of the range; those before it stop at
the offset at the latest, and those after it start beyond the offset. -/
theorem Fills.around {stop pos offset : Nat} {row : List Interval} (h : Fills stop pos row)
    (hp : pos ≤ offset) (hs : offset < stop) :
    ∃ a iv b, row = a ++ iv :: b ∧ iv.span.start ≤ offset ∧ offset < iv.span.stop ∧
      (∀ x ∈ a, x.span.start < x.span.stop ∧ x.span.stop ≤ offset) ∧
      ∀ x ∈ b, offset < x.span.start ∧ x.span.start < x.span.stop := by
  induction row generalizing pos with
  | nil =>
    have he : pos = stop := h
    omega
  | cons iv rest ih =>
    obtain ⟨rfl, hlt, hrest⟩ := h
    by_cases ho : offset < iv.span.stop
    · refine ⟨[], iv, rest, rfl, hp, ho, by simp, fun x hx => ?_⟩
      obtain ⟨h1, h2, -⟩ := hrest.mem hx
      exact ⟨Nat.lt_of_lt_of_le ho h1, h2⟩
    · obtain ⟨a, mid, b, rfl, h1, h2, ha, hb⟩ := ih hrest (Nat.le_of_not_lt ho)
      refine ⟨iv :: a, mid, b, rfl, h1, h2, fun x hx => ?_, hb⟩
      rcases List.mem_cons.mp hx with rfl | hx
      · exact ⟨hlt, Nat.le_of_not_lt ho⟩
      · exact ha x hx

/-- The division at an offset, where one interval lies around it. -/
theorem divide_around {offset : Nat} {a b : List Interval} {iv : Interval}
    (ha : ∀ x ∈ a, x.span.stop ≤ offset) (hiv : offset < iv.span.stop) :
    (divide offset (a ++ iv :: b)).1 = a ++ (iv.before? offset).toList := by
  rw [divide_append ha, divide, if_neg (Nat.not_le.mpr hiv), before?]
  split <;> rfl

/-- The division at the end of a range, where one interval lies around its last offset. -/
theorem divide_after {stop : Nat} {a b : List Interval} {iv : Interval}
    (ha : ∀ x ∈ a, x.span.stop ≤ stop) (hiv : iv.span.start < stop)
    (hb : ∀ x ∈ b, stop ≤ x.span.start ∧ x.span.start < x.span.stop) :
    (divide stop (a ++ iv :: b)).2 = (iv.after? stop).toList ++ b := by
  rw [divide_append ha, divide, after?]
  by_cases h : iv.span.stop ≤ stop
  · rw [if_pos h, if_neg (Nat.not_lt.mpr h)]
    cases b with
    | nil => rfl
    | cons next rest =>
      obtain ⟨h1, h2⟩ := hb next List.mem_cons_self
      rw [divide, if_neg (by omega), if_neg (by omega)]
      rfl
  · rw [if_neg h, if_pos hiv, if_pos (Nat.lt_of_not_le h)]
    rfl

theorem countP_front {test : Interval → Bool} {a b : List Interval}
    (ha : ∀ iv ∈ a, test iv = true) (hb : ∀ iv ∈ b, test iv = false) :
    (a ++ b).countP test = a.length := by
  rw [List.countP_append, List.countP_eq_length.mpr ha,
    List.countP_eq_zero.mpr fun iv hiv => by simp [hb iv hiv], Nat.add_zero]

/-- Splicing by place never looks outside a filled row, and its result is the one of dividing
the row at both ends of the range. -/
theorem splice?_eq {length start stop : Nat} {row : List Interval} (h : Fills length 0 row)
    (hlt : start < stop) (hlen : stop ≤ length) (label : Tag) :
    splice? start stop label row
      = some ((divide start row).1 ++ ⟨⟨start, stop⟩, label⟩ :: (divide stop row).2) := by
  obtain ⟨a, head, b, hrow, -, hhead, ha, hb⟩ :=
    h.around (Nat.zero_le start) (Nat.lt_of_lt_of_le hlt hlen)
  obtain ⟨c, tail, d, hrow', htail, htail', hc, hd⟩ :=
    h.around (Nat.zero_le (stop - 1)) (by omega)
  have stops : ∀ x ∈ a, decide (x.span.stop ≤ start) = true := fun x hx =>
    decide_eq_true (ha x hx).2
  have beyond : ∀ x ∈ head :: b, decide (x.span.stop ≤ start) = false := by
    intro x hx
    refine decide_eq_false ?_
    rcases List.mem_cons.mp hx with rfl | hx
    · exact Nat.not_le.mpr hhead
    · obtain ⟨h1, h2⟩ := hb x hx
      omega
  have starts : ∀ x ∈ c ++ [tail], decide (x.span.start < stop) = true := by
    intro x hx
    refine decide_eq_true ?_
    rcases List.mem_append.mp hx with hx | hx
    · obtain ⟨h1, h2⟩ := hc x hx
      omega
    · rw [List.mem_singleton.mp hx]
      omega
  have later : ∀ x ∈ d, decide (x.span.start < stop) = false := by
    intro x hx
    obtain ⟨h1, -⟩ := hd x hx
    exact decide_eq_false (by omega)
  have hsplit : row = (c ++ [tail]) ++ d := by rw [hrow', List.append_cons]
  have hfirst : border (·.span.stop ≤ start) row = a.length := by
    rw [hrow, border_append stops beyond]
  have hlast : border (·.span.start < stop) row = c.length + 1 := by
    rw [hsplit, border_append starts later, List.length_append, List.length_singleton]
  -- an interval that stops before the range starts before its end, so the places are in order
  have horder : a.length ≤ c.length + 1 := by
    have hmono := List.countP_mono_left (l := row)
      (p := fun x => decide (x.span.stop ≤ start)) (q := fun x => decide (x.span.start < stop))
      fun x hx hs => by
        obtain ⟨-, hne, -⟩ := h.mem hx
        simp only [decide_eq_true_eq] at hs ⊢
        omega
    have hleft := countP_front stops beyond
    have hright := countP_front starts later
    rw [← hrow] at hleft
    rw [← hsplit, List.length_append, List.length_singleton] at hright
    omega
  have hin : c.length + 1 ≤ row.length := by
    rw [hrow', List.length_append, List.length_cons]
    omega
  have hhead? : row[a.length]? = some head := by
    rw [hrow, List.getElem?_append_right (Nat.le_refl _), Nat.sub_self]
    rfl
  have htail? : row[c.length + 1 - 1]? = some tail := by
    rw [hrow', Nat.add_sub_cancel, List.getElem?_append_right (Nat.le_refl _), Nat.sub_self]
    rfl
  have hbefore : row.take a.length ++ (head.before? start).toList = (divide start row).1 := by
    rw [hrow, divide_around (fun x hx => (ha x hx).2) hhead, List.take_left]
  have hafter : (tail.after? stop).toList ++ row.drop (c.length + 1) = (divide stop row).2 := by
    have hdrop : row.drop (c.length + 1) = d := by
      rw [hsplit, ← List.length_singleton (a := tail), ← List.length_append, List.drop_left]
    rw [hdrop, hrow', divide_after (fun x hx => by have := (hc x hx).2; omega) (by omega)]
    exact fun x hx => ⟨by have := (hd x hx).1; omega, (hd x hx).2⟩
  have hpos : (guard (0 < c.length + 1) : Option Unit) = some () := if_pos (Nat.succ_pos _)
  have hplaces : (guard (a.length ≤ c.length + 1 ∧ c.length + 1 ≤ row.length) : Option Unit)
      = some () := if_pos ⟨horder, hin⟩
  rw [splice?, hfirst, hlast, hhead?, htail?, hpos, hplaces, ← hbefore, ← hafter]
  rfl

end Interval

namespace Perspective

/-- Tags a range by place. There is no result when a place lies outside the row. -/
def tagByPlace? (p : Perspective) (start stop : Nat) (label : Tag) :
    Option (Except TagError Perspective) :=
  if stop < start ∨ p.length < stop then
    some (.error (.outOfRange start stop p.length))
  else if start = stop then
    some (.ok p)
  else
    (Interval.splice? start stop label p.intervals).map fun row => .ok { p with intervals := row }

def tagAtPlace (p : Perspective) (offset : Nat) : Option Tag :=
  (p.intervals[Interval.border (·.span.stop ≤ offset) p.intervals]?).map (·.tag)

/-- On a filled perspective tagging by place never fails, and does what tagging by division
does. -/
theorem tagByPlace?_eq {p : Perspective} (hp : p.Filled) (start stop : Nat) (label : Tag) :
    p.tagByPlace? start stop label = some (p.tag start stop label) := by
  rw [tagByPlace?, tag]
  split
  · rfl
  · next hin =>
    split
    · rfl
    · next hne =>
      rw [Interval.splice?_eq hp (by omega) (by omega)]
      simp only [Interval.around, Interval.divide_divide_snd (show start ≤ stop by omega),
        Option.map_some]

theorem tagAtPlace_eq {p : Perspective} (hp : p.Filled) (offset : Nat) :
    p.tagAtPlace offset = p.tagAt? offset := by
  show (p.intervals[_]?).map _ = Interval.tagAt? offset p.intervals
  by_cases ho : offset < p.length
  · obtain ⟨a, iv, b, hrow, -, hiv, ha, hb⟩ := hp.around (Nat.zero_le _) ho
    have hplace : Interval.border (·.span.stop ≤ offset) p.intervals = a.length := by
      rw [hrow]
      refine Interval.border_append (fun x hx => decide_eq_true (ha x hx).2) fun x hx => ?_
      refine decide_eq_false ?_
      rcases List.mem_cons.mp hx with rfl | hx
      · exact Nat.not_le.mpr hiv
      · obtain ⟨h1, h2⟩ := hb x hx
        omega
    have hskip : a.find? (offset < ·.span.stop) = none := by
      rw [List.find?_eq_none]
      intro x hx
      simpa using (ha x hx).2
    rw [hplace, Interval.tagAt?, hrow, List.getElem?_append_right (Nat.le_refl _), Nat.sub_self,
      List.find?_append, hskip]
    simp [hiv]
  · have hall : ∀ x ∈ p.intervals, decide (x.span.stop ≤ offset) = true := fun x hx =>
      decide_eq_true (Nat.le_trans (Interval.Fills.mem hp hx).2.2 (Nat.le_of_not_lt ho))
    have hplace := Interval.border_append (b := []) hall (by simp)
    have hnone : Interval.tagAt? offset p.intervals = none := by
      rw [← Option.not_isSome_iff_eq_none, Interval.tagAt?_isSome hp (Nat.zero_le _)]
      simpa using Nat.le_of_not_lt ho
    rw [List.append_nil] at hplace
    rw [hplace, hnone, List.getElem?_eq_none (Nat.le_refl _)]
    rfl

end Perspective

end TagLayers
