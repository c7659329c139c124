import Mathlib.Data.List.Forall2
import TagLayers.Proofs.Layer.Cuts

/-!
# Runs of intervals

Of two rows that fill the same range, let one end only where the other one ends too. Then it cuts
the other row into runs, one for each of its own intervals, and a run fills the interval that it
belongs to. In a source the token of the interval is then the tokens of the run joined.

Results:
1. `Fills.exists_split`: a row is split where one of its intervals ends.
2. `Fills.exists_runs`: the runs of a finer row.
3. `Fits.text_of_fills`: the text under a run.
4. `Fits.runsOf`: the tokens of a coarser perspective.
-/

namespace TagLayers

namespace Interval

/-- Some interval of the row starts or stops at the offset. -/
def Bound (row : List Interval) (offset : Nat) : Prop :=
  ∃ iv ∈ row, iv.span.start = offset ∨ iv.span.stop = offset

namespace Fills

variable {stop pos mid offset : Nat} {row front back coarse fine : List Interval}

theorem eq_nil (h : Fills pos pos row) : row = [] := by
  cases row with
  | nil => rfl
  | cons iv rest =>
    obtain ⟨-, hlt, hrest⟩ := h
    exact absurd hrest.le (Nat.not_le_of_lt hlt)

theorem ne_nil (h : Fills stop pos row) (hlt : pos < stop) : row ≠ [] := by
  rintro rfl
  exact Nat.ne_of_lt hlt h

theorem stop_getLast (h : Fills stop pos row) (hne : row ≠ []) :
    (row.getLast hne).span.stop = stop := by
  induction row generalizing pos with
  | nil => exact absurd rfl hne
  | cons iv rest ih =>
    obtain ⟨-, -, hrest⟩ := h
    cases rest with
    | nil => exact hrest
    | cons next rest => exact ih hrest (List.cons_ne_nil _ _)

/-- The first part fills the range up to some offset, and the second part fills it from there. -/
theorem exists_append (h : Fills stop pos (front ++ back)) :
    ∃ mid, Fills mid pos front ∧ Fills stop mid back := by
  induction front generalizing pos with
  | nil => exact ⟨pos, rfl, h⟩
  | cons iv rest ih =>
    obtain ⟨hstart, hlt, hrest⟩ := h
    obtain ⟨mid, hfront, hback⟩ := ih hrest
    exact ⟨mid, ⟨hstart, hlt, hfront⟩, hback⟩

theorem exists_split (h : Fills stop pos row) (hbound : Bound row offset) :
    ∃ front back, front ++ back = row ∧ Fills offset pos front ∧ Fills stop offset back := by
  induction row generalizing pos with
  | nil =>
    obtain ⟨iv, hiv, -⟩ := hbound
    cases hiv
  | cons iv rest ih =>
    obtain ⟨hstart, hlt, hrest⟩ := h
    obtain ⟨jv, hjv, hend⟩ := hbound
    rcases List.mem_cons.mp hjv with rfl | hjv
    · rcases hend with rfl | rfl
      · exact ⟨[], _, rfl, hstart.symm, rfl, hstart ▸ hlt, hrest⟩
      · exact ⟨[jv], rest, rfl, ⟨hstart, hlt, rfl⟩, hrest⟩
    · obtain ⟨front, back, rfl, hfront, hback⟩ := ih hrest ⟨jv, hjv, hend⟩
      exact ⟨iv :: front, back, rfl, ⟨hstart, hlt, hfront⟩, hback⟩

/-- What ends beyond the first part ends in the second one. -/
theorem bound_of_append (h : Fills mid pos front) (hlt : mid < offset)
    (hbound : Bound (front ++ back) offset) : Bound back offset := by
  obtain ⟨iv, hiv, hend⟩ := hbound
  rcases List.mem_append.mp hiv with hiv | hiv
  · obtain ⟨-, hpos, hle⟩ := h.mem hiv
    rcases hend with rfl | rfl <;> omega
  · exact ⟨iv, hiv, hend⟩

/-- A row that ends only where a finer one does cuts it into runs that fill its intervals. -/
theorem exists_runs (hcoarse : Fills stop pos coarse) (hfine : Fills stop pos fine)
    (hends : ∀ iv ∈ coarse, Bound fine iv.span.stop) :
    ∃ runs : List (List Interval), runs.flatten = fine ∧
      List.Forall₂ (fun iv run => Fills iv.span.stop iv.span.start run) coarse runs := by
  induction coarse generalizing pos fine with
  | nil =>
    obtain rfl : pos = stop := hcoarse
    exact ⟨[], hfine.eq_nil.symm, .nil⟩
  | cons iv rest ih =>
    obtain ⟨rfl, hlt, hrest⟩ := hcoarse
    obtain ⟨hfirst, hlater⟩ := List.forall_mem_cons.mp hends
    obtain ⟨run, back, rfl, hrun, hback⟩ := hfine.exists_split hfirst
    obtain ⟨runs, rfl, hruns⟩ := ih hrest hback fun jv hjv => by
      obtain ⟨hstart, hpos, -⟩ := hrest.mem hjv
      exact hrun.bound_of_append (Nat.lt_of_le_of_lt hstart hpos) (hlater jv hjv)
    exact ⟨run :: runs, rfl, .cons hrun hruns⟩

end Fills

end Interval

/-! ## Tokens -/

namespace Token

/-- The token is the tokens of a run joined: it starts with the first of them and stops with the
last, and its text is theirs. -/
structure Joins (t : Token) (run : List Token) : Prop where
  start : run.head?.map (·.span.start) = some t.span.start
  stop : run.getLast?.map (·.span.stop) = some t.span.stop
  text : run.flatMap (·.text) = t.text

/-- Each coarse token is a run of fine ones joined, and the runs follow each other and leave none
of the fine tokens out. -/
def RunsOf (fine coarse : List Token) : Prop :=
  ∃ runs : List (List Token), runs.flatten = fine ∧ List.Forall₂ Joins coarse runs

end Token

namespace Perspective.Fits

variable {source : Source} {p q : Perspective} {pos stop : Nat} {row : List Interval}

/-- The texts of intervals that fill a range between boundaries are the text of the range. -/
theorem text_of_fills (hrow : Interval.Fills stop pos row) (hrange : source.Admits ⟨pos, stop⟩)
    (hends : Interval.EndsIn (fun n => source.text.isBoundary n = true) row) :
    (row.map (Token.ofInterval source.text)).flatMap (·.text) = source.text.slice pos stop := by
  obtain ⟨a, t, b, htext, hstart, hstop⟩ := hrange.exists_split
  obtain rfl : a.byteLen = pos := hstart
  obtain rfl : a.byteLen + t.byteLen = stop := hstop
  have hjoin := join_fills hrow hrange.start hends
  have hrest : source.text.dropBytes a.byteLen = t ++ b := by
    rw [← htext, Text.dropBytes_byteLen_append]
  have hback : source.text.dropBytes (a.byteLen + t.byteLen) = b := by
    rw [← htext, ← List.append_assoc, ← Text.byteLen_append, Text.dropBytes_byteLen_append]
  rw [hrest, hback] at hjoin
  rw [List.append_cancel_right hjoin, ← htext, Text.slice_byteLen_append]

theorem joins_of_fills {iv : Interval} (hiv : source.Admits iv.span ∧ iv.span.start < iv.span.stop)
    (hrow : Interval.Fills iv.span.stop iv.span.start row)
    (hends : Interval.EndsIn (fun n => source.text.isBoundary n = true) row) :
    (Token.ofInterval source.text iv).Joins (row.map (Token.ofInterval source.text)) := by
  have hne := hrow.ne_nil hiv.2
  refine ⟨?_, ?_, text_of_fills hrow hiv.1 hends⟩
  · cases row with
    | nil => exact absurd rfl hne
    | cons first rest => exact congrArg some hrow.1
  · rw [List.getLast?_map, List.getLast?_eq_some_getLast hne]
    exact congrArg some (hrow.stop_getLast hne)

/-- A perspective that ends only where another one does has tokens that are runs of its tokens. -/
theorem runsOf (hp : p.Fits source) (hq : q.Fits source)
    (hends : Interval.EndsIn (Interval.Bound p.intervals) q.intervals) :
    Token.RunsOf (p.intervals.map (Token.ofInterval source.text))
      (q.intervals.map (Token.ofInterval source.text)) := by
  have hfilled : Interval.Fills q.length 0 p.intervals := by
    rw [hq.length, ← hp.length]
    exact hp.filled
  obtain ⟨runs, hflat, hruns⟩ :=
    Interval.Fills.exists_runs hq.filled hfilled fun iv hiv => (hends iv hiv).2
  refine ⟨runs.map (·.map (Token.ofInterval source.text)), ?_, ?_⟩
  · rw [← List.map_flatten, hflat]
  · rw [List.forall₂_map_left_iff, List.forall₂_map_right_iff]
    refine List.forall₂_iff_get.mpr ⟨hruns.length_eq, fun i hi hi' => ?_⟩
    refine joins_of_fills (hq.admits (List.get_mem _ _)) (hruns.get hi hi') fun iv hiv => ?_
    refine hp.ends iv ?_
    rw [← hflat]
    exact List.mem_flatten.mpr ⟨_, List.get_mem _ _, hiv⟩

end Perspective.Fits

end TagLayers
