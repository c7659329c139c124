import TagLayers.Source.Span
import TagLayers.Tag.Basic

/-!
# Perspectives

A perspective gives every byte of a text of fixed length one tag. It is kept as a list of
intervals that are not empty, follow each other without a gap, and cover the text exactly.

Tagging a range keeps what lies before it and what lies after it, cuts the intervals at its
two ends, and puts one interval with the new tag between them. Neighbouring intervals with the
same tag are never joined.

Main statement: `foldlM_tag`: ranges that follow each other are tagged in one go.
-/

namespace TagLayers

/-- A byte range that carries one tag. -/
structure Interval where
  /-- The range. -/
  span : Span
  tag : Tag
deriving DecidableEq, Repr, Inhabited

namespace Interval

/-- Divides intervals at an offset into those up to it and those from it on. An interval that
lies on both sides is cut in two. -/
def divide (offset : Nat) : List Interval → List Interval × List Interval
  | [] => ([], [])
  | iv :: rest =>
      if iv.span.stop ≤ offset then
        let (before, after) := divide offset rest
        (iv :: before, after)
      else if iv.span.start < offset then
        ([⟨⟨iv.span.start, offset⟩, iv.tag⟩], ⟨⟨offset, iv.span.stop⟩, iv.tag⟩ :: rest)
      else ([], iv :: rest)

/-- The intervals before a range and those after it. -/
def around (span : Span) (intervals : List Interval) : List Interval × List Interval :=
  let (before, rest) := divide span.start intervals
  (before, (divide span.stop rest).2)

/-- Puts one interval with a tag over each of several ranges that follow each other. -/
def sweep (label : Tag) : List Span → List Interval → List Interval
  | [], intervals => intervals
  | span :: more, intervals =>
      let (before, after) := around span intervals
      before ++ ⟨span, label⟩ :: sweep label more after

/-- What lies before an offset ends there at the latest. -/
theorem stop_le_of_mem_divide {offset : Nat} {intervals : List Interval} {iv : Interval}
    (h : iv ∈ (divide offset intervals).1) : iv.span.stop ≤ offset := by
  induction intervals with
  | nil => simp [divide] at h
  | cons first rest ih =>
      rw [divide] at h
      split at h
      · next hs =>
          rcases List.mem_cons.mp h with rfl | h
          · exact hs
          · exact ih h
      · split at h
        · exact Nat.le_of_eq (congrArg (·.span.stop) (List.mem_singleton.mp h))
        · simp at h

/-- Intervals that end before an offset are left alone by a division there. -/
theorem divide_append {offset : Nat} {done : List Interval}
    (h : ∀ iv ∈ done, iv.span.stop ≤ offset) (intervals : List Interval) :
    divide offset (done ++ intervals)
      = (done ++ (divide offset intervals).1, (divide offset intervals).2) := by
  induction done with
  | nil => rfl
  | cons first rest ih =>
      rw [List.cons_append, divide, if_pos (h _ List.mem_cons_self),
        ih fun iv hiv => h iv (List.mem_cons_of_mem _ hiv)]
      rfl

/-- Intervals that end before a range stay before it. -/
theorem around_append {span : Span} {done : List Interval}
    (h : ∀ iv ∈ done, iv.span.stop ≤ span.start) (intervals : List Interval) :
    around span (done ++ intervals)
      = (done ++ (around span intervals).1, (around span intervals).2) := by
  rw [around, divide_append h]
  rfl

end Interval

/-- A layer of tags over a text of a given length. -/
structure Perspective where
  /-- The intervals in order. -/
  intervals : List Interval
  /-- The length of the text. -/
  length : Nat
deriving DecidableEq, Repr, Inhabited

namespace Perspective

/-- The perspective in which nothing has been classified. -/
def fresh (length : Nat) : Perspective :=
  ⟨if length = 0 then [] else [⟨⟨0, length⟩, Tag.generic⟩], length⟩

/-- Tags a range. An empty range within the text changes nothing. -/
def tag (p : Perspective) (start stop : Nat) (label : Tag) : Except TagError Perspective :=
  if stop < start ∨ p.length < stop then
    .error (.outOfRange start stop p.length)
  else if start = stop then
    .ok p
  else
    let (before, after) := Interval.around ⟨start, stop⟩ p.intervals
    .ok { p with intervals := before ++ ⟨⟨start, stop⟩, label⟩ :: after }

/-- Tags ranges that follow each other within the text. -/
def sweep (p : Perspective) (spans : List Span) (label : Tag) : Perspective :=
  { p with intervals := Interval.sweep label spans p.intervals }

/-- The tag of the byte at an offset. -/
def tagAt? (p : Perspective) (offset : Nat) : Option Tag :=
  (p.intervals.find? (offset < ·.span.stop)).map (·.tag)

/-- The spans whose tag meets the given one. -/
def rangesOf (p : Perspective) (tag : Tag) : List Span :=
  (p.intervals.filter (·.tag.meets tag)).map (·.span)

/-- Each tag once, in the order in which tags first occur. -/
def distinctTags (p : Perspective) : List Tag :=
  (p.intervals.map (·.tag)).eraseDups

/-- The spans that nothing has classified. -/
def genericSpans (p : Perspective) : List Span :=
  (p.intervals.filter (·.tag.isGeneric)).map (·.span)

/-- The intervals follow each other from `pos` to `length` without a gap, and none is empty. -/
def coversFrom (length : Nat) : Nat → List Interval → Bool
  | pos, [] => pos == length
  | pos, iv :: rest =>
      iv.span.start == pos && !iv.span.isEmpty && coversFrom length iv.span.stop rest

/-- The intervals cover the text exactly. -/
def isComplete (p : Perspective) : Bool := coversFrom p.length 0 p.intervals

/-- Ranges that follow each other are tagged one after the other, also where intervals that
end before them have been done with. -/
theorem foldlM_tag_append {length pos : Nat} {spans : List Span}
    (h : Span.inOrder length pos spans) {done : List Interval}
    (hd : ∀ iv ∈ done, iv.span.stop ≤ pos) (intervals : List Interval) (label : Tag) :
    spans.foldlM (fun p span => p.tag span.start span.stop label)
        (⟨done ++ intervals, length⟩ : Perspective)
      = .ok ⟨done ++ Interval.sweep label spans intervals, length⟩ := by
  induction spans generalizing pos done intervals with
  | nil => rfl
  | cons span more ih =>
      simp only [Span.inOrder, Bool.and_eq_true, decide_eq_true_eq] at h
      obtain ⟨⟨⟨hpos, hlt⟩, hle⟩, hmore⟩ := h
      have hds : ∀ iv ∈ done, iv.span.stop ≤ span.start := fun iv hiv =>
        Nat.le_trans (hd iv hiv) hpos
      have step : tag ⟨done ++ intervals, length⟩ span.start span.stop label
          = .ok ⟨(done ++ (Interval.around span intervals).1 ++ [⟨span, label⟩])
              ++ (Interval.around span intervals).2, length⟩ := by
        have within : ¬(span.stop < span.start ∨ length < span.stop) :=
          not_or.mpr ⟨Nat.not_lt.mpr (Nat.le_of_lt hlt), Nat.not_lt.mpr hle⟩
        rw [tag, if_neg within, if_neg (Nat.ne_of_lt hlt)]
        simp [Interval.around_append hds]
      rw [List.foldlM_cons, step]
      refine (ih hmore ?_ _).trans ?_
      · intro iv hiv
        simp only [List.append_assoc, List.mem_append, List.mem_singleton] at hiv
        rcases hiv with hiv | hiv | rfl
        · exact Nat.le_trans (hds iv hiv) (Nat.le_of_lt hlt)
        · exact Nat.le_trans (Interval.stop_le_of_mem_divide hiv) (Nat.le_of_lt hlt)
        · exact Nat.le_refl _
      · simp [Interval.sweep]

/-- Ranges that follow each other are tagged in one go. -/
theorem foldlM_tag {p : Perspective} {spans : List Span} (h : Span.inOrder p.length 0 spans)
    (label : Tag) :
    spans.foldlM (fun p span => p.tag span.start span.stop label) p = .ok (p.sweep spans label) :=
  foldlM_tag_append h (fun _ (hiv : _ ∈ []) => absurd hiv List.not_mem_nil) p.intervals label

end Perspective

end TagLayers
