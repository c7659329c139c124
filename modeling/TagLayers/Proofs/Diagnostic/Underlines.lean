import TagLayers.Diagnostic.Rendering

/-!
# Underlines

The underline of a diagnostic is made of blanks up to the column of its span, and of marks. Column
and marks count bytes, while the line above is cut by characters. Counted in bytes the underline
stops where the displayed line does, or it is one mark when the span starts there or beyond. Under
the characters of the line it stays where each of them is one byte and the span does not start
beyond them, or where the span is short enough; in all other cases it goes on beyond the line.

Results:
1. `excerptLines_plain`, `render?_plain`: the rows of a report without colors.
2. `excerpt?_eq`, `marks_eq`: what the underline is made from.
3. `staysUnder_iff`: when the underline stays under the displayed line.
4. `underline_stops`: all of it for a report.
5. `underline_goes_beyond`: a line that is shorter than its underline.
-/

namespace TagLayers

theorem Text.length_le_byteLen (text : Text) : text.length ≤ text.byteLen := by
  induction text with
  | nil => exact Nat.le_refl 0
  | cons c rest ih =>
    have hc := c.utf8Size_pos
    rw [List.length_cons, byteLen]
    omega

namespace Diagnostic

namespace Excerpt

/-- What stands in the row of the marks after the gutter. -/
def underline (e : Excerpt) : Text := List.replicate e.indent ' ' ++ List.replicate e.marks '^'

/-- The rows without colors: the place, the empty row, the line, and the underline. -/
def rows (name : String) (e : Excerpt) : List Text :=
  let number := Text.decimal e.location.line
  let padding := List.replicate number.length ' '
  ["  ".toList ++ "-->".toList ++ ' ' :: name.toList ++ ':' :: e.location.display,
   padding ++ [' ', '|'],
   number ++ ' ' :: '|' :: ' ' :: e.shown,
   padding ++ ' ' :: '|' :: ' ' :: e.underline]

/-- The underline has no more characters than the displayed line, or one more where the span starts
at the end of the displayed line. -/
def StaysUnder (e : Excerpt) : Prop :=
  e.underline.length ≤ e.shown.length ∨
    (e.underline.length = e.shown.length + 1 ∧ e.indent = e.shown.byteLen)

instance (e : Excerpt) : Decidable e.StaysUnder :=
  inferInstanceAs (Decidable (_ ∨ _))

theorem length_underline (e : Excerpt) : e.underline.length = e.indent + e.marks := by
  rw [underline, List.length_append, List.length_replicate, List.length_replicate]

end Excerpt

variable {style : TerminalStyle} {source : Source} {span : Span} {e : Excerpt}

theorem excerptLines_plain (hcolor : style.color = false) (name : String) (e : Excerpt) :
    excerptLines style name e = (e.rows name).flatMap (· ++ ['\n']) := by
  have hpaint (color : Color) (text : Text) : style.paint color text = text := by
    rw [TerminalStyle.paint, hcolor]
    rfl
  unfold excerptLines Excerpt.rows
  dsimp only
  simp only [Excerpt.underline, hpaint, List.flatMap_cons, List.flatMap_nil, List.append_assoc,
    List.cons_append, List.nil_append, List.append_nil]

theorem render?_plain (hcolor : style.color = false) {d : Diagnostic}
    (hstart : d.span.start ≤ source.length) (he : excerpt? style.width source d.span = some e) :
    d.render? style source
      = some (d.header style ++ (e.rows source.name).flatMap (· ++ ['\n']) ++ d.footer) := by
  rw [render?, if_pos hstart, he, ← excerptLines_plain hcolor]
  rfl

/-- What is shown of the line, and the room for marks in it. -/
theorem excerpt?_eq (width : Nat) (source : Source) (horder : span.start ≤ span.stop) :
    ∃ e, excerpt? width source span = some e ∧ e.location = source.location span.start ∧
      e.shown = (source.lineContaining span.start).take width ∧
      e.marks = max 1 (min (span.stop - span.start) (max 1 (e.shown.byteLen - e.indent))) := by
  have hlength : span.length? = some (span.stop - span.start) := if_pos horder
  rw [excerpt?, hlength]
  exact ⟨_, rfl, rfl, rfl, rfl⟩

/-- The underline stays under the line where the line has one byte for each character and the span
does not start beyond it, or where as many bytes as the underline is long are not more than the
characters of the line. -/
theorem staysUnder_iff {length : Nat}
    (hmarks : e.marks = max 1 (min length (max 1 (e.shown.byteLen - e.indent)))) :
    e.StaysUnder ↔ (e.shown.byteLen = e.shown.length ∧ e.indent ≤ e.shown.length) ∨
      (e.indent < e.shown.length ∧ e.indent + length ≤ e.shown.length) := by
  have hbytes := e.shown.length_le_byteLen
  rw [Excerpt.StaysUnder, e.length_underline, hmarks]
  omega

/-- In a report without colors the last row of the excerpt is the underline. It has at least one
mark. Counted in bytes it stops where the displayed line stops if the span starts before, and
otherwise it has one mark. Counted in characters it stays under the displayed line if and only if
all displayed characters have one byte and the span does not start beyond them, or the span stops at
a byte of the line that is not beyond the number of displayed characters. -/
theorem underline_stops (source : Source) (d : Diagnostic) (style : TerminalStyle)
    (hcolor : style.color = false) (horder : d.span.start ≤ d.span.stop)
    (hstart : d.span.start ≤ source.length) :
    ∃ e, excerpt? style.width source d.span = some e ∧
      d.render? style source
        = some (d.header style ++ (e.rows source.name).flatMap (· ++ ['\n']) ++ d.footer) ∧
      e.shown = (source.lineContaining d.span.start).take style.width ∧
      e.indent + 1 = (source.location d.span.start).column ∧ 1 ≤ e.marks ∧
      (e.indent < e.shown.byteLen → e.underline.length ≤ e.shown.byteLen) ∧
      (e.shown.byteLen ≤ e.indent → e.marks = 1) ∧
      (e.StaysUnder ↔ (e.shown.byteLen = e.shown.length ∧ e.indent ≤ e.shown.length) ∨
        (e.indent < e.shown.length ∧
          e.indent + (d.span.stop - d.span.start) ≤ e.shown.length)) := by
  obtain ⟨e, he, hlocation, hshown, hmarks⟩ := excerpt?_eq style.width source horder
  refine ⟨e, he, render?_plain hcolor hstart he, hshown, ?_, ?_, ?_, ?_, staysUnder_iff hmarks⟩
  · rw [Excerpt.indent, hlocation]
    exact Nat.succ_pred_eq_of_pos (Nat.succ_pos _)
  · omega
  · intro hbefore
    rw [e.length_underline]
    omega
  · intro hbeyond
    omega

/-- A span that goes on beyond what is shown of its line. -/
theorem underline_stops_cutLine :
    ∃ e, excerpt? 4 ⟨"t.v", "wire a;\nwire b;\n".toList⟩ ⟨10, 14⟩ = some e ∧
      e.shown = "wire".toList ∧ e.underline = "  ^^".toList ∧ e.StaysUnder := by
  obtain ⟨e, he, -, -, -, -, -, -, hstays⟩ := underline_stops
    ⟨"t.v", "wire a;\nwire b;\n".toList⟩ (Diagnostic.ofCode .syntaxMismatch "m" ⟨10, 14⟩)
    ⟨false, 4⟩ rfl (by decide) (by decide)
  have hcut : excerpt? 4 ⟨"t.v", "wire a;\nwire b;\n".toList⟩ ⟨10, 14⟩
      = some ⟨⟨2, 3⟩, "wire".toList, 2⟩ := by decide
  obtain rfl : (⟨⟨2, 3⟩, "wire".toList, 2⟩ : Excerpt) = e := Option.some.inj (hcut.symm.trans he)
  exact ⟨_, he, rfl, rfl, hstays.2 (.inl (by decide))⟩

/-- Two characters of two bytes each have four marks under them. -/
theorem underline_goes_beyond :
    ∃ e, excerpt? 80 ⟨"t.v", "éé\nabcd".toList⟩ ⟨0, 8⟩ = some e ∧
      e.shown = "éé".toList ∧ e.underline = "^^^^".toList ∧ ¬e.StaysUnder ∧
      (Diagnostic.ofCode .syntaxMismatch "m" ⟨0, 8⟩).render? ⟨false, 80⟩
          ⟨"t.v", "éé\nabcd".toList⟩
        = some "warning[W101]: m\n  --> t.v:1:1\n  |\n1 | éé\n  | ^^^^\n".toList :=
  ⟨⟨⟨1, 1⟩, "éé".toList, 4⟩, by decide, rfl, rfl, by decide, by decide⟩

end Diagnostic

end TagLayers
