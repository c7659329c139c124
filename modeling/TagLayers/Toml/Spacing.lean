import TagLayers.Text

/-!
# Blanks, comments and lines of TOML

A line ends with a newline, or with a carriage return and a newline, which counts as one newline
everywhere. Blanks stand between the parts of a line, and a comment runs to the end of its line.

Main statement: `length_lt_of_pastComment?`: a comment takes something, so skipping comments ends.
-/

namespace TagLayers.Toml

/-- A reader: what stands at the start of a text, and the rest. -/
abbrev Reader (α : Type) := Text → Option (α × Text)

/-- Every end of a line as a single newline. -/
def unifyNewlines : Text → Text
  | [] => []
  | '\r' :: '\n' :: rest => '\n' :: unifyNewlines rest
  | c :: rest => c :: unifyNewlines rest

/-- A character that strings and comments may hold: no control other than the tab. -/
def isPlain (c : Char) : Bool := c == '\t' || (0x20 ≤ c.toNat && c.toNat != 0x7f)

/-- A blank within a line. -/
def isBlank (c : Char) : Bool := c == ' ' || c == '\t'

/-- The text after the blanks at its start. -/
def dropBlanks (text : Text) : Text := text.dropWhile isBlank

/-- What follows a mark, if the text starts with it. -/
def past? (mark text : Text) : Option Text :=
  if mark.isPrefixOf text then some (text.drop mark.length) else none

/-- What follows a comment, if one stands here. A comment holds no control. -/
def pastComment? (text : Text) : Option Text :=
  if text.head? = some '#' && (text.takeWhile (· != '\n')).all isPlain then
    some (text.dropWhile (· != '\n'))
  else none

/-- What follows the end of the line, if only blanks and a comment stand before it. -/
def pastLine? (text : Text) : Option Text :=
  let rest := dropBlanks text
  match (pastComment? rest).getD rest with
  | [] => some []
  | '\n' :: rest => some rest
  | _ => none

/-- A comment takes at least its mark. -/
theorem length_lt_of_pastComment? {text after : Text} (h : pastComment? text = some after) :
    after.length < text.length := by
  cases text with
  | nil => simp [pastComment?] at h
  | cons c rest =>
      rw [pastComment?, Option.ite_none_right_eq_some] at h
      obtain ⟨hc, h⟩ := h
      simp only [Bool.and_eq_true, decide_eq_true_eq, List.head?_cons, Option.some.injEq] at hc
      rw [List.dropWhile_cons_of_pos (by simp [hc.1])] at h
      rw [← Option.some.inj h]
      exact Nat.lt_succ_of_le (List.dropWhile_suffix _).length_le

/-- The text after all blanks, comments and ends of lines at its start. -/
def dropSpace (text : Text) : Text :=
  match _h : pastComment? (text.dropWhile fun c => isBlank c || c == '\n') with
  | some after => dropSpace after
  | none => text.dropWhile fun c => isBlank c || c == '\n'
termination_by text.length
decreasing_by
  exact Nat.lt_of_lt_of_le (length_lt_of_pastComment? _h) (List.dropWhile_suffix _).length_le

end TagLayers.Toml
