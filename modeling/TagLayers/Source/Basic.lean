import TagLayers.Source.Span
import TagLayers.Text

/-!
# Source texts and locations

A source is a named text. Its lines start at offset 0 and after every newline; a location is
the number of line starts up to an offset and the distance from the last of them, both counted
from 1. An offset past the end counts as the end.
-/

namespace TagLayers

/-- A position as line and column, both counted from 1; the column counts bytes. -/
structure Location where
  /-- The line number. -/
  line : Nat
  /-- The byte column within the line. -/
  column : Nat
deriving DecidableEq, Repr, Inhabited

namespace Location

/-- Locations are ordered line by line, then by column. -/
def before (a b : Location) : Bool := a.line < b.line || (a.line == b.line && a.column < b.column)

/-- The location as `line:column`. -/
def display (l : Location) : Text := Text.decimal l.line ++ ':' :: Text.decimal l.column

end Location

/-- A text and the name it has in reports. -/
structure Source where
  /-- The name shown in reports. -/
  name : String
  text : Text
deriving DecidableEq, Repr, Inhabited

/-- The lines of a text. -/
structure Lines where
  /-- The offsets at which lines start, in increasing order. -/
  starts : List Nat
  /-- The length of the text in bytes. -/
  length : Nat
deriving DecidableEq, Repr, Inhabited

namespace Lines

/-- Offsets after each newline of a text whose first byte is at `pos`. -/
def startsAfter (pos : Nat) : Text → List Nat
  | [] => []
  | c :: rest =>
      let next := pos + c.utf8Size
      if c = '\n' then next :: startsAfter next rest else startsAfter next rest

/-- The lines of a text. The first one starts at its first byte. -/
def ofText (text : Text) : Lines := ⟨0 :: startsAfter 0 text, text.byteLen⟩

/-- Goes on over line starts up to an offset: how many lines have started, and where the last of
them did. -/
def follow (offset line start : Nat) : List Nat → Nat × Nat
  | [] => (line, start)
  | next :: rest => if next ≤ offset then follow offset (line + 1) next rest else (line, start)

/-- The number of the line of an offset, and where it starts. -/
def lineAt (l : Lines) (offset : Nat) : Nat × Nat := follow (min offset l.length) 0 0 l.starts

/-- Line and column of an offset. -/
def location (l : Lines) (offset : Nat) : Location :=
  let (line, start) := l.lineAt offset
  ⟨line, min offset l.length - start + 1⟩

end Lines

namespace Source

/-- The length of the text in bytes. -/
def length (s : Source) : Nat := s.text.byteLen

/-- The lines of the text. -/
def lines (s : Source) : Lines := Lines.ofText s.text

/-- The number of lines; an empty text has one. -/
def lineCount (s : Source) : Nat := s.lines.starts.length

/-- Where the line of an offset starts. -/
def lineStart (s : Source) (offset : Nat) : Nat := (s.lines.lineAt offset).2

/-- Line and column of an offset. -/
def location (s : Source) (offset : Nat) : Location := s.lines.location offset

example : location ⟨"a.v", "é\nb".toList⟩ 4 = ⟨2, 2⟩ := by decide

example : location ⟨"a.v", "b\n".toList⟩ 9 = ⟨2, 1⟩ := by decide

/-- The text without the carriage returns at its end. -/
def dropReturns (line : Text) : Text := (line.reverse.dropWhile (· == '\r')).reverse

/-- The line of an offset, without its newline and the carriage returns before it. -/
def lineContaining (s : Source) (offset : Nat) : Text :=
  dropReturns ((s.text.dropBytes (s.lineStart offset)).takeWhile (· != '\n'))

/-- The text of a span, when the span lies on character boundaries of the text. -/
def snippet? (s : Source) (span : Span) : Option Text := s.text.slice? span.start span.stop

end Source

end TagLayers
