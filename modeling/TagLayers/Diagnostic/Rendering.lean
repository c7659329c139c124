import TagLayers.Color.Basic
import TagLayers.Diagnostic.Basic
import TagLayers.Source.Basic

/-!
# Diagnostics on a terminal

A diagnostic is shown as a header, the place it is about, the line of the source at that place
with the span underlined, and its notes and suggestions:

    warning[W101]: unexpected b in list
      --> a.v:3:1
       |
     3 | b = 4
       | ^

A long line is cut to the width of the terminal. The underline starts at the byte column of
the span, has at least one mark, and stops at the end of what is shown of the line. A span
that starts beyond the text has no place and no line.
-/

namespace TagLayers

/-- How diagnostics are shown. -/
structure TerminalStyle where
  /-- Use colors. -/
  color : Bool
  /-- How many characters of a line are shown. -/
  width : Nat
deriving DecidableEq, Repr

namespace TerminalStyle

/-- A text in a color, if colors are used. -/
def paint (style : TerminalStyle) (color : Color) (text : Text) : Text :=
  if style.color then TerminalColor.paintBold color text else text

end TerminalStyle

namespace Severity

/-- The color of a header. -/
def color : Severity → Color
  | error => .red
  | warning => .yellow
  | note => .cyan

end Severity

namespace Diagnostic

/-- The parts of a source that an underline is made from. -/
structure Excerpt where
  /-- Line and column of the start of the span. -/
  location : Location
  /-- What is shown of the line. -/
  shown : Text
  /-- The number of marks. -/
  marks : Nat
deriving DecidableEq, Repr

namespace Excerpt

/-- The number of blanks before the first mark. -/
def indent (e : Excerpt) : Nat := e.location.column - 1

end Excerpt

/-- The excerpt of a source for a span, if the span has a length. -/
def excerpt? (width : Nat) (source : Source) (span : Span) : Option Excerpt := do
  let length ← span.length?
  let location := source.location span.start
  let shown : Text := (source.lineContaining span.start).take width
  let room := max 1 (shown.byteLen - (location.column - 1))
  return ⟨location, shown, max 1 (min length room)⟩

/-- The line with severity, code and message. -/
def header (style : TerminalStyle) (d : Diagnostic) : Text :=
  style.paint d.severity.color (d.severity.label.toList ++ '[' :: d.code.display ++ [']'])
    ++ ": ".toList ++ d.message.toList ++ ['\n']

/-- The lines with the place and the underlined line. -/
def excerptLines (style : TerminalStyle) (name : String) (e : Excerpt) : Text :=
  let gutter (text : Text) := style.paint .blue text
  let number := Text.decimal e.location.line
  let padding := List.replicate number.length ' '
  let bar := gutter ['|']
  "  ".toList ++ gutter "-->".toList ++ ' ' :: name.toList ++ ':' :: e.location.display ++ ['\n']
    ++ padding ++ ' ' :: bar ++ ['\n']
    ++ gutter number ++ ' ' :: bar ++ ' ' :: e.shown ++ ['\n']
    ++ padding ++ ' ' :: bar ++ ' ' :: List.replicate e.indent ' '
    ++ style.paint .yellow (List.replicate e.marks '^') ++ ['\n']

/-- The lines with notes and suggestions. -/
def footer (d : Diagnostic) : Text :=
  (d.notes.flatMap fun note => "   = note: ".toList ++ note.toList ++ ['\n'])
    ++ d.help.flatMap fun help => "   = help: ".toList ++ help.toList ++ ['\n']

/-- The diagnostic as shown on a terminal. A span within the text that ends before it starts
cannot be underlined. -/
def render? (style : TerminalStyle) (source : Source) (d : Diagnostic) : Option Text :=
  if d.span.start ≤ source.length then do
    let e ← excerpt? style.width source d.span
    return d.header style ++ excerptLines style source.name e ++ d.footer
  else
    some (d.header style ++ d.footer)

end Diagnostic

end TagLayers
