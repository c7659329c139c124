import TagLayers.Text

/-!
# Terminal colors

The escape sequences that color a text, the sixteen colors of a terminal with their names in
configurations, and the colors of the palette of 256. Other kinds of colors are told by what their
sequences say: it must not hold an `m`, which ends the sequence.
-/

namespace TagLayers

/-- A kind of color that a terminal can show. -/
class TerminalColor (κ : Type) where
  /-- What the sequence that switches to a color says between its bracket and the `m`. -/
  parameters : κ → Text
  not_mem_parameters : ∀ color, 'm' ∉ parameters color

namespace TerminalColor

variable {κ : Type} [TerminalColor κ]

/-- The start of every escape sequence. -/
def escape : Text := ['\x1b', '[']

/-- The sequence that switches to a color. -/
def startSequence (color : κ) : Text := escape ++ parameters color ++ ['m']

/-- The sequence that goes back to the default color. -/
def defaultSequence : Text := escape ++ "39m".toList

/-- The sequence that switches to bold. -/
def boldSequence : Text := escape ++ "1m".toList

/-- The sequence that takes back color and boldness. -/
def resetSequence : Text := escape ++ "0m".toList

/-- A text in a color. -/
def paint (color : κ) (text : Text) : Text := startSequence color ++ text ++ defaultSequence

/-- A bold text in a color. -/
def paintBold (color : κ) (text : Text) : Text :=
  startSequence color ++ boldSequence ++ text ++ resetSequence

end TerminalColor

/-- A color by its number in the palette of 256 colors. -/
structure PaletteColor where
  number : UInt8
deriving DecidableEq, Repr, Inhabited

/-- What the sequence of a number says. -/
def PaletteColor.numbered (n : Nat) : Text := "38;5;".toList ++ Text.decimal n

theorem PaletteColor.not_mem_numbered (n : Nat) : 'm' ∉ numbered n := by
  intro hmem
  rcases List.mem_append.mp hmem with hmem | hmem
  · exact absurd hmem (by decide)
  · have hdigit := Nat.isDigit_of_mem_toDigits (by decide) (by decide) hmem
    exact absurd hdigit (by decide)

instance : TerminalColor PaletteColor where
  parameters color := PaletteColor.numbered color.number.toNat
  not_mem_parameters color := PaletteColor.not_mem_numbered color.number.toNat

/-- One of the sixteen colors with a name. -/
inductive Color where
  | black
  | darkGrey
  | red
  | darkRed
  | green
  | darkGreen
  | yellow
  | darkYellow
  | blue
  | darkBlue
  | magenta
  | darkMagenta
  | cyan
  | darkCyan
  | white
  | grey
deriving DecidableEq, Repr, Inhabited

namespace Color

/-- The number of the color in the palette of 256 colors. -/
def code : Color → Nat
  | black => 0
  | darkRed => 1
  | darkGreen => 2
  | darkYellow => 3
  | darkBlue => 4
  | darkMagenta => 5
  | darkCyan => 6
  | grey => 7
  | darkGrey => 8
  | red => 9
  | green => 10
  | yellow => 11
  | blue => 12
  | magenta => 13
  | cyan => 14
  | white => 15

/-- The colors with the names that configurations use. -/
def named : List (String × Color) :=
  [("black", black), ("dark_grey", darkGrey), ("red", red), ("dark_red", darkRed),
   ("green", green), ("dark_green", darkGreen), ("yellow", yellow), ("dark_yellow", darkYellow),
   ("blue", blue), ("dark_blue", darkBlue), ("magenta", magenta), ("dark_magenta", darkMagenta),
   ("cyan", cyan), ("dark_cyan", darkCyan), ("white", white), ("grey", grey)]

/-- The lower case of a letter as far as color names need it: the capitals of ASCII, and the
Kelvin sign, whose lower case is `k`. No other character has a lower case within ASCII. -/
def lowered (c : Char) : Char := if c = '\u212a' then 'k' else c.toLower

/-- Looks a color up by its name in any case. -/
def ofName? (name : String) : Option Color :=
  (named.find? (·.1.toList == name.toList.map lowered)).map (·.2)

end Color

instance : TerminalColor Color where
  parameters color := PaletteColor.numbered color.code
  not_mem_parameters color := PaletteColor.not_mem_numbered color.code

example : TerminalColor.paint Color.red ['a'] = "\x1b[38;5;9ma\x1b[39m".toList := by decide

/-- The default color has no name. -/
example : Color.ofName? "reset" = none := by decide

end TagLayers
