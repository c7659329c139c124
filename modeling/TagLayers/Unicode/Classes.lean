import TagLayers.Unicode.Alphabetic
import TagLayers.Unicode.Marks
import TagLayers.Unicode.Numbers
import TagLayers.Unicode.Recent
import TagLayers.Unicode.Unprintable

/-!
# Classes of characters

The classes by which texts are divided: blanks, the digits and characters of words that regular
expressions know, the characters that may continue an identifier, and those that a quoted text
shows as they are.
-/

namespace TagLayers.Unicode

/-- The characters with the property White_Space. -/
def whiteSpace : Ranges :=
  [(0x9, 0xd), (0x20, 0x20), (0x85, 0x85), (0xa0, 0xa0), (0x1680, 0x1680), (0x2000, 0x200a),
   (0x2028, 0x2029), (0x202f, 0x202f), (0x205f, 0x205f), (0x3000, 0x3000)]

/-- The zero-width joiner and non-joiner. -/
def joinControls : Ranges := [(0x200c, 0x200d)]

/-- The decimal digits of any script, as regular expressions know them. -/
def digits : Ranges := decimalDigits.without recent

/-- The characters of words, as regular expressions know them: letters, marks, digits, connectors
and join controls. -/
def wordChars : Ranges :=
  ((((alphabetic.union decimalDigits).union connectors).union marks).union joinControls).without
    recent

/-- A blank. -/
def isBlank (c : Char) : Bool := whiteSpace.contains c.toNat

/-- A character of a word. -/
def isWord (c : Char) : Bool := wordChars.contains c.toNat

/-- A letter. -/
def isAlphabetic (c : Char) : Bool := alphabetic.contains c.toNat

/-- A letter or a number of any kind. -/
def isAlphanumeric (c : Char) : Bool :=
  let n := c.toNat
  alphabetic.contains n || decimalDigits.contains n || otherNumbers.contains n

/-- A character that may continue an identifier. -/
def isIdentifier (c : Char) : Bool := isAlphanumeric c || c == '_'

/-- A character that a quoted text shows as it is: it has a shape of its own and does not join
the character before it. -/
def isShown (c : Char) : Bool :=
  let n := c.toNat
  n == 0x20 || !(graphemeExtend.contains n || unprintable.contains n)

end TagLayers.Unicode
