import TagLayers.Color.Basic
import TagLayers.Layer.TaggedText

/-!
# Color maps

A color map is a list of tags with their colors, of whatever kind. A tag has the color of the
first entry that it meets. Rendering a perspective colors each token on its own and leaves the other
tokens as they are.
-/

namespace TagLayers

/-- Tags with their colors, in order of precedence. -/
structure ColorMap (κ : Type := Color) where
  entries : List (Tag × κ) := []
deriving DecidableEq, Repr, Inhabited

namespace ColorMap

/-- The colors of the lexical categories. -/
def lexical : ColorMap :=
  ⟨[(Tag.ofCategory .keyword, .green), (Tag.ofCategory .reserved, .blue),
    (Tag.ofCategory .comment, .darkGrey), (Tag.ofCategory .string, .yellow),
    (Tag.ofCategory .directive, .magenta)]⟩

variable {κ : Type}

/-- Adds an entry with the lowest precedence. -/
def add (map : ColorMap κ) (tag : Tag) (color : κ) : ColorMap κ :=
  ⟨map.entries ++ [(tag, color)]⟩

/-- Adds the entries of another map below those of this one. -/
def extend (map other : ColorMap κ) : ColorMap κ := ⟨map.entries ++ other.entries⟩

/-- The color of a tag. -/
def color? (map : ColorMap κ) (tag : Tag) : Option κ :=
  (map.entries.find? (·.1.meets tag)).map (·.2)

/-- A token in its color. -/
def renderToken [TerminalColor κ] (map : ColorMap κ) (token : Token) : Text :=
  match map.color? token.tag with
  | some color => TerminalColor.paint color token.text
  | none => token.text

end ColorMap

/-- The text of a perspective with each token in its color. -/
def TaggedText.renderColored {κ : Type} [TerminalColor κ] (text : TaggedText) (name : String)
    (colors : ColorMap κ) : Except TagError Text := do
  let tokens ← text.tokens name
  return tokens.flatMap colors.renderToken

end TagLayers
