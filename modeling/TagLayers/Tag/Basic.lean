import TagLayers.Text

/-!
# Compound tags

A tag has three slots, and each slot is a wildcard, one value, or a list of alternatives. Two
tags meet when they meet slot by slot: a wildcard meets everything, and otherwise the two slots
share a value. Meeting is symmetric and not transitive; equality of tags is structural.

The displayed form drops the wildcards at the end, but always shows one slot.
-/

namespace TagLayers

/-- One component of a concrete tag. -/
abbrev TagValue := Nat

/-- One position of a tag. -/
inductive Slot where
  /-- Meets everything. -/
  | any
  | is (value : TagValue)
  /-- Any of several values. -/
  | oneOf (values : List TagValue)
deriving DecidableEq, Repr, Inhabited

namespace Slot

/-- The two slots have a value in common, or one of them is a wildcard. -/
def meets : Slot → Slot → Bool
  | any, _ => true
  | _, any => true
  | is a, is b => a == b
  | is a, oneOf bs => bs.contains a
  | oneOf as, is b => as.contains b
  | oneOf as, oneOf bs => as.any bs.contains

/-- A slot as text: `*`, a number, or alternatives between braces. -/
def display : Slot → Text
  | any => ['*']
  | is v => Text.decimal v
  | oneOf vs => '\x7b' :: Text.joinWith ['|'] (vs.map Text.decimal) ++ ['\x7d']

end Slot

/-- A tag of three slots; slots that are not given are wildcards. -/
structure Tag where
  /-- The lexical category or the kind of construct. -/
  first : Slot := .any
  /-- The symbol within the category. -/
  second : Slot := .any
  /-- A further distinction. -/
  third : Slot := .any
deriving DecidableEq, Repr, Inhabited

/-- The number of slots of a tag. -/
def tagArity : Nat := 3

/-! ## Categories -/

/-- Values of the first slot that the tokenizer assigns. -/
inductive Category where
  /-- Text that no pass has classified. -/
  | generic
  | keyword
  /-- A line or block comment. -/
  | comment
  /-- A quoted string. -/
  | string
  /-- A reserved symbol. -/
  | reserved
  /-- A run of whitespace. -/
  | whitespace
  /-- A line introduced by a macro marker. -/
  | directive
deriving DecidableEq, Repr, Inhabited

namespace Category

/-- The value that stands for the category in a tag. -/
def value : Category → TagValue
  | generic => 0
  | keyword => 1
  | comment => 2
  | string => 3
  | reserved => 4
  | whitespace => 5
  | directive => 6

end Category

/-! ## Errors -/

/-- What can go wrong when tags are built and texts are tagged. -/
inductive TagError where
  /-- The range ends before it starts, or beyond the text. -/
  | outOfRange (start stop length : Nat)
  /-- The offset lies inside a character. -/
  | notCharBoundary (offset : Nat)
  /-- The text has no perspective of this name. -/
  | unknownPerspective (name : String)
  /-- More slots were given than a tag has. -/
  | arityExceeded (given : Nat)
deriving DecidableEq, Repr

namespace TagError

/-- The wording of an error. -/
def message : TagError → String
  | outOfRange start stop length =>
      s!"tag range {start}..{stop} is out of bounds for text of length {length}"
  | notCharBoundary offset => s!"offset {offset} is not on a character boundary"
  | unknownPerspective name => s!"unknown perspective '{name}'"
  | arityExceeded given =>
      s!"compound tag takes at most {tagArity} components, got {given}"

end TagError

namespace Tag

/-- The tag with one value in its first slot. -/
def of (value : TagValue) : Tag := ⟨.is value, .any, .any⟩

/-- The tag with values in its first two slots. -/
def of₂ (value id : TagValue) : Tag := ⟨.is value, .is id, .any⟩

/-- The tag of a whole category. -/
def ofCategory (c : Category) : Tag := of c.value

/-- The tag of one symbol of a category. -/
def ofSymbol (c : Category) (id : TagValue) : Tag := of₂ c.value id

/-- The tag of text that nothing has classified. -/
def generic : Tag := ofCategory .generic

/-- The slots in order. -/
def slots (t : Tag) : List Slot := [t.first, t.second, t.third]

/-- Builds a tag from at most three slots. -/
def ofSlots : List Slot → Except TagError Tag
  | [] => .ok {}
  | [a] => .ok ⟨a, .any, .any⟩
  | [a, b] => .ok ⟨a, b, .any⟩
  | [a, b, c] => .ok ⟨a, b, c⟩
  | more => .error (.arityExceeded more.length)

/-- The value of the first slot when it is a single one. -/
def category (t : Tag) : Option TagValue :=
  match t.first with
  | .is v => some v
  | _ => none

/-- The id of a keyword's tag: the first slot is exactly the keyword category and the second
a single value. -/
def keywordId (t : Tag) : Option TagValue :=
  match t.first, t.second with
  | .is c, .is id => if c = Category.keyword.value then some id else none
  | _, _ => none

/-- The tag is the one of unclassified text and no other. -/
def isGeneric (t : Tag) : Bool := t == generic

/-- The two tags meet slot by slot. -/
def meets (a b : Tag) : Bool :=
  a.first.meets b.first && a.second.meets b.second && a.third.meets b.third

/-- The slots without the wildcards at the end; the first slot always stays. -/
def shownSlots (t : Tag) : List Slot :=
  if t.third ≠ .any then [t.first, t.second, t.third]
  else if t.second ≠ .any then [t.first, t.second]
  else [t.first]

/-- The tag as text, such as `(4, 9)` or `(*)`. -/
def display (t : Tag) : Text :=
  '(' :: Text.joinWith [',', ' '] (t.shownSlots.map Slot.display) ++ [')']

/-- The displayed tag as a string. -/
def shown (t : Tag) : String := String.ofList t.display

example : (of₂ 4 9).display = "(4, 9)".toList := by decide

example : (⟨.any, .oneOf [1, 2], .any⟩ : Tag).display = "(*, \x7b1|2\x7d)".toList := by decide

example : (⟨.any, .any, .any⟩ : Tag).display = "(*)".toList := by decide

end Tag

end TagLayers
