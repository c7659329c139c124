import TagLayers.Regex.Reader
import TagLayers.Regex.Search
import TagLayers.Regex.Size

/-!
# How symbols are found

A symbol is found by its text, by its text as a whole word, or by a regular expression. Each way
divides a text into pieces. Which texts are regular expressions, and what these find, is up to an
engine: all that is asked of it is that its searches lose nothing. The standard engine takes the
expressions that `Regex.read?` can read and that are not too large.

Main statement:
1. `join_pieces`: a search for a symbol loses nothing.
-/

namespace TagLayers

/-- A search that loses nothing. -/
structure Search where
  /-- The pieces of a text. -/
  pieces : Text → List Piece
  join_pieces : ∀ input, Piece.join (pieces input) = input

/-- Gives the search for a regular expression in its written form, or none if the text is not taken
for one. -/
abbrev Engine := Text → Option Search

/-- The engine that runs the programs of expressions. -/
def Engine.standard : Engine := fun text =>
  match Regex.read? text with
  | some r => if r.fits then some ⟨r.program.pieces, r.program.join_pieces⟩ else none
  | none => none

/-- What a symbol is found by. -/
inductive Finder where
  /-- Its text, anywhere. -/
  | text (symbol : Text)
  /-- Its text, where its two ends are edges of words. -/
  | word (symbol : Text)
  /-- A regular expression. -/
  | expression (search : Search)

namespace Finder

/-- The length of a symbol, if it stands at the start of a text. -/
def textAt? (symbol rest : Text) : Option Nat :=
  if symbol.isPrefixOf rest then some symbol.length else none

/-- The length of a symbol, if it stands at the start of a text between two edges of words. -/
def wordAt? (symbol : Text) (before : Option Char) (rest : Text) : Option Nat :=
  if symbol.isPrefixOf rest && Assertion.wordEdge.holds before rest
      && Assertion.wordEdge.holds (symbol.getLast?.or before) (rest.drop symbol.length) then
    some symbol.length
  else none

/-- The pieces of a search through a text. -/
def pieces : Finder → Text → List Piece
  | text symbol =>
      Piece.search (fun (_ : Unit) rest => textAt? symbol rest) (fun s _ => s) (fun s _ => s) ()
  | word symbol =>
      Piece.search (wordAt? symbol) (fun _ c => some c) (fun before t => t.getLast?.or before) none
  | expression search => search.pieces

/-- A search for a symbol loses nothing. -/
theorem join_pieces (f : Finder) (input : Text) : Piece.join (f.pieces input) = input := by
  cases f with
  | text symbol => exact Piece.join_search _ _ _ _ _
  | word symbol => exact Piece.join_search _ _ _ _ _
  | expression search => exact search.join_pieces input

end Finder

end TagLayers
