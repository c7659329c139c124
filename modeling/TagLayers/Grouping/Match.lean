import TagLayers.Layer.Token
import TagLayers.NameTable
import TagLayers.Source.Basic

/-!
# Matches

A match is a row of tokens in the order of the text. Its span reaches from the first token to
the last, so its text may hold tokens that were not taken.
-/

namespace TagLayers

/-- A completed match. -/
structure Match where
  /-- The tokens taken. -/
  tokens : List Token
deriving DecidableEq, Repr

namespace Match

/-- From the start of the first token to the end of the last; without tokens the empty span at
the start. -/
def span (m : Match) : Span :=
  match m.tokens.head?, m.tokens.getLast? with
  | some first, some last => ⟨first.span.start, last.span.stop⟩
  | _, _ => {}

/-- The text under the span. -/
def text (m : Match) (source : Source) : Text := source.text.slice m.span.start m.span.stop

/-- The texts of the tokens taken, joined. -/
def consumedText (m : Match) : Text := m.tokens.flatMap (·.text)

end Match

/-- The matches of one automaton. -/
structure MatchSet where
  /-- The tag that the matches were given. -/
  tag : Tag
  /-- The matches in the order of the text. -/
  found : List Match
deriving DecidableEq, Repr

/-- The matches of a scan, by the names of the automata. -/
abbrev ScanResult := NameTable MatchSet

end TagLayers
