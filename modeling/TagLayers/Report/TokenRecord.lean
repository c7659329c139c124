import TagLayers.Layer.Token
import TagLayers.Report.Quoted

/-!
# Token records

A token with its position resolved, and its form as one line of a listing.
-/

namespace TagLayers.Report

/-- One token of a listing. -/
structure TokenRecord where
  /-- Line and column of the first character. -/
  location : Location
  /-- The range of the token. -/
  span : Span
  /-- The displayed tag. -/
  tag : Text
  /-- The text of the token. -/
  text : Text
deriving DecidableEq, Repr

namespace TokenRecord

/-- The record of a token, given the lines of its source. -/
def ofToken (lines : Lines) (token : Token) : TokenRecord :=
  ⟨lines.location token.span.start, token.span, token.tag.display, token.text⟩

/-- The records of the tokens of a source. -/
def ofTokens (source : Source) (tokens : List Token) : List TokenRecord :=
  let lines := source.lines
  tokens.map (ofToken lines)

/-- The record as one line: location, tag and quoted text, divided by tabs. -/
def line (r : TokenRecord) : Text :=
  r.location.display ++ '\t' :: r.tag ++ '\t' :: quoted r.text

end TokenRecord

end TagLayers.Report
