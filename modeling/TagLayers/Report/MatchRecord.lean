import TagLayers.Report.Quoted
import TagLayers.Verilog.Parser

/-!
# Match records

The matches of a parse as one list: pass by pass, and within a pass by their start; matches of
the same start are in the order of their automata's names.
-/

namespace TagLayers.Report

/-- One match of a listing. -/
structure MatchRecord where
  /-- The perspective the match was tagged in. -/
  layer : String
  /-- The automaton that found it. -/
  name : String
  /-- The displayed tag. -/
  tag : Text
  /-- Line and column of the first token. -/
  location : Location
  /-- From the first token to the last. -/
  span : Span
  /-- The text under the span. -/
  text : Text
deriving DecidableEq, Repr

namespace MatchRecord

/-- The record as one line of fields divided by tabs. -/
def line (r : MatchRecord) : Text :=
  r.layer.toList ++ '\t' :: r.name.toList ++ '\t' :: r.tag ++ '\t' :: r.location.display
    ++ '\t' :: quoted r.text

/-- The record of a match, given the lines of its source. -/
def ofMatch (source : Source) (lines : Lines) (layer name : String) (tag : Tag) (m : Match) :
    MatchRecord :=
  ⟨layer, name, tag.display, lines.location m.span.start, m.span, m.text source⟩

/-- The records of one pass. -/
def ofPass (source : Source) (lines : Lines) (pass : Verilog.PassResult) : List MatchRecord :=
  (pass.found.rows.flatMap fun row =>
    row.2.found.map (ofMatch source lines pass.layer row.1 row.2.tag)).mergeSort
      fun a b => a.span.start ≤ b.span.start

/-- The records of a parse. -/
def ofOutput (source : Source) (out : Verilog.ParseOutput) : List MatchRecord :=
  let lines := source.lines
  out.passes.flatMap (ofPass source lines)

end MatchRecord

end TagLayers.Report
