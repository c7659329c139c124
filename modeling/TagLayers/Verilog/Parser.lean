import TagLayers.Verilog.Structures

/-!
# Parsing Verilog

A parser tokenizes a text and runs its passes one after the other over it. What does not fit a
pattern becomes a warning and does not stop the parse. A parser can be used for any number of
texts.
-/

namespace TagLayers.Verilog

/-- A pass ready for use. -/
structure ParserPass where
  /-- The perspective it reads. -/
  input : String
  /-- The perspective it writes. -/
  output : String
  /-- The grouper that runs it. -/
  grouper : Grouper

/-- A tokenizer and the passes over its tokens. -/
structure Parser where
  tokenizer : Tokenizer
  /-- The passes in order. -/
  passes : List ParserPass
  /-- Run each automaton on its own. -/
  parallel : Bool := false

/-- The matches of one pass. -/
structure PassResult where
  /-- The perspective that the pass wrote. -/
  layer : String
  /-- The matches. -/
  found : ScanResult

/-- What a parse gives. -/
structure ParseOutput where
  /-- The text with the perspectives of the tokenizer and of all passes. -/
  text : TaggedText
  /-- The matches of each pass. -/
  passes : List PassResult

/-- A parse with what it leaves behind. -/
structure ParseOutcome where
  /-- The parser after the parse. -/
  parser : Parser
  /-- The diagnostics, in the order in which they were emitted. -/
  emitted : List Diagnostic
  /-- The output, or why there is none. -/
  result : Except EngineError ParseOutput

/-- Passes that have been run. -/
structure PassesOutcome where
  /-- The passes after the run. -/
  passes : List ParserPass
  /-- The diagnostics, in the order in which they were emitted. -/
  emitted : List Diagnostic
  /-- The output, or why there is none. -/
  result : Except EngineError ParseOutput

namespace Parser

/-- Makes one stage ready for use. -/
def preparePass (tokenizer : Tokenizer) (stage : Stage) : Except EngineError ParserPass :=
  let grouper := stage.grouper tokenizer
  match grouper.validate with
  | .ok () => .ok ⟨stage.input, stage.output, grouper⟩
  | .error e => .error (.pattern e)

/-- Builds the tokenizer and all passes. -/
def build (parallel : Bool) : Except EngineError Parser :=
  match Tokenizer.ofLexicon lexicon with
  | .error e => .error (.lexicon e)
  | .ok tokenizer => do
      let passes ← stages.mapM (preparePass tokenizer)
      return { tokenizer, passes, parallel }

/-- The perspectives that the passes write, in order. -/
def layers (p : Parser) : List String := p.passes.map (·.output)

/-- Runs passes one after the other, until one fails. -/
def runPasses (parallel : Bool) (text : TaggedText) (done : List PassResult) :
    List ParserPass → PassesOutcome
  | [] => ⟨[], [], .ok ⟨text, done⟩⟩
  | pass :: rest =>
      let o :=
        if parallel then pass.grouper.scanParallel text pass.input pass.output
        else pass.grouper.scan text pass.input pass.output
      let used := { pass with grouper := o.grouper }
      match o.result with
      | .error e => ⟨used :: rest, o.emitted, .error e⟩
      | .ok found =>
          let more := runPasses parallel o.text (done ++ [⟨pass.output, found⟩]) rest
          ⟨used :: more.passes, o.emitted ++ more.emitted, more.result⟩

/-- Parses a source. -/
def parse (p : Parser) (source : Source) : ParseOutcome :=
  match p.tokenizer.tokenize source with
  | .error e => ⟨p, [], .error (.tag e)⟩
  | .ok text =>
      let o := runPasses p.parallel text [] p.passes
      ⟨{ p with passes := o.passes }, o.emitted, o.result⟩

end Parser

end TagLayers.Verilog
