import TagLayers.Grouping.Grouper
import TagLayers.Verilog.Lexicon

/-!
# Structures of Verilog

The patterns of the three passes. Each pass reads the layer of the pass before it: first the
tokens, then statements and the starts of blocks, then assignments. Where two matches overlap,
the pattern registered later wins; so bare keywords come first and the headers that contain
them later.
-/

namespace TagLayers.Verilog

/-- A pattern with the name of its automaton and the tag for its matches. -/
structure Construct where
  name : String
  tag : Tag
  pattern : Pattern

/-- One pass over a text. -/
structure Stage where
  /-- The perspective it reads. -/
  input : String
  /-- The perspective it writes. -/
  output : String
  /-- Openers and closers beyond those of the lexicon. -/
  pairs : List (Tag × Tag) := []
  /-- Its patterns in order of registration. -/
  constructs : List Construct

/-! ## Parts of patterns -/

/-- Unclassified text, such as a name. -/
def name : Tag := Tag.ofCategory .generic

/-- Blanks. -/
def blank : Tag := Tag.ofCategory .whitespace

/-- Any of several keywords. -/
def anyKeyword (ks : List Keyword) : Tag :=
  ⟨.is Category.keyword.value, .oneOf (ks.map Keyword.id), .any⟩

/-- Any of several symbols. -/
def anySymbol (ss : List Symbol) : Tag :=
  ⟨.is Category.reserved.value, .oneOf (ss.map Symbol.id), .any⟩

/-- Whatever opens a block that ends with `end`. -/
def blockOpener : Tag :=
  ⟨.is Structure.block.value,
   .oneOf ([Block.plainBegin, .initially, .always, .branch, .otherwise, .loop].map Block.id), .any⟩

/-- Keywords that can only start a new statement or block. -/
def boundaryKeywords : List Keyword :=
  [.moduleStart, .moduleEnd, .assign, .always, .initially, .blockBegin, .blockEnd, .generateStart,
   .generateEnd]

/-- A token that shows that the statement before it was never ended: a keyword that starts
something new, or a block found by an earlier pass. -/
def crossesBoundary (token : Token) : Bool :=
  token.tag.category == some Structure.block.value
    || token.tag.keywordId.any (boundaryKeywords.map Keyword.id).contains

/-- The empty pattern, to build on. -/
def start : Pattern := .nil

/-- A range in brackets, and blanks. -/
def range : Pattern := (start.complete Symbol.bracketOpen.tag).can blank

/-- A declaration: keyword, optional range, names, semicolon. -/
def declaration (kind : Tag) : Pattern :=
  (((((start.must kind).must blank).maybe range).must name).collect
    Symbol.semicolon.tag).guarded crossesBoundary

/-- An assignment with a given operator. -/
def assignment (operator : Symbol) : Pattern :=
  (((((start.must name).maybe range).can blank).must operator.tag).collect
    Symbol.semicolon.tag).guarded crossesBoundary

/-- The start of a block: keyword, optional condition in parentheses, `begin`. -/
def blockStart (head : Keyword) (condition : Bool) : Pattern :=
  let p := (start.must head.tag).can blank
  let p := if condition then (p.complete Symbol.parenOpen.tag).can blank else p
  p.must Keyword.blockBegin.tag

/-- What ends one declaration of a header. -/
def listEnd : Tag := anySymbol [.comma, .parenClose, .semicolon]

/-! ## Passes -/

/-- The pass over tokens: declarations, ports, statements and the starts of blocks. -/
def statements : Stage where
  input := "keywords"
  output := "layer0"
  constructs :=
    [⟨"begin", Block.plainBegin.tag, start.must Keyword.blockBegin.tag⟩,
     ⟨"end", Block.blockEnd.tag, start.must Keyword.blockEnd.tag⟩,
     ⟨"endmodule", Block.moduleEnd.tag, start.must Keyword.moduleEnd.tag⟩,
     ⟨"generate", Block.generateStart.tag, start.must Keyword.generateStart.tag⟩,
     ⟨"endgenerate", Block.generateEnd.tag, start.must Keyword.generateEnd.tag⟩,
     ⟨"delays", delayTag, ((start.must Symbol.pound.tag).can blank).must name⟩,
     ⟨"portmaps", InstancePart.portMap.tag,
       (((start.must Symbol.dot.tag).must name).can blank).complete Symbol.parenOpen.tag⟩,
     ⟨"params", InstancePart.parameters.tag, start.complete Symbol.poundParen.tag⟩,
     ⟨"attributes", Statement.attributes.tag, start.complete Symbol.attributeOpen.tag⟩,
     ⟨"wiredecs", Statement.wires.tag, declaration Keyword.wire.tag⟩,
     ⟨"regdecs", Statement.registers.tag, declaration (anyKeyword [.reg, .logic, .integer])⟩,
     ⟨"genvars", Statement.genvars.tag, declaration Keyword.genvar.tag⟩,
     ⟨"localparams", Statement.localparams.tag, declaration Keyword.localparam.tag⟩,
     ⟨"ports", Statement.ports.tag,
       (((((((start.must (anyKeyword [.input, .output, .inout])).must blank).can
         (anyKeyword [.wire, .reg, .logic])).can blank).maybe range).must name).collect
         listEnd).guarded crossesBoundary⟩,
     ⟨"parameters", Statement.parameters.tag,
       (((((start.must Keyword.parameter.tag).must blank).maybe range).must name).collect
         listEnd).guarded crossesBoundary⟩,
     ⟨"assigns", Statement.assigns.tag,
       (((((((start.must Keyword.assign.tag).must blank).must name).maybe range).can blank).must
         Symbol.equal.tag).collect Symbol.semicolon.tag).guarded crossesBoundary⟩,
     ⟨"initial_blocks", Block.initially.tag, blockStart .initially false⟩,
     ⟨"always_blocks", Block.always.tag,
       ((((((start.must Keyword.always.tag).can blank).must Symbol.atSign.tag).can blank).complete
         Symbol.parenOpen.tag).can blank).must Keyword.blockBegin.tag⟩,
     ⟨"always_star_blocks", Block.always.tag,
       ((((start.must Keyword.always.tag).can blank).must
         (anySymbol [.atStar, .atStarParen])).can blank).must Keyword.blockBegin.tag⟩,
     ⟨"if_blocks", Block.branch.tag, blockStart .branch true⟩,
     ⟨"else_blocks", Block.otherwise.tag, blockStart .otherwise false⟩,
     ⟨"for_blocks", Block.loop.tag, blockStart .loop true⟩,
     ⟨"modules", Block.moduleStart.tag,
       ((((((start.must Keyword.moduleStart.tag).must blank).must name).can blank).maybe
         ((start.complete Symbol.poundParen.tag).can blank)).maybe
         ((start.complete Symbol.parenOpen.tag).can blank)).must Symbol.semicolon.tag⟩]

/-- The pass over statements: assignments in blocks, and delayed blocks. -/
def assignments : Stage where
  input := "layer0"
  output := "layer1"
  constructs :=
    [⟨"nonblocking", Statement.nonblocking.tag, assignment .lessEqual⟩,
     ⟨"blocking", Statement.blocking.tag, assignment .equal⟩,
     ⟨"delayed_always_blocks", Block.always.tag,
       ((((start.must Keyword.always.tag).can blank).must delayTag).can blank).must
         Block.plainBegin.tag⟩]

/-- The pass over assignments: module instances and whole blocks. -/
def blocks : Stage where
  input := "layer1"
  output := "layer2"
  pairs :=
    [(blockOpener, Block.blockEnd.tag), (Block.generateStart.tag, Block.generateEnd.tag)]
  constructs :=
    [⟨"instances", InstancePart.whole.tag,
       (((((((start.must name).can blank).maybe
         ((start.must InstancePart.parameters.tag).can blank)).must name).can blank).complete
         Symbol.parenOpen.tag).can blank).must Symbol.semicolon.tag⟩,
     ⟨"blocks", Block.sequential.tag, start.complete blockOpener⟩,
     ⟨"generate_regions", Block.generateRegion.tag, start.complete Block.generateStart.tag⟩]

/-- The passes in order. -/
def stages : List Stage := [statements, assignments, blocks]

/-- The grouper of a pass; comments are hidden from it. -/
def Stage.grouper (stage : Stage) (tokenizer : Tokenizer) : Grouper :=
  let g := (Grouper.ofTokenizer tokenizer).skip (Tag.ofCategory .comment)
  let g := stage.pairs.foldl (fun g pair => g.pair pair.1 pair.2) g
  stage.constructs.foldl (fun g c => g.add c.name c.tag c.pattern) g

end TagLayers.Verilog
