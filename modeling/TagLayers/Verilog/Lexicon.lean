import TagLayers.Color.Map
import TagLayers.Lexicon.Basic

/-!
# The surface of Verilog

Keywords, symbols and compiler directives of Verilog with the ids that go into their tags, and
the tags of the structures that are found on top of them.
-/

namespace TagLayers.Verilog

/-! ## Keywords -/

/-- The keywords that structures are recognised by. -/
inductive Keyword where
  | moduleStart
  | moduleEnd
  | wire
  | reg
  | logic
  | integer
  | blockBegin
  | blockEnd
  | always
  | initially
  | branch
  | otherwise
  | loop
  | input
  | output
  | inout
  | parameter
  | localparam
  | assign
  | posedge
  | negedge
  | generateStart
  | generateEnd
  | genvar
deriving DecidableEq, Repr

namespace Keyword

/-- All keywords in the order of their ids. -/
def all : List Keyword :=
  [moduleStart, moduleEnd, wire, reg, logic, integer, blockBegin, blockEnd, always, initially,
   branch, otherwise, loop, input, output, inout, parameter, localparam, assign, posedge, negedge,
   generateStart, generateEnd, genvar]

/-- The text of a keyword. -/
def text : Keyword → String
  | moduleStart => "module"
  | moduleEnd => "endmodule"
  | wire => "wire"
  | reg => "reg"
  | logic => "logic"
  | integer => "integer"
  | blockBegin => "begin"
  | blockEnd => "end"
  | always => "always"
  | initially => "initial"
  | branch => "if"
  | otherwise => "else"
  | loop => "for"
  | input => "input"
  | output => "output"
  | inout => "inout"
  | parameter => "parameter"
  | localparam => "localparam"
  | assign => "assign"
  | posedge => "posedge"
  | negedge => "negedge"
  | generateStart => "generate"
  | generateEnd => "endgenerate"
  | genvar => "genvar"

/-- The id of a keyword: its place among all, from 1 on. -/
def id (k : Keyword) : TagValue := all.idxOf k + 1

/-- The tag of a keyword. -/
def tag (k : Keyword) : Tag := Tag.ofSymbol .keyword k.id

end Keyword

/-! ## Symbols -/

/-- The reserved symbols. -/
inductive Symbol where
  | lessEqual
  | equal
  | plus
  | minus
  | times
  | divide
  | parenOpen
  | parenClose
  | braceOpen
  | braceClose
  | bracketOpen
  | bracketClose
  | comma
  | poundParen
  | semicolon
  | colon
  | equals
  | notEquals
  | atStarParen
  | atStar
  | attributeOpen
  | attributeClose
  | atSign
  | pound
  | dot
  | greaterEqual
  | logicalAnd
  | logicalOr
  | shiftLeft
  | shiftRight
  | bang
  | ampersand
  | pipe
  | caret
  | tilde
  | question
  | less
  | greater
  | percent
deriving DecidableEq, Repr

namespace Symbol

/-- All symbols in the order of their ids. -/
def all : List Symbol :=
  [lessEqual, equal, plus, minus, times, divide, parenOpen, parenClose, braceOpen, braceClose,
   bracketOpen, bracketClose, comma, poundParen, semicolon, colon, equals, notEquals, atStarParen,
   atStar, attributeOpen, attributeClose, atSign, pound, dot, greaterEqual, logicalAnd, logicalOr,
   shiftLeft, shiftRight, bang, ampersand, pipe, caret, tilde, question, less, greater, percent]

/-- All symbols in the order in which they are registered; of two symbols of the same length
the one registered first is looked for first. -/
def registered : List Symbol :=
  [atStarParen, atStar, lessEqual, equal, plus, minus, times, divide, parenOpen, parenClose,
   braceOpen, braceClose, bracketOpen, bracketClose, comma, poundParen, semicolon, colon, equals,
   notEquals, attributeOpen, attributeClose, atSign, pound, dot, greaterEqual, logicalAnd,
   logicalOr, shiftLeft, shiftRight, bang, ampersand, pipe, caret, tilde, question, less, greater,
   percent]

/-- The text of a symbol. -/
def text : Symbol → String
  | lessEqual => "<="
  | equal => "="
  | plus => "+"
  | minus => "-"
  | times => "*"
  | divide => "/"
  | parenOpen => "("
  | parenClose => ")"
  | braceOpen => "\x7b"
  | braceClose => "\x7d"
  | bracketOpen => "["
  | bracketClose => "]"
  | comma => ","
  | poundParen => "#("
  | semicolon => ";"
  | colon => ":"
  | equals => "=="
  | notEquals => "!="
  | atStarParen => "@(*)"
  | atStar => "@*"
  | attributeOpen => "(*"
  | attributeClose => "*)"
  | atSign => "@"
  | pound => "#"
  | dot => "."
  | greaterEqual => ">="
  | logicalAnd => "&&"
  | logicalOr => "||"
  | shiftLeft => "<<"
  | shiftRight => ">>"
  | bang => "!"
  | ampersand => "&"
  | pipe => "|"
  | caret => "^"
  | tilde => "~"
  | question => "?"
  | less => "<"
  | greater => ">"
  | percent => "%"

/-- The id of a symbol: its place among all, from 1 on. -/
def id (s : Symbol) : TagValue := all.idxOf s + 1

/-- The tag of a symbol. -/
def tag (s : Symbol) : Tag := Tag.ofSymbol .reserved s.id

end Symbol

/-- The marks of compiler directives with their ids. -/
def directives : List (String × TagValue) :=
  [("\x60define", 1), ("\x60ifdef", 2), ("\x60ifndef", 3), ("\x60else", 4), ("\x60endif", 5),
   ("\x60include", 6), ("\x60timescale", 7)]

/-- Symbols that open and close a group. -/
def pairs : List (String × String) :=
  [("(", ")"), ("[", "]"), ("\x7b", "\x7d"), ("#(", ")"), ("(*", "*)")]

/-- The lexicon of Verilog. -/
def lexicon : Lexicon where
  keywords := Keyword.all.map fun k => (k.text, k.id)
  reserved := Symbol.registered.map fun s => { symbol := s.text, id := s.id }
  directives := directives
  pairs := pairs

/-! ## Structures -/

/-- The categories of structures, which follow the lexical ones. -/
inductive Structure where
  /-- A complete statement. -/
  | statement
  /-- The start or end of a block, or a whole block. -/
  | block
  /-- A delay. -/
  | timing
  /-- A part of a module instance, or a whole one. -/
  | moduleInstance
deriving DecidableEq, Repr

/-- The value of a category of structures in a tag. -/
def Structure.value : Structure → TagValue
  | .statement => 16
  | .block => 17
  | .timing => 18
  | .moduleInstance => 19

/-- Kinds of statements. -/
inductive Statement where
  | assigns
  | wires
  | registers
  | parameters
  | localparams
  | ports
  | nonblocking
  | blocking
  | genvars
  | attributes
deriving DecidableEq, Repr

namespace Statement

/-- The id of a kind of statement. -/
def id : Statement → TagValue
  | assigns => 1
  | wires => 2
  | registers => 3
  | parameters => 4
  | localparams => 5
  | ports => 6
  | nonblocking => 7
  | blocking => 8
  | genvars => 9
  | attributes => 10

/-- The tag of a kind of statement. -/
def tag (s : Statement) : Tag := Tag.of₂ Structure.statement.value s.id

end Statement

/-- Kinds of blocks and of their ends. -/
inductive Block where
  | plainBegin
  | blockEnd
  | initially
  | always
  | branch
  | otherwise
  | loop
  | moduleStart
  | moduleEnd
  | generateStart
  | generateEnd
  | sequential
  | generateRegion
deriving DecidableEq, Repr

namespace Block

/-- The id of a kind of block. -/
def id : Block → TagValue
  | plainBegin => 1
  | blockEnd => 2
  | initially => 3
  | always => 4
  | branch => 5
  | otherwise => 6
  | loop => 7
  | moduleStart => 8
  | moduleEnd => 9
  | generateStart => 10
  | generateEnd => 11
  | sequential => 12
  | generateRegion => 13

/-- The tag of a kind of block. -/
def tag (b : Block) : Tag := Tag.of₂ Structure.block.value b.id

end Block

/-- The tag of a delay. -/
def delayTag : Tag := Tag.of₂ Structure.timing.value 1

/-- Parts of a module instance. -/
inductive InstancePart where
  | parameters
  | portMap
  | whole
deriving DecidableEq, Repr

namespace InstancePart

/-- The id of a part. -/
def id : InstancePart → TagValue
  | parameters => 1
  | portMap => 2
  | whole => 3

/-- The tag of a part. -/
def tag (i : InstancePart) : Tag := Tag.of₂ Structure.moduleInstance.value i.id

end InstancePart

/-- The colors of structures, and below them those of the lexical categories. -/
def colors : ColorMap :=
  ColorMap.extend
    ⟨[(Tag.of Structure.statement.value, .red), (Tag.of Structure.block.value, .cyan),
      (Tag.of Structure.timing.value, .yellow), (Tag.of Structure.moduleInstance.value, .magenta)]⟩
    ColorMap.lexical

end TagLayers.Verilog
