import TagLayers.Tag.Basic

/-!
# Lexicons

A lexicon describes the surface of a language: the quote of strings and the escape within
them, the marks of comments, and tables of keywords, reserved symbols and directive marks,
each with the id that goes into the second slot of the token's tag. Pairs of symbols that open
and close a group are given by their text.

A lexicon is valid when no mark and no symbol is empty and no id occurs twice in a table.
-/

namespace TagLayers

/-- A reserved symbol. -/
structure Reserved where
  /-- The text of the symbol. -/
  symbol : String
  id : TagValue
  /-- A regular expression to find the symbol by, in place of its text. -/
  pattern : Option String := none
deriving DecidableEq, Repr

/-- The surface of a language. -/
structure Lexicon where
  /-- The character at both ends of a string. -/
  quote : Char := '"'
  /-- The character that takes the meaning from the next one in a string. -/
  escape : Char := '\\'
  /-- The mark of a comment that runs to the end of its line. -/
  lineComment : Option String := some "//"
  /-- The marks at the two ends of a longer comment. -/
  blockComment : Option (String × String) := some ("/*", "*/")
  /-- Keywords, found as whole words. -/
  keywords : List (String × TagValue) := []
  /-- Reserved symbols. -/
  reserved : List Reserved := []
  /-- Marks that make the rest of their line a directive. -/
  directives : List (String × TagValue) := []
  /-- Symbols that open and close a group. -/
  pairs : List (String × String) := []
deriving DecidableEq, Repr

/-- A part of a lexicon, as errors name it. -/
inductive LexiconPart where
  | lineComment
  | blockComment
  | keywords
  | reserved
  | directives
deriving DecidableEq, Repr

namespace LexiconPart

/-- The name of a part in messages. -/
def label : LexiconPart → String
  | lineComment => "line comment"
  | blockComment => "block comment"
  | keywords => "keyword"
  | reserved => "reserved"
  | directives => "macro"

end LexiconPart

/-- Why a lexicon cannot be used. -/
inductive LexiconError where
  /-- A mark or a symbol is empty. -/
  | emptySymbol (part : LexiconPart)
  /-- The regular expression of a symbol cannot be read. -/
  | badPattern (symbol : String)
  /-- A pair names a symbol that is neither reserved nor a keyword. -/
  | unknownPairSymbol (symbol : String)
  /-- Two entries of a table have the same id. -/
  | duplicateId (part : LexiconPart) (id : TagValue)
deriving DecidableEq, Repr

namespace LexiconError

/-- The wording of an error. -/
def message : LexiconError → String
  | emptySymbol part => s!"empty symbol in the {part.label} table"
  | badPattern symbol => s!"invalid match pattern for '{symbol}'"
  | unknownPairSymbol symbol =>
      s!"group pair symbol '{symbol}' is not a reserved symbol or keyword"
  | duplicateId part id => s!"duplicate id {id} in the {part.label} table"

end LexiconError

namespace Lexicon

/-- The id of a reserved symbol; the first entry with that text counts. -/
def reservedId? (lex : Lexicon) (symbol : String) : Option TagValue :=
  (lex.reserved.find? (·.symbol == symbol)).map (·.id)

/-- The id of a keyword; the first entry with that text counts. -/
def keywordId? (lex : Lexicon) (text : String) : Option TagValue :=
  (lex.keywords.find? (·.1 == text)).map (·.2)

/-- Checks a table from its first entry on, given the ids before: each text is not empty and
each id is new. -/
def checkTable (part : LexiconPart) (seen : List TagValue) :
    List (String × TagValue) → Except LexiconError Unit
  | [] => .ok ()
  | (text, id) :: rest =>
      if text.isEmpty then .error (.emptySymbol part)
      else if id ∈ seen then .error (.duplicateId part id)
      else checkTable part (id :: seen) rest

/-- Checks marks and tables in order; the first fault is the error. -/
def validate (lex : Lexicon) : Except LexiconError Unit := do
  if lex.lineComment = some "" then
    throw (.emptySymbol .lineComment)
  if let some (opener, closer) := lex.blockComment then
    if opener.isEmpty || closer.isEmpty then
      throw (.emptySymbol .blockComment)
  checkTable .keywords [] lex.keywords
  checkTable .reserved [] (lex.reserved.map fun r => (r.symbol, r.id))
  checkTable .directives [] lex.directives

end Lexicon

end TagLayers
