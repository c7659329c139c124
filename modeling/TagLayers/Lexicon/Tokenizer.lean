import TagLayers.Layer.TaggedText
import TagLayers.Lexicon.Finder
import TagLayers.Lexicon.Marks
import TagLayers.Tag.Pairs

/-!
# Tokenizers

A tokenizer is a lexicon ready for use. It tags a text in six passes, each of which copies the
perspective of the pass before it and tags only what is still generic there:

* `comments`: comments;
* `macros`: directives, those with the longest mark first;
* `strings`: quoted strings;
* `whitespace`: runs of blanks;
* `reserved`: reserved symbols, the longest first;
* `keywords`: keywords that are whole words.

Every rule of a pass searches each generic span on its own, so what is found never reaches
into text that was tagged before, and the ends of the span count as ends of the text.
-/

namespace TagLayers

/-- A rule of a pass: the tag for what a search finds. -/
structure Rule where
  label : Tag
  /-- The search. -/
  find : Text → List Piece

/-- A pass: the perspective it copies, the one it writes, and its rules in order. -/
structure Pass where
  /-- The perspective to start from. -/
  source : String
  /-- The perspective to write. -/
  target : String
  rules : List Rule

/-- A lexicon ready for use. -/
structure Tokenizer where
  lexicon : Lexicon
  /-- The marks of directives, the longest first. -/
  directives : List (String × TagValue)
  /-- The finders of reserved symbols, those of the longest symbols first. -/
  reserved : List (Finder × TagValue)
  keywords : List (Finder × TagValue)
  /-- The tags of the symbols that open and close a group. -/
  pairs : PairTable

namespace Tokenizer

/-- Puts what has the longest text, counted in bytes, first, and otherwise keeps the order. -/
def longestFirst {α : Type} (text : α → String) (items : List α) : List α :=
  items.mergeSort fun a b => (text b).utf8ByteSize ≤ (text a).utf8ByteSize

/-- The finder of a reserved symbol. -/
def finderOf (engine : Engine) (r : Reserved) : Except LexiconError Finder :=
  match r.pattern with
  | none => .ok (.text r.symbol.toList)
  | some pattern =>
      match engine pattern.toList with
      | some search => .ok (.expression search)
      | none => .error (.badPattern r.symbol)

/-- The tag that a symbol of a pair has: that of the reserved symbol, or else of the keyword. -/
def symbolTag (lex : Lexicon) (symbol : String) : Except LexiconError Tag :=
  match lex.reservedId? symbol, lex.keywordId? symbol with
  | some id, _ => .ok (Tag.ofSymbol .reserved id)
  | none, some id => .ok (Tag.ofSymbol .keyword id)
  | none, none => .error (.unknownPairSymbol symbol)

/-- The tags of the pairs of a lexicon. -/
def pairTable (lex : Lexicon) : Except LexiconError PairTable :=
  lex.pairs.foldlM
    (fun table pair => do
      let opener ← symbolTag lex pair.1
      let closer ← symbolTag lex pair.2
      return table.insert opener closer)
    {}

/-- Checks a lexicon and makes it ready for use, with an engine for its regular expressions. -/
def ofLexicon (lex : Lexicon) (engine : Engine := .standard) : Except LexiconError Tokenizer := do
  lex.validate
  let reserved ← (longestFirst Reserved.symbol lex.reserved).mapM fun r => do
    return (← finderOf engine r, r.id)
  let pairs ← pairTable lex
  return {
    lexicon := lex
    directives := longestFirst Prod.fst lex.directives
    reserved
    keywords := lex.keywords.map fun k => (.word k.1.toList, k.2)
    pairs }

/-- The rules of all passes. -/
def passes (t : Tokenizer) : List Pass :=
  [⟨TaggedText.top, "comments", [⟨Tag.ofCategory .comment, t.lexicon.comments⟩]⟩,
   ⟨"comments", "macros",
     t.directives.map fun d =>
       ⟨Tag.ofSymbol .directive d.2, t.lexicon.directivesOf d.1.toList⟩⟩,
   ⟨"macros", "strings", [⟨Tag.ofCategory .string, t.lexicon.strings⟩]⟩,
   ⟨"strings", "whitespace", [⟨Tag.ofCategory .whitespace, Lexicon.blanks⟩]⟩,
   ⟨"whitespace", "reserved", t.reserved.map fun r => ⟨Tag.ofSymbol .reserved r.2, r.1.pieces⟩⟩,
   ⟨"reserved", "keywords", t.keywords.map fun k => ⟨Tag.ofSymbol .keyword k.2, k.1.pieces⟩⟩]

/-- The last perspective, whose tokens patterns are matched against. -/
def lastPass : String := "keywords"

/-- The ranges that a search finds in generic tokens. -/
def findsIn (tokens : List Token) (find : Text → List Piece) : List Span :=
  (tokens.filter (·.tag.isGeneric)).flatMap fun token =>
    Piece.ranges token.span.start (find token.text)

/-- Applies one rule to a perspective. -/
def applyRule (name : String) (text : TaggedText) (rule : Rule) : Except TagError TaggedText := do
  let tokens ← text.tokens name
  text.tagAll name (findsIn tokens rule.find) rule.label

/-- Runs one pass. -/
def runPass (text : TaggedText) (pass : Pass) : Except TagError TaggedText := do
  let text ← text.copy pass.source pass.target
  pass.rules.foldlM (applyRule pass.target) text

/-- Tags a source in all passes and keeps the perspectives of all of them. -/
def tokenize (t : Tokenizer) (source : Source) : Except TagError TaggedText :=
  t.passes.foldlM runPass (TaggedText.ofSource source)

end Tokenizer

end TagLayers
