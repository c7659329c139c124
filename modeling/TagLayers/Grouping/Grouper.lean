import TagLayers.Diagnostic.Basic
import TagLayers.Grouping.Match
import TagLayers.Layer.TaggedText
import TagLayers.Lexicon.Tokenizer
import TagLayers.Pattern.Automaton

/-!
# Groupers

A grouper runs named automata over the tokens of one perspective and writes a coarser one: a
copy of the first in which the span of every match has the tag of its automaton. Where matches
overlap, the automaton registered later wins.

A scan runs its automata in groups. The automata of one group see each token in turn, in the
order of registration; one group runs after the other. A sequential scan has one group, a
parallel scan has one group for each automaton. Guards that were tripped and regions left open
become warnings and do not stop a scan; only an opener without a closer does.
-/

namespace TagLayers

/-- Why a text could not be scanned or parsed. -/
inductive EngineError where
  /-- Tagging failed. -/
  | tag (cause : TagError)
  /-- A pattern is faulty. -/
  | pattern (cause : PatternError)
  /-- A lexicon cannot be used. -/
  | lexicon (cause : LexiconError)
deriving DecidableEq, Repr

namespace EngineError

/-- The wording of an error. -/
def message : EngineError → String
  | tag cause => cause.message
  | pattern cause => cause.message
  | lexicon cause => cause.message

end EngineError

/-- Automata that share a tokenizer and a stream of tokens. -/
structure Grouper where
  tokenizer : Tokenizer
  /-- Openers and closers: those of the tokenizer and more. -/
  pairs : PairTable
  /-- The automata in order of registration. -/
  automata : List Automaton := []
  /-- Tags of tokens that no automaton sees. -/
  skips : List Tag := []

/-- How far automata have come, and what they had to report. -/
structure Progress where
  automata : List Automaton
  /-- The diagnostics, in the order in which they were emitted. -/
  emitted : List Diagnostic := []
  /-- The fault that stopped the automata. -/
  fault : Option PatternError := none

/-- What a scan gives. -/
structure ScanOutcome where
  /-- The grouper after the scan. -/
  grouper : Grouper
  /-- The text after the scan; the same as before if the scan failed. -/
  text : TaggedText
  /-- The diagnostics, in the order in which they were emitted. -/
  emitted : List Diagnostic
  /-- The matches, or why there are none. -/
  result : Except EngineError ScanResult

namespace Grouper

/-- A grouper without automata; its pairs are those of the tokenizer. -/
def ofTokenizer (tokenizer : Tokenizer) : Grouper := { tokenizer, pairs := tokenizer.pairs }

/-- Registers an automaton. -/
def add (g : Grouper) (name : String) (tag : Tag) (pattern : Pattern) : Grouper :=
  { g with automata := g.automata ++ [Automaton.new name tag pattern] }

/-- Registers a further opener and its closer. -/
def pair (g : Grouper) (opener closer : Tag) : Grouper :=
  { g with pairs := g.pairs.insert opener closer }

/-- Hides tokens from the automata. -/
def skip (g : Grouper) (tag : Tag) : Grouper := { g with skips := g.skips ++ [tag] }

/-- Every opener of every pattern has a closer; otherwise the first pattern at fault. -/
def validate (g : Grouper) : Except PatternError Unit :=
  g.automata.forM fun a => a.pattern.validate a.name g.pairs

/-! ## Reports -/

/-- The text of a token as messages show it: without blanks at its ends, between backquotes. -/
def shownText (token : Token) : Text :=
  '\x60' :: Text.trimBy Unicode.isBlank token.text ++ ['\x60']

/-- The warning for a token that tripped a guard. -/
def mismatchWarning (token : Token) (m : Mismatch) : Diagnostic :=
  (Diagnostic.ofCode .syntaxMismatch
      s!"unexpected {String.ofList (shownText token)} in {m.pattern}" token.span).withNote
    s!"expected {m.expected.shown}, found {token.tag.shown}"

/-- The warning for a region that was left open. -/
def unterminatedWarning (token : Token) (u : Unterminated) : Diagnostic :=
  (Diagnostic.ofCode .unterminatedGroup
      s!"unterminated {String.ofList (shownText token)} in {u.pattern}" token.span).withNote
    s!"expected {u.expected.shown} before end of input"

/-! ## Scanning -/

/-- The tokens of a perspective that the automata see. -/
def stream (g : Grouper) (text : TaggedText) (input : String) : Except TagError (List Token) := do
  let tokens ← text.tokens input
  return tokens.filter fun t => !g.skips.any t.tag.meets

/-- Feeds one token to each automaton in turn, until one is at fault. -/
def feedEach (pairs : PairTable) (i : Nat) (token : Token) : List Automaton → Progress
  | [] => { automata := [] }
  | a :: rest =>
      match a.feed i token pairs with
      | (b, .error fault) => { automata := b :: rest, fault := some fault }
      | (b, .ok mismatch) =>
          let p := feedEach pairs i token rest
          { p with
            automata := b :: p.automata
            emitted := (mismatch.map (mismatchWarning token)).toList ++ p.emitted }

/-- Feeds the tokens, the first of which has index `i`, to each automaton in turn. -/
def feedAll (pairs : PairTable) (automata : List Automaton) (i : Nat) : List Token → Progress
  | [] => { automata }
  | token :: rest =>
      let p := feedEach pairs i token automata
      match p.fault with
      | some _ => p
      | none =>
          let q := feedAll pairs p.automata (i + 1) rest
          { q with emitted := p.emitted ++ q.emitted }

/-- Ends the stream for each automaton in turn. -/
def finishEach (tokens : List Token) : List Automaton → Progress
  | [] => { automata := [] }
  | a :: rest =>
      let (b, region) := a.finish
      let p := finishEach tokens rest
      let warning := region.bind fun u => (tokens[u.opener]?).map fun t => unterminatedWarning t u
      { p with automata := b :: p.automata, emitted := warning.toList ++ p.emitted }

/-- Runs a group of automata over the whole stream. -/
def runGroup (pairs : PairTable) (tokens : List Token) (automata : List Automaton) : Progress :=
  let p := feedAll pairs (automata.map Automaton.reset) 0 tokens
  match p.fault with
  | some _ => p
  | none =>
      let q := finishEach tokens p.automata
      { q with emitted := p.emitted ++ q.emitted }

/-- Runs one group after the other, until one is at fault. -/
def runGroups (pairs : PairTable) (tokens : List Token) : List (List Automaton) → Progress
  | [] => { automata := [] }
  | group :: rest =>
      let p := runGroup pairs tokens group
      match p.fault with
      | some _ => { p with automata := p.automata ++ rest.flatten }
      | none =>
          let q := runGroups pairs tokens rest
          { q with automata := p.automata ++ q.automata, emitted := p.emitted ++ q.emitted }

/-- The match of tokens given by their indices. -/
def matchOf (tokens : Array Token) (run : List Nat) : Match := ⟨run.filterMap (tokens[·]?)⟩

/-- The matches that an automaton has completed. -/
def matchesOf (tokens : Array Token) (a : Automaton) : MatchSet :=
  ⟨a.tag, a.completed.toList.map (matchOf tokens)⟩

/-- Gives the spans of matches their tag in a perspective. -/
def tagMatches (output : String) (text : TaggedText) (set : MatchSet) :
    Except TagError TaggedText :=
  text.tagAll output (set.found.map Match.span) set.tag

/-- Copies the input perspective to the output and tags the matches there, one automaton after
the other. -/
def project (tokens : Array Token) (automata : List Automaton) (text : TaggedText)
    (input output : String) : Except TagError (TaggedText × ScanResult) := do
  let text ← text.copy input output
  let sets := automata.map fun a => (a.name, matchesOf tokens a)
  let text ← sets.foldlM (fun text row => tagMatches output text row.2) text
  return (text, sets.foldl (fun table row => table.insert row.1 row.2) {})

/-- Scans the tokens of `input` with the automata in the given groups and writes `output`. -/
def scanIn (g : Grouper) (groups : List (List Automaton)) (text : TaggedText)
    (input output : String) : ScanOutcome :=
  match g.stream text input with
  | .error e => ⟨g, text, [], .error (.tag e)⟩
  | .ok tokens =>
      let p := runGroups g.pairs tokens groups
      match p.fault with
      | some fault => ⟨{ g with automata := p.automata }, text, p.emitted, .error (.pattern fault)⟩
      | none =>
          let g := { g with automata := p.automata.map fun a => a.takeCompleted.1 }
          match project tokens.toArray p.automata text input output with
          | .error e => ⟨g, text, p.emitted, .error (.tag e)⟩
          | .ok (text, result) => ⟨g, text, p.emitted, .ok result⟩

/-- Scans with all automata side by side. -/
def scan (g : Grouper) (text : TaggedText) (input output : String) : ScanOutcome :=
  g.scanIn [g.automata] text input output

/-- Scans with each automaton on its own. -/
def scanParallel (g : Grouper) (text : TaggedText) (input output : String) : ScanOutcome :=
  g.scanIn (g.automata.map ([·])) text input output

end Grouper

end TagLayers
