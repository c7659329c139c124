import Mathlib.Data.List.Forall2
import TagLayers.CommandLine.Run
import TagLayers.Proofs.Grouping.Totality
import TagLayers.Proofs.Lexicon.Tokenization

/-!
# Parsing never fails

The lexicon of Verilog is valid and its pairs close all openers of all patterns, so a parser can be
built. Each of its passes reads what the tokenizer or an earlier pass has written, and no pass
writes what has been read before; so every pass succeeds, and the diagnostics of a pass are warnings
about tokens that are still there at the end. A parse leaves a parser behind of which the same
holds.

Results:
1. `ofLexicon_lexicon`, `closed_grouper`, `build_eq`: the tokenizer and the parser that are built.
2. `runPasses_completes`: passes that find their inputs succeed.
3. `parse_completes`: a parse succeeds, and the next one will.
4. `code_run`: the command ends with the code 0.
5. `parse_total`: all of it for parsers that have been built and used.
-/

namespace TagLayers.Verilog

/-! ## Building a parser -/

/-- The tags of the symbols that open and close a group. -/
def symbolPairs : PairTable :=
  ⟨[(Symbol.parenOpen.tag, Symbol.parenClose.tag),
    (Symbol.bracketOpen.tag, Symbol.bracketClose.tag),
    (Symbol.braceOpen.tag, Symbol.braceClose.tag),
    (Symbol.poundParen.tag, Symbol.parenClose.tag),
    (Symbol.attributeOpen.tag, Symbol.attributeClose.tag)]⟩

/-- The symbols in the order in which they are looked for: the longest first, and those of the same
length as they are registered. -/
def Symbol.longestFirst : List Symbol :=
  [.atStarParen, .atStar, .lessEqual, .poundParen, .equals, .notEquals, .attributeOpen,
   .attributeClose, .greaterEqual, .logicalAnd, .logicalOr, .shiftLeft, .shiftRight, .equal, .plus,
   .minus, .times, .divide, .parenOpen, .parenClose, .braceOpen, .braceClose, .bracketOpen,
   .bracketClose, .comma, .semicolon, .colon, .atSign, .pound, .dot, .bang, .ampersand, .pipe,
   .caret, .tilde, .question, .less, .greater, .percent]

/-- The tokenizer of Verilog. -/
def newTokenizer : Tokenizer where
  lexicon := lexicon
  directives :=
    [("\x60timescale", 7), ("\x60include", 6), ("\x60define", 1), ("\x60ifndef", 3),
     ("\x60ifdef", 2), ("\x60endif", 5), ("\x60else", 4)]
  reserved := Symbol.longestFirst.map fun s => (.text s.text.toList, s.id)
  keywords := lexicon.keywords.map fun k => (.word k.1.toList, k.2)
  pairs := symbolPairs

theorem symbols_longestFirst : Tokenizer.longestFirst Reserved.symbol lexicon.reserved
    = Symbol.longestFirst.map fun s => { symbol := s.text, id := s.id } :=
  Tokenizer.longestFirst_eq (by decide +kernel) (by decide +kernel)

theorem directives_longestFirst : Tokenizer.longestFirst Prod.fst lexicon.directives
    = newTokenizer.directives :=
  Tokenizer.longestFirst_eq (by decide +kernel) (by decide +kernel)

theorem ofLexicon_lexicon : Tokenizer.ofLexicon lexicon = .ok newTokenizer := by
  have hvalid : lexicon.validate = .ok () := rfl
  have hpairs : Tokenizer.pairTable lexicon = .ok symbolPairs := rfl
  unfold Tokenizer.ofLexicon
  rw [hvalid, symbols_longestFirst, hpairs, directives_longestFirst]
  rfl

/-- The openers and closers of a stage. -/
def Stage.table (stage : Stage) (pairs : PairTable) : PairTable :=
  stage.pairs.foldl (fun table pair => table.insert pair.1 pair.2) pairs

theorem foldl_pair (pairs : List (Tag × Tag)) (g : Grouper) :
    (pairs.foldl (fun g pair => g.pair pair.1 pair.2) g).automata = g.automata ∧
      (pairs.foldl (fun g pair => g.pair pair.1 pair.2) g).pairs
        = pairs.foldl (fun table pair => table.insert pair.1 pair.2) g.pairs := by
  induction pairs generalizing g with
  | nil => exact ⟨rfl, rfl⟩
  | cons pair rest ih => exact ih (g.pair pair.1 pair.2)

theorem foldl_add (constructs : List Construct) (g : Grouper) :
    (constructs.foldl (fun g c => g.add c.name c.tag c.pattern) g).automata
        = g.automata ++ constructs.map (fun c => Automaton.new c.name c.tag c.pattern) ∧
      (constructs.foldl (fun g c => g.add c.name c.tag c.pattern) g).pairs = g.pairs := by
  induction constructs generalizing g with
  | nil => exact ⟨(List.append_nil _).symm, rfl⟩
  | cons c rest ih =>
    obtain ⟨hautomata, hpairs⟩ := ih (g.add c.name c.tag c.pattern)
    refine ⟨hautomata.trans ?_, hpairs⟩
    rw [Grouper.add, List.append_assoc]
    rfl

theorem grouper_eq (stage : Stage) (t : Tokenizer) :
    (stage.grouper t).automata
        = stage.constructs.map (fun c => Automaton.new c.name c.tag c.pattern) ∧
      (stage.grouper t).pairs = stage.table t.pairs := by
  obtain ⟨hautomata, hpairs⟩ := foldl_pair stage.pairs
    ((Grouper.ofTokenizer t).skip (Tag.ofCategory .comment))
  obtain ⟨hautomata', hpairs'⟩ := foldl_add stage.constructs
    (stage.pairs.foldl (fun g pair => g.pair pair.1 pair.2)
      ((Grouper.ofTokenizer t).skip (Tag.ofCategory .comment)))
  exact ⟨hautomata'.trans (by rw [hautomata]; rfl), hpairs'.trans hpairs⟩

/-- The pairs of the lexicon and of each stage close all openers of its patterns. -/
theorem closed_grouper {stage : Stage} (hstage : stage ∈ stages) :
    (stage.grouper newTokenizer).Closed := by
  have hall : ∀ stage ∈ stages, ∀ c ∈ stage.constructs, ∀ e ∈ c.pattern.entries,
      e.mode = .complete → ((stage.table symbolPairs).closer? e.target).isSome := by decide
  obtain ⟨hautomata, hpairs⟩ := grouper_eq stage newTokenizer
  intro a ha
  rw [hautomata] at ha
  obtain ⟨c, hc, rfl⟩ := List.mem_map.mp ha
  rw [hpairs]
  exact hall stage hstage c hc

/-- Where a pass reads, and where it writes. -/
def ParserPass.route (pass : ParserPass) : String × String := (pass.input, pass.output)

/-- The passes have the routes of the stages, and all of their openers have closers. -/
structure Parser.Ready (p : Parser) : Prop where
  routes : p.passes.map ParserPass.route = stages.map fun stage => (stage.input, stage.output)
  closed : ∀ pass ∈ p.passes, pass.grouper.Closed

/-- A parser that has parsed nothing yet. -/
def newParser (parallel : Bool) : Parser where
  tokenizer := newTokenizer
  passes := stages.map fun stage => ⟨stage.input, stage.output, stage.grouper newTokenizer⟩
  parallel := parallel

theorem build_eq (parallel : Bool) : Parser.build parallel = .ok (newParser parallel) := by
  have hpasses : stages.mapM (Parser.preparePass newTokenizer) = .ok (stages.map fun stage =>
      ⟨stage.input, stage.output, stage.grouper newTokenizer⟩) := by
    refine mapM_eq_ok fun stage hstage => ?_
    rw [Parser.preparePass, Grouper.validate_eq_ok_iff.mpr (closed_grouper hstage)]
  unfold Parser.build
  rw [ofLexicon_lexicon]
  simp only [hpasses]
  rfl

theorem build_ok (parallel : Bool) : ∃ p, Parser.build parallel = .ok p ∧ p.Ready := by
  refine ⟨_, build_eq parallel, ⟨?_, fun pass hpass => ?_⟩⟩
  · rw [newParser, List.map_map]
    rfl
  · obtain ⟨stage, hstage, rfl⟩ := List.mem_map.mp hpass
    exact closed_grouper hstage

/-! ## Running passes -/

/-- The spans of all matches lie between characters of the source. -/
def PassResult.Placed (source : Source) (result : PassResult) : Prop :=
  ∀ row ∈ result.found.rows, ∀ m ∈ row.2.found, source.Admits m.span

/-- What it means that passes over a text have succeeded, when `names` were there before and
`done` had been found. -/
structure Completes (names : List String) (text : TaggedText) (done : List PassResult)
    (passes : List ParserPass) (o : PassesOutcome) (out : ParseOutput) : Prop where
  result : o.result = .ok out
  sound : out.text.Sound
  source : out.text.source = text.source
  kept : ∀ name, name ∉ passes.map (·.output) →
    out.text.perspectives.get? name = text.perspectives.get? name
  written : ∀ name ∈ names ++ passes.map (·.output), (out.text.perspectives.get? name).isSome
  layers : out.passes.map (·.layer) = done.map (·.layer) ++ passes.map (·.output)
  placed : ∀ result ∈ out.passes, result ∈ done ∨ result.Placed text.source
  /-- The diagnostics of each pass are warnings about tokens of its input. -/
  warnings : ∃ groups, o.emitted = groups.flatten ∧
    List.Forall₂ (fun pass ds => out.text.Warns pass.input ds) passes groups
  routes : o.passes.map ParserPass.route = passes.map ParserPass.route
  closed : ∀ pass ∈ o.passes, pass.grouper.Closed

/-- No pass writes what it, or a pass before it, has read. -/
def Apart (passes : List ParserPass) : Prop :=
  (∀ pass ∈ passes, pass.output ≠ pass.input) ∧
    passes.Pairwise fun pass later => later.output ≠ pass.input

/-- Perspectives of sound texts that are the same have the same tokens. -/
theorem warns_of_get?_eq {text text' : TaggedText} (ht : text.Sound) (ht' : text'.Sound)
    (hsource : text'.source = text.source) {name : String}
    (h : text'.perspectives.get? name = text.perspectives.get? name) {ds : List Diagnostic}
    (hw : text.Warns name ds) : text'.Warns name ds := by
  obtain ⟨tokens, htokens, hds⟩ := hw
  refine ⟨tokens, ?_, hds⟩
  cases hp : text.perspectives.get? name with
  | none =>
    rw [TaggedText.tokens_of_none hp] at htokens
    cases htokens
  | some p =>
    rw [hp] at h
    rw [TaggedText.tokens_eq h (ht' name p h), hsource, ← htokens,
      TaggedText.tokens_eq hp (ht name p hp)]

/-- Passes succeed if each finds its input and none writes what has been read. -/
theorem runPasses_completes (parallel : Bool) {names : List String} {passes : List ParserPass}
    (hfed : Tokenizer.Fed names (passes.map ParserPass.route)) (hapart : Apart passes)
    (hclosed : ∀ pass ∈ passes, pass.grouper.Closed) {text : TaggedText} (ht : text.Sound)
    (hnames : ∀ name ∈ names, (text.perspectives.get? name).isSome) (done : List PassResult) :
    ∃ out, Completes names text done passes (Parser.runPasses parallel text done passes) out := by
  induction passes generalizing names text done with
  | nil =>
    refine ⟨⟨text, done⟩, ?_⟩
    exact
      { result := rfl
        sound := ht
        source := rfl
        kept := fun _ _ => rfl
        written := fun name hname => by
          rw [List.map_nil, List.append_nil] at hname
          exact hnames name hname
        layers := (List.append_nil _).symm
        placed := fun _ hmem => .inl hmem
        warnings := ⟨[], rfl, .nil⟩
        routes := rfl
        closed := List.forall_mem_nil _ }
  | cons pass rest ih =>
    have hinput : pass.input ∈ names := hfed.1
    have hfed : Tokenizer.Fed (names ++ [pass.output]) (rest.map ParserPass.route) := hfed.2
    obtain ⟨hself, hselves⟩ := List.forall_mem_cons.mp hapart.1
    obtain ⟨hlater, hrest⟩ := List.pairwise_cons.mp hapart.2
    obtain ⟨hfirst, hothers⟩ := List.forall_mem_cons.mp hclosed
    obtain ⟨p, hp⟩ := Option.isSome_iff_exists.mp (hnames pass.input hinput)
    obtain ⟨groups, hgroups, hscan⟩ : ∃ groups, groups.flatten = pass.grouper.automata ∧
        (if parallel = true then pass.grouper.scanParallel text pass.input pass.output
          else pass.grouper.scan text pass.input pass.output)
          = pass.grouper.scanIn groups text pass.input pass.output := by
      cases parallel with
      | false => exact ⟨_, List.append_nil _, rfl⟩
      | true => exact ⟨_, List.flatMap_singleton' _, rfl⟩
    obtain ⟨after, found, hresult, htext, hfits, hnext, hwarns, hspans⟩ :=
      Grouper.scanIn_total hfirst ht hp pass.output hgroups
    obtain ⟨out, hout⟩ := ih hfed ⟨hselves, hrest⟩ hothers (ht.put pass.output hfits)
      (TaggedText.isSome_put hnames pass.output after) (done ++ [⟨pass.output, found⟩])
    rw [Parser.runPasses]
    simp only [hscan, hresult, htext]
    -- what has been read is still there after the passes that follow
    have hread : out.text.perspectives.get? pass.input = text.perspectives.get? pass.input := by
      have hnot : pass.input ∉ rest.map (·.output) := by
        intro hmem
        obtain ⟨later, hmem, hsame⟩ := List.mem_map.mp hmem
        exact hlater later hmem hsame
      rw [hout.kept pass.input hnot, TaggedText.get?_put, if_neg (Ne.symm hself)]
    refine ⟨out, ?_⟩
    exact
      { result := hout.result
        sound := hout.sound
        source := hout.source
        kept := fun name hname => by
          obtain ⟨hne, hnot⟩ := not_or.mp (fun h => hname (List.mem_cons.mpr h))
          rw [hout.kept name hnot, TaggedText.get?_put, if_neg hne]
        written := fun name hname => hout.written name (by rwa [List.append_assoc])
        layers := by
          rw [hout.layers, List.map_append, List.append_assoc]
          rfl
        placed := fun result hmem => by
          rcases hout.placed result hmem with hmem | hplaced
          · rcases List.mem_append.mp hmem with hmem | hmem
            · exact .inl hmem
            · rw [List.mem_singleton.mp hmem]
              exact .inr hspans
          · exact .inr hplaced
        warnings := by
          obtain ⟨later, hemitted, hall⟩ := hout.warnings
          have hfirst := warns_of_get?_eq ht hout.sound hout.source hread hwarns
          exact ⟨_ :: later, by rw [hemitted, List.flatten_cons], .cons hfirst hall⟩
        routes := by
          rw [List.map_cons, List.map_cons, hout.routes]
          rfl
        closed := List.forall_mem_cons.mpr ⟨hnext, hout.closed⟩ }

/-! ## Parsing -/

namespace Parser

theorem Ready.apart {p : Parser} (hp : p.Ready) : Apart p.passes := by
  have hroutes : (∀ route ∈ p.passes.map ParserPass.route, route.2 ≠ route.1) ∧
      (p.passes.map ParserPass.route).Pairwise fun route later => later.2 ≠ route.1 := by
    rw [hp.routes]
    decide
  exact ⟨fun pass hpass => hroutes.1 pass.route (List.mem_map_of_mem hpass),
    List.pairwise_map.mp hroutes.2⟩

theorem Ready.fed {p : Parser} (hp : p.Ready) :
    Tokenizer.Fed Tokenizer.perspectiveNames (p.passes.map ParserPass.route) := by
  rw [hp.routes]
  simp [Tokenizer.Fed, Tokenizer.perspectiveNames, stages, statements, assignments, blocks]

theorem Ready.inputs {p : Parser} (hp : p.Ready) :
    p.passes.map (·.input) = ["keywords", "layer0", "layer1"] :=
  calc p.passes.map (·.input)
      = (p.passes.map ParserPass.route).map Prod.fst := by
        rw [List.map_map]
        rfl
    _ = ["keywords", "layer0", "layer1"] := by
        rw [hp.routes]
        rfl

theorem Ready.outputs {p : Parser} (hp : p.Ready) :
    p.passes.map (·.output) = ["layer0", "layer1", "layer2"] :=
  calc p.passes.map (·.output)
      = (p.passes.map ParserPass.route).map Prod.snd := by
        rw [List.map_map]
        rfl
    _ = ["layer0", "layer1", "layer2"] := by
        rw [hp.routes]
        rfl

/-- A parse succeeds, and so will the next one. -/
theorem parse_completes {p : Parser} (hp : p.Ready) (source : Source) :
    ∃ text out, text.source = source ∧
      Completes Tokenizer.perspectiveNames text [] p.passes
        ⟨(p.parse source).parser.passes, (p.parse source).emitted, (p.parse source).result⟩ out ∧
      (p.parse source).parser.Ready := by
  obtain ⟨text, htext, hsound, hsource, hnames⟩ := p.tokenizer.tokenize_ok source
  obtain ⟨out, hout⟩ :=
    runPasses_completes p.parallel hp.fed hp.apart hp.closed hsound hnames []
  have hparse : p.parse source
      = ⟨{ p with passes := (runPasses p.parallel text [] p.passes).passes },
          (runPasses p.parallel text [] p.passes).emitted,
          (runPasses p.parallel text [] p.passes).result⟩ := by
    unfold parse
    rw [htext]
  rw [hparse]
  exact ⟨text, out, hsource, hout, hout.routes.trans hp.routes, hout.closed⟩

/-- The parser after it has parsed sources. -/
def after (p : Parser) (sources : List Source) : Parser :=
  sources.foldl (fun p source => (p.parse source).parser) p

theorem Ready.after {p : Parser} (hp : p.Ready) (sources : List Source) :
    (p.after sources).Ready := by
  induction sources generalizing p with
  | nil => exact hp
  | cons source rest ih =>
    obtain ⟨-, -, -, -, hnext⟩ := parse_completes hp source
    exact ih hnext

/-- In every stream the indices that an automaton keeps, and those that its reports name, are
indices of tokens. -/
theorem Ready.indices {p : Parser} (hp : p.Ready) {pass : ParserPass} (hpass : pass ∈ p.passes)
    {a : Automaton} (ha : a ∈ pass.grouper.automata) (tokens : List Token) :
    (a.runs pass.grouper.pairs tokens).flatten.Sublist (List.range tokens.length) ∧
      ∀ r ∈ (Lane.alone pass.grouper.pairs tokens a).2, (r.diagnostic? tokens).isSome := by
  have hended := Lane.alone_ended_of_closers tokens (hp.closed pass hpass a ha)
  exact ⟨(Automaton.runs_of_ended hended).1, (Lane.alone_kept pass.grouper.pairs tokens a).2⟩

end Parser

/-! ## What becomes of a parse -/

/-- All diagnostics of passes that have succeeded are warnings about tokens. -/
theorem Completes.warns {names : List String} {text : TaggedText} {done : List PassResult}
    {passes : List ParserPass} {o : PassesOutcome} {out : ParseOutput}
    (h : Completes names text done passes o out) {d : Diagnostic} (hd : d ∈ o.emitted) :
    ∃ tokens, d.Warns tokens := by
  obtain ⟨groups, hemitted, hgroups⟩ := h.warnings
  rw [hemitted] at hd
  obtain ⟨ds, hds, hd⟩ := List.mem_flatten.mp hd
  obtain ⟨i, hi, rfl⟩ := List.getElem_of_mem hds
  obtain ⟨hlen, hget⟩ := List.forall₂_iff_get.mp hgroups
  obtain ⟨tokens, -, hwarns⟩ := hget i (by omega) hi
  exact ⟨tokens, hwarns d hd⟩

theorem isSome_render? {tokens : List Token} {d : Diagnostic} (h : d.Warns tokens)
    (style : TerminalStyle) (source : Source) : (d.render? style source).isSome := by
  obtain ⟨-, -, t, -, hspan, hlt⟩ := h
  rw [Diagnostic.render?]
  split
  · rw [Diagnostic.excerpt?, Span.length?, hspan, if_pos (Nat.le_of_lt hlt)]
    rfl
  · rfl

/-- The command, which parses the source with a parser that it builds, ends with the code 0. -/
theorem code_run {parallel : Bool} {p : Parser} (hbuild : Parser.build parallel = .ok p)
    (hp : p.Ready) (source : Source) (inv : CommandLine.Invocation)
    (format : CommandLine.Format) (terminal : Bool)
    (config : Option (Except FileError Text)) :
    (CommandLine.run { inv with command := .parse source.name format parallel } terminal
      ⟨config, .ok source.text⟩).code = 0 := by
  obtain ⟨text, out, -, hout, -⟩ := Parser.parse_completes hp source
  have hresult : (p.parse source).result = .ok out := hout.result
  have hsink : (Sink.emitAll {} (p.parse source).emitted).hasErrors = false := by
    have hnone : (p.parse source).emitted.filter (·.severity.isError) = [] := by
      refine List.filter_eq_nil_iff.mpr fun d hd => ?_
      obtain ⟨tokens, hwarns⟩ := hout.warns hd
      rw [hwarns.1]
      decide
    rw [Sink.hasErrors, Sink.emitAll_eq, hnone]
    rfl
  unfold CommandLine.run CommandLine.runParse
  simp only [hbuild, CommandLine.loadSource, Except.mapError, bind, Except.bind, hresult, hsink]
  cases format with
  | text => rfl
  | json => rfl

/-- The perspective is there and complete, and its tokens, one after the other, are the text. -/
def Covered (text : TaggedText) (name : String) : Prop :=
  ∃ p tokens, text.perspectives.get? name = some p ∧ p.length = text.source.length ∧
    p.isComplete = true ∧ text.tokens name = .ok tokens ∧
    tokens.flatMap (·.text) = text.source.text

theorem covered_of_sound {text : TaggedText} (ht : text.Sound) {name : String}
    (hname : (text.perspectives.get? name).isSome) : Covered text name := by
  obtain ⟨p, hp⟩ := Option.isSome_iff_exists.mp hname
  have hfits := ht name p hp
  exact ⟨p, _, hp, hfits.length, hfits.filled.isComplete, TaggedText.tokens_eq hp hfits,
    hfits.join_tokens⟩

/-- A parser can be built, and however many sources it has parsed, it parses the next one: all
perspectives are there and cover the source, each pass has a result, and all that it emits are
warnings about tokens of the perspective that it reads. No index goes beyond the tokens and no span
beyond the text, so all of it can be shown, and the command ends with the code 0. -/
theorem parse_total (parallel : Bool) (earlier : List Source) (source : Source) :
    ∃ parser out, Parser.build parallel = .ok parser ∧
      ((parser.after earlier).parse source).result = .ok out ∧ out.text.source = source ∧
      (∀ name ∈ ["top", "comments", "macros", "strings", "whitespace", "reserved", "keywords",
        "layer0", "layer1", "layer2"], Covered out.text name) ∧
      out.passes.map (·.layer) = ["layer0", "layer1", "layer2"] ∧
      (∃ groups, ((parser.after earlier).parse source).emitted = groups.flatten ∧
        List.Forall₂ out.text.Warns ["keywords", "layer0", "layer1"] groups) ∧
      (∀ d ∈ ((parser.after earlier).parse source).emitted, ∀ style,
        (d.render? style source).isSome) ∧
      (∀ result ∈ out.passes, ∀ row ∈ result.found.rows, ∀ m ∈ row.2.found,
        (source.snippet? m.span).isSome) ∧
      (∀ pass ∈ (parser.after earlier).passes, ∀ a ∈ pass.grouper.automata, ∀ tokens,
        (a.runs pass.grouper.pairs tokens).flatten.Sublist (List.range tokens.length) ∧
          ∀ r ∈ (Lane.alone pass.grouper.pairs tokens a).2, (r.diagnostic? tokens).isSome) ∧
      ∀ (inv : CommandLine.Invocation) (format : CommandLine.Format) (terminal : Bool)
        (config : Option (Except FileError Text)),
        (CommandLine.run { inv with command := .parse source.name format parallel } terminal
          ⟨config, .ok source.text⟩).code = 0 := by
  obtain ⟨parser, hbuild, hready⟩ := build_ok parallel
  have hafter := hready.after earlier
  obtain ⟨text, out, hsource, hout, -⟩ := Parser.parse_completes hafter source
  refine ⟨parser, out, hbuild, hout.result, hout.source.trans hsource, ?covered, ?layers,
    ?warnings, ?rendered, ?snippets, fun pass hpass a ha => hafter.indices hpass ha,
    code_run hbuild hready source⟩
  case covered =>
    intro name hname
    refine covered_of_sound hout.sound (hout.written name ?_)
    rw [hafter.outputs]
    exact hname
  case layers =>
    rw [hout.layers, hafter.outputs]
    rfl
  case warnings =>
    obtain ⟨groups, hemitted, hgroups⟩ := hout.warnings
    rw [← hafter.inputs]
    exact ⟨groups, hemitted, List.forall₂_map_left_iff.mpr hgroups⟩
  case rendered =>
    intro d hd style
    obtain ⟨tokens, hwarns⟩ := hout.warns hd
    exact isSome_render? hwarns style source
  case snippets =>
    intro result hresult row hrow m hm
    rcases hout.placed result hresult with hdone | hplaced
    · cases hdone
    · have hadmits := hplaced row hrow m hm
      rw [hsource] at hadmits
      rw [hadmits.snippet?]
      rfl

end TagLayers.Verilog
