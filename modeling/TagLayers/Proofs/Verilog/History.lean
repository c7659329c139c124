import TagLayers.Proofs.Grouping.Failures
import TagLayers.Proofs.Grouping.History
import TagLayers.Proofs.Verilog.Parsing

/-!
# Parses forget

The passes of a parser are scans of groupers that are used again for the next text. Scans forget, so
pass by pass a parser that has parsed other texts gives what a new one gives, whether or not the
earlier parses have succeeded and in whatever order the automata of each pass have moved.

Results:
1. `PassesUnder.exists_alike`, `runPasses_alike`: passes over the same text.
2. `Parser.exists_parseUnder`, `Parser.ParseUnder.exists_alike`, `Parser.parse_alike`: parses of the
   same source.
3. `Parser.Used.exists_new`: a parser that has been used is a new one, but for its past.
4. `scans_and_parses_forget`: histories of scans and of parses.
-/

namespace TagLayers.Verilog

def ParserPass.renew (pass : ParserPass) : ParserPass :=
  { pass with grouper := pass.grouper.renew }

/-- A parser with the same tokenizer and passes, whose groupers are new. -/
def Parser.renew (p : Parser) : Parser := { p with passes := p.passes.map ParserPass.renew }

def PassesOutcome.seen (o : PassesOutcome) : List Diagnostic × Except EngineError ParseOutput :=
  (o.emitted, o.result)

/-- What the caller of a parse sees: the diagnostics, and the text with the results of all
passes. -/
def ParseOutcome.seen (o : ParseOutcome) : List Diagnostic × Except EngineError ParseOutput :=
  (o.emitted, o.result)

/-! ## Passes -/

/-- The scan of a pass, in the order of the automata or with each on its own. -/
def ParserPass.scan (parallel : Bool) (pass : ParserPass) (text : TaggedText) : ScanOutcome :=
  if parallel then pass.grouper.scanParallel text pass.input pass.output
  else pass.grouper.scan text pass.input pass.output

theorem ParserPass.outcome_scan (parallel : Bool) (pass : ParserPass) (text : TaggedText) :
    pass.grouper.Outcome text pass.input pass.output (pass.scan parallel text) := by
  cases parallel with
  | false => exact Grouper.outcome_scanIn (List.append_nil _)
  | true => exact Grouper.outcome_scanIn (List.flatMap_singleton' _)

theorem ParserPass.scan_alike {pass pass' : ParserPass} (h : pass.renew = pass'.renew)
    (parallel : Bool) (text : TaggedText) :
    (pass.scan parallel text).seen = (pass'.scan parallel text).seen := by
  obtain ⟨hinput, houtput, hgrouper⟩ := ParserPass.mk.inj h
  unfold ParserPass.scan
  rw [hinput, houtput]
  cases parallel with
  | false => exact Grouper.scan_alike hgrouper text pass'.input pass'.output
  | true => exact Grouper.scanParallel_alike hgrouper text pass'.input pass'.output

theorem runPasses_cons (parallel : Bool) (text : TaggedText) (found : List PassResult)
    (pass : ParserPass) (rest : List ParserPass) :
    Parser.runPasses parallel text found (pass :: rest)
      = match (pass.scan parallel text).result with
        | .error e => ⟨{ pass with grouper := (pass.scan parallel text).grouper } :: rest,
            (pass.scan parallel text).emitted, .error e⟩
        | .ok result =>
          let more := Parser.runPasses parallel (pass.scan parallel text).text
            (found ++ [⟨pass.output, result⟩]) rest
          ⟨{ pass with grouper := (pass.scan parallel text).grouper } :: more.passes,
            (pass.scan parallel text).emitted ++ more.emitted, more.result⟩ :=
  rfl

/-- What passes may come to when the automata of each move in the order of its schedule. -/
inductive PassesUnder : List (List Nat) → TaggedText → List PassResult → List ParserPass →
    PassesOutcome → Prop
  | done (schedules : List (List Nat)) (text : TaggedText) (found : List PassResult) :
      PassesUnder schedules text found [] ⟨[], [], .ok ⟨text, found⟩⟩
  | failed {schedule : List Nat} {schedules : List (List Nat)} {text : TaggedText}
      {found : List PassResult} {pass : ParserPass} {rest : List ParserPass} {o : ScanOutcome}
      {e : EngineError} :
      pass.grouper.OutcomeUnder text pass.input pass.output schedule o → o.result = .error e →
      PassesUnder (schedule :: schedules) text found (pass :: rest)
        ⟨{ pass with grouper := o.grouper } :: rest, o.emitted, .error e⟩
  | passed {schedule : List Nat} {schedules : List (List Nat)} {text : TaggedText}
      {found : List PassResult} {pass : ParserPass} {rest : List ParserPass} {o : ScanOutcome}
      {result : ScanResult} {more : PassesOutcome} :
      pass.grouper.OutcomeUnder text pass.input pass.output schedule o → o.result = .ok result →
      PassesUnder schedules o.text (found ++ [⟨pass.output, result⟩]) rest more →
      PassesUnder (schedule :: schedules) text found (pass :: rest)
        ⟨{ pass with grouper := o.grouper } :: more.passes, o.emitted ++ more.emitted, more.result⟩

variable {schedules : List (List Nat)} {text : TaggedText} {found : List PassResult}
  {passes passes' : List ParserPass} {o : PassesOutcome}

theorem PassesUnder.renew_passes (h : PassesUnder schedules text found passes o) :
    o.passes.map ParserPass.renew = passes.map ParserPass.renew := by
  have hpass {pass : ParserPass} {text : TaggedText} {schedule : List Nat} {o : ScanOutcome}
      (ho : pass.grouper.OutcomeUnder text pass.input pass.output schedule o) :
      ({ pass with grouper := o.grouper } : ParserPass).renew = pass.renew :=
    congrArg (ParserPass.mk _ _) (Grouper.renew_outcome (Grouper.outcome_iff.mpr ⟨_, ho⟩))
  induction h with
  | done => rfl
  | failed ho => rw [List.map_cons, List.map_cons, hpass ho]
  | passed ho _ _ ih => rw [List.map_cons, List.map_cons, hpass ho, ih]

theorem PassesUnder.exists_alike (h : passes.map ParserPass.renew = passes'.map ParserPass.renew)
    (ho : PassesUnder schedules text found passes o) :
    ∃ o', PassesUnder schedules text found passes' o' ∧ o'.seen = o.seen := by
  induction ho generalizing passes' with
  | done schedules text found =>
    obtain rfl := List.map_eq_nil_iff.mp h.symm
    exact ⟨_, .done schedules text found, rfl⟩
  | @failed schedule _ _ _ pass rest o e ho hresult =>
    obtain ⟨pass', rest', rfl, hpass, -⟩ := List.map_eq_cons_iff.mp h.symm
    obtain ⟨hinput, houtput, hgrouper⟩ := ParserPass.mk.inj hpass
    obtain ⟨o', ho', hseen⟩ := ho.exists_alike hgrouper.symm
    obtain ⟨-, hemitted, hresult'⟩ := Prod.mk.inj hseen |>.imp_right Prod.mk.inj
    rw [← hinput, ← houtput] at ho'
    exact ⟨_, .failed ho' (hresult'.trans hresult), by rw [PassesOutcome.seen, hemitted]; rfl⟩
  | @passed schedule _ _ _ pass rest o result more ho hresult _ ih =>
    obtain ⟨pass', rest', rfl, hpass, hrest⟩ := List.map_eq_cons_iff.mp h.symm
    obtain ⟨hinput, houtput, hgrouper⟩ := ParserPass.mk.inj hpass
    obtain ⟨o', ho', hseen⟩ := ho.exists_alike hgrouper.symm
    obtain ⟨htext, hemitted, hresult'⟩ := Prod.mk.inj hseen |>.imp_right Prod.mk.inj
    obtain ⟨more', hmore', hseen'⟩ := ih hrest.symm
    obtain ⟨hemitted', hlast⟩ := Prod.mk.inj hseen'
    rw [← hinput, ← houtput] at ho'
    rw [← htext, ← houtput] at hmore'
    refine ⟨_, .passed ho' (hresult'.trans hresult) hmore', ?_⟩
    rw [PassesOutcome.seen, hemitted, hemitted', hlast]
    rfl

/-- Passes in the order of the automata, or with each automaton on its own, follow schedules. -/
theorem exists_schedules (parallel : Bool) (text : TaggedText) (found : List PassResult)
    (passes : List ParserPass) :
    ∃ schedules, PassesUnder schedules text found passes
      (Parser.runPasses parallel text found passes) := by
  induction passes generalizing text found with
  | nil => exact ⟨[], .done [] text found⟩
  | cons pass rest ih =>
    obtain ⟨schedule, ho⟩ := Grouper.outcome_iff.mp (pass.outcome_scan parallel text)
    rw [runPasses_cons]
    cases hresult : (pass.scan parallel text).result with
    | error e => exact ⟨[schedule], .failed ho hresult⟩
    | ok result =>
      obtain ⟨schedules, hmore⟩ := ih (pass.scan parallel text).text
        (found ++ [⟨pass.output, result⟩])
      exact ⟨schedule :: schedules, .passed ho hresult hmore⟩

theorem runPasses_alike (h : passes.map ParserPass.renew = passes'.map ParserPass.renew)
    (parallel : Bool) (text : TaggedText) (found : List PassResult) :
    (Parser.runPasses parallel text found passes).seen
      = (Parser.runPasses parallel text found passes').seen := by
  induction passes generalizing passes' text found with
  | nil =>
    obtain rfl := List.map_eq_nil_iff.mp h.symm
    rfl
  | cons pass rest ih =>
    obtain ⟨pass', rest', rfl, hpass, hrest⟩ := List.map_eq_cons_iff.mp h.symm
    have houtput : pass'.output = pass.output := (ParserPass.mk.inj hpass).2.1
    obtain ⟨htext, hemitted, hresult⟩ :=
      Prod.mk.inj (ParserPass.scan_alike hpass parallel text) |>.imp_right Prod.mk.inj
    rw [runPasses_cons, runPasses_cons, ← htext, ← hemitted, ← hresult, ← houtput]
    cases (pass'.scan parallel text).result with
    | error e => rfl
    | ok result =>
      obtain ⟨hemitted', hlast⟩ := Prod.mk.inj
        (ih hrest.symm (pass'.scan parallel text).text (found ++ [⟨pass'.output, result⟩]))
      simp only [PassesOutcome.seen, hemitted', hlast]

/-! ## Parses -/

namespace Parser

/-- What a parse may come to when the automata of each pass move in the order of its schedule. -/
inductive ParseUnder (p : Parser) (schedules : List (List Nat)) (source : Source) :
    ParseOutcome → Prop
  | unread {e : TagError} : p.tokenizer.tokenize source = .error e →
      ParseUnder p schedules source ⟨p, [], .error (.tag e)⟩
  | run {text : TaggedText} {o : PassesOutcome} : p.tokenizer.tokenize source = .ok text →
      PassesUnder schedules text [] p.passes o →
      ParseUnder p schedules source ⟨{ p with passes := o.passes }, o.emitted, o.result⟩

variable {p q : Parser} {source : Source} {o : ParseOutcome}

theorem exists_parseUnder (p : Parser) (source : Source) :
    ∃ schedules, p.ParseUnder schedules source (p.parse source) := by
  unfold parse
  cases htext : p.tokenizer.tokenize source with
  | error e => exact ⟨[], .unread htext⟩
  | ok text =>
    obtain ⟨schedules, hpasses⟩ := exists_schedules p.parallel text [] p.passes
    exact ⟨schedules, .run htext hpasses⟩

theorem ParseUnder.renew_eq (h : p.ParseUnder schedules source o) :
    o.parser.renew = p.renew := by
  cases h with
  | unread => rfl
  | run htext hpasses => exact congrArg (Parser.mk _ · _) hpasses.renew_passes

theorem ParseUnder.exists_alike (h : p.renew = q.renew) (ho : p.ParseUnder schedules source o) :
    ∃ o', q.ParseUnder schedules source o' ∧ o'.seen = o.seen := by
  obtain ⟨htokenizer, hpasses, -⟩ := Parser.mk.inj h
  cases ho with
  | unread htext => exact ⟨_, .unread (htokenizer ▸ htext), rfl⟩
  | run htext ho =>
    obtain ⟨o', ho', hseen⟩ := ho.exists_alike hpasses
    exact ⟨_, .run (htokenizer ▸ htext) ho', hseen⟩

theorem parse_alike (h : p.renew = q.renew) (source : Source) :
    (p.parse source).seen = (q.parse source).seen := by
  obtain ⟨htokenizer, hpasses, hparallel⟩ := Parser.mk.inj h
  unfold parse
  rw [htokenizer, hparallel]
  cases q.tokenizer.tokenize source with
  | error e => rfl
  | ok text => exact runPasses_alike hpasses q.parallel text []

/-- The parsers that come about from new ones by parses, those that fail included, and by switching
between the two ways to run the automata. -/
inductive Used : Parser → Prop
  | build {p : Parser} {parallel : Bool} : Parser.build parallel = .ok p → Used p
  | parse {p : Parser} {schedules : List (List Nat)} {source : Source} {o : ParseOutcome} :
      Used p → p.ParseUnder schedules source o → Used o.parser
  | switch {p : Parser} (parallel : Bool) : Used p → Used { p with parallel }

/-- Whether the automata run on their own makes no difference to what is built. -/
theorem build_parallel {parallel : Bool} (h : Parser.build parallel = .ok p) (parallel' : Bool) :
    p.parallel = parallel ∧ Parser.build parallel' = .ok { p with parallel := parallel' } := by
  unfold Parser.build at h ⊢
  cases ht : Tokenizer.ofLexicon lexicon with
  | error e =>
    rw [ht] at h
    cases h
  | ok t =>
    rw [ht] at h
    obtain ⟨passes, hpasses, hsame⟩ := bind_eq_ok.mp h
    cases hsame
    exact ⟨rfl, bind_eq_ok.mpr ⟨passes, hpasses, rfl⟩⟩

theorem Used.exists_new (h : p.Used) :
    ∃ fresh, Parser.build p.parallel = .ok fresh ∧ p.renew = fresh.renew := by
  induction h with
  | build hbuild => exact ⟨_, by rw [(build_parallel hbuild true).1]; exact hbuild, rfl⟩
  | @parse p schedules source o _ ho ih =>
    obtain ⟨fresh, hbuild, hsame⟩ := ih
    obtain ⟨-, -, hparallel⟩ := Parser.mk.inj ho.renew_eq
    exact ⟨fresh, by rw [hparallel]; exact hbuild, ho.renew_eq.trans hsame⟩
  | @switch p parallel _ ih =>
    obtain ⟨fresh, hbuild, hsame⟩ := ih
    obtain ⟨htokenizer, hpasses, -⟩ := Parser.mk.inj hsame
    refine ⟨_, (build_parallel hbuild parallel).2, ?_⟩
    unfold Parser.renew
    rw [htokenizer, hpasses]

end Parser

/-- Scans and parses do not depend on what has gone before. After any scans, side by side or
parallel and of any texts, those that a fault has stopped included, a grouper gives what a new one
with the same automata, pairs and skipped tags gives: the same result, text and diagnostics, and
under each schedule the same outcomes. After any parses a parser gives what a new one gives. -/
theorem scans_and_parses_forget :
    (∀ g g' : Grouper, g.Used g' → ∀ (text : TaggedText) (input output : String),
      (g'.scan text input output).seen = (g.renew.scan text input output).seen ∧
      (g'.scanParallel text input output).seen = (g.renew.scanParallel text input output).seen ∧
      ∀ schedule seen, (∃ o, g'.OutcomeUnder text input output schedule o ∧ o.seen = seen) ↔
        ∃ o, g.renew.OutcomeUnder text input output schedule o ∧ o.seen = seen) ∧
    ∀ p : Parser, p.Used → ∃ fresh, Parser.build p.parallel = .ok fresh ∧ ∀ source,
      (p.parse source).seen = (fresh.parse source).seen ∧
      ∀ schedules seen, (∃ o, p.ParseUnder schedules source o ∧ o.seen = seen) ↔
        ∃ o, fresh.ParseUnder schedules source o ∧ o.seen = seen := by
  constructor
  · intro g g' hused text input output
    have hsame : g'.renew = g.renew.renew := hused.renew_eq.trans g.renew_renew.symm
    refine ⟨Grouper.scan_alike hsame text input output,
      Grouper.scanParallel_alike hsame text input output, fun schedule seen => ⟨?_, ?_⟩⟩
    · rintro ⟨o, ho, rfl⟩
      exact ho.exists_alike hsame
    · rintro ⟨o, ho, rfl⟩
      exact ho.exists_alike hsame.symm
  · intro p hused
    obtain ⟨fresh, hbuild, hsame⟩ := hused.exists_new
    refine ⟨fresh, hbuild, fun source => ⟨Parser.parse_alike hsame source,
      fun schedules seen => ⟨?_, ?_⟩⟩⟩
    · rintro ⟨o, ho, rfl⟩
      exact ho.exists_alike hsame
    · rintro ⟨o, ho, rfl⟩
      exact ho.exists_alike hsame.symm

/-- The first automaton has a match and the second one is in a region when the third one is
stopped. -/
def halfwayGrouper : Grouper :=
  ⟨⟨{}, [], [], [], {}⟩, ⟨[(Tag.of 2, Tag.of 9)]⟩,
    [Grouper.firstToken, .new "region" (Tag.of 12) (Pattern.nil.complete (Tag.of 2)),
      .new "open" (Tag.of 13) (Pattern.nil.complete Tag.generic)], []⟩

/-- The scan that fails leaves a match and an open region behind, and an opener that no reset
clears; the next one gives what a new grouper gives. -/
theorem scans_and_parses_forget_halfwayGrouper :
    (halfwayGrouper.scan Grouper.markedText "top" "out").grouper.automata.map
        (fun a => (a.completed, a.isInside, a.reset.opener))
        = [(#[[0]], false, 0), (#[], true, 1), (#[], false, 0)] ∧
      ((halfwayGrouper.scan Grouper.markedText "top" "out").grouper.scan
          Grouper.markedText "top" "out").seen
        = (halfwayGrouper.renew.scan Grouper.markedText "top" "out").seen := by
  constructor
  · decide +kernel
  · have hused : halfwayGrouper.Used
        (halfwayGrouper.scan Grouper.markedText "top" "out").grouper :=
      .scan .unused (Grouper.outcome_scanIn (List.append_nil _))
    exact (scans_and_parses_forget.1 _ _ hused Grouper.markedText "top" "out").1

end TagLayers.Verilog
