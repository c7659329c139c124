import TagLayers.Proofs.Grouping.Reports
import TagLayers.Proofs.Pattern.Offers
import TagLayers.Proofs.Verilog.Passes

/-!
# Statements end before blocks

Declarations, ports and assignments collect everything up to what ends them. Where that has been
forgotten they would run on, so their last entries have a guard that no keyword trips but those that
start or end a module, a block or another statement, and no structure but blocks. Such a token is
not collected. It ends the attempt, which leaves no match, and is reported once.

Results:
1. `boundary_iff`: the tokens that trip the guard.
2. `Construct.Bounded`: constructs whose last entries collect up to a boundary.
3. `Parser.Used.exists_automaton`, `Parser.Used.names`: the automata of a parser that has been used.
4. `filter_groups`: the diagnostics of a parse that reject a token in the name of an automaton.
5. `collects_stop_at_boundaries`: the law of boundaries.
-/

namespace TagLayers.Verilog

/-! ## Boundaries -/

/-- The words that start or end a module, a block or an assignment. -/
def boundaryWords : List String :=
  ["module", "endmodule", "assign", "always", "initial", "begin", "end", "generate",
    "endgenerate"]

/-- The token is one of the boundary keywords, or belongs to a block. -/
def Boundary (token : Token) : Prop :=
  token.tag.category = some Structure.block.value ∨
    ∃ k : Keyword, k.text ∈ boundaryWords ∧ token.tag.keywordId = some k.id

theorem mem_boundaryKeywords {k : Keyword} : k ∈ boundaryKeywords ↔ k.text ∈ boundaryWords := by
  cases k <;> decide

theorem boundary_iff {token : Token} : Boundary token ↔ crossesBoundary token = true := by
  rw [Boundary, crossesBoundary, Bool.or_eq_true, beq_iff_eq, Option.any_eq_true]
  refine or_congr_right ⟨?_, ?_⟩
  · rintro ⟨k, hk, hid⟩
    refine ⟨k.id, hid, ?_⟩
    rw [List.contains_iff_mem]
    exact List.mem_map_of_mem (mem_boundaryKeywords.mpr hk)
  · rintro ⟨id, hid, hmem⟩
    rw [List.contains_iff_mem] at hmem
    obtain ⟨k, hk, rfl⟩ := List.mem_map.mp hmem
    exact ⟨k, mem_boundaryKeywords.mp hk, hid⟩

/-- A boundary is no reserved symbol. -/
theorem Boundary.misses {token : Token} (h : Boundary token) {e : TagEntry}
    (he : e.target.first = .is Category.reserved.value) : e.hits token = false := by
  have hfirst : token.tag.first = .is Structure.block.value ∨
      token.tag.first = .is Category.keyword.value := by
    rcases h with h | ⟨k, -, h⟩
    · rw [Tag.category] at h
      split at h
      · next value hvalue => exact .inl (hvalue.trans (congrArg Slot.is (Option.some.inj h)))
      · cases h
    · rw [Tag.keywordId] at h
      split at h
      · next c id hc hid =>
        split at h
        · next hkeyword => exact .inr (hc.trans (congrArg Slot.is hkeyword))
        · cases h
      · cases h
  rw [TagEntry.hits, Tag.meets, he]
  rcases hfirst with hfirst | hfirst <;> rw [hfirst] <;> rfl

/-! ## Constructs that end at boundaries -/

/-- The pattern begins with an entry that needs a hit. Its last entry collects the tokens up to a
reserved symbol and has the guard for boundaries. -/
structure Bounded (p : Pattern) (last : TagEntry) : Prop where
  demanding : p.Demanding
  ends : p.entries.getLast? = some last
  mode : last.mode = .collect
  guard : last.guard = some crossesBoundary
  target : last.target.first = .is Category.reserved.value

theorem bounded_declaration (kind : Tag) : ∃ last, Bounded (declaration kind) last :=
  ⟨_, ⟨_, _, rfl, rfl⟩, rfl, rfl, rfl, rfl⟩

theorem bounded_assignment (operator : Symbol) : ∃ last, Bounded (assignment operator) last :=
  ⟨_, ⟨_, _, rfl, rfl⟩, rfl, rfl, rfl, rfl⟩

/-- The automata that collect up to a boundary, each with the perspective that its pass writes. -/
def boundedNames : List (String × String) :=
  [("layer0", "wiredecs"), ("layer0", "regdecs"), ("layer0", "genvars"),
    ("layer0", "localparams"), ("layer0", "ports"), ("layer0", "parameters"),
    ("layer0", "assigns"), ("layer1", "nonblocking"), ("layer1", "blocking")]

theorem exists_bounded {entry : String × String} (h : entry ∈ boundedNames) :
    ∃ stage ∈ stages, stage.output = entry.1 ∧ ∃ c ∈ stage.constructs, c.name = entry.2 ∧
      ∃ last, Bounded c.pattern last := by
  have first : statements ∈ stages := List.mem_cons_self
  have second : assignments ∈ stages := List.mem_cons_of_mem _ List.mem_cons_self
  have construct {stage : Stage} (hstage : stage ∈ stages) (i : Nat) {c : Construct}
      (hc : stage.constructs[i]? = some c) (hentry : entry = (stage.output, c.name))
      (hbounded : ∃ last, Bounded c.pattern last) :
      ∃ stage ∈ stages, stage.output = entry.1 ∧ ∃ c ∈ stage.constructs, c.name = entry.2 ∧
        ∃ last, Bounded c.pattern last := by
    subst hentry
    exact ⟨stage, hstage, rfl, c, List.mem_of_getElem? hc, rfl, hbounded⟩
  simp only [boundedNames, List.mem_cons, List.not_mem_nil, or_false] at h
  rcases h with h | h | h | h | h | h | h | h | h
  · exact construct first 9 rfl h (bounded_declaration _)
  · exact construct first 10 rfl h (bounded_declaration _)
  · exact construct first 11 rfl h (bounded_declaration _)
  · exact construct first 12 rfl h (bounded_declaration _)
  · exact construct first 13 rfl h ⟨_, ⟨_, _, rfl, rfl⟩, rfl, rfl, rfl, rfl⟩
  · exact construct first 14 rfl h ⟨_, ⟨_, _, rfl, rfl⟩, rfl, rfl, rfl, rfl⟩
  · exact construct first 15 rfl h ⟨_, ⟨_, _, rfl, rfl⟩, rfl, rfl, rfl, rfl⟩
  · exact construct second 0 rfl h (bounded_assignment _)
  · exact construct second 1 rfl h (bounded_assignment _)

/-! ## The automata of a parser -/

def ParserPass.names (pass : ParserPass) : List String := pass.grouper.automata.map (·.name)

theorem ParserPass.names_renew (pass : ParserPass) : pass.renew.names = pass.names := by
  rw [names, renew, Grouper.renew, List.map_map]
  rfl

namespace Parser

variable {p : Parser}

theorem Used.after (h : p.Used) (sources : List Source) : (p.after sources).Used := by
  induction sources generalizing p with
  | nil => exact h
  | cons source rest ih =>
    obtain ⟨schedules, ho⟩ := p.exists_parseUnder source
    exact ih (.parse h ho)

/-- The passes of a parser are those of a new one, but for the past of their automata. -/
theorem Used.renew_passes (h : p.Used) :
    p.passes.map ParserPass.renew = stages.map fun stage =>
      ParserPass.renew ⟨stage.input, stage.output, stage.grouper newTokenizer⟩ := by
  obtain ⟨fresh, hfresh, hsame⟩ := h.exists_new
  cases hfresh.symm.trans (build_eq p.parallel)
  obtain ⟨-, hpasses, -⟩ := Parser.mk.inj hsame
  exact hpasses.trans (List.map_map ..)

/-- No two automata of a parser have the same name. -/
theorem Used.names (h : p.Used) : (p.passes.flatMap ParserPass.names).Nodup := by
  have hnames : p.passes.flatMap ParserPass.names
      = stages.flatMap fun stage => stage.constructs.map (·.name) :=
    calc p.passes.flatMap ParserPass.names
        = (p.passes.map ParserPass.renew).flatMap ParserPass.names := by
          rw [List.flatMap_map]
          exact List.flatMap_congr fun pass _ => (ParserPass.names_renew pass).symm
      _ = stages.flatMap fun stage => stage.constructs.map (·.name) := by
          rw [h.renew_passes, List.flatMap_map]
          refine List.flatMap_congr fun stage _ => ?_
          rw [ParserPass.names_renew, ParserPass.names, (grouper_eq stage newTokenizer).1,
            List.map_map]
          rfl
  rw [hnames]
  decide

/-- Each construct of a stage is run by an automaton of its pass. -/
theorem Used.exists_automaton (h : p.Used) {stage : Stage} (hstage : stage ∈ stages)
    {c : Construct} (hc : c ∈ stage.constructs) :
    ∃ pass ∈ p.passes, pass.output = stage.output ∧ ∃ a ∈ pass.grouper.automata,
      a.name = c.name ∧ a.pattern = c.pattern := by
  have hmem : ParserPass.renew ⟨stage.input, stage.output, stage.grouper newTokenizer⟩
      ∈ p.passes.map ParserPass.renew := by
    rw [h.renew_passes]
    exact List.mem_map_of_mem hstage
  obtain ⟨pass, hpass, hsame⟩ := List.mem_map.mp hmem
  obtain ⟨-, houtput, hgrouper⟩ := ParserPass.mk.inj hsame
  have hautomata : pass.grouper.automata.map Automaton.renew
      = (stage.grouper newTokenizer).automata.map Automaton.renew :=
    congrArg Grouper.automata hgrouper
  have hnew : (Automaton.new c.name c.tag c.pattern).renew
      ∈ pass.grouper.automata.map Automaton.renew := by
    rw [hautomata, (grouper_eq stage newTokenizer).1, List.map_map]
    exact List.mem_map_of_mem hc
  obtain ⟨a, ha, hrenew⟩ := List.mem_map.mp hnew
  exact ⟨pass, hpass, houtput, a, ha, congrArg Automaton.name hrenew,
    congrArg Automaton.pattern hrenew⟩

end Parser

/-! ## Diagnostics of a parse -/

section Diagnostics

variable {source : Source} {steps : List PassStep} {groups : List (List Diagnostic)}
  {token : Token}

/-- No diagnostic rejects a token in a name that no automaton has. -/
theorem filter_groups_eq_nil (hall : List.Forall₂ PassStep.Emits steps groups)
    (hof : ∀ s ∈ steps, ∀ t ∈ s.tokens, t.IsOf source) (htoken : token.IsOf source)
    {name : String} (hname : name ∉ steps.flatMap (·.pass.names)) :
    groups.flatten.filter (·.rejects token name) = [] := by
  induction hall with
  | nil => rfl
  | cons hfirst _ ih =>
    rw [List.flatMap_cons, List.mem_append, not_or] at hname
    obtain ⟨hto, htos⟩ := List.forall_mem_cons.mp hof
    obtain ⟨schedule, hended, rfl⟩ := hfirst
    rw [List.flatten_cons, List.filter_append, ih htos hname.2,
      Grouper.filter_shown_eq_nil hended hto htoken hname.1, List.nil_append]

/-- The diagnostics that reject a token of a stream in the name of an automaton are what the
automaton has reported when it was fed the token. -/
theorem filter_groups (hall : List.Forall₂ PassStep.Emits steps groups)
    (hnames : (steps.flatMap (·.pass.names)).Nodup)
    (hordered : ∀ s ∈ steps, Token.Ordered source s.tokens)
    (hof : ∀ s ∈ steps, ∀ t ∈ s.tokens, t.IsOf source) {s : PassStep} (hs : s ∈ steps)
    {a : Automaton} (ha : a ∈ s.pass.grouper.automata) {n : Nat}
    (htoken : s.tokens[n]? = some token) :
    groups.flatten.filter (·.rejects token a.name)
      = (((a.reset.after s.pass.grouper.pairs (s.tokens.take n)).feed n token
          s.pass.grouper.pairs).2.toOption.join.toList).map (Grouper.mismatchWarning token) := by
  have hname : a.name ∈ s.pass.names := List.mem_map_of_mem ha
  have hisOf : token.IsOf source := hof s hs token (List.mem_of_getElem? htoken)
  induction hall with
  | nil => cases hs
  | @cons first ds rest groups hfirst hrest ih =>
    rw [List.flatMap_cons, List.nodup_append] at hnames
    obtain ⟨hunique, hothers, hapart⟩ := hnames
    obtain ⟨hord, hords⟩ := List.forall_mem_cons.mp hordered
    obtain ⟨hto, htos⟩ := List.forall_mem_cons.mp hof
    obtain ⟨schedule, hended, rfl⟩ := hfirst
    rw [List.flatten_cons, List.filter_append]
    -- one pass has the automaton, and no other has one of its name
    rcases List.mem_cons.mp hs with rfl | hlater
    · rw [filter_groups_eq_nil hrest htos hisOf fun hmem => hapart _ hname _ hmem rfl,
        Grouper.filter_shown hended hunique ha hord hto htoken, List.append_nil]
    · have hmem : a.name ∈ rest.flatMap (·.pass.names) :=
        List.mem_flatMap_of_mem hlater hname
      rw [ih hothers hords htos hlater, Grouper.filter_shown_eq_nil hended hto hisOf
        fun hmem' => hapart _ hmem' _ hmem rfl, List.nil_append]

end Diagnostics

/-! ## The law of boundaries -/

section Automata

variable {pairs : PairTable} {tokens : List Token} {a b : Automaton} {last : TagEntry} {n : Nat}
  {token : Token}

theorem Bounded.trips (h : Bounded a.pattern last) (hboundary : Boundary token)
    (hc : b.attempt.cursor.current? = some last) : b.TripsCollect token last where
  current := hc
  mode := h.mode
  misses := hboundary.misses h.target
  guard := by
    rw [TagEntry.guardHolds, h.guard]
    exact boundary_iff.mp hboundary

/-- What the last entry has taken is no boundary. -/
theorem Bounded.not_boundary (h : Bounded a.pattern last) (ht : tokens[n]? = some token)
    (htaken : Automaton.TakenBy pairs a.reset tokens n last) : ¬Boundary token := by
  intro hboundary
  obtain ⟨token', ht', htakes⟩ := htaken
  cases ht.symm.trans ht'
  have hdemanding : a.reset.pattern.Demanding := h.demanding
  have hpattern := Automaton.pattern_after pairs a.reset (tokens.take n)
  rcases Automaton.collects_of_takes htakes (by rw [hpattern]; exact hdemanding)
    (Automaton.begun_after hdemanding (.inl rfl) _)
    (Automaton.sound_after pairs a.sound_reset _) h.mode with hhit | hguard
  · rw [hboundary.misses h.target] at hhit
    cases hhit
  · rw [TagEntry.guardHolds, h.guard] at hguard
    cases hguard.symm.trans (boundary_iff.mp hboundary)

end Automata

/-- Statements end before blocks. In a parse, whatever its schedules and whatever the parser has
parsed before, the last entries of declarations, ports, parameters and assignments take no boundary.
A boundary that is offered to such an entry ends an attempt that has taken tokens. None of them is
in a match, and of all diagnostics of the parse exactly one rejects the boundary in the name of the
automaton. -/
theorem collects_stop_at_boundaries (parallel : Bool) (earlier : List Source) (source : Source) :
    ∃ parser out, Parser.build parallel = .ok parser ∧
      ∀ o, (o = (parser.after earlier).parse source ∨
          ∃ schedules, (parser.after earlier).ParseUnder schedules source o) →
        o.result = .ok out ∧
        ∀ entry ∈ boundedNames, ∃ pass ∈ (parser.after earlier).passes,
          ∃ a ∈ pass.grouper.automata, ∃ last tokens,
          pass.output = entry.1 ∧ a.name = entry.2 ∧ a.pattern.entries.getLast? = some last ∧
          last.mode = .collect ∧ pass.grouper.stream out.text pass.input = .ok tokens ∧
          (∃ result ∈ out.passes, result.layer = pass.output ∧
            result.found.get? a.name = some ⟨a.tag, a.found pass.grouper.pairs tokens⟩) ∧
          (∀ run ∈ a.runs pass.grouper.pairs tokens, ∀ n ∈ run, ∃ token, tokens[n]? = some token ∧
            (∃ e, Automaton.TakenBy pass.grouper.pairs a.reset tokens n e) ∧
            (Automaton.TakenBy pass.grouper.pairs a.reset tokens n last → ¬Boundary token)) ∧
          ∀ n token b, tokens[n]? = some token → Boundary token →
            Automaton.Offered pass.grouper.pairs n token
              (a.reset.after pass.grouper.pairs (tokens.take n)) b →
            b.attempt.cursor.current? = some last →
            b.attempt.buffer ≠ #[] ∧
            (∀ run ∈ a.runs pass.grouper.pairs tokens, ∀ i ∈ b.attempt.buffer, i ∉ run) ∧
            o.emitted.filter (·.rejects token a.name)
              = [Grouper.mismatchWarning token ⟨a.name, n, last.target⟩] := by
  obtain ⟨parser, hbuild, hready⟩ := build_ok parallel
  have hused : (parser.after earlier).Used := (Parser.Used.build hbuild).after earlier
  have hafter := hready.after earlier
  obtain ⟨text, out, steps, hsource, hsteps, hunder⟩ := Parser.exists_steps hafter source
  refine ⟨parser, out, hbuild, fun o ho => ?_⟩
  obtain ⟨schedules, hparse⟩ :
      ∃ schedules, (parser.after earlier).ParseUnder schedules source o := by
    rcases ho with rfl | ho
    · exact (parser.after earlier).exists_parseUnder source
    · exact ho
  obtain ⟨hresult, groups, hemitted, hall⟩ := hunder _ schedules o hparse
  refine ⟨hresult, fun entry hentry => ?_⟩
  obtain ⟨stage, hstage, houtput, c, hc, hname, last, hbounded⟩ := exists_bounded hentry
  obtain ⟨pass, hpass, hpassOutput, a, ha, haname, hapattern⟩ := hused.exists_automaton hstage hc
  rw [← hapattern] at hbounded
  have hnames := hused.names
  have hclosed := hafter.closed pass hpass
  rw [← hsteps.order] at hpass hnames
  obtain ⟨s, hs, rfl⟩ := List.mem_map.mp hpass
  rw [List.flatMap_map] at hnames
  have hend := Lane.alone_ended_of_closers s.tokens (hclosed a ha)
  refine ⟨s.pass, by rw [← hsteps.order]; exact hpass, a, ha, last, s.tokens,
    hpassOutput.trans houtput, haname.trans hname, hbounded.ends, hbounded.mode,
    (hsteps.seen s hs).stream, ?found, ?taken, ?stopped⟩
  case found =>
    refine ⟨s.result, ?_, rfl, s.get?_result ((List.nodup_flatMap.mp hnames).1 s hs) ha⟩
    rw [hsteps.found]
    exact List.mem_append_right _ (List.mem_map_of_mem hs)
  case taken =>
    intro run hrun n hn
    have hmem : n ∈ (a.runs s.pass.grouper.pairs s.tokens).flatten :=
      List.mem_flatten_of_mem hrun hn
    have hlt := List.mem_range.mp ((Automaton.runs_of_ended hend).1.subset hmem)
    have hget : s.tokens[n]? = some s.tokens[n] := List.getElem?_eq_getElem hlt
    refine ⟨s.tokens[n], hget, ?_, hbounded.not_boundary hget⟩
    exact Automaton.exists_takes rfl
      ((Automaton.used_finish _).subset (List.mem_append_left _ hmem))
  case stopped =>
    intro n token b htoken hboundary hoffered hcurrent
    have hstops : Automaton.StopsAt s.pass.grouper.pairs a.reset s.tokens n token b last :=
      ⟨htoken, hoffered, hbounded.trips hboundary hcurrent⟩
    obtain ⟨hbuffer, hfeed, -⟩ := hstops.feed hbounded.demanding
    refine ⟨hbuffer, fun run hrun i hi hmem => ?_, ?_⟩
    · refine hstops.notMem_used hbounded.demanding hi (List.mem_append_left _ ?_)
      exact List.mem_flatten_of_mem hrun hmem
    · have hstream (s : PassStep) (hs : s ∈ steps) := (hsteps.seen s hs).stream
      rw [hemitted, filter_groups hall hnames
        (fun s hs => Grouper.ordered_stream hsteps.sound (hstream s hs))
        (fun s hs t ht => Grouper.isOf_stream hsteps.sound (hstream s hs) ht) hs ha htoken, hfeed]
      rfl

/-- A declaration that is never ended. -/
def openWire : Source := ⟨"open.v", "wire a begin".toList⟩

/-- The tokens of `openWire` that the first pass reads. -/
def openWireTokens : List Token :=
  [⟨Keyword.wire.tag, "wire".toList, ⟨0, 4⟩⟩, ⟨blank, [' '], ⟨4, 5⟩⟩, ⟨name, ['a'], ⟨5, 6⟩⟩,
    ⟨blank, [' '], ⟨6, 7⟩⟩, ⟨Keyword.blockBegin.tag, "begin".toList, ⟨7, 12⟩⟩]

/-- The declaration has taken four tokens when it comes to `begin`, which is then reported once. -/
theorem collects_stop_at_boundaries_openWire :
    let token : Token := ⟨Keyword.blockBegin.tag, "begin".toList, ⟨7, 12⟩⟩
    Boundary token ∧ ∃ parser, Parser.build false = .ok parser ∧
      (parser.parse openWire).emitted.filter (·.rejects token "wiredecs")
        = [Grouper.mismatchWarning token ⟨"wiredecs", 4, Symbol.semicolon.tag⟩] := by
  intro token
  have hboundary : Boundary token := boundary_iff.mpr (by decide)
  obtain ⟨parser, out, hbuild, hparse⟩ := collects_stop_at_boundaries false [] openWire
  cases hbuild.symm.trans (build_eq false)
  obtain ⟨hresult, hall⟩ := hparse _ (.inl rfl)
  obtain ⟨pass, hpass, a, ha, last, tokens, houtput, hname, hlast, -, hstream, -, -, hstop⟩ :=
    hall ("layer0", "wiredecs") List.mem_cons_self
  -- the pass, the automaton and the tokens are the ones that we expect
  have hfirst : pass = ⟨"keywords", "layer0", statements.grouper newTokenizer⟩ := by
    have hnodup : ((newParser false).passes.map (·.output)).Nodup := by decide
    exact List.inj_on_of_nodup_map hnodup hpass List.mem_cons_self houtput
  subst hfirst
  have hautomaton : a = .new "wiredecs" Statement.wires.tag (declaration Keyword.wire.tag) := by
    have hnodup : ((statements.grouper newTokenizer).automata.map (·.name)).Nodup := by decide
    have hmem : (statements.grouper newTokenizer).automata[9]?
      = some (.new "wiredecs" Statement.wires.tag (declaration Keyword.wire.tag)) := rfl
    exact List.inj_on_of_nodup_map hnodup ha (List.mem_of_getElem? hmem) hname
  subst hautomaton
  cases hlast
  have htokens : tokens = openWireTokens := by
    have hexpected : ((newParser false).parse openWire).result.toOption.bind (fun out =>
        ((statements.grouper newTokenizer).stream out.text "keywords").toOption)
          = some openWireTokens := by
      decide +kernel
    rw [show ((newParser false).parse openWire).result = .ok out from hresult] at hexpected
    have hread : ((statements.grouper newTokenizer).stream out.text "keywords").toOption
        = some openWireTokens := hexpected
    rw [hstream] at hread
    exact Option.some.inj hread
  subst htokens
  have hcurrent : ((Automaton.new "wiredecs" Statement.wires.tag
      (declaration Keyword.wire.tag)).reset.after symbolPairs
        (openWireTokens.take 4)).attempt.cursor.current?
      = some ⟨Symbol.semicolon.tag, .collect, some crossesBoundary⟩ := by
    cbv
  exact ⟨hboundary, _, build_eq false, (hstop 4 token _ rfl hboundary .first hcurrent).2.2⟩

end TagLayers.Verilog
