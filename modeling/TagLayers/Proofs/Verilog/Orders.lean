import TagLayers.Proofs.Diagnostic.Sorting
import TagLayers.Proofs.Grouping.Orders
import TagLayers.Proofs.Verilog.Passes

/-!
# Orders of diagnostics

Whether or not the automata of each pass run on their own, a parse gives the same output. What it
emits is made of the same rows, one for each automaton of each pass, and the passes come one after
the other. So what is taken out of a sink has the same spans, and can only differ in the order of
diagnostics that two automata of one pass have emitted about one span. There it does differ.

Results:
1. `perm_of_interleaves`, `filter_of_interleaves`: the diagnostics of the steps of a parse.
2. `parses_interleave`: the law of orders.
3. `parses_depend_on_order`: a source with two orders.
-/

namespace TagLayers.Verilog

/-- The warnings of each automaton of the pass. -/
def PassStep.warnings (s : PassStep) : List (List Diagnostic) := s.pass.grouper.warnings s.tokens

theorem PassStep.Emits.interleaves {s : PassStep} {ds : List Diagnostic} (h : s.Emits ds) :
    Interleaves s.warnings ds := by
  obtain ⟨schedule, hended, rfl⟩ := h
  exact Grouper.interleaves_shown hended

/-- No two automata of the pass have warned about the same span. -/
def PassStep.Apart (s : PassStep) : Prop :=
  s.warnings.Pairwise fun row row' => ∀ d ∈ row, ∀ d' ∈ row', d.span ≠ d'.span

section Groups

variable {steps : List PassStep} {groups : List (List Diagnostic)}

theorem perm_of_interleaves
    (h : List.Forall₂ (fun s group => Interleaves s.warnings group) steps groups) :
    groups.flatten.Perm (steps.flatMap (·.warnings.flatten)) := by
  induction h with
  | nil => exact .nil
  | cons hfirst _ ih =>
    rw [List.flatten_cons, List.flatMap_cons]
    exact hfirst.perm.append ih

/-- Where no two automata of a pass have warned about the same span, there is one order for each
span. -/
theorem filter_of_interleaves
    (h : List.Forall₂ (fun s group => Interleaves s.warnings group) steps groups)
    (hapart : ∀ s ∈ steps, s.Apart) (span : Span) :
    groups.flatten.filter (·.span == span)
      = (steps.flatMap (·.warnings.flatten)).filter (·.span == span) := by
  induction h with
  | nil => rfl
  | @cons s group steps groups hfirst _ ih =>
    obtain ⟨hone, hothers⟩ := List.forall_mem_cons.mp hapart
    have hrows : (s.warnings.map (·.filter (·.span == span))).Pairwise
        fun row row' => row = [] ∨ row' = [] := by
      refine List.pairwise_map.mpr (hone.imp fun {row row'} hrow => ?_)
      by_contra hno
      obtain ⟨hrow₁, hrow₂⟩ := not_or.mp hno
      obtain ⟨d, hd⟩ := List.exists_mem_of_ne_nil _ hrow₁
      obtain ⟨d', hd'⟩ := List.exists_mem_of_ne_nil _ hrow₂
      rw [List.mem_filter, beq_iff_eq] at hd hd'
      exact hrow d hd.1 d' hd'.1 (hd.2.trans hd'.2.symm)
    rw [List.flatten_cons, List.flatMap_cons, List.filter_append, List.filter_append, ih hothers,
      (hfirst.filter _).eq_flatten hrows, List.filter_flatten]

end Groups

/-- The report depends on the order in which the automata run in one respect only. Whether or not
they run on their own, and in whatever order, a parse gives the same output. What its sink holds are
the diagnostics of the passes, one pass after the other, and those of a pass are made of the
warnings of its automata, each in their own order. What is taken out has the same diagnostics, each
as often, and the same spans, and keeps the order of the diagnostics of each span. Where no two
automata of a pass have warned about the same span, it is the same. -/
theorem parses_interleave (source : Source) :
    ∃ (out : ParseOutput) (steps : List PassStep),
      (∀ s ∈ steps, s.pass.grouper.stream out.text s.pass.input = .ok s.tokens) ∧
      ∀ parallel, ∃ parser, Parser.build parallel = .ok parser ∧
        parser.passes = steps.map (·.pass) ∧
        ∀ o, (o = parser.parse source ∨ ∃ schedules, parser.ParseUnder schedules source o) →
          let sink := Sink.emitAll {} o.emitted
          let plain := Sink.sorted (steps.flatMap (·.warnings.flatten))
          o.result = .ok out ∧
          (∃ groups, sink.held = groups.flatten ∧
            List.Forall₂ (fun s group => Interleaves s.warnings group) steps groups) ∧
          sink.takeAll.2.Perm plain ∧ sink.takeAll.2.map (·.span) = plain.map (·.span) ∧
          (∀ span, sink.takeAll.2.filter (·.span == span) = sink.held.filter (·.span == span)) ∧
          ((∀ s ∈ steps, s.Apart) → sink.takeAll.2 = plain) := by
  obtain ⟨parser, hbuild, hready⟩ := build_ok false
  cases hbuild.symm.trans (build_eq false)
  obtain ⟨text, out, steps, -, hsteps, hunder⟩ := Parser.exists_steps hready source
  refine ⟨out, steps, fun s hs => (hsteps.seen s hs).stream, fun parallel =>
    ⟨newParser parallel, build_eq parallel, hsteps.order.symm, fun o ho => ?_⟩⟩
  obtain ⟨schedules, hparse⟩ : ∃ schedules, (newParser parallel).ParseUnder schedules source o := by
    rcases ho with rfl | ho
    · exact (newParser parallel).exists_parseUnder source
    · exact ho
  obtain ⟨hresult, groups, hemitted, hall⟩ := hunder parallel schedules o hparse
  have hinterleaves := hall.imp fun _ _ hemits => hemits.interleaves
  have hheld : (Sink.emitAll {} o.emitted).held = groups.flatten := by
    rw [Sink.emitAll_eq]
    exact hemitted
  intro sink plain
  have hperm : sink.held.Perm (steps.flatMap (·.warnings.flatten)) := by
    rw [hheld]
    exact perm_of_interleaves hinterleaves
  refine ⟨hresult, ⟨groups, hheld, hinterleaves⟩, ?_, Sink.map_span_sorted hperm,
    Sink.filter_sorted sink.held, fun hapart => Sink.sorted_eq_sorted fun span => ?_⟩
  · exact ((List.mergeSort_perm _ _).trans hperm).trans (List.mergeSort_perm _ _).symm
  · rw [hheld]
    exact filter_of_interleaves hinterleaves hapart span

/-- A declaration that is never ended. -/
def openRegister : Source := ⟨"open.v", "reg a begin".toList⟩

/-- In each pass one automaton warns about the declaration, so one order is taken out. -/
theorem parses_interleave_openRegister :
    ∃ sequential parallel, Parser.build false = .ok sequential ∧
      Parser.build true = .ok parallel ∧
      ∀ schedules o, parallel.ParseUnder schedules openRegister o →
        (Sink.emitAll {} o.emitted).takeAll.2
          = (Sink.emitAll {} (sequential.parse openRegister).emitted).takeAll.2 := by
  obtain ⟨out, steps, hstreams, hparse⟩ := parses_interleave openRegister
  obtain ⟨sequential, hfalse, hpasses, hsequential⟩ := hparse false
  obtain ⟨parallel, htrue, -, hparallel⟩ := hparse true
  obtain ⟨hresult, -, -, -, -, hplain⟩ := hsequential _ (.inl rfl)
  have hapart : ∀ s ∈ steps, s.Apart := by
    cases hfalse.symm.trans (build_eq false)
    have hall : ((newParser false).parse openRegister).result.toOption.all (fun out =>
        (newParser false).passes.all fun pass =>
          (pass.grouper.stream out.text pass.input).toOption.all fun tokens =>
            decide ((pass.grouper.warnings tokens).Pairwise
              fun row row' => ∀ d ∈ row, ∀ d' ∈ row', d.span ≠ d'.span)) = true := by
      decide +kernel
    intro s hs
    have hpass : s.pass ∈ (newParser false).passes := by
      rw [hpasses]
      exact List.mem_map_of_mem hs
    rw [show ((newParser false).parse openRegister).result = .ok out from hresult] at hall
    have hone := List.all_eq_true.mp hall s.pass hpass
    rw [hstreams s hs] at hone
    exact of_decide_eq_true (p := List.Pairwise _ _) hone
  refine ⟨sequential, parallel, hfalse, htrue, fun schedules o ho => ?_⟩
  obtain ⟨-, -, -, -, -, hplain'⟩ := hparallel o (.inr ⟨schedules, ho⟩)
  rw [hplain hapart, hplain' hapart]

/-! ## A source with two orders -/

theorem emitted_conclude (g : Grouper) (tokens : List Token) (automata : List Automaton)
    (ds : List Diagnostic) (text : TaggedText) (input output : String) :
    (g.conclude tokens automata ds text input output).emitted = ds := by
  rw [Grouper.conclude]
  split <;> rfl

/-- The first pass of a parse can follow any schedule. -/
theorem Parser.exists_parseUnder_first {p : Parser} {source : Source} {text : TaggedText}
    (htext : p.tokenizer.tokenize source = .ok text) {pass : ParserPass} {rest : List ParserPass}
    (hpasses : p.passes = pass :: rest) {schedule : List Nat} {first : ScanOutcome}
    (hfirst : pass.grouper.OutcomeUnder text pass.input pass.output schedule first) :
    ∃ schedules o later, p.ParseUnder schedules source o ∧ o.emitted = first.emitted ++ later := by
  cases hresult : first.result with
  | error e =>
    have hunder : ∃ o, PassesUnder [schedule] text [] p.passes o ∧ o.emitted = first.emitted := by
      rw [hpasses]
      exact ⟨_, .failed hfirst hresult, rfl⟩
    obtain ⟨o, ho, hemitted⟩ := hunder
    exact ⟨_, _, [], .run htext ho, hemitted.trans (List.append_nil _).symm⟩
  | ok found =>
    obtain ⟨schedules, hmore⟩ := exists_schedules p.parallel first.text
      ([] ++ [⟨pass.output, found⟩]) rest
    have hunder : ∃ o later, PassesUnder (schedule :: schedules) text [] p.passes o ∧
        o.emitted = first.emitted ++ later := by
      rw [hpasses]
      exact ⟨_, _, .passed hfirst hresult hmore, rfl⟩
    obtain ⟨o, later, ho, hemitted⟩ := hunder
    exact ⟨_, _, later, .run htext ho, hemitted⟩

/-- Two declarations that are never ended. -/
def openDeclarations : Source := ⟨"open.v", "wire a reg b begin".toList⟩

/-- The tokens of `openDeclarations` that the first pass reads. -/
def openDeclarationsTokens : List Token :=
  [⟨Keyword.wire.tag, "wire".toList, ⟨0, 4⟩⟩, ⟨blank, [' '], ⟨4, 5⟩⟩, ⟨name, ['a'], ⟨5, 6⟩⟩,
    ⟨blank, [' '], ⟨6, 7⟩⟩, ⟨Keyword.reg.tag, "reg".toList, ⟨7, 10⟩⟩, ⟨blank, [' '], ⟨10, 11⟩⟩,
    ⟨name, ['b'], ⟨11, 12⟩⟩, ⟨blank, [' '], ⟨12, 13⟩⟩,
    ⟨Keyword.blockBegin.tag, "begin".toList, ⟨13, 18⟩⟩]

/-- The automaton for registers comes to the end of the stream before any other moves. -/
def registersFirst : List Nat :=
  List.replicate 11 10 ++ (List.range 23).flatMap (List.replicate 11)

/-- Two automata warn about one token. Side by side the one registered first comes first; on its own
the other one may come first. -/
theorem parses_depend_on_order :
    ∃ sequential parallel schedules o, Parser.build false = .ok sequential ∧
      Parser.build true = .ok parallel ∧ parallel.ParseUnder schedules openDeclarations o ∧
      (Sink.emitAll {} o.emitted).held
        ≠ (Sink.emitAll {} (sequential.parse openDeclarations).emitted).held ∧
      (Sink.emitAll {} o.emitted).takeAll.2
        ≠ (Sink.emitAll {} (sequential.parse openDeclarations).emitted).takeAll.2 := by
  let token : Token := ⟨Keyword.blockBegin.tag, "begin".toList, ⟨13, 18⟩⟩
  let warning (name : String) : Diagnostic :=
    Grouper.mismatchWarning token ⟨name, 8, Symbol.semicolon.tag⟩
  have hread : (newTokenizer.tokenize openDeclarations >>= fun text =>
      (statements.grouper newTokenizer).stream text "keywords") = .ok openDeclarationsTokens := by
    decide +kernel
  obtain ⟨text, htext, hstream⟩ := bind_eq_ok.mp hread
  have hended : ∀ lane ∈ ((statements.grouper newTokenizer).scanned openDeclarationsTokens
      registersFirst).lanes, lane.phase = .ended := by
    decide +kernel
  have hshown : Scan.shown openDeclarationsTokens ((statements.grouper newTokenizer).scanned
      openDeclarationsTokens registersFirst).log = [warning "regdecs", warning "wiredecs"] := by
    decide +kernel
  have hsequential : ∃ later, ((newParser false).parse openDeclarations).emitted
      = warning "wiredecs" :: later := by
    refine ⟨((newParser false).parse openDeclarations).emitted.tail, ?_⟩
    decide +kernel
  obtain ⟨schedules, o, rest, ho, hemitted⟩ := Parser.exists_parseUnder_first
    (show (newParser true).tokenizer.tokenize openDeclarations = .ok text from htext)
    (show (newParser true).passes = ⟨"keywords", "layer0", statements.grouper newTokenizer⟩ :: _
      from rfl) (.ended hstream hended)
  rw [emitted_conclude, hshown] at hemitted
  obtain ⟨later, hlater⟩ := hsequential
  have hne : warning "regdecs" ≠ warning "wiredecs" := by decide
  refine ⟨newParser false, newParser true, schedules, o, build_eq false, build_eq true, ho,
    fun hheld => hne ?_, fun htaken => hne ?_⟩
  · rw [Sink.emitAll_eq, Sink.emitAll_eq] at hheld
    have hfirst : o.emitted = ((newParser false).parse openDeclarations).emitted := hheld
    rw [hemitted, hlater] at hfirst
    exact (List.cons.inj hfirst).1
  · rw [Sink.emitAll_eq, Sink.emitAll_eq] at htaken
    have hsorted : Sink.sorted o.emitted
        = Sink.sorted ((newParser false).parse openDeclarations).emitted := htaken
    rw [hemitted, hlater] at hsorted
    exact Sink.eq_of_sorted_eq rfl hsorted

end TagLayers.Verilog
