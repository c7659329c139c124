import TagLayers.Proofs.Verilog.Passes

/-!
# Parses coarsen

A scan never splits a token: what it writes ends only where its input has ended. So each layer of a
parse is made of runs of whole tokens of the layer below, down to the tokens of the tokenizer.

Results:
1. `Steps.runsOf`: the layers of a parse.
2. `passes_coarsen`: scans, and the layers of parses.
-/

namespace TagLayers.Verilog

/-- Each pass has made runs of the tokens that it has read. -/
theorem Steps.runsOf {text : TaggedText} {done : List PassResult} {passes : List ParserPass}
    {out : ParseOutput} {steps : List PassStep} (h : Steps text done passes out steps)
    {pass : ParserPass} (hpass : pass ∈ passes) :
    ∃ fine coarse, out.text.tokens pass.input = .ok fine ∧
      out.text.tokens pass.output = .ok coarse ∧ Token.RunsOf fine coarse := by
  rw [← h.order] at hpass
  obtain ⟨s, hs, rfl⟩ := List.mem_map.mp hpass
  exact (h.seen s hs).coarser.runsOf h.sound h.sound rfl

/-- Scans and parses only coarsen. However the matches of a scan overlap, its output starts and
stops only where its input did before the scan, so each token of the output is a run of whole tokens
of the input joined, and no token is split. Hence the tokens of each layer of a parse are runs of
those of the layer below it. -/
theorem passes_coarsen :
    (∀ (g : Grouper) (text : TaggedText), text.Reachable → ∀ (input output : String)
      (o : ScanOutcome), o = g.scan text input output ∨ o = g.scanParallel text input output →
      ∀ found, o.result = .ok found →
        (∃ before after, text.perspectives.get? input = some before ∧
          o.text.perspectives.get? output = some after ∧
          Interval.EndsIn (Interval.Bound before.intervals) after.intervals) ∧
        ∃ fine coarse, text.tokens input = .ok fine ∧ o.text.tokens output = .ok coarse ∧
          Token.RunsOf fine coarse) ∧
    ∀ (parallel : Bool) (earlier : List Source) (source : Source),
      ∃ parser out, Parser.build parallel = .ok parser ∧
        ((parser.after earlier).parse source).result = .ok out ∧
        ∀ route ∈ [("keywords", "layer0"), ("layer0", "layer1"), ("layer1", "layer2")],
          ∃ fine coarse, out.text.tokens route.1 = .ok fine ∧
            out.text.tokens route.2 = .ok coarse ∧ Token.RunsOf fine coarse := by
  constructor
  · intro g text ht input output o ho found hok
    obtain ⟨groups, hgroups, rfl⟩ : ∃ groups, groups.flatten = g.automata ∧
        o = g.scanIn groups text input output := by
      rcases ho with rfl | rfl
      · exact ⟨_, List.append_nil _, rfl⟩
      · exact ⟨_, List.flatMap_singleton' _, rfl⟩
    have houtcome : g.Outcome text input output _ := Grouper.outcome_scanIn hgroups
    obtain ⟨hcoarser, hsource⟩ := Grouper.coarser_outcome ht.sound houtcome hok
    have hsound := (Grouper.reachable_scanIn g groups ht input output).sound
    exact ⟨hcoarser, hcoarser.runsOf ht.sound hsound hsource⟩
  · intro parallel earlier source
    obtain ⟨parser, hbuild, hready⟩ := build_ok parallel
    have hafter := hready.after earlier
    obtain ⟨text, out, steps, -, hsteps, hunder⟩ := Parser.exists_steps hafter source
    obtain ⟨schedules, hparse⟩ := (parser.after earlier).exists_parseUnder source
    refine ⟨parser, out, hbuild, (hunder _ schedules _ hparse).1, fun route hroute => ?_⟩
    replace hroute : route ∈ (parser.after earlier).passes.map ParserPass.route := by
      rw [hafter.routes]
      exact hroute
    obtain ⟨pass, hpass, rfl⟩ := List.mem_map.mp hroute
    exact hsteps.runsOf hpass

/-- Three tokens, of which a match joins the first two. -/
theorem passes_coarsen_nestedGrouper :
    ∃ fine coarse, Grouper.markedText.tokens "top" = .ok fine ∧
      (Grouper.nestedGrouper.scan Grouper.markedText "top" "out").text.tokens "out" = .ok coarse ∧
      Token.RunsOf fine coarse ∧ fine.length = 3 ∧
      coarse.map (·.text) = [['a', 'b'], ['c']] := by
  have hok : (Grouper.nestedGrouper.scan Grouper.markedText "top" "out").result.toOption.isSome
      = true := by
    decide +kernel
  have htexts : ((Grouper.nestedGrouper.scan Grouper.markedText "top" "out").text.tokens
      "out").toOption.map (·.map (·.text)) = some [['a', 'b'], ['c']] := by
    decide +kernel
  cases hfound : (Grouper.nestedGrouper.scan Grouper.markedText "top" "out").result with
  | error e =>
    rw [hfound] at hok
    cases hok
  | ok found =>
    obtain ⟨-, fine, coarse, hfine, hcoarse, hruns⟩ := passes_coarsen.1 Grouper.nestedGrouper
      Grouper.markedText Grouper.reachable_markedText "top" "out" _ (.inl rfl) found hfound
    have hmarked : Grouper.markedText.tokens "top" = .ok Grouper.markedTokens := rfl
    cases hfine.symm.trans hmarked
    rw [hcoarse] at htexts
    exact ⟨_, coarse, hmarked, hcoarse, hruns, rfl, Option.some.inj htexts⟩

end TagLayers.Verilog
