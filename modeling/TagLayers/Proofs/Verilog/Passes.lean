import TagLayers.Proofs.Grouping.Coarsening
import TagLayers.Proofs.Verilog.History

/-!
# Passes step by step

Passes that find their inputs come to their end under all schedules, and what they find and write
does not depend on the schedule. A step tells what one pass has read. What is read is not written
again, so a step can be told from the text that is left in the end: the tokens are those of the
input of the pass there, and the output ends only where the input does. The schedule decides in
which order the reports of the pass come, and nothing else.

Results:
1. `Grouper.exists_end`: one scan under all schedules.
2. `PassStep`, `exists_steps`: the steps of passes.
3. `Parser.exists_steps`: the steps of a parse.
-/

namespace TagLayers

namespace Grouper

variable {g : Grouper} {text text' : TaggedText} {input : String}

theorem stream_of_get?_eq (ht : text.Sound) (ht' : text'.Sound)
    (hsource : text'.source = text.source)
    (h : text'.perspectives.get? input = text.perspectives.get? input) :
    g.stream text' input = g.stream text input := by
  unfold stream
  cases hp : text.perspectives.get? input with
  | none =>
    rw [hp] at h
    rw [TaggedText.tokens_of_none h, TaggedText.tokens_of_none hp]
  | some p =>
    rw [hp] at h
    rw [TaggedText.tokens_eq h (ht' input p h), TaggedText.tokens_eq hp (ht input p hp), hsource]

theorem automata_of_ended {tokens : List Token} {schedule : List Nat}
    (h : ∀ lane ∈ (g.scanned tokens schedule).lanes, lane.phase = .ended) :
    (g.scanned tokens schedule).automata
      = g.automata.map fun a => (Lane.alone g.pairs tokens a).1.automaton := by
  rw [Scan.automata, lanes_of_halted fun lane hlane => Lane.halted_of_ended (h lane hlane),
    List.map_map]
  rfl

/-- Where each opener has a closer and the input is there, a scan comes to its end under all
schedules. What it writes and finds is the same under all of them. -/
theorem exists_end (hg : g.Closed) (ht : text.Sound) {p : Perspective}
    (hp : text.perspectives.get? input = some p) (output : String) :
    ∃ tokens after, g.stream text input = .ok tokens ∧ after.Fits text.source ∧
      Coarser text input (text.put output after) output ∧
      ∀ schedule o, g.OutcomeUnder text input output schedule o →
        (∀ lane ∈ (g.scanned tokens schedule).lanes, lane.phase = .ended) ∧
        o.result = .ok ((g.rows tokens).foldl (fun table row => table.insert row.1 row.2) {}) ∧
        o.text = text.put output after ∧
        o.emitted = Scan.shown tokens (g.scanned tokens schedule).log := by
  obtain ⟨tokens, hs⟩ : ∃ tokens, g.stream text input = .ok tokens := by
    rw [stream, TaggedText.tokens_eq hp (ht input p hp)]
    exact ⟨_, rfl⟩
  have hend {schedule : List Nat} {o : ScanOutcome}
      (ho : g.OutcomeUnder text input output schedule o) :
      (∀ lane ∈ (g.scanned tokens schedule).lanes, lane.phase = .ended) ∧
        o = g.conclude tokens (g.scanned tokens schedule).automata
          (Scan.shown tokens (g.scanned tokens schedule).log) text input output := by
    cases ho with
    | unread hs' => cases hs.symm.trans hs'
    | fault _ hlane hstop => exact absurd hstop (not_stopped hg hlane _)
    | ended hs' h =>
      cases hs.symm.trans hs'
      exact ⟨h, rfl⟩
  -- some schedule brings the automata to the end, and they come to the same in all of them
  have hscan : g.Outcome text input output (g.scan text input output) :=
    outcome_scanIn (List.append_nil _)
  obtain ⟨schedule₀, ho₀⟩ := outcome_iff.mp hscan
  obtain ⟨h₀, -⟩ := hend ho₀
  obtain ⟨before, after, -, hfits, hproject, -⟩ := project_scanned ht output hs h₀
  refine ⟨tokens, after, hs, hfits, coarser_scanned ht hs h₀ hproject, fun schedule o ho => ?_⟩
  obtain ⟨h, rfl⟩ := hend ho
  rw [automata_of_ended h₀, ← automata_of_ended h] at hproject
  rw [conclude, hproject]
  exact ⟨h, rfl, rfl, rfl⟩

end Grouper

namespace Verilog

/-- A pass with the tokens that it has read. -/
structure PassStep where
  pass : ParserPass
  tokens : List Token

namespace PassStep

/-- What the step has found. -/
def result (s : PassStep) : PassResult :=
  ⟨s.pass.output,
    (s.pass.grouper.rows s.tokens).foldl (fun table row => table.insert row.1 row.2) {}⟩

/-- Where no two automata have the same name, the matches of each are found under its name. -/
theorem get?_result (s : PassStep) (hnames : (s.pass.grouper.automata.map (·.name)).Nodup)
    {a : Automaton} (ha : a ∈ s.pass.grouper.automata) :
    s.result.found.get? a.name = some ⟨a.tag, a.found s.pass.grouper.pairs s.tokens⟩ := by
  have hrow : (a.name, (⟨a.tag, a.found s.pass.grouper.pairs s.tokens⟩ : MatchSet))
      ∈ s.pass.grouper.rows s.tokens := List.mem_map_of_mem ha
  have hrows : (s.pass.grouper.rows s.tokens).map (·.1)
      = s.pass.grouper.automata.map (·.name) := by
    rw [Grouper.rows, List.map_map]
    rfl
  rw [result, NameTable.get?_foldl_insert, filter_name_eq (by rwa [hrows]) hrow]
  rfl

/-- The diagnostics are those of the step under some schedule. -/
def Emits (s : PassStep) (ds : List Diagnostic) : Prop :=
  ∃ schedule, (∀ lane ∈ (s.pass.grouper.scanned s.tokens schedule).lanes, lane.phase = .ended) ∧
    ds = Scan.shown s.tokens (s.pass.grouper.scanned s.tokens schedule).log

/-- What is left of the step in a text: the input that it has read, and the output. -/
structure In (s : PassStep) (text : TaggedText) : Prop where
  stream : s.pass.grouper.stream text s.pass.input = .ok s.tokens
  coarser : Coarser text s.pass.input text s.pass.output

end PassStep

/-- The steps of passes over a text, when `done` had been found, and what the passes come to under
all schedules. -/
structure Steps (text : TaggedText) (done : List PassResult) (passes : List ParserPass)
    (out : ParseOutput) (steps : List PassStep) : Prop where
  sound : out.text.Sound
  source : out.text.source = text.source
  kept : ∀ name, name ∉ passes.map (·.output) →
    out.text.perspectives.get? name = text.perspectives.get? name
  order : steps.map (·.pass) = passes
  seen : ∀ s ∈ steps, s.In out.text
  found : out.passes = done ++ steps.map PassStep.result
  under : ∀ schedules o, PassesUnder schedules text done passes o →
    o.result = .ok out ∧ ∃ groups, o.emitted = groups.flatten ∧
      List.Forall₂ PassStep.Emits steps groups

/-- Passes that find their inputs, and of which none writes what has been read or written before,
have steps. -/
theorem exists_steps {names : List String} {passes : List ParserPass}
    (hfed : Tokenizer.Fed names (passes.map ParserPass.route)) (hapart : Apart passes)
    (hnodup : (passes.map (·.output)).Nodup) (hclosed : ∀ pass ∈ passes, pass.grouper.Closed)
    {text : TaggedText} (ht : text.Sound)
    (hnames : ∀ name ∈ names, (text.perspectives.get? name).isSome) (done : List PassResult) :
    ∃ out steps, Steps text done passes out steps := by
  induction passes generalizing names text done with
  | nil =>
    refine ⟨⟨text, done⟩, [], ?_⟩
    exact
      { sound := ht
        source := rfl
        kept := fun _ _ => rfl
        order := rfl
        seen := List.forall_mem_nil _
        found := (List.append_nil _).symm
        under := fun schedules o ho => by
          cases ho
          exact ⟨rfl, [], rfl, .nil⟩ }
  | cons pass rest ih =>
    have hinput : pass.input ∈ names := hfed.1
    have hfed : Tokenizer.Fed (names ++ [pass.output]) (rest.map ParserPass.route) := hfed.2
    obtain ⟨hself, hselves⟩ := List.forall_mem_cons.mp hapart.1
    obtain ⟨hlater, hrest⟩ := List.pairwise_cons.mp hapart.2
    obtain ⟨hfirst, hothers⟩ := List.forall_mem_cons.mp hclosed
    obtain ⟨hnew, hnodup⟩ := List.nodup_cons.mp hnodup
    obtain ⟨p, hp⟩ := Option.isSome_iff_exists.mp (hnames pass.input hinput)
    obtain ⟨tokens, after, hs, hfits, hcoarser, hunder⟩ :=
      Grouper.exists_end hfirst ht hp pass.output
    have hsound := ht.put pass.output hfits
    let step : PassStep := ⟨pass, tokens⟩
    obtain ⟨out, steps, hout⟩ := ih hfed ⟨hselves, hrest⟩ hnodup hothers hsound
      (TaggedText.isSome_put hnames pass.output after) (done ++ [step.result])
    -- the input and the output of the pass are still there after the passes that follow
    have hread : out.text.perspectives.get? pass.input = text.perspectives.get? pass.input := by
      have hnot : pass.input ∉ rest.map (·.output) := by
        intro hmem
        obtain ⟨later, hmem, hsame⟩ := List.mem_map.mp hmem
        exact hlater later hmem hsame
      rw [hout.kept pass.input hnot, TaggedText.get?_put, if_neg (Ne.symm hself)]
    have hstep : step.In out.text := by
      refine ⟨(Grouper.stream_of_get?_eq ht hout.sound hout.source hread).trans hs, ?_⟩
      unfold Coarser at hcoarser ⊢
      rw [hread, hout.kept pass.output hnew]
      exact hcoarser
    refine ⟨out, step :: steps, ?_⟩
    exact
      { sound := hout.sound
        source := hout.source
        kept := fun name hname => by
          obtain ⟨hne, hnot⟩ := not_or.mp (fun h => hname (List.mem_cons.mpr h))
          rw [hout.kept name hnot, TaggedText.get?_put, if_neg hne]
        order := congrArg (pass :: ·) hout.order
        seen := List.forall_mem_cons.mpr ⟨hstep, hout.seen⟩
        found := by
          rw [hout.found, List.append_assoc]
          rfl
        under := fun schedules o ho => by
          cases ho with
          | failed ho hresult =>
            obtain ⟨-, hok, -⟩ := hunder _ _ ho
            cases hok.symm.trans hresult
          | @passed schedule _ _ _ _ _ first result more ho hresult hmore =>
            obtain ⟨hended, hok, htext, hemitted⟩ := hunder _ _ ho
            cases hok.symm.trans hresult
            rw [htext] at hmore
            obtain ⟨hlast, groups, hgroups, hall⟩ := hout.under _ _ hmore
            refine ⟨hlast, first.emitted :: groups, ?_, .cons ⟨schedule, hended, hemitted⟩ hall⟩
            rw [hgroups, List.flatten_cons] }

namespace Parser

theorem Ready.nodup {p : Parser} (hp : p.Ready) : (p.passes.map (·.output)).Nodup := by
  rw [hp.outputs]
  decide

/-- A parse has steps, one for each pass. Its output and its steps depend neither on the schedules
of the passes nor on whether the automata run on their own. -/
theorem exists_steps {p : Parser} (hp : p.Ready) (source : Source) :
    ∃ text out steps, text.source = source ∧ Steps text [] p.passes out steps ∧
      ∀ parallel schedules o, ParseUnder { p with parallel } schedules source o →
        o.result = .ok out ∧ ∃ groups, o.emitted = groups.flatten ∧
          List.Forall₂ PassStep.Emits steps groups := by
  obtain ⟨text, htext, hsound, hsource, hnames⟩ := p.tokenizer.tokenize_ok source
  obtain ⟨out, steps, hsteps⟩ :=
    Verilog.exists_steps hp.fed hp.apart hp.nodup hp.closed hsound hnames []
  refine ⟨text, out, steps, hsource, hsteps, fun parallel schedules o ho => ?_⟩
  cases ho with
  | unread htext' => cases htext.symm.trans htext'
  | run htext' hpasses =>
    cases htext.symm.trans htext'
    exact hsteps.under _ _ hpasses

end Parser

end Verilog

end TagLayers
