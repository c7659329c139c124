import TagLayers.Proofs.Grouping.Projection
import TagLayers.Proofs.Layer.Runs

/-!
# Scans coarsen

A match reaches from the start of a token to the stop of a token, and tagging makes no new ends but
those of the range. So however the matches of several automata overlap, and whatever tokens are
hidden within them, a projection ends only where the input of the scan ends, and each token of the
output is a run of whole tokens of the input.

Results:
1. `TaggedText.EndsIn.tag`, `TaggedText.EndsIn.tagAll`: calls.
2. `endsIn_project`: projections.
3. `Coarser`, `coarser_scanned`: scans that have come to their end.
4. `Coarser.runsOf`: the tokens of a coarser perspective.
-/

namespace TagLayers

namespace TaggedText

/-- In the perspective of this name all intervals start and stop at offsets with the property. -/
def EndsIn (P : Nat → Prop) (name : String) (text : TaggedText) : Prop :=
  ∀ p, text.perspectives.get? name = some p → Interval.EndsIn P p.intervals

variable {P : Nat → Prop} {text text' : TaggedText} {name : String} {label : Tag}

theorem endsIn_put {p : Perspective} (hp : Interval.EndsIn P p.intervals) :
    (text.put name p).EndsIn P name := by
  intro q hq
  rw [get?_put_self] at hq
  cases hq
  exact hp

theorem EndsIn.tag (h : text.EndsIn P name) {start stop : Nat} (hstart : P start) (hstop : P stop)
    (htag : text.tag name start stop label = .ok text') : text'.EndsIn P name := by
  obtain ⟨p, q, hp, -, hq, rfl⟩ := tag_eq_ok htag
  exact endsIn_put (Perspective.endsIn_tag (h p hp) hstart hstop hq)

theorem EndsIn.tagAll (h : text.EndsIn P name) {spans : List Span}
    (hspans : ∀ s ∈ spans, P s.start ∧ P s.stop)
    (htag : text.tagAll name spans label = .ok text') : text'.EndsIn P name := by
  rw [tagAll_eq_foldlM] at htag
  refine foldlM_invariant_of_mem (fun s hs b c hb hc => ?_) h htag
  exact hb.tag (hspans s hs).1 (hspans s hs).2 hc

end TaggedText

/-- The perspective `output` ends only where the perspective `input` of `earlier` does. -/
def Coarser (earlier : TaggedText) (input : String) (text : TaggedText) (output : String) : Prop :=
  ∃ before after, earlier.perspectives.get? input = some before ∧
    text.perspectives.get? output = some after ∧
    Interval.EndsIn (Interval.Bound before.intervals) after.intervals

/-- The tokens of the one perspective are runs of those of the other. -/
theorem Coarser.runsOf {earlier text : TaggedText} {input output : String}
    (h : Coarser earlier input text output) (hearlier : earlier.Sound) (ht : text.Sound)
    (hsource : text.source = earlier.source) :
    ∃ fine coarse, earlier.tokens input = .ok fine ∧ text.tokens output = .ok coarse ∧
      Token.RunsOf fine coarse := by
  obtain ⟨before, after, hbefore, hafter, hends⟩ := h
  have hfine := hearlier input before hbefore
  have hcoarse := ht output after hafter
  refine ⟨_, _, TaggedText.tokens_eq hbefore hfine, TaggedText.tokens_eq hafter hcoarse, ?_⟩
  rw [hsource] at hcoarse ⊢
  exact hfine.runsOf hcoarse hends

namespace Grouper

variable {g : Grouper} {text text' : TaggedText} {input output : String} {schedule : List Nat}

/-- A projection has the ends of its input and those of the matches. -/
theorem endsIn_project {P : Nat → Prop} {tokens : Array Token} {automata : List Automaton}
    {found : ScanResult} (hinput : text.EndsIn P input)
    (hmatches : ∀ row ∈ automata.map fun a => (a.name, matchesOf tokens a),
      ∀ m ∈ row.2.found, P m.span.start ∧ P m.span.stop)
    (h : project tokens automata text input output = .ok (text', found)) :
    text'.EndsIn P output := by
  obtain ⟨copied, hcopy, hrest⟩ := bind_eq_ok.mp h
  obtain ⟨tagged, htags, hsame⟩ := bind_eq_ok.mp hrest
  cases hsame
  obtain ⟨p, hp, rfl⟩ := TaggedText.copy_eq_ok.mp hcopy
  refine foldlM_invariant_of_mem (fun row hrow b c hb hc => ?_)
    (TaggedText.endsIn_put (hinput p hp)) htags
  exact hb.tagAll (List.forall_mem_map.mpr (hmatches row hrow)) hc

/-- The match of an automaton starts where a token of the stream starts, and stops where one
stops. -/
theorem bound_of_match (ht : text.Sound) {tokens : List Token} {before : Perspective}
    (hbefore : text.perspectives.get? input = some before)
    (hs : g.stream text input = .ok tokens) {a : Automaton}
    (hend : (Lane.alone g.pairs tokens a).1.phase = .ended) {m : Match}
    (hm : m ∈ a.found g.pairs tokens) :
    Interval.Bound before.intervals m.span.start ∧ Interval.Bound before.intervals m.span.stop := by
  have hbound (t : Token) (htoken : t ∈ tokens) : ∃ iv ∈ before.intervals, iv.span = t.span := by
    obtain ⟨p, hp, rfl⟩ := stream_eq_ok ht hs
    cases hbefore.symm.trans hp
    obtain ⟨iv, hiv, rfl⟩ := List.mem_map.mp (List.mem_filter.mp htoken).1
    exact ⟨iv, hiv, rfl⟩
  have hsub : m.tokens.Sublist tokens :=
    (List.sublist_flatten_of_mem (List.mem_map_of_mem hm)).trans (Automaton.tokens_found hend)
  obtain ⟨hordered, hne⟩ := Automaton.ordered_found (ordered_stream ht hs) hend hm
  obtain ⟨first, hfirst, last, hlast, hspan, -⟩ := Match.span_of_ordered hordered hne
  obtain ⟨iv, hiv, hivspan⟩ := hbound first (hsub.subset hfirst)
  obtain ⟨jv, hjv, hjvspan⟩ := hbound last (hsub.subset hlast)
  rw [hspan]
  exact ⟨⟨iv, hiv, .inl (by rw [hivspan])⟩, ⟨jv, hjv, .inr (by rw [hjvspan])⟩⟩

/-- At the end of the stream the projection ends only where the input ends. -/
theorem coarser_scanned (ht : text.Sound) {tokens : List Token}
    (hs : g.stream text input = .ok tokens)
    (h : ∀ lane ∈ (g.scanned tokens schedule).lanes, lane.phase = .ended)
    {found : ScanResult} (hproject : project tokens.toArray (g.scanned tokens schedule).automata
      text input output = .ok (text', found)) : Coarser text input text' output := by
  obtain ⟨before, after, hbefore, -, hok, -⟩ := project_scanned ht output hs h
  cases hproject.symm.trans hok
  refine ⟨before, after, hbefore, TaggedText.get?_put_self _ _ _, ?_⟩
  refine endsIn_project (fun p hp => ?_) (fun row hrow m hm => ?_) hproject after
    (TaggedText.get?_put_self _ _ _)
  · cases hbefore.symm.trans hp
    exact fun iv hiv => ⟨⟨iv, hiv, .inl rfl⟩, ⟨iv, hiv, .inr rfl⟩⟩
  · rw [rows_scanned h] at hrow
    obtain ⟨a, ha, rfl⟩ := List.mem_map.mp hrow
    exact bound_of_match ht hbefore hs (alone_ended h ha) hm

/-- A scan that succeeds writes a perspective that ends only where its input ended before, and keeps
the source. -/
theorem coarser_outcome (ht : text.Sound) {o : ScanOutcome} (ho : g.Outcome text input output o)
    {found : ScanResult} (hok : o.result = .ok found) :
    Coarser text input o.text output ∧ o.text.source = text.source := by
  cases ho with
  | unread hs => cases hok
  | fault schedule hs hlane hstop => cases hok
  | @ended tokens schedule hs h =>
    obtain ⟨before, after, -, -, hproject, -⟩ := project_scanned ht output hs h
    have hcoarser := coarser_scanned ht hs h hproject
    rw [conclude, hproject]
    exact ⟨hcoarser, rfl⟩

end Grouper

end TagLayers
