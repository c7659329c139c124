import TagLayers.Proofs.Grouping.Projection

/-!
# Scans that cannot fail

A grouper whose openers all have closers, which is what its validation tests, can only fail to scan
a sound text when there is no input. All that it emits are warnings about tokens of the input, and
the spans of its matches lie between characters of the source.

Results:
1. `validate_eq_ok_iff`: what a validation tests.
2. `warns_of_mem_shown`: what a scan emits.
3. `scanIn_total`: scans of sound texts succeed.
-/

namespace TagLayers

/-! ## Validation -/

theorem Pattern.validate_eq_ok_iff {p : Pattern} {name : String} {pairs : PairTable} :
    p.validate name pairs = .ok () ↔
      ∀ e ∈ p.entries, e.mode = .complete → (pairs.closer? e.target).isSome := by
  rw [validate]
  split
  · next e he =>
    refine ⟨fun h => (nomatch h), fun h => ?_⟩
    -- the entry that has been found is one without a closer
    have hfault := List.find?_some he
    simp only [Bool.and_eq_true, beq_iff_eq, Option.isNone_iff_eq_none] at hfault
    have hsome := h e (List.mem_of_find?_eq_some he) hfault.1
    rw [hfault.2] at hsome
    cases hsome
  · next hnone =>
    refine ⟨fun _ e he hm => ?_, fun _ => rfl⟩
    have hno := List.find?_eq_none.mp hnone e he
    simpa [hm, Option.isSome_iff_ne_none] using hno

theorem Grouper.validate_eq_ok_iff {g : Grouper} : g.validate = .ok () ↔ g.Closed := by
  rw [validate, forM_eq_ok_iff]
  exact forall₂_congr fun a _ => Pattern.validate_eq_ok_iff

/-! ## Warnings -/

/-- The diagnostic is a warning about one of the tokens. -/
def Diagnostic.Warns (tokens : List Token) (d : Diagnostic) : Prop :=
  d.severity = .warning ∧ (d.code = .syntaxMismatch ∨ d.code = .unterminatedGroup) ∧
    ∃ t ∈ tokens, d.span = t.span ∧ t.span.start < t.span.stop

/-- The diagnostics are warnings about tokens of a perspective. -/
def TaggedText.Warns (text : TaggedText) (name : String) (ds : List Diagnostic) : Prop :=
  ∃ tokens, text.tokens name = .ok tokens ∧ ∀ d ∈ ds, d.Warns tokens

/-- All that a log comes to are warnings about tokens of the stream. -/
theorem Scan.warns_of_mem_shown {tokens : List Token}
    (ht : ∀ t ∈ tokens, t.span.start < t.span.stop) {log : List (Nat × Report)} {d : Diagnostic}
    (hd : d ∈ shown tokens log) : d.Warns tokens := by
  obtain ⟨⟨k, report⟩, -, hreport⟩ := List.mem_filterMap.mp hd
  cases report with
  | mismatch m =>
    obtain ⟨t, htoken, rfl⟩ := Option.map_eq_some_iff.mp hreport
    have hmem := List.mem_of_getElem? htoken
    exact ⟨rfl, .inl rfl, t, hmem, rfl, ht t hmem⟩
  | unterminated u =>
    obtain ⟨t, htoken, rfl⟩ := Option.map_eq_some_iff.mp hreport
    have hmem := List.mem_of_getElem? htoken
    exact ⟨rfl, .inr rfl, t, hmem, rfl, ht t hmem⟩

/-! ## Scans -/

theorem NameTable.mem_insertInto {α : Type} {name : String} {value : α} {rows : List (String × α)}
    {row : String × α} (h : row ∈ insertInto name value rows) :
    row = (name, value) ∨ row ∈ rows := by
  induction rows with
  | nil => exact .inl (List.mem_singleton.mp h)
  | cons first rest ih =>
    rw [insertInto] at h
    split at h
    · rcases List.mem_cons.mp h with h | h
      · exact .inl h
      · exact .inr (List.mem_cons_of_mem _ h)
    · split at h
      · exact List.mem_cons.mp h
      · rcases List.mem_cons.mp h with rfl | h
        · exact .inr List.mem_cons_self
        · exact (ih h).imp_right (List.mem_cons_of_mem _)

theorem NameTable.mem_foldl_insert {α : Type} {rows : List (String × α)} {table : NameTable α}
    {row : String × α}
    (h : row ∈ (rows.foldl (fun table row => table.insert row.1 row.2) table).rows) :
    row ∈ rows ∨ row ∈ table.rows := by
  induction rows generalizing table with
  | nil => exact .inr h
  | cons first rest ih =>
    rcases ih h with hrow | hrow
    · exact .inl (List.mem_cons_of_mem _ hrow)
    · rcases mem_insertInto hrow with rfl | hrow
      · exact .inl List.mem_cons_self
      · exact .inr hrow

namespace Grouper

variable {g : Grouper} {text : TaggedText} {input : String} {p : Perspective}

theorem closed_scanned (hg : g.Closed) {tokens : List Token} {schedule : List Nat}
    (h : ∀ lane ∈ (g.scanned tokens schedule).lanes, lane.phase = .ended) :
    Closed { g with
      automata := (g.scanned tokens schedule).automata.map (·.takeCompleted.1) } := by
  intro b hb
  rw [Scan.automata, lanes_of_halted fun lane hlane => Lane.halted_of_ended (h lane hlane),
    List.map_map, List.map_map] at hb
  obtain ⟨a, ha, rfl⟩ := List.mem_map.mp hb
  have hpattern : (Lane.alone g.pairs tokens a).1.automaton.pattern = a.pattern := by
    rw [(Lane.alone_of_ended (alone_ended h ha)).2]
    exact ((Automaton.sameMachine_feedStream g.pairs a.reset 0 tokens).trans
      (Automaton.sameMachine_finish _)).2.2
  intro e he
  exact hg a ha e (hpattern ▸ he)

/-- A scan of a sound text that has the input succeeds, in whatever groups its automata are run. It
puts a perspective that fits in place of the output, emits warnings about tokens of the input only,
and can be followed by another scan. -/
theorem scanIn_total (hg : g.Closed) (ht : text.Sound)
    (hp : text.perspectives.get? input = some p) (output : String)
    {groups : List (List Automaton)} (hgroups : groups.flatten = g.automata) :
    ∃ after found, (g.scanIn groups text input output).result = .ok found ∧
      (g.scanIn groups text input output).text = text.put output after ∧
      after.Fits text.source ∧ (g.scanIn groups text input output).grouper.Closed ∧
      text.Warns input (g.scanIn groups text input output).emitted ∧
      ∀ row ∈ found.rows, ∀ m ∈ row.2.found, text.source.Admits m.span := by
  have houtcome : g.Outcome text input output (g.scanIn groups text input output) :=
    outcome_scanIn hgroups
  generalize g.scanIn groups text input output = o at houtcome ⊢
  cases houtcome with
  | unread hs =>
    rw [stream, TaggedText.tokens_eq hp (ht input p hp)] at hs
    cases hs
  | fault schedule hs hlane hstop => exact absurd hstop (not_stopped hg hlane _)
  | @ended tokens schedule hs h =>
    obtain ⟨before, after, -, hfits, hconclude, -⟩ := conclude_scanned ht output hs h
      (Scan.shown tokens (g.scanned tokens schedule).log)
    have hordered := ordered_stream ht hs
    rw [hconclude]
    refine ⟨after, _, rfl, rfl, hfits, closed_scanned hg h, ?_, fun row hrow m hm => ?_⟩
    · refine ⟨_, TaggedText.tokens_eq hp (ht input p hp), fun d hd => ?_⟩
      obtain ⟨q, hq, htokens⟩ := stream_eq_ok ht hs
      cases hp.symm.trans hq
      obtain ⟨hseverity, hcode, t, htoken, hspan⟩ :=
        Scan.warns_of_mem_shown (fun t htoken => (hordered.1 t htoken).2) hd
      rw [htokens] at htoken
      exact ⟨hseverity, hcode, t, (List.mem_filter.mp htoken).1, hspan⟩
    · rcases NameTable.mem_foldl_insert hrow with hrow | hrow
      · obtain ⟨a, ha, rfl⟩ := List.mem_map.mp hrow
        exact ((Automaton.spans_found hordered (alone_ended h ha)).1 m hm).1
      · cases hrow

end Grouper

end TagLayers
