import TagLayers.Proofs.Grouping.Totality
import TagLayers.Proofs.Layer.Edits
import TagLayers.Proofs.Layer.Runs
import TagLayers.Proofs.Pattern.Spelling

/-!
# Matches lose nothing

The tokens of an attempt are the last ones of the stream, without a gap, but for those that a
collecting entry has left out. So the tokens under the span of a match are its own, those that are
hidden from the automata, and those that hit an entry which leaves its hit out. Where a pattern has
no such entry and nothing is hidden, the text of a match is the texts of its tokens joined.

Results:
1. `Pattern.entry_of_mem_words`: the letters of a word.
2. `Match.contains_of_mem`, `Token.Ordered.mem_of_between`: tokens under a span.
3. `Automaton.exists_stretch`: a match within its stream.
4. `Match.text_eq`: the text of a match of tokens that fill a range.
5. `matches_lose_nothing`: the law of matches.
-/

namespace TagLayers

/-! ## The letters of a word -/

theorem TagEntry.Word.entry {pairs : PairTable} {e : TagEntry} {word : List Letter}
    (h : e.Word pairs word) {l : Letter} (hl : l ∈ word) :
    l.entry = e ∧ (l.kept = false → e.mode = .collectDrop ∧ e.hits l.token = true) := by
  have takes {m : Letter} (hm : e.Takes m) :
      m.entry = e ∧ (m.kept = false → e.mode = .collectDrop ∧ e.hits m.token = true) :=
    ⟨hm.1, fun hkept => absurd (hm.2.symm.trans hkept) (by decide)⟩
  cases h with
  | absent => cases hl
  | one _ htakes =>
    rw [List.mem_singleton.mp hl]
    exact takes htakes
  | collect _ hbefore hlast =>
    rcases List.mem_append.mp hl with hl | hl
    · exact takes (hbefore l hl).1
    · rw [List.mem_singleton.mp hl]
      exact takes hlast
  | collectDrop hm hbefore hlast hit =>
    rcases List.mem_append.mp hl with hl | hl
    · exact takes (hbefore l hl).1
    · rw [List.mem_singleton.mp hl]
      exact ⟨hlast.1, fun _ => ⟨hm, hit⟩⟩
  | region _ _ _ hall => exact takes (hall l hl)

/-- A letter belongs to an entry of the pattern, and one that is left out hits an entry that leaves
its hit out. -/
theorem Pattern.entry_of_mem_words {pairs : PairTable} {p : Pattern} {word : List Letter}
    (h : word ∈ p.words pairs) {l : Letter} (hl : l ∈ word) :
    l.entry ∈ p.entries ∧
      (l.kept = false → l.entry.mode = .collectDrop ∧ l.entry.hits l.token = true) := by
  induction p generalizing word with
  | nil =>
    obtain rfl : word = [] := h
    cases hl
  | item e rest ih =>
    obtain ⟨front, hfront, back, hback, rfl⟩ := Language.mem_mul.mp h
    rcases List.mem_append.mp hl with hl | hl
    · obtain ⟨rfl, hdrop⟩ := TagEntry.Word.entry hfront hl
      exact ⟨List.mem_cons_self, hdrop⟩
    · obtain ⟨hmem, hdrop⟩ := ih hback hl
      exact ⟨List.mem_cons_of_mem _ hmem, hdrop⟩
  | group optional body rest ihb ihr =>
    obtain ⟨front, hfront, back, hback, rfl⟩ := Language.mem_mul.mp h
    rcases List.mem_append.mp hl with hl | hl
    · have hbody : front ∈ body.words pairs := by
        cases optional with
        | false => exact hfront
        | true =>
          -- a group that is absent has no letters
          rcases hfront with hnone | hbody
          · obtain rfl : front = [] := hnone
            cases hl
          · exact hbody
      obtain ⟨hmem, hdrop⟩ := ihb hbody hl
      exact ⟨List.mem_append_left _ hmem, hdrop⟩
    · obtain ⟨hmem, hdrop⟩ := ihr hback hl
      exact ⟨List.mem_append_right _ hmem, hdrop⟩

/-! ## Tokens under a span -/

variable {source : Source}

/-- Each token of a match lies under its span. -/
theorem Match.contains_of_mem {m : Match} (hm : Token.Ordered source m.tokens) {t : Token}
    (ht : t ∈ m.tokens) : m.span.contains t.span = true := by
  obtain ⟨tokens⟩ := m
  have hne : tokens ≠ [] := List.ne_nil_of_mem ht
  have hspan : Match.span ⟨tokens⟩ = ⟨(tokens.head hne).span.start,
      (tokens.getLast hne).span.stop⟩ := by
    simp only [span, List.head?_eq_some_head hne, List.getLast?_eq_some_getLast hne]
  have hstart : (tokens.head hne).span.start ≤ t.span.start := by
    cases tokens with
    | nil => exact absurd rfl hne
    | cons first rest =>
      rcases List.mem_cons.mp ht with rfl | hlater
      · exact Nat.le_refl _
      · have hafter := (List.pairwise_cons.mp hm.2).1 t hlater
        have hfirst := (hm.1 first List.mem_cons_self).2
        exact Nat.le_trans (Nat.le_of_lt hfirst) hafter
  have hstop : t.span.stop ≤ (tokens.getLast hne).span.stop := by
    rw [← List.dropLast_append_getLast hne] at ht
    rcases List.mem_append.mp ht with hbefore | hlast
    · have horder := hm.2
      rw [← List.dropLast_append_getLast hne] at horder
      have hafter := (List.pairwise_append.mp horder).2.2 t hbefore _ List.mem_cons_self
      have hpos := (hm.1 _ (List.getLast_mem hne)).2
      exact Nat.le_trans hafter (Nat.le_of_lt hpos)
    · rw [List.mem_singleton.mp hlast]
  rw [hspan]
  exact Span.contains_iff.mpr ⟨hstart, hstop⟩

/-- What lies between two tokens of a stretch is part of it. -/
theorem Token.Ordered.mem_of_between {front stretch back : List Token}
    (h : Token.Ordered source (front ++ stretch ++ back)) {first last t : Token}
    (hfirst : first ∈ stretch) (hlast : last ∈ stretch) (ht : t ∈ front ++ stretch ++ back)
    (hstart : first.span.start ≤ t.span.start) (hstop : t.span.stop ≤ last.span.stop) :
    t ∈ stretch := by
  have hpos := (h.1 t ht).2
  obtain ⟨hfront, -, hback⟩ := List.pairwise_append.mp h.2
  rcases List.mem_append.mp ht with ht | ht
  · rcases List.mem_append.mp ht with ht | ht
    · have hbefore := (List.pairwise_append.mp hfront).2.2 t ht first hfirst
      omega
    · exact ht
  · have hafter := hback last (List.mem_append_right _ hlast) t ht
    omega

/-- The text of a match whose tokens are those of intervals that fill a range. -/
theorem Match.text_eq {pos stop : Nat} {row : List Interval} (hrow : Interval.Fills stop pos row)
    (hne : row ≠ [])
    (hends : Interval.EndsIn (fun n => source.text.isBoundary n = true) row) :
    Match.text ⟨row.map (Token.ofInterval source.text)⟩ source
      = Match.consumedText ⟨row.map (Token.ofInterval source.text)⟩ := by
  have hstart : (row.head hne).span.start = pos := by
    cases row with
    | nil => exact absurd rfl hne
    | cons iv rest => exact hrow.1
  have hstop := hrow.stop_getLast hne
  have hspan : Match.span ⟨row.map (Token.ofInterval source.text)⟩ = ⟨pos, stop⟩ := by
    simp only [span, List.head?_map, List.getLast?_map, List.head?_eq_some_head hne,
      List.getLast?_eq_some_getLast hne, Option.map_some, Token.ofInterval, hstart, hstop]
  have hrange : source.Admits ⟨pos, stop⟩ :=
    ⟨hrow.le, hstart ▸ (hends _ (List.head_mem hne)).1, hstop ▸ (hends _ (List.getLast_mem hne)).2⟩
  rw [Match.text, hspan, consumedText]
  exact (Perspective.Fits.text_of_fills hrow hrange hends).symm

/-! ## Matches in a stream -/

namespace Automaton

variable {pairs : PairTable} {tokens : List Token} {a : Automaton}

/-- The matches of an automaton that has come to the end of a stream are spelled by words. -/
theorem exists_words (h : (Lane.alone pairs tokens a).1.phase = .ended) :
    ∃ words, List.Forall₂ (Spells pairs a.pattern tokens.zipIdx) (a.runs pairs tokens) words := by
  have hnew : Spelled pairs [] a.reset :=
    ⟨sound_reset a, [], [], writing_reset pairs a⟩
  obtain ⟨-, words, word, hw⟩ :=
    spelled_finish (spelled_feedStream hnew 0 tokens (Lane.alone_of_ended h).1)
  have hdone := hw.done
  rw [((sameMachine_feedStream pairs a.reset 0 tokens).trans (sameMachine_finish _)).2.2] at hdone
  exact ⟨words, hdone⟩

/-- The tokens of a match are those letters of a word that are kept, and the word is a stretch of
the stream without a gap. -/
theorem exists_stretch (h : (Lane.alone pairs tokens a).1.phase = .ended) {m : Match}
    (hm : m ∈ a.found pairs tokens) :
    ∃ word, word ∈ a.pattern.words pairs ∧ word.map (·.token) <:+: tokens ∧
      m.tokens = (word.filter (·.kept)).map (·.token) := by
  obtain ⟨run, hrun, rfl⟩ := List.mem_map.mp hm
  obtain ⟨words, hwords⟩ := exists_words h
  obtain ⟨i, hi, rfl⟩ := List.getElem_of_mem hrun
  have hword := hwords.get hi (hwords.length_eq ▸ hi)
  generalize words.get ⟨i, hwords.length_eq ▸ hi⟩ = word at hword
  refine ⟨word, hword.isWord, ?_, ?_⟩
  · have hstretch := hword.stretch.map Prod.fst
    rwa [List.map_map, List.zipIdx_map_fst] at hstretch
  · have hkept : (a.runs pairs tokens)[i] = keptIndices word := hword.kept.symm
    rw [hkept, keptIndices, Grouper.matchOf, List.filterMap_map, ← List.filterMap_eq_map]
    refine List.filterMap_congr fun l hl => ?_
    -- the letter is a token of the stream at its index
    have hfed : l.fed ∈ tokens.zipIdx :=
      hword.stretch.subset (List.mem_map_of_mem (List.mem_filter.mp hl).1)
    have hget : tokens[l.index]? = some l.token := List.mk_mem_zipIdx_iff_getElem?.mp hfed
    simpa using hget

/-- Where no entry leaves its hit out, the tokens of a match are a stretch of the stream. -/
theorem stretch_of_no_drop (h : (Lane.alone pairs tokens a).1.phase = .ended) {m : Match}
    (hm : m ∈ a.found pairs tokens) (hdrop : ∀ e ∈ a.pattern.entries, e.mode ≠ .collectDrop) :
    m.tokens <:+: tokens := by
  obtain ⟨word, hword, hstretch, htokens⟩ := exists_stretch h hm
  have hall : word.filter (·.kept) = word := by
    refine List.filter_eq_self.mpr fun l hl => ?_
    obtain ⟨hentry, hleft⟩ := Pattern.entry_of_mem_words hword hl
    cases hkept : l.kept with
    | true => rfl
    | false => exact absurd (hleft hkept).1 (hdrop _ hentry)
  rw [htokens, hall]
  exact hstretch

/-- A token of the stream under the span of a match is one of its tokens, or is left out. -/
theorem mem_or_dropped (ht : Token.Ordered source tokens)
    (h : (Lane.alone pairs tokens a).1.phase = .ended) {m : Match}
    (hm : m ∈ a.found pairs tokens) {t : Token} (htoken : t ∈ tokens)
    (hspan : m.span.contains t.span = true) :
    t ∈ m.tokens ∨ ∃ e ∈ a.pattern.entries, e.mode = .collectDrop ∧ e.hits t = true := by
  obtain ⟨word, hword, ⟨front, back, rfl⟩, htokens⟩ := exists_stretch h hm
  obtain ⟨hordered, hne⟩ := ordered_found ht h hm
  obtain ⟨first, hfirst, last, hlast, hrange, -⟩ := Match.span_of_ordered hordered hne
  have hletter {u : Token} (hu : u ∈ m.tokens) : u ∈ word.map (·.token) := by
    rw [htokens] at hu
    exact (List.filter_sublist.map _).subset hu
  rw [hrange] at hspan
  obtain ⟨hstart, hstop⟩ := Span.contains_iff.mp hspan
  have hmem := ht.mem_of_between (hletter hfirst) (hletter hlast) htoken hstart hstop
  obtain ⟨l, hl, rfl⟩ := List.mem_map.mp hmem
  cases hkept : l.kept with
  | true =>
    left
    rw [htokens]
    exact List.mem_map_of_mem (List.mem_filter.mpr ⟨hl, hkept⟩)
  | false =>
    obtain ⟨hentry, hleft⟩ := Pattern.entry_of_mem_words hword hl
    exact .inr ⟨l.entry, hentry, hleft hkept⟩

end Automaton

/-! ## Scans -/

namespace Grouper

variable {g : Grouper} {text : TaggedText} {input : String} {tokens : List Token}

/-- With nothing hidden and nothing left out, the text of a match is the texts of its tokens. -/
theorem text_of_found (ht : text.Sound) (hs : g.stream text input = .ok tokens)
    (hskips : g.skips = []) {a : Automaton}
    (hend : (Lane.alone g.pairs tokens a).1.phase = .ended) {m : Match}
    (hm : m ∈ a.found g.pairs tokens)
    (hdrop : ∀ e ∈ a.pattern.entries, e.mode ≠ .collectDrop) :
    m.text text.source = m.consumedText := by
  obtain ⟨-, hne⟩ := Automaton.ordered_found (ordered_stream ht hs) hend hm
  obtain ⟨p, hp, rfl⟩ := stream_eq_ok ht hs
  have hfits := ht input p hp
  -- the stream is all of the intervals, and the match is a row of them
  obtain ⟨front, back, hrow⟩ := Automaton.stretch_of_no_drop hend hm hdrop
  have hall (t : Token) : (!g.skips.any t.tag.meets) = true := by rw [hskips]; rfl
  rw [List.filter_eq_self.mpr fun t _ => hall t] at hrow
  obtain ⟨rest, after, hintervals, hfront, rfl⟩ := List.map_eq_append_iff.mp hrow.symm
  obtain ⟨before, row, rfl, rfl, hmatch⟩ := List.map_eq_append_iff.mp hfront
  have hfills := hfits.filled
  rw [Perspective.Filled, hintervals] at hfills
  obtain ⟨stop, hfills, -⟩ := hfills.exists_append
  obtain ⟨pos, -, hfills⟩ := hfills.exists_append
  obtain ⟨row'⟩ := m
  obtain rfl : row.map (Token.ofInterval text.source.text) = row' := hmatch
  refine Match.text_eq hfills (fun hnil => hne (by rw [hnil]; rfl)) fun iv hiv => hfits.ends iv ?_
  rw [hintervals]
  exact List.mem_append_left _ (List.mem_append_right _ hiv)

/-- No text is lost inside a match. In the result of a scan that succeeds, the tokens of a match are
tokens of the input under its span, in their order, and any other token of the input there is hidden
by a skipped tag, or hits an entry of the pattern that leaves its hit out. So without such entries
and skipped tags the text under the span is the texts of the tokens joined. -/
theorem matches_lose_nothing (g : Grouper) {text : TaggedText} (ht : text.Reachable)
    (input output : String) {o : ScanOutcome}
    (ho : o = g.scan text input output ∨ o = g.scanParallel text input output)
    {found : ScanResult} (hok : o.result = .ok found) :
    ∃ tokens, text.tokens input = .ok tokens ∧
      ∀ row ∈ found.rows, ∃ a ∈ g.automata, a.name = row.1 ∧ a.tag = row.2.tag ∧
        ∀ m ∈ row.2.found,
          m.tokens.Sublist (tokens.filter fun t => m.span.contains t.span) ∧
          (∀ t ∈ tokens, m.span.contains t.span = true →
            t ∈ m.tokens ∨ g.skips.any t.tag.meets = true ∨
              ∃ e ∈ a.pattern.entries, e.mode = .collectDrop ∧ e.hits t = true) ∧
          ((∀ e ∈ a.pattern.entries, e.mode ≠ .collectDrop) → g.skips = [] →
            m.text text.source = m.consumedText) := by
  have houtcome : g.Outcome text input output o := by
    rcases ho with rfl | rfl
    · exact outcome_scanIn (List.append_nil _)
    · exact outcome_scanIn (List.flatMap_singleton' _)
  cases houtcome with
  | unread hs => cases hok
  | fault schedule hs hlane hstop => cases hok
  | @ended stream schedule hs hended =>
    obtain ⟨-, after, -, -, hconclude, -⟩ := conclude_scanned ht.sound output hs hended
      (Scan.shown stream (g.scanned stream schedule).log)
    rw [hconclude] at hok
    cases hok
    obtain ⟨p, hp, hstream⟩ := stream_eq_ok ht.sound hs
    refine ⟨_, TaggedText.tokens_eq hp (ht.sound input p hp), fun row hrow => ?_⟩
    rcases NameTable.mem_foldl_insert hrow with hrow | hrow
    · obtain ⟨a, ha, rfl⟩ := List.mem_map.mp hrow
      have hend := alone_ended hended ha
      have hordered := ordered_stream ht.sound hs
      refine ⟨a, ha, rfl, rfl, fun m hm => ⟨?_, fun t htoken hspan => ?_, fun hdrop hskips => ?_⟩⟩
      · have hsub : m.tokens.Sublist stream :=
          (List.sublist_flatten_of_mem (List.mem_map_of_mem hm)).trans
            (Automaton.tokens_found hend)
        have hall : m.tokens.filter (fun t => m.span.contains t.span) = m.tokens :=
          List.filter_eq_self.mpr fun t htoken =>
            Match.contains_of_mem (Automaton.ordered_found hordered hend hm).1 htoken
        rw [hstream] at hsub
        have hinside := (hsub.trans List.filter_sublist).filter
          fun t => m.span.contains t.span
        rwa [hall] at hinside
      · cases hhidden : g.skips.any t.tag.meets with
        | true => exact .inr (.inl rfl)
        | false =>
          have hmem : t ∈ stream := by
            rw [hstream]
            exact List.mem_filter.mpr ⟨htoken, by rw [hhidden]; rfl⟩
          exact (Automaton.mem_or_dropped hordered hend hm hmem hspan).imp_right .inr
      · exact text_of_found ht.sound hs hskips hend hm hdrop
    · cases hrow

/-- A text with four tokens. -/
def quarteredText : TaggedText :=
  (TaggedText.ofSource ⟨"quartered", "abcd".toList⟩).after
    [.tag "top" 0 1 (Tag.of 1), .tag "top" 1 2 (Tag.of 9), .tag "top" 2 3 (Tag.of 2),
      .tag "top" 3 4 (Tag.of 3)]

/-- The second token is hidden, and the third one is left out. -/
def droppingGrouper : Grouper :=
  ⟨⟨{}, [], [], [], {}⟩, {},
    [.new "dropping" (Tag.of 11)
      (((Pattern.nil.must (Tag.of 1)).collectDrop (Tag.of 2)).must (Tag.of 3))], [Tag.of 9]⟩

theorem exists_found {o : ScanOutcome} {rows : List (String × MatchSet)}
    (h : o.result.toOption.map (·.rows) = some rows) :
    ∃ found, o.result = .ok found ∧ found.rows = rows := by
  cases hresult : o.result with
  | error e =>
    rw [hresult] at h
    cases h
  | ok found =>
    rw [hresult] at h
    exact ⟨found, rfl, Option.some.inj h⟩

/-- A match with two of the four tokens under its span, and one whose text is that of its tokens. -/
theorem matches_lose_nothing_droppingGrouper :
    (∃ tokens m, quarteredText.tokens "top" = .ok tokens ∧
      (droppingGrouper.scan quarteredText "top" "out").result.toOption.map (·.rows)
        = some [("dropping", ⟨Tag.of 11, [m]⟩)] ∧
      m.tokens.map (·.text) = [['a'], ['d']] ∧ m.span = ⟨0, 4⟩ ∧
      ∀ t ∈ tokens, m.span.contains t.span = true →
        t ∈ m.tokens ∨ [Tag.of 9].any t.tag.meets = true ∨
          ∃ a ∈ droppingGrouper.automata, ∃ e ∈ a.pattern.entries,
            e.mode = .collectDrop ∧ e.hits t = true) ∧
    ∃ m first, (nestedGrouper.scan markedText "top" "out").result.toOption.map (·.rows)
        = some [("both", ⟨Tag.of 12, [m]⟩), ("first", ⟨Tag.of 11, [first]⟩)] ∧
      m.text markedText.source = m.consumedText ∧ m.consumedText = ['a', 'b'] := by
  constructor
  · let m : Match := ⟨[⟨Tag.of 1, ['a'], ⟨0, 1⟩⟩, ⟨Tag.of 3, ['d'], ⟨3, 4⟩⟩]⟩
    have hrows : (droppingGrouper.scan quarteredText "top" "out").result.toOption.map (·.rows)
        = some [("dropping", ⟨Tag.of 11, [m]⟩)] := by
      decide +kernel
    have hreachable : quarteredText.Reachable := .after (.ofSource _) _
    obtain ⟨found, hfound, hfoundRows⟩ := exists_found hrows
    obtain ⟨tokens, htokens, hall⟩ :=
      matches_lose_nothing droppingGrouper hreachable "top" "out" (.inl rfl) hfound
    rw [hfoundRows] at hall
    obtain ⟨a, ha, -, -, hmatches⟩ := hall _ List.mem_cons_self
    obtain ⟨-, hinside, -⟩ := hmatches m List.mem_cons_self
    refine ⟨tokens, m, htokens, hrows, rfl, rfl, fun t ht hspan => ?_⟩
    exact (hinside t ht hspan).imp_right (.imp_right fun hdrop => ⟨a, ha, hdrop⟩)
  · let m : Match := ⟨[⟨Tag.of 1, ['a'], ⟨0, 1⟩⟩, ⟨Tag.of 2, ['b'], ⟨1, 2⟩⟩]⟩
    let first : Match := ⟨[⟨Tag.of 1, ['a'], ⟨0, 1⟩⟩]⟩
    have hrows : (nestedGrouper.scan markedText "top" "out").result.toOption.map (·.rows)
        = some [("both", ⟨Tag.of 12, [m]⟩), ("first", ⟨Tag.of 11, [first]⟩)] := by
      decide +kernel
    obtain ⟨found, hfound, hfoundRows⟩ := exists_found hrows
    obtain ⟨tokens, -, hall⟩ :=
      matches_lose_nothing nestedGrouper reachable_markedText "top" "out" (.inl rfl) hfound
    rw [hfoundRows] at hall
    obtain ⟨a, ha, -, -, hmatches⟩ := hall _ List.mem_cons_self
    obtain ⟨-, -, htext⟩ := hmatches m List.mem_cons_self
    have hdrop : ∀ a ∈ nestedGrouper.automata, ∀ e ∈ a.pattern.entries, e.mode ≠ .collectDrop := by
      decide
    exact ⟨m, first, hrows, htext (hdrop a ha) rfl, rfl⟩

end Grouper

end TagLayers
