import Mathlib.Data.List.Basic
import Mathlib.Data.List.Induction
import TagLayers.Proofs.Grouping.Streams
import TagLayers.Proofs.Layer.Texts

/-!
# Projections

A scan that succeeds puts a copy of its input in place of its output, and there the span of each
match has the tag of its automaton. The tokens of a stream follow each other, and an automaton
uses them in this order and each at most once; so the spans of its matches follow each other too.
They lie between characters, so there is nothing that a projection could fail at.

Results:
1. `Automaton.ordered_found`, `Automaton.spans_found`: the matches of an automaton and their spans.
2. `tagRows`: what the matches of several automata do to a perspective.
3. `project_scanned`: at the end of the stream a projection succeeds.
4. `scan_projects`: the law of projections.
-/

namespace TagLayers

/-! ## Tokens in order -/

/-- The tokens follow each other, none is empty, and their ends are boundaries of the source. -/
def Token.Ordered (source : Source) (tokens : List Token) : Prop :=
  (∀ t ∈ tokens, source.Admits t.span ∧ t.span.start < t.span.stop) ∧
    tokens.Pairwise fun t u => t.span.stop ≤ u.span.start

theorem Token.Ordered.sublist {source : Source} {tokens more : List Token}
    (h : Token.Ordered source more) (hsub : tokens.Sublist more) : Token.Ordered source tokens :=
  ⟨fun t ht => h.1 t (hsub.subset ht), h.2.sublist hsub⟩

theorem Interval.Fills.pairwise {stop pos : Nat} {row : List Interval} (h : Fills stop pos row) :
    row.Pairwise fun a b => a.span.stop ≤ b.span.start := by
  induction row generalizing pos with
  | nil => exact .nil
  | cons iv rest ih =>
    obtain ⟨-, -, hrest⟩ := h
    exact .cons (fun later hlater => (hrest.mem hlater).1) (ih hrest)

theorem Perspective.Fits.ordered {source : Source} {p : Perspective} (hp : p.Fits source) :
    Token.Ordered source (p.intervals.map (Token.ofInterval source.text)) := by
  refine ⟨fun t ht => ?_, List.pairwise_map.mpr hp.filled.pairwise⟩
  obtain ⟨iv, hiv, rfl⟩ := List.mem_map.mp ht
  exact hp.admits hiv

/-- A match reaches from a token that it has taken to the same or a later one. -/
theorem Match.span_of_ordered {source : Source} {m : Match} (hm : Token.Ordered source m.tokens)
    (hne : m.tokens ≠ []) :
    ∃ first ∈ m.tokens, ∃ last ∈ m.tokens, m.span = ⟨first.span.start, last.span.stop⟩ ∧
      first.span.start < last.span.stop := by
  obtain ⟨tokens⟩ := m
  cases tokens with
  | nil => exact absurd rfl hne
  | cons first rest =>
    obtain ⟨hwithin, hafter⟩ := hm
    have hfirst := (hwithin first List.mem_cons_self).2
    obtain ⟨last, hlast⟩ : ∃ last, (first :: rest).getLast? = some last :=
      ⟨_, List.getLast?_eq_some_getLast hne⟩
    have hmem : last ∈ first :: rest := List.mem_of_getLast? hlast
    refine ⟨first, List.mem_cons_self, last, hmem, ?_, ?_⟩
    · simp only [span, List.head?_cons, hlast]
    · rcases List.mem_cons.mp hmem with rfl | hlater
      · exact hfirst
      · have horder := (List.pairwise_cons.mp hafter).1 last hlater
        have hlen := (hwithin last hmem).2
        omega

/-! ## The matches of an automaton -/

namespace Automaton

/-- The matches of an automaton that has a stream to itself. -/
def found (pairs : PairTable) (tokens : List Token) (a : Automaton) : List Match :=
  (a.runs pairs tokens).map (Grouper.matchOf tokens.toArray)

variable {pairs : PairTable} {tokens : List Token} {a : Automaton}

/-- The indices in the matches increase and are those of tokens, and no match is empty. -/
theorem runs_of_ended (h : (Lane.alone pairs tokens a).1.phase = .ended) :
    (a.runs pairs tokens).flatten.Sublist (List.range tokens.length) ∧
      ∀ run ∈ a.runs pairs tokens, run ≠ [] := by
  have hkept := (Lane.alone_kept pairs tokens a).1
  rw [Lane.Kept, h] at hkept
  obtain ⟨htidy, hused⟩ := hkept
  rw [(Lane.alone_of_ended h).2] at htidy hused
  exact ⟨(List.sublist_append_left _ _).trans hused, htidy.completed⟩

theorem filterMap_range (tokens : List Token) :
    (List.range tokens.length).filterMap (tokens.toArray[·]?) = tokens := by
  induction tokens using List.reverseRecOn with
  | nil => rfl
  | append_singleton tokens token ih =>
    rw [List.length_append, List.length_singleton, List.range_succ, List.filterMap_append]
    have hinit : (List.range tokens.length).filterMap ((tokens ++ [token]).toArray[·]?)
        = (List.range tokens.length).filterMap (tokens.toArray[·]?) := by
      refine List.filterMap_congr fun i hi => ?_
      simp [List.getElem?_append_left (List.mem_range.mp hi)]
    rw [hinit, ih]
    simp

/-- The tokens of the matches, one after the other, are tokens of the stream in its order. -/
theorem tokens_found (h : (Lane.alone pairs tokens a).1.phase = .ended) :
    ((a.found pairs tokens).flatMap (·.tokens)).Sublist tokens := by
  have hflat : (a.found pairs tokens).flatMap (·.tokens)
      = (a.runs pairs tokens).flatten.filterMap (tokens.toArray[·]?) := by
    rw [found, List.flatMap_map, List.filterMap_flatten]
    rfl
  rw [hflat]
  have hsub := (runs_of_ended h).1.filterMap (tokens.toArray[·]?)
  rwa [filterMap_range] at hsub

/-- Each index of a match gives it a token. -/
theorem length_found (h : (Lane.alone pairs tokens a).1.phase = .ended) {run : List Nat}
    (hrun : run ∈ a.runs pairs tokens) :
    (Grouper.matchOf tokens.toArray run).tokens.length = run.length := by
  have hlt : ∀ i ∈ run, i < tokens.length := fun i hi =>
    List.mem_range.mp ((runs_of_ended h).1.subset (List.mem_flatten.mpr ⟨run, hrun, hi⟩))
  have hall : ∀ i ∈ run, (tokens.toArray[i]?).isSome := by
    intro i hi
    simp [hlt i hi]
  exact List.filterMap_length_eq_length.mpr hall

variable {source : Source}

theorem ordered_found (ht : Token.Ordered source tokens)
    (h : (Lane.alone pairs tokens a).1.phase = .ended) {m : Match}
    (hm : m ∈ a.found pairs tokens) : Token.Ordered source m.tokens ∧ m.tokens ≠ [] := by
  constructor
  · have hsub : m.tokens.Sublist ((a.found pairs tokens).flatMap (·.tokens)) :=
      List.sublist_flatten_of_mem (List.mem_map_of_mem hm)
    exact ht.sublist (hsub.trans (tokens_found h))
  · obtain ⟨run, hrun, rfl⟩ := List.mem_map.mp hm
    have hlen := length_found h hrun
    have hne := (runs_of_ended h).2 run hrun
    intro hnil
    rw [hnil] at hlen
    exact hne (List.length_eq_zero_iff.mp hlen.symm)

/-- The spans of the matches are not empty, lie between characters, and follow each other. -/
theorem spans_found (ht : Token.Ordered source tokens)
    (h : (Lane.alone pairs tokens a).1.phase = .ended) :
    (∀ m ∈ a.found pairs tokens, source.Admits m.span ∧ m.span.start < m.span.stop) ∧
      (a.found pairs tokens).Pairwise fun m n => m.span.stop ≤ n.span.start := by
  constructor
  · intro m hm
    obtain ⟨hord, hne⟩ := ordered_found ht h hm
    obtain ⟨first, hfirst, last, hlast, hspan, hlt⟩ := Match.span_of_ordered hord hne
    rw [hspan]
    exact ⟨⟨Nat.le_of_lt hlt, (hord.1 first hfirst).1.start, (hord.1 last hlast).1.stop⟩, hlt⟩
  · -- the last token of a match stops before the first token of a later match starts
    have hall := (ht.sublist (tokens_found h)).2
    have hpairs := List.pairwise_map.mp (List.pairwise_flatten.mp hall).2
    refine hpairs.imp_of_mem fun {m n} hm hn hmn => ?_
    obtain ⟨hordm, hnem⟩ := ordered_found ht h hm
    obtain ⟨hordn, hnen⟩ := ordered_found ht h hn
    obtain ⟨_, _, last, hlast, hspanm, -⟩ := Match.span_of_ordered hordm hnem
    obtain ⟨first, hfirst, _, _, hspann, -⟩ := Match.span_of_ordered hordn hnen
    rw [hspanm, hspann]
    exact hmn last hlast first hfirst

end Automaton

/-! ## Rows in which the last one counts -/

theorem getLast?_filter_cons {α : Type} (test : α → Bool) (x : α) (rest : List α) :
    ((x :: rest).filter test).getLast?
      = (rest.filter test).getLast?.or (if test x then some x else none) := by
  by_cases h : test x = true
  · rw [List.filter_cons_of_pos h, List.getLast?_cons, if_pos h]
    cases (rest.filter test).getLast? <;> rfl
  · rw [List.filter_cons_of_neg h, if_neg h, Option.or_none]

/-- Of several rows with one name the last one counts. -/
theorem NameTable.get?_foldl_insert {α : Type} (rows : List (String × α)) (table : NameTable α)
    (name : String) :
    (rows.foldl (fun table row => table.insert row.1 row.2) table).get? name
      = ((rows.filter (·.1 == name)).getLast?.map (·.2)).or (table.get? name) := by
  induction rows generalizing table with
  | nil => rfl
  | cons row rest ih =>
    rw [List.foldl_cons, ih, get?_insert, getLast?_filter_cons]
    by_cases h : row.1 = name
    · cases (rest.filter (·.1 == name)).getLast? <;> simp [h]
    · cases (rest.filter (·.1 == name)).getLast? <;> simp [h, Ne.symm h]

/-- Where no name comes twice there is one row with the name of a row. -/
theorem filter_name_eq {α : Type} {rows : List (String × α)} (h : (rows.map (·.1)).Nodup)
    {row : String × α} (hrow : row ∈ rows) : rows.filter (·.1 == row.1) = [row] := by
  induction rows with
  | nil => cases hrow
  | cons first rest ih =>
    obtain ⟨hfirst, hrest⟩ := List.nodup_cons.mp h
    rcases List.mem_cons.mp hrow with rfl | hrow
    · have hnil : rest.filter (·.1 == row.1) = [] := by
        refine List.filter_eq_nil_iff.mpr fun other hother hsame => hfirst ?_
        exact List.mem_map.mpr ⟨other, hother, beq_iff_eq.mp hsame⟩
      rw [List.filter_cons_of_pos (by exact beq_self_eq_true row.1), hnil]
    · have hne : first.1 ≠ row.1 := fun hsame =>
        hfirst (List.mem_map.mpr ⟨row, hrow, hsame.symm⟩)
      rw [List.filter_cons_of_neg (by simpa using hne), ih hrest hrow]

theorem filter_name_eq_nil {α : Type} {rows : List (String × α)} {name : String}
    (h : name ∉ rows.map (·.1)) : rows.filter (·.1 == name) = [] :=
  List.filter_eq_nil_iff.mpr fun row hrow hsame =>
    h (List.mem_map.mpr ⟨row, hrow, beq_iff_eq.mp hsame⟩)

/-! ## Projecting -/

/-- Some match reaches over the offset. -/
def MatchSet.covers (offset : Nat) (set : MatchSet) : Bool := set.found.any (·.span.holds offset)

namespace Grouper

variable {g : Grouper} {text : TaggedText} {tokens : List Token} {p : Perspective}
  {input output : String} {schedule : List Nat}

/-- The matches of several automata can be tagged one after the other, and at each offset the last
one that has a match there counts. -/
theorem tagRows (text : TaggedText) (output : String) (hp : p.Fits text.source)
    {rows : List (String × MatchSet)}
    (hrows : ∀ row ∈ rows, ∀ m ∈ row.2.found, text.source.Admits m.span) :
    ∃ q, rows.foldlM (fun text row => tagMatches output text row.2) (text.put output p)
        = .ok (text.put output q) ∧ q.Fits text.source ∧
      ∀ offset, q.tagAt? offset
        = ((rows.filter (·.2.covers offset)).getLast?.map (·.2.tag)).or (p.tagAt? offset) := by
  induction rows generalizing p with
  | nil => exact ⟨p, rfl, hp, fun _ => rfl⟩
  | cons row rest ih =>
    obtain ⟨hfirst, hrest⟩ := List.forall_mem_cons.mp hrows
    obtain ⟨q, hq, hqfits, hqtag⟩ :=
      TaggedText.tagAll_put text output hp (List.forall_mem_map.mpr hfirst) row.2.tag
    obtain ⟨r, hr, hrfits, hrtag⟩ := ih hqfits hrest
    refine ⟨r, ?_, hrfits, fun offset => ?_⟩
    · rw [List.foldlM_cons, tagMatches, hq]
      exact hr
    · have hcovers : (row.2.found.map Match.span).any (·.holds offset) = row.2.covers offset := by
        rw [List.any_map]
        rfl
      rw [hrtag, hqtag, hcovers, getLast?_filter_cons]
      cases (rest.filter (·.2.covers offset)).getLast? with
      | some last => rfl
      | none => cases row.2.covers offset <;> rfl

/-- The matches of each automaton, under its name. -/
def rows (g : Grouper) (tokens : List Token) : List (String × MatchSet) :=
  g.automata.map fun a => (a.name, ⟨a.tag, a.found g.pairs tokens⟩)

/-- A stream is made of tokens of its perspective. -/
theorem stream_eq_ok (ht : text.Sound) (hs : g.stream text input = .ok tokens) :
    ∃ p, text.perspectives.get? input = some p ∧
      tokens = (p.intervals.map (Token.ofInterval text.source.text)).filter
        fun t => !g.skips.any t.tag.meets := by
  rw [stream] at hs
  cases hp : text.perspectives.get? input with
  | none =>
    rw [TaggedText.tokens_of_none hp] at hs
    cases hs
  | some p =>
    rw [TaggedText.tokens_eq hp (ht input p hp)] at hs
    cases hs
    exact ⟨p, rfl, rfl⟩

theorem ordered_stream (ht : text.Sound) (hs : g.stream text input = .ok tokens) :
    Token.Ordered text.source tokens := by
  obtain ⟨p, hp, rfl⟩ := stream_eq_ok ht hs
  exact (ht input p hp).ordered.sublist List.filter_sublist

theorem alone_ended (h : ∀ lane ∈ (g.scanned tokens schedule).lanes, lane.phase = .ended)
    {a : Automaton} (ha : a ∈ g.automata) : (Lane.alone g.pairs tokens a).1.phase = .ended := by
  rw [lanes_of_halted fun lane hlane => Lane.halted_of_ended (h lane hlane)] at h
  exact h _ (List.mem_map_of_mem ha)

/-- At the end of the stream each automaton has the name and the tag that it had, and its matches
are those that it finds on its own. -/
theorem rows_scanned (h : ∀ lane ∈ (g.scanned tokens schedule).lanes, lane.phase = .ended) :
    ((g.scanned tokens schedule).automata.map fun a => (a.name, matchesOf tokens.toArray a))
      = g.rows tokens := by
  rw [Scan.automata, lanes_of_halted fun lane hlane => Lane.halted_of_ended (h lane hlane),
    List.map_map, List.map_map, rows]
  refine List.map_congr_left fun a ha => ?_
  have hend := (Lane.alone_of_ended (alone_ended h ha)).2
  obtain ⟨hname, htag, -⟩ := (Automaton.sameMachine_feedStream g.pairs a.reset 0 tokens).trans
    (Automaton.sameMachine_finish _)
  rw [Function.comp_apply, Function.comp_apply, hend, matchesOf, hname, htag]
  rfl

/-- At the end of the stream nothing can fail any more: the matches are tagged in a copy of the
input, which is put under the name of the output. -/
theorem project_scanned (ht : text.Sound) (output : String)
    (hs : g.stream text input = .ok tokens)
    (h : ∀ lane ∈ (g.scanned tokens schedule).lanes, lane.phase = .ended) :
    ∃ before after, text.perspectives.get? input = some before ∧ after.Fits text.source ∧
      project tokens.toArray (g.scanned tokens schedule).automata text input output
        = .ok (text.put output after,
            (g.rows tokens).foldl (fun table row => table.insert row.1 row.2) {}) ∧
      ∀ offset, after.tagAt? offset
        = (((g.rows tokens).filter (·.2.covers offset)).getLast?.map (·.2.tag)).or
            (before.tagAt? offset) := by
  obtain ⟨before, hbefore, -⟩ := stream_eq_ok ht hs
  have hrows : ∀ row ∈ g.rows tokens, ∀ m ∈ row.2.found, text.source.Admits m.span := by
    intro row hrow m hm
    obtain ⟨a, ha, rfl⟩ := List.mem_map.mp hrow
    exact ((Automaton.spans_found (ordered_stream ht hs) (alone_ended h ha)).1 m hm).1
  obtain ⟨after, hafter, hfits, htags⟩ := tagRows text output (ht input before hbefore) hrows
  refine ⟨before, after, hbefore, hfits, ?_, htags⟩
  rw [project, TaggedText.copy_eq_ok.mpr ⟨before, hbefore, rfl⟩, rows_scanned h]
  simp only [bind, Except.bind, hafter]
  rfl

/-- What a scan gives once all automata have come to the end of the stream. -/
theorem conclude_scanned (ht : text.Sound) (output : String)
    (hs : g.stream text input = .ok tokens)
    (h : ∀ lane ∈ (g.scanned tokens schedule).lanes, lane.phase = .ended)
    (ds : List Diagnostic) :
    ∃ before after, text.perspectives.get? input = some before ∧ after.Fits text.source ∧
      g.conclude tokens (g.scanned tokens schedule).automata ds text input output
        = ⟨{ g with automata := (g.scanned tokens schedule).automata.map (·.takeCompleted.1) },
            text.put output after, ds,
            .ok ((g.rows tokens).foldl (fun table row => table.insert row.1 row.2) {})⟩ ∧
      ∀ offset, after.tagAt? offset
        = (((g.rows tokens).filter (·.2.covers offset)).getLast?.map (·.2.tag)).or
            (before.tagAt? offset) := by
  obtain ⟨before, after, hbefore, hfits, hproject, htags⟩ := project_scanned ht output hs h
  refine ⟨before, after, hbefore, hfits, ?_, htags⟩
  rw [conclude, hproject]

theorem reachable_project {tokens : Array Token} {automata : List Automaton} {text' : TaggedText}
    {found : ScanResult} (ht : text.Reachable)
    (h : project tokens automata text input output = .ok (text', found)) : text'.Reachable := by
  obtain ⟨copied, hcopy, htags⟩ := bind_eq_ok.mp h
  obtain ⟨tagged, htagged, hsame⟩ := bind_eq_ok.mp htags
  cases hsame
  exact foldlM_invariant (fun ht htag => ht.tagAll htag) (ht.copy hcopy) htagged

/-- A scan makes calls and nothing else, so a text that has been scanned can be scanned again. -/
theorem reachable_scanIn (g : Grouper) (groups : List (List Automaton)) (ht : text.Reachable)
    (input output : String) : (g.scanIn groups text input output).text.Reachable := by
  rw [scanIn]
  cases g.stream text input with
  | error e => exact ht
  | ok tokens =>
    dsimp only
    cases (runGroups g.pairs tokens groups).fault with
    | some fault => exact ht
    | none =>
      dsimp only
      cases hproject : project tokens.toArray (runGroups g.pairs tokens groups).automata text
          input output with
      | error e => exact ht
      | ok projected => exact reachable_project ht hproject

/-- The law of projections, for texts that come about by calls; those that a tokenizer gives are
among them. A scan that succeeds puts a perspective in place of its output and changes no other. At
each offset it has the tag of the automaton registered last that has a match whose span holds the
offset, or else the tag of the input before the scan. The spans of the matches of one automaton
are not empty and follow each other, and the tokens of the matches are those of the stream in its
order. Where no two automata share a name the result has for each name the tag of its automaton
and its matches, and nothing else. -/
theorem scan_projects (g : Grouper) {text : TaggedText} (ht : text.Reachable)
    (input output : String) {o : ScanOutcome}
    (ho : o = g.scan text input output ∨ o = g.scanParallel text input output)
    {found : ScanResult} (hok : o.result = .ok found) :
    ∃ tokens before after,
      (g.stream text input = .ok tokens ∧ text.perspectives.get? input = some before ∧
        o.text.perspectives.get? output = some after) ∧
      (∀ offset, after.tagAt? offset
        = ((g.automata.filter fun a =>
            (a.found g.pairs tokens).any (·.span.holds offset)).getLast?.map (·.tag)).or
            (before.tagAt? offset)) ∧
      (∀ a ∈ g.automata,
        (a.found g.pairs tokens).Pairwise (fun m n => m.span.stop ≤ n.span.start) ∧
        (∀ m ∈ a.found g.pairs tokens, m.span.start < m.span.stop) ∧
        ((a.found g.pairs tokens).flatMap (·.tokens)).Sublist tokens ∧
        (a.runs g.pairs tokens).flatten.Sublist (List.range tokens.length)) ∧
      (o.text.source = text.source ∧ ∀ name, name ≠ output →
        o.text.perspectives.get? name = text.perspectives.get? name) ∧
      ((g.automata.map (·.name)).Nodup →
        (∀ a ∈ g.automata, found.get? a.name = some ⟨a.tag, a.found g.pairs tokens⟩) ∧
        ∀ name, name ∉ g.automata.map (·.name) → found.get? name = none) := by
  have hnames (tokens : List Token) : (g.rows tokens).map (·.1) = g.automata.map (·.name) := by
    rw [rows, List.map_map]
    rfl
  have houtcome : g.Outcome text input output o := by
    rcases ho with rfl | rfl
    · exact outcome_scanIn (List.append_nil _)
    · exact outcome_scanIn (List.flatMap_singleton' _)
  cases houtcome with
  | unread hs => cases hok
  | fault schedule hs hlane hstop => cases hok
  | @ended tokens schedule hs hended =>
    obtain ⟨before, after, hbefore, -, hconclude, htags⟩ :=
      conclude_scanned ht.sound output hs hended
        (Scan.shown tokens (g.scanned tokens schedule).log)
    rw [hconclude] at hok ⊢
    cases hok
    refine ⟨tokens, before, after, ⟨hs, hbefore, TaggedText.get?_put_self text output after⟩,
      fun offset => ?_, fun a ha => ?_, ⟨rfl, fun name hname => ?_⟩, fun hnodup => ⟨?_, ?_⟩⟩
    · rw [htags, rows, List.filter_map, List.getLast?_map, Option.map_map]
      rfl
    · have hend := alone_ended hended ha
      obtain ⟨hspans, hpairs⟩ := Automaton.spans_found (ordered_stream ht.sound hs) hend
      exact ⟨hpairs, fun m hm => (hspans m hm).2, Automaton.tokens_found hend,
        (Automaton.runs_of_ended hend).1⟩
    · exact (TaggedText.get?_put text output name after).trans (if_neg hname)
    · intro a ha
      have hrow : (a.name, (⟨a.tag, a.found g.pairs tokens⟩ : MatchSet)) ∈ g.rows tokens :=
        List.mem_map_of_mem ha
      have hone := filter_name_eq (by rwa [hnames]) hrow
      rw [NameTable.get?_foldl_insert, hone]
      rfl
    · intro name hname
      rw [NameTable.get?_foldl_insert, filter_name_eq_nil (by rwa [hnames])]
      rfl

/-- A text with three tokens, two of which have been tagged. -/
def markedText : TaggedText :=
  ⟨⟨"marked", "abc".toList⟩,
    ⟨[("top", ⟨[⟨⟨0, 1⟩, Tag.of 1⟩, ⟨⟨1, 2⟩, Tag.of 2⟩, ⟨⟨2, 3⟩, Tag.generic⟩], 3⟩)]⟩⟩

theorem reachable_markedText : markedText.Reachable := by
  have hfirst : (TaggedText.ofSource ⟨"marked", "abc".toList⟩).tag "top" 0 1 (Tag.of 1)
      = .ok ⟨⟨"marked", "abc".toList⟩,
          ⟨[("top", ⟨[⟨⟨0, 1⟩, Tag.of 1⟩, ⟨⟨1, 3⟩, Tag.generic⟩], 3⟩)]⟩⟩ := rfl
  have hsecond : TaggedText.tag ⟨⟨"marked", "abc".toList⟩,
      ⟨[("top", ⟨[⟨⟨0, 1⟩, Tag.of 1⟩, ⟨⟨1, 3⟩, Tag.generic⟩], 3⟩)]⟩⟩ "top" 1 2 (Tag.of 2)
      = .ok markedText := rfl
  exact .tag (.tag (.ofSource _) hfirst) hsecond

/-- The tokens of `markedText`. -/
def markedTokens : List Token :=
  [⟨Tag.of 1, ['a'], ⟨0, 1⟩⟩, ⟨Tag.of 2, ['b'], ⟨1, 2⟩⟩, ⟨Tag.generic, ['c'], ⟨2, 3⟩⟩]

def firstToken : Automaton := .new "first" (Tag.of 11) (Pattern.nil.must (Tag.of 1))

def bothTokens : Automaton :=
  .new "both" (Tag.of 12) ((Pattern.nil.must (Tag.of 1)).must (Tag.of 2))

/-- Two automata, the matches of the second around those of the first. -/
def nestedGrouper : Grouper := ⟨⟨{}, [], [], [], {}⟩, {}, [firstToken, bothTokens], []⟩

/-- The output is the input itself; the automaton registered last wins, and both have a match. -/
theorem scan_projects_nestedGrouper :
    ∃ found after, (nestedGrouper.scan markedText "top" "top").result = .ok found ∧
      (nestedGrouper.scan markedText "top" "top").text.perspectives.get? "top" = some after ∧
      [0, 1, 2].map after.tagAt? = [some (Tag.of 12), some (Tag.of 12), some Tag.generic] ∧
      (found.get? "first").map (·.found.map Match.span) = some [⟨0, 1⟩] := by
  have hok : (nestedGrouper.scan markedText "top" "top").result.toOption.isSome = true := by
    decide +kernel
  cases hfound : (nestedGrouper.scan markedText "top" "top").result with
  | error e =>
    rw [hfound] at hok
    cases hok
  | ok found =>
    obtain ⟨tokens, before, after, ⟨hs, hbefore, hafter⟩, htags, -, -, hresult⟩ :=
      scan_projects nestedGrouper reachable_markedText "top" "top" (.inl rfl) hfound
    have hstream : nestedGrouper.stream markedText "top" = .ok markedTokens := rfl
    cases hs.symm.trans hstream
    cases hbefore
    have hfirst : (firstToken.found {} markedTokens).map Match.span = [⟨0, 1⟩] := by
      decide +kernel
    have hboth : (bothTokens.found {} markedTokens).map Match.span = [⟨0, 2⟩] := by
      decide +kernel
    refine ⟨found, after, rfl, hafter, ?_, ?_⟩
    · have hheld (a : Automaton) (offset : Nat) :
          (a.found {} markedTokens).any (·.span.holds offset)
            = ((a.found {} markedTokens).map Match.span).any (·.holds offset) := by
        rw [List.any_map]
        rfl
      simp only [List.map_cons, List.map_nil, htags, nestedGrouper, List.filter_cons, hheld,
        hfirst, hboth]
      decide
    · have hrow := (hresult (by decide)).1 firstToken List.mem_cons_self
      rw [show found.get? "first" = _ from hrow]
      exact congrArg some hfirst

end Grouper

end TagLayers
