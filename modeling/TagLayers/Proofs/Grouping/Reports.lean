import TagLayers.Proofs.Grouping.Orders
import TagLayers.Proofs.Pattern.Regions

/-!
# Warnings for a token

An automaton names itself in its reports, and reports a mismatch with the index of the token that is
being fed, so it reports a token at most once. Tokens of one source with the same span have the same
text. So where no two automata have the same name, the warnings of a scan that reject a token in
the name of an automaton are those of this automaton for this token, and no other token or
automaton can bring about the same warning.

Results:
1. `Automaton.filter_mismatches`: what an automaton reports of one token.
2. `Automaton.filter_warnings`, `Automaton.filter_warnings_eq_nil`: the warnings of an automaton
   that reject a token.
3. `Grouper.filter_shown`, `Grouper.filter_shown_eq_nil`: those of a scan.
-/

namespace TagLayers

theorem mismatches_append (front back : List (Except PatternError (Option Mismatch))) :
    mismatches (front ++ back) = mismatches front ++ mismatches back :=
  List.filterMap_append

theorem mismatches_cons (result : Except PatternError (Option Mismatch))
    (rest : List (Except PatternError (Option Mismatch))) :
    mismatches (result :: rest) = result.toOption.join.toList ++ mismatches rest := by
  cases h : result.toOption.join <;> simp [mismatches, h]

namespace Automaton

variable {pairs : PairTable} {tokens : List Token} {a : Automaton} {i n : Nat} {token : Token}
  {m : Mismatch}

/-- What a call for a token reports names the automaton and the token. -/
theorem mismatch_feed (h : m ∈ (a.feed i token pairs).2.toOption.join.toList) :
    m.pattern = a.name ∧ m.token = i := by
  match hfeed : a.feed i token pairs with
  | (b, .error fault) =>
    rw [hfeed] at h
    cases h
  | (b, .ok mismatch) =>
    rw [hfeed] at h
    obtain rfl : mismatch = some m := Option.mem_toList.mp h
    exact feed_mismatch hfeed

theorem mismatch_feedStream (h : m ∈ mismatches (a.feedStream pairs i tokens).2) :
    m.pattern = a.name ∧ i ≤ m.token ∧ m.token < i + tokens.length := by
  induction tokens generalizing a i with
  | nil => cases h
  | cons token rest ih =>
    have hname := (sameMachine_feed a i token pairs).1
    rw [feedStream, mismatches_cons] at h
    rw [List.length_cons]
    rcases List.mem_append.mp h with h | h
    · obtain ⟨hpattern, rfl⟩ := mismatch_feed h
      exact ⟨hpattern, by omega⟩
    · obtain ⟨hpattern, hbounds⟩ := ih h
      exact ⟨hpattern.trans hname, by omega⟩

/-- The mismatches of a stream with the index of one token are those of the call for it. -/
theorem filter_mismatches (ht : tokens[n]? = some token) :
    (mismatches (a.feedStream pairs 0 tokens).2).filter (·.token == n)
      = ((a.after pairs (tokens.take n)).feed n token pairs).2.toOption.join.toList := by
  obtain ⟨hlt, rfl⟩ := List.getElem?_eq_some_iff.mp ht
  have hlen : (tokens.take n).length = n := List.length_take_of_le (Nat.le_of_lt hlt)
  have hsplit : tokens.take n ++ tokens[n] :: tokens.drop (n + 1) = tokens := by
    rw [← List.drop_eq_getElem_cons hlt, List.take_append_drop]
  have hstream := feedStream_append pairs a 0 (tokens.take n) (tokens[n] :: tokens.drop (n + 1))
  rw [hsplit, hlen, Nat.zero_add] at hstream
  rw [hstream, mismatches_append, feedStream, mismatches_cons, List.filter_append,
    List.filter_append]
  -- the tokens before it have smaller indices, and those after it larger ones
  have hbefore : (mismatches (a.feedStream pairs 0 (tokens.take n)).2).filter (·.token == n)
      = [] := by
    refine List.filter_eq_nil_iff.mpr fun m hm => ?_
    have hbound := (mismatch_feedStream hm).2.2
    rw [beq_iff_eq]
    omega
  have hafter (b : Automaton) :
      (mismatches (b.feedStream pairs (n + 1) (tokens.drop (n + 1))).2).filter (·.token == n)
        = [] := by
    refine List.filter_eq_nil_iff.mpr fun m hm => ?_
    have hbound := (mismatch_feedStream hm).2.1
    rw [beq_iff_eq]
    omega
  rw [hbefore, hafter, List.nil_append, List.append_nil]
  refine List.filter_eq_self.mpr fun m hm => ?_
  rw [(mismatch_feed hm).2]
  exact beq_self_eq_true n

end Automaton

/-! ## Reports of a lane -/

/-- The report is a mismatch of the automaton `name` at the token with index `n`. -/
def Report.blames (name : String) (n : Nat) : Report → Bool
  | mismatch m => m.pattern == name && m.token == n
  | unterminated _ => false

theorem Lane.filter_alone {pairs : PairTable} {tokens : List Token} {a : Automaton} {n : Nat}
    {token : Token} (h : (Lane.alone pairs tokens a).1.phase = .ended)
    (ht : tokens[n]? = some token) :
    (Lane.alone pairs tokens a).2.filter (·.blames a.name n)
      = (((a.reset.after pairs (tokens.take n)).feed n token pairs).2.toOption.join.toList).map
          Report.mismatch := by
  have hend : ((a.reset.feedStream pairs 0 tokens).1.finish.2.map Report.unterminated).toList.filter
      (·.blames a.name n) = [] := by
    refine List.filter_eq_nil_iff.mpr fun r hr => ?_
    obtain ⟨u, -, rfl⟩ := Option.map_eq_some_iff.mp (Option.mem_toList.mp hr)
    exact Bool.false_ne_true
  rw [Lane.reports_of_ended h, List.filter_append, hend, List.append_nil,
    ← Automaton.filter_mismatches ht, List.filter_map]
  congr 1
  refine List.filter_congr fun m hm => ?_
  have hname : m.pattern = a.name := (Automaton.mismatch_feedStream hm).1
  simp [Report.blames, hname]

/-- A lane reports mismatches in the name of its automaton. -/
theorem Lane.pattern_of_mem_alone {pairs : PairTable} {tokens : List Token} {a : Automaton}
    (h : (Lane.alone pairs tokens a).1.phase = .ended) {m : Mismatch}
    (hm : Report.mismatch m ∈ (Lane.alone pairs tokens a).2) : m.pattern = a.name := by
  rw [Lane.reports_of_ended h] at hm
  rcases List.mem_append.mp hm with hm | hm
  · obtain ⟨m', hm', hsame⟩ := List.mem_map.mp hm
    cases hsame
    exact (Automaton.mismatch_feedStream hm').1
  · obtain ⟨u, -, hsame⟩ := Option.map_eq_some_iff.mp (Option.mem_toList.mp hm)
    cases hsame

/-! ## Warnings that reject a token -/

/-- The text of the token is the text of the source under its span. -/
def Token.IsOf (source : Source) (t : Token) : Prop :=
  t.text = source.text.slice t.span.start t.span.stop

/-- Tokens in order are told apart by their spans. -/
theorem Token.Ordered.index_eq {source : Source} {tokens : List Token}
    (h : Token.Ordered source tokens) {i j : Nat} {t u : Token} (hi : tokens[i]? = some t)
    (hj : tokens[j]? = some u) (hspan : t.span = u.span) : i = j := by
  obtain ⟨hit, rfl⟩ := List.getElem?_eq_some_iff.mp hi
  obtain ⟨hjt, rfl⟩ := List.getElem?_eq_some_iff.mp hj
  have hlen := (h.1 _ (List.getElem_mem hit)).2
  have hlen' := (h.1 _ (List.getElem_mem hjt)).2
  rcases Nat.lt_trichotomy i j with hlt | heq | hlt
  · have hafter := List.pairwise_iff_getElem.mp h.2 i j hit hjt hlt
    rw [← hspan] at hafter
    omega
  · exact heq
  · have hafter := List.pairwise_iff_getElem.mp h.2 j i hjt hit hlt
    rw [hspan] at hafter
    omega

/-- The diagnostic is a warning that the automaton `name` has rejected the token. -/
def Diagnostic.rejects (token : Token) (name : String) (d : Diagnostic) : Bool :=
  d.code == .syntaxMismatch && d.span == token.span
    && d.message == s!"unexpected {String.ofList (Grouper.shownText token)} in {name}"

/-- A mismatch rejects a token of the same source exactly if it is about its span. -/
theorem Grouper.rejects_mismatchWarning {t token : Token}
    (h : t.span = token.span → t.text = token.text) (m : Mismatch) (name : String) :
    (mismatchWarning t m).rejects token name = true ↔ t.span = token.span ∧ m.pattern = name := by
  have hrejects : (mismatchWarning t m).rejects token name = true ↔ t.span = token.span ∧
      "unexpected " ++ String.ofList (shownText t) ++ " in " ++ m.pattern
        = "unexpected " ++ String.ofList (shownText token) ++ " in " ++ name := by
    rw [Diagnostic.rejects, Bool.and_eq_true, Bool.and_eq_true, beq_iff_eq, beq_iff_eq, beq_iff_eq]
    exact and_congr_left' (and_iff_right rfl)
  rw [hrejects]
  refine and_congr_right fun hspan => ?_
  rw [shownText, shownText, h hspan]
  exact String.append_right_inj _

theorem Grouper.rejects_unterminatedWarning (t token : Token) (u : Unterminated) (name : String) :
    (unterminatedWarning t u).rejects token name = false := rfl

theorem Report.rejects_iff {source : Source} {tokens : List Token}
    (hof : ∀ t ∈ tokens, t.IsOf source) {token : Token} (htoken : token.IsOf source) {name : String}
    {r : Report} {d : Diagnostic} (hd : r.diagnostic? tokens = some d) :
    d.rejects token name = true ↔
      ∃ m t, r = .mismatch m ∧ tokens[m.token]? = some t ∧ t.span = token.span ∧
        m.pattern = name := by
  cases r with
  | mismatch m =>
    obtain ⟨t, ht, rfl⟩ := Option.map_eq_some_iff.mp hd
    have htext (hspan : t.span = token.span) : t.text = token.text := by
      rw [hof t (List.mem_of_getElem? ht), htoken, hspan]
    rw [Grouper.rejects_mismatchWarning htext]
    constructor
    · rintro ⟨hspan, hname⟩
      exact ⟨m, t, rfl, ht, hspan, hname⟩
    · rintro ⟨m', t', hm, ht', hspan, hname⟩
      cases hm
      cases ht.symm.trans ht'
      exact ⟨hspan, hname⟩
  | unterminated u =>
    obtain ⟨t, ht, rfl⟩ := Option.map_eq_some_iff.mp hd
    rw [Grouper.rejects_unterminatedWarning]
    constructor
    · intro h
      cases h
    · rintro ⟨m, t, hm, -⟩
      cases hm

/-- A warning rejects a token of the stream if its report blames the automaton at its index. -/
theorem Report.rejects_eq_blames {source : Source} {tokens : List Token}
    (hordered : Token.Ordered source tokens) (hof : ∀ t ∈ tokens, t.IsOf source) {n : Nat}
    {token : Token} (htoken : tokens[n]? = some token) (name : String) {r : Report}
    {d : Diagnostic} (hd : r.diagnostic? tokens = some d) :
    d.rejects token name = r.blames name n := by
  rw [Bool.eq_iff_iff, rejects_iff hof (hof token (List.mem_of_getElem? htoken)) hd]
  constructor
  · rintro ⟨m, t, rfl, ht, hspan, rfl⟩
    simp [blames, hordered.index_eq ht htoken hspan]
  · intro hblames
    cases r with
    | mismatch m =>
      simp only [blames, Bool.and_eq_true, beq_iff_eq] at hblames
      obtain ⟨rfl, rfl⟩ := hblames
      exact ⟨m, token, rfl, htoken, rfl, rfl⟩
    | unterminated u => cases hblames

namespace Automaton

variable {pairs : PairTable} {source : Source} {tokens : List Token} {a : Automaton} {token : Token}

/-- The warnings of an automaton that reject a token in its name are about what it has reported when
it was fed the token. -/
theorem filter_warnings (h : (Lane.alone pairs tokens a).1.phase = .ended)
    (hordered : Token.Ordered source tokens) (hof : ∀ t ∈ tokens, t.IsOf source) {n : Nat}
    (htoken : tokens[n]? = some token) :
    (a.warnings pairs tokens).filter (·.rejects token a.name)
      = (((a.reset.after pairs (tokens.take n)).feed n token pairs).2.toOption.join.toList).map
          (Grouper.mismatchWarning token) := by
  have hblames : (a.warnings pairs tokens).filter (·.rejects token a.name)
      = ((Lane.alone pairs tokens a).2.filter (·.blames a.name n)).filterMap
          (·.diagnostic? tokens) := by
    rw [warnings, List.filter_filterMap, List.filterMap_filter]
    refine List.filterMap_congr fun r _ => ?_
    cases hd : r.diagnostic? tokens with
    | none => simp
    | some d => rw [Option.filter_some, Report.rejects_eq_blames hordered hof htoken _ hd]
  rw [hblames, Lane.filter_alone h htoken, List.filterMap_map, ← List.filterMap_eq_map]
  refine List.filterMap_congr fun m hm => ?_
  show tokens[m.token]?.map (Grouper.mismatchWarning · m) = some (Grouper.mismatchWarning token m)
  rw [(mismatch_feed hm).2, htoken]
  rfl

theorem filter_warnings_eq_nil (h : (Lane.alone pairs tokens a).1.phase = .ended)
    (hof : ∀ t ∈ tokens, t.IsOf source) (htoken : token.IsOf source) {name : String}
    (hname : a.name ≠ name) : (a.warnings pairs tokens).filter (·.rejects token name) = [] := by
  refine List.filter_eq_nil_iff.mpr fun d hd hrejects => ?_
  obtain ⟨r, hr, hd⟩ := List.mem_filterMap.mp hd
  obtain ⟨m, t, rfl, -, -, hpattern⟩ := (Report.rejects_iff hof htoken hd).mp hrejects
  exact hname ((Lane.pattern_of_mem_alone h hr).symm.trans hpattern)

end Automaton

namespace Grouper

variable {g : Grouper} {source : Source} {tokens : List Token} {schedule : List Nat}

/-- The tokens of a stream have the texts under their spans. -/
theorem isOf_stream {text : TaggedText} {input : String} (ht : text.Sound)
    (hs : g.stream text input = .ok tokens) {t : Token} (htoken : t ∈ tokens) :
    t.IsOf text.source := by
  obtain ⟨p, -, rfl⟩ := stream_eq_ok ht hs
  obtain ⟨iv, -, rfl⟩ := List.mem_map.mp (List.mem_filter.mp htoken).1
  rfl

/-- The warnings of a scan that reject a token in the name of one of its automata are about what the
automaton has reported when it was fed the token. -/
theorem filter_shown (h : ∀ lane ∈ (g.scanned tokens schedule).lanes, lane.phase = .ended)
    (hnames : (g.automata.map (·.name)).Nodup) {a : Automaton} (ha : a ∈ g.automata)
    (hordered : Token.Ordered source tokens) (hof : ∀ t ∈ tokens, t.IsOf source) {n : Nat}
    {token : Token} (htoken : tokens[n]? = some token) :
    (Scan.shown tokens (g.scanned tokens schedule).log).filter (·.rejects token a.name)
      = (((a.reset.after g.pairs (tokens.take n)).feed n token g.pairs).2.toOption.join.toList).map
          (mismatchWarning token) := by
  have hisOf : token.IsOf source := hof token (List.mem_of_getElem? htoken)
  have hrows := (interleaves_shown h).filter (·.rejects token a.name)
  obtain ⟨front, back, hsplit⟩ := List.append_of_mem ha
  have hends (b : Automaton) (hb : b ∈ front ++ a :: back) :=
    alone_ended h (hsplit.symm ▸ hb : b ∈ g.automata)
  rw [hsplit, List.map_append, List.map_cons] at hnames
  obtain ⟨-, hback, hfront⟩ := List.nodup_append.mp hnames
  rw [warnings, hsplit, List.map_map, List.map_append, List.map_cons] at hrows
  -- no other automaton has that name, so only the row of this one is left
  have hall := hrows.eq_row (List.forall_mem_map.mpr fun b hb => ?before)
    (List.forall_mem_map.mpr fun b hb => ?after)
  case before =>
    exact Automaton.filter_warnings_eq_nil (hends b (List.mem_append_left _ hb)) hof hisOf
      (hfront _ (List.mem_map_of_mem hb) _ List.mem_cons_self)
  case after =>
    refine Automaton.filter_warnings_eq_nil
      (hends b (List.mem_append_right _ (List.mem_cons_of_mem _ hb))) hof hisOf fun hsame => ?_
    refine (List.nodup_cons.mp hback).1 ?_
    rw [← hsame]
    exact List.mem_map_of_mem hb
  rw [hall]
  exact Automaton.filter_warnings (alone_ended h ha) hordered hof htoken

/-- No warning of a scan rejects a token in a name that none of its automata has. -/
theorem filter_shown_eq_nil (h : ∀ lane ∈ (g.scanned tokens schedule).lanes, lane.phase = .ended)
    (hof : ∀ t ∈ tokens, t.IsOf source) {token : Token} (htoken : token.IsOf source) {name : String}
    (hname : name ∉ g.automata.map (·.name)) :
    (Scan.shown tokens (g.scanned tokens schedule).log).filter (·.rejects token name) = [] := by
  have hperm := ((interleaves_shown h).filter (·.rejects token name)).perm
  have hnone : ((g.warnings tokens).map (·.filter (·.rejects token name))).flatten = [] := by
    rw [List.flatten_eq_nil_iff, warnings, List.map_map]
    refine List.forall_mem_map.mpr fun a ha => ?_
    refine Automaton.filter_warnings_eq_nil (alone_ended h ha) hof htoken fun hsame => hname ?_
    rw [← hsame]
    exact List.mem_map_of_mem ha
  rw [hnone] at hperm
  exact hperm.eq_nil

end Grouper

end TagLayers
