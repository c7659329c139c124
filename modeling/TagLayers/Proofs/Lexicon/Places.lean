import TagLayers.Proofs.Lexicon.OpenStrings

/-!
# Places of segments

A segment stands in its row behind the text of those before it, and this is all that the span of its
token depends on. A rule divides each segment where it stands. So a stretch of the row that is not
classified as a whole has a byte that is, unless it lies in one generic segment.

Results:
1. `Stands.ofRules`, `Stands.exists_outer`: where the parts of a segment stand.
2. `Fits.map_ofInterval`, `mem_tokensAfter`: the tokens of a row.
3. `lies_or_shares`: where a stretch of a row lies.
4. `tokenize_rules`: the tokens of the last three passes.
-/

namespace TagLayers

/-- The span of a text that follows another one. -/
def Text.spanAfter (before text : Text) : Span :=
  ⟨before.byteLen, before.byteLen + text.byteLen⟩

/-- Some byte lies in both spans. -/
def Span.SharesByte (s s' : Span) : Prop :=
  ∃ offset, s.holds offset = true ∧ s'.holds offset = true

theorem Text.holds_spanAfter {before text : Text} {offset : Nat} :
    (before.spanAfter text).holds offset = true
      ↔ before.byteLen ≤ offset ∧ offset < before.byteLen + text.byteLen := by
  rw [spanAfter, Span.holds, Bool.and_eq_true, decide_eq_true_eq, decide_eq_true_eq]

theorem Text.byteLen_pos {text : Text} (h : text ≠ []) : 0 < text.byteLen :=
  Nat.pos_of_ne_zero fun h0 => h (eq_nil_of_byteLen h0)

namespace Segment

variable {rules : List Rule} {row x y : List Segment} {before outer inner t after : Text}
  {s g : Segment}

/-- The segment stands in the row behind a text. -/
def Stands (row : List Segment) (before : Text) (g : Segment) : Prop :=
  ∃ x y, row = x ++ g :: y ∧ join x = before

theorem Stands.mem (h : Stands row before g) : g ∈ row := by
  obtain ⟨x, y, rfl, -⟩ := h
  exact List.mem_append_right x List.mem_cons_self

theorem stands_singleton (s : Segment) : Stands [s] [] s := ⟨[], [], rfl, rfl⟩

theorem Stands.eq_of_singleton (h : Stands [s] before g) : before = [] ∧ g = s := by
  obtain ⟨x, y, hrow, rfl⟩ := h
  obtain ⟨rfl, rfl, -⟩ := eq_of_singleton_eq hrow
  exact ⟨rfl, rfl⟩

theorem stands_cons :
    Stands (s :: row) before g
      ↔ before = [] ∧ g = s ∨ ∃ later, before = s.text ++ later ∧ Stands row later g := by
  constructor
  · rintro ⟨x, y, hrow, rfl⟩
    cases x with
    | nil =>
      obtain ⟨rfl, -⟩ := List.cons.inj hrow
      exact .inl ⟨rfl, rfl⟩
    | cons s' x =>
      obtain ⟨rfl, rfl⟩ := List.cons.inj hrow
      exact .inr ⟨join x, rfl, x, y, rfl, rfl⟩
  · rintro (⟨rfl, rfl⟩ | ⟨later, rfl, x, y, rfl, rfl⟩)
    · exact ⟨[], row, rfl, rfl⟩
    · exact ⟨s :: x, y, rfl, rfl⟩

/-! ## What rules make of a segment -/

/-- What rules make of a segment stands where the segment has stood. -/
theorem Stands.ofRules (hrules : ∀ rule ∈ rules, Tokenizer.Lossless rule.find)
    (hs : Stands row outer s) (hg : Stands (ofRules rules [s]) inner g) :
    Stands (Segment.ofRules rules row) (outer ++ inner) g := by
  obtain ⟨x, y, rfl, rfl⟩ := hs
  obtain ⟨u, v, hparts, rfl⟩ := hg
  refine ⟨Segment.ofRules rules x ++ u, v ++ Segment.ofRules rules y, ?_, ?_⟩
  · rw [ofRules_flatMap rules (x ++ s :: y), List.flatMap_append, List.flatMap_cons, hparts,
      ← ofRules_flatMap, ← ofRules_flatMap]
    simp
  · rw [join_append, join_ofRules hrules]

theorem Stands.exists_outer (hrules : ∀ rule ∈ rules, Tokenizer.Lossless rule.find)
    (h : Stands (Segment.ofRules rules row) before g) :
    ∃ outer s inner, Stands row outer s ∧ Stands (Segment.ofRules rules [s]) inner g ∧
      before = outer ++ inner := by
  obtain ⟨x, y, hrow, rfl⟩ := h
  rw [ofRules_flatMap] at hrow
  obtain ⟨x₀, s, y₀, u, v, rfl, hs, rfl, rfl⟩ := exists_of_flatMap_eq hrow
  refine ⟨join x₀, s, join u, ⟨x₀, y₀, rfl, rfl⟩, ⟨u, v, hs, rfl⟩, ?_⟩
  rw [join_append, ← ofRules_flatMap, join_ofRules hrules]

/-- What has been classified stays where it is. -/
theorem Stands.kept (hrules : ∀ rule ∈ rules, Tokenizer.Lossless rule.find)
    (h : Stands row before g) (hg : g.tag.isGeneric = false) :
    Stands (Segment.ofRules rules row) before g := by
  have hself : Stands (Segment.ofRules rules [g]) [] g := by
    rw [ofRules_of_tagged rules hg]
    exact stands_singleton g
  have hkept := h.ofRules hrules hself
  rwa [List.append_nil] at hkept

/-- A generic segment is part of one that was generic before. -/
theorem exists_of_generic (hrules : ∀ rule ∈ rules, Tokenizer.Lossless rule.find)
    (h : g ∈ ofRules rules row) (hg : g.tag.isGeneric = true) :
    ∃ s ∈ row, s.tag.isGeneric = true ∧ g.text <:+: s.text := by
  rw [ofRules_flatMap] at h
  obtain ⟨s, hs, hparts⟩ := List.mem_flatMap.mp h
  obtain ⟨u, v, huv⟩ := List.append_of_mem hparts
  refine ⟨s, hs, isGeneric_of_ofRules huv hg, join u, join v, ?_⟩
  have hjoin := join_ofRules hrules [s]
  rw [huv, join_append, join_cons] at hjoin
  rw [List.append_assoc, hjoin]
  exact List.append_nil _

theorem mem_ofPieces {label : Tag} {run : Text} {pieces : List Piece}
    (h : g ∈ ofPieces label run pieces) :
    g.text ≠ [] ∧ (g.tag.isGeneric = true ∨ g.tag = label) := by
  induction pieces generalizing run with
  | nil => exact (ne_nil_of_mem_gap h).imp_right .inl
  | cons piece rest ih =>
    cases piece with
    | plain c => exact ih h
    | found t =>
      rw [ofPieces] at h
      split at h
      · exact ih h
      · next ht =>
        rcases List.mem_append.mp h with h | h
        · exact (ne_nil_of_mem_gap h).imp_right .inl
        · rcases List.mem_cons.mp h with rfl | h
          · exact ⟨fun hnil => ht (List.isEmpty_iff.mpr hnil), .inr rfl⟩
          · exact ih h

/-- What was not there before has come about when one of the rules searched what those before it
have left. -/
theorem exists_rule (h : g ∈ ofRules rules row) :
    g ∈ row ∨ ∃ earlier rule later s, rules = earlier ++ rule :: later ∧
      s ∈ ofRules earlier row ∧ s.tag.isGeneric = true ∧
      g ∈ ofPieces rule.label [] (rule.find s.text) := by
  induction rules generalizing row with
  | nil => exact .inl h
  | cons rule rules ih =>
    rcases ih h with hrow | ⟨earlier, rule', later, s, rfl, hs, hgeneric, hfound⟩
    · obtain ⟨s, hs, hparts⟩ := List.mem_flatMap.mp hrow
      unfold split at hparts
      split at hparts
      · next hgeneric => exact .inr ⟨[], rule, rules, s, rfl, hs, hgeneric, hparts⟩
      · rw [List.mem_singleton.mp hparts]
        exact .inl hs
    · exact .inr ⟨rule :: earlier, rule', later, s, rfl, hs, hgeneric, hfound⟩

/-- In a text each segment is generic or has the label of one of the rules. -/
theorem label_of_mem_ofRules {text : Text} (h : g ∈ ofRules rules (gap text)) :
    g.tag.isGeneric = true ∨ ∃ rule ∈ rules, g.tag = rule.label := by
  refine forall_mem_ofRules (Q := fun g => g.tag.isGeneric = true ∨ ∃ rule ∈ rules,
    g.tag = rule.label) (fun rule hrule text s hs => ?_) (fun s hs => ?_) g h
  · exact (mem_ofPieces hs).2.imp_right fun hlabel => ⟨rule, hrule, hlabel⟩
  · exact .inl (ne_nil_of_mem_gap hs).2

theorem ne_nil_of_ofRules (hrow : ∀ s ∈ row, s.text ≠ []) :
    ∀ g ∈ ofRules rules row, g.text ≠ [] :=
  forall_mem_ofRules (fun _ _ _ _ hs => (mem_ofPieces hs).1) hrow

/-- No segment of a text is empty. -/
theorem ne_nil_of_mem_ofRules {text : Text} : ∀ g ∈ ofRules rules (gap text), g.text ≠ [] :=
  ne_nil_of_ofRules fun _ hs => (ne_nil_of_mem_gap hs).1

theorem alternates_ofRules (hlabels : ∀ rule ∈ rules, rule.label.isGeneric = false)
    (hrow : Alternates row) : Alternates (ofRules rules row) := by
  induction rules generalizing row with
  | nil => exact hrow
  | cons rule rules ih =>
    obtain ⟨hlabel, hlater⟩ := List.forall_mem_cons.mp hlabels
    exact ih hlater (alternates_split hlabel hrow)

/-! ## Stretches of a row -/

/-- A stretch of a row lies in a generic segment, or shares a byte with one that is not generic. -/
theorem lies_or_shares (halternates : Alternates row) (hrow : ∀ s ∈ row, s.text ≠ [])
    (hjoin : join row = before ++ (t ++ after)) (ht : t ≠ []) :
    (∃ outer g a b, Stands row outer g ∧ g.tag.isGeneric = true ∧ g.text = a ++ (t ++ b) ∧
      outer ++ a = before) ∨
    ∃ outer g, Stands row outer g ∧ g.tag.isGeneric = false ∧
      (outer.spanAfter g.text).SharesByte (before.spanAfter t) := by
  obtain ⟨c, t, rfl⟩ := List.exists_cons_of_ne_nil ht
  -- the segment that the stretch starts in
  obtain ⟨x, s, y, a, b, rfl, hs, rfl, hrest⟩ := exists_of_flatMap_eq hjoin
  have hc := c.utf8Size_pos
  have hstands : Stands (x ++ s :: y) (join x) s := ⟨x, y, rfl, rfl⟩
  cases hg : s.tag.isGeneric with
  | false =>
    refine .inr ⟨join x, s, hstands, hg, (join x ++ a).byteLen, ?_, ?_⟩
    · rw [Text.holds_spanAfter, hs]
      simp only [Text.byteLen_append, Text.byteLen]
      omega
    · rw [← join, Text.holds_spanAfter]
      simp only [Text.byteLen_append, Text.byteLen]
      omega
  | true =>
    rcases List.append_eq_append_iff.mp hrest with ⟨u, rfl, -⟩ | ⟨u, rfl, hy⟩
    · exact .inl ⟨join x, s, a, u, hstands, hg, hs, rfl⟩
    · cases y with
      | nil =>
        obtain rfl := (List.append_eq_nil_iff.mp hy.symm).1
        rw [List.append_nil]
        exact .inl ⟨join x, s, a, [], hstands, hg, by simpa using hs, rfl⟩
      | cons next y =>
        by_cases hu : u = []
        · subst hu
          rw [List.append_nil]
          exact .inl ⟨join x, s, a, [], hstands, hg, by simpa using hs, rfl⟩
        · -- the stretch goes on in the next segment, which is not generic
          have hnext : next.tag.isGeneric = false := halternates.next hg next rfl
          have hpos := Text.byteLen_pos (hrow next (by simp))
          have hupos := Text.byteLen_pos hu
          refine .inr ⟨join x ++ s.text, next, ⟨x ++ [s], y, by simp, ?_⟩, hnext,
            (join x ++ s.text).byteLen, ?_, ?_⟩
          · rw [join_append, join_cons]
            exact congrArg _ (List.append_nil _)
          · rw [Text.holds_spanAfter]
            omega
          · rw [← join, Text.holds_spanAfter, hs]
            simp only [Text.byteLen_append, Text.byteLen]
            omega

/-! ## Tokens -/

/-- The tokens of a row that follows a text. -/
def tokensAfter (before : Text) : List Segment → List Token
  | [] => []
  | s :: row => ⟨s.tag, s.text, before.spanAfter s.text⟩ :: tokensAfter (before ++ s.text) row

theorem mem_tokensAfter {token : Token} :
    token ∈ tokensAfter before row ↔ ∃ outer, Stands row outer token.segment ∧
      token.span = (before ++ outer).spanAfter token.text := by
  induction row generalizing before with
  | nil =>
    refine ⟨fun h => (nomatch h), ?_⟩
    rintro ⟨outer, hstands, -⟩
    exact nomatch hstands.mem
  | cons s row ih =>
    rw [tokensAfter, List.mem_cons, ih]
    constructor
    · rintro (rfl | ⟨outer, hstands, hspan⟩)
      · refine ⟨[], stands_cons.mpr (.inl ⟨rfl, rfl⟩), ?_⟩
        rw [List.append_nil]
      · refine ⟨s.text ++ outer, stands_cons.mpr (.inr ⟨outer, rfl, hstands⟩), ?_⟩
        rwa [← List.append_assoc]
    · rintro ⟨outer, hstands, hspan⟩
      rcases stands_cons.mp hstands with ⟨rfl, hsegment⟩ | ⟨later, rfl, hlater⟩
      · rw [List.append_nil] at hspan
        refine .inl ?_
        rw [← hsegment]
        exact congrArg (Token.mk token.tag token.text) hspan
      · rw [← List.append_assoc] at hspan
        exact .inr ⟨later, hlater, hspan⟩

theorem mem_tokens {token : Token} :
    token ∈ tokensAfter [] row ↔ ∃ outer, Stands row outer token.segment ∧
      token.span = outer.spanAfter token.text :=
  mem_tokensAfter

end Segment

namespace Perspective.Fits

variable {source : Source} {p : Perspective}

/-- The tokens are those of the segments. -/
theorem map_ofInterval (hp : p.Fits source) :
    p.intervals.map (Token.ofInterval source.text)
      = Segment.tokensAfter [] (p.segments source) := by
  have hrow {row : List Interval} {stop : Nat} {before : Text}
      (hfills : Interval.Fills stop before.byteLen row)
      (hadmits : ∀ iv ∈ row, source.Admits iv.span) :
      row.map (Token.ofInterval source.text)
        = Segment.tokensAfter before (row.map (Segment.ofInterval source.text)) := by
    induction row generalizing before with
    | nil => rfl
    | cons iv rest ih =>
      obtain ⟨hstart, -, hrest⟩ := hfills
      obtain ⟨hiv, hlater⟩ := List.forall_mem_cons.mp hadmits
      have hstop : before.byteLen + (Segment.ofInterval source.text iv).text.byteLen
          = iv.span.stop := by
        rw [← hstart]
        exact Tokenizer.byteLen_slice hiv
      have hspan : before.spanAfter (Segment.ofInterval source.text iv).text = iv.span := by
        rw [Text.spanAfter, hstop, ← hstart]
      rw [List.map_cons, List.map_cons, Segment.tokensAfter, hspan]
      refine congrArg _ (ih ?_ hlater)
      rwa [Text.byteLen_append, hstop]
  exact hrow hp.filled fun iv hiv => (hp.admits hiv).1

end Perspective.Fits

namespace Tokenizer

open Segment

variable {source : Source} {p : Perspective}

/-- The rules of the first passes of a tokenizer, in order. -/
def rulesOf (t : Tokenizer) (passes : Nat) : List Rule :=
  (t.passes.take passes).flatMap (·.rules)

theorem mem_rulesOf {t : Tokenizer} {passes : Nat} {rule : Rule} (h : rule ∈ t.rulesOf passes) :
    Lossless rule.find ∧ rule.label.isGeneric = false := by
  obtain ⟨pass, hpass, hrule⟩ := List.mem_flatMap.mp h
  have hmem := List.mem_of_mem_take hpass
  exact ⟨lossless_of_mem_passes hmem hrule, label_of_mem_passes hmem hrule⟩

theorem getElem?_layers {passes : List Pass} {n : Nat} (hn : n ≤ passes.length) :
    (p :: layers source p passes)[n]?
      = some (((passes.take n).flatMap (·.rules)).foldl (refine source) p) := by
  induction passes generalizing p n with
  | nil =>
    obtain rfl := Nat.le_zero.mp hn
    rfl
  | cons pass rest ih =>
    cases n with
    | zero => rfl
    | succ n =>
      rw [List.take_succ_cons, List.flatMap_cons, List.foldl_append]
      exact ih (Nat.le_of_succ_le_succ hn)

/-- The tokens of each perspective are what the rules make of the source. -/
theorem tokenize_rules (t : Tokenizer) (source : Source) :
    ∃ text, t.tokenize source = .ok text ∧ ∀ n name, perspectiveNames[n]? = some name →
      text.tokens name = .ok (tokensAfter [] (ofRules (t.rulesOf n) (gap source.text))) := by
  obtain ⟨text, htext, hsound, rfl, hnames⟩ := t.get?_perspectiveNames source
  refine ⟨text, htext, fun n name hname => ?_⟩
  obtain ⟨hn, -⟩ := List.getElem?_eq_some_iff.mp hname
  have hget : text.perspectives.get? name = some
      ((t.rulesOf n).foldl (refine text.source) (Perspective.fresh text.source.length)) := by
    have hrow := congrArg (·[n]?) hnames
    rw [List.getElem?_map, List.getElem?_map, hname, getElem?_layers (Nat.le_of_lt_succ hn)] at hrow
    exact Option.some.inj hrow
  have hfits := hsound name _ hget
  rw [TaggedText.tokens_eq hget hfits, hfits.map_ofInterval,
    segments_refines (.fresh text.source) fun rule hrule => (mem_rulesOf hrule).1, segments_fresh]

end Tokenizer

end TagLayers
