import TagLayers.Proofs.Lexicon.Tokenization

/-!
# Layouts

A rule puts something in place of each generic interval and leaves all others alone. What it puts
there is the layout of what its search has found: one interval for each stretch, with the label of
the rule, and one for all that lies between two of them.

Results:
1. `sweep_layout`: tagging what was found in one generic interval.
2. `sweep_findsIn`: tagging what was found in a row.
3. `applyRule_eq`, `runPass_eq`: what rules and passes write.
4. `get?_runPasses`: the perspectives that passes leave alone.
-/

namespace TagLayers

/-- A character that stays generic, or a stretch that has been given a tag. -/
inductive Mark where
  | plain (c : Char)
  | tagged (label : Tag) (text : Text)
deriving DecidableEq, Repr

namespace Mark

def text : Mark → Text
  | plain c => [c]
  | tagged _ t => t

def join (marks : List Mark) : Text := marks.flatMap text

/-- The pieces of a search that finds stretches for a label. Empty finds are left out. -/
def ofPieces (label : Tag) : List Piece → List Mark
  | [] => []
  | .plain c :: rest => plain c :: ofPieces label rest
  | .found t :: rest =>
      if t.isEmpty then ofPieces label rest else tagged label t :: ofPieces label rest

/-- The generic interval between two offsets, if there is anything between them. -/
def gap (start stop : Nat) : List Interval :=
  if start < stop then [⟨⟨start, stop⟩, Tag.generic⟩] else []

/-- The intervals of marks from the offset `pos` on, after generic text from `start` to `pos`. -/
def layout (start pos : Nat) : List Mark → List Interval
  | [] => gap start pos
  | plain c :: rest => layout start (pos + c.utf8Size) rest
  | tagged label t :: rest =>
      gap start pos ++ ⟨⟨pos, pos + t.byteLen⟩, label⟩ ::
        layout (pos + t.byteLen) (pos + t.byteLen) rest

theorem gap_of_lt {start stop : Nat} (h : start < stop) :
    gap start stop = [⟨⟨start, stop⟩, Tag.generic⟩] := if_pos h

theorem gap_self (start : Nat) : gap start start = [] := if_neg (Nat.lt_irrefl start)

end Mark

/-! ## Sweeping a row -/

namespace Interval

open Mark

/-- A generic interval is divided at an offset in it or at its ends. -/
theorem divide_gap {start offset stop last : Nat} (hstart : start ≤ offset) (hstop : offset ≤ stop)
    {tail : List Interval} (htail : Fills last stop tail) :
    divide offset (gap start stop ++ tail)
      = (gap start offset, gap offset stop ++ tail) := by
  by_cases hlt : start < stop
  · rw [gap_of_lt hlt, List.singleton_append, divide]
    dsimp only
    split
    · next hle =>
      obtain rfl : offset = stop := Nat.le_antisymm hstop hle
      rw [divide_fills htail (Nat.le_refl _), gap_self, gap_of_lt hlt]
      rfl
    · next hle =>
      rw [gap_of_lt (Nat.not_le.mp hle)]
      split
      · next hcut =>
        rw [gap_of_lt hcut]
        rfl
      · next hcut =>
        obtain rfl : start = offset := Nat.le_antisymm hstart (Nat.not_lt.mp hcut)
        rw [gap_self]
        rfl
  · obtain rfl : start = offset := by omega
    obtain rfl : start = stop := by omega
    rw [gap_self]
    exact divide_fills htail (Nat.le_refl _)

theorem around_gap {start stop last : Nat} {s : Span} (hstart : start ≤ s.start)
    (horder : s.start ≤ s.stop) (hstop : s.stop ≤ stop) {tail : List Interval}
    (htail : Fills last stop tail) :
    around s (gap start stop ++ tail) = (gap start s.start, gap s.stop stop ++ tail) := by
  rw [around, divide_gap hstart (Nat.le_trans horder hstop) htail]
  dsimp only
  rw [divide_gap horder hstop htail]

/-- What lies before all spans is left alone. -/
theorem sweep_append (label : Tag) {spans : List Span} {done : List Interval}
    (h : ∀ iv ∈ done, ∀ s ∈ spans, iv.span.stop ≤ s.start) (row : List Interval) :
    sweep label spans (done ++ row) = done ++ sweep label spans row := by
  cases spans with
  | nil => rfl
  | cons s more =>
    rw [sweep, around_append fun iv hiv => h iv hiv s List.mem_cons_self]
    exact List.append_assoc _ _ _

theorem start_le_of_inOrder {length pos : Nat} {spans : List Span}
    (h : Span.inOrder length pos spans = true) {s : Span} (hs : s ∈ spans) : pos ≤ s.start := by
  induction spans generalizing pos with
  | nil => cases hs
  | cons first more ih =>
    simp only [Span.inOrder, Bool.and_eq_true, decide_eq_true_eq] at h
    obtain ⟨⟨⟨hpos, hlt⟩, -⟩, hmore⟩ := h
    rcases List.mem_cons.mp hs with rfl | hs
    · exact hpos
    · have hlater := ih hmore hs
      omega

/-- The ranges of what was found, and then those of what was found later. -/
theorem inOrder_ranges {length start pos stop : Nat} {pieces : List Piece} (hstart : start ≤ pos)
    (hstop : pos + (Piece.join pieces).byteLen = stop) (hlength : stop ≤ length) {more : List Span}
    (hmore : Span.inOrder length stop more = true) :
    Span.inOrder length start (Piece.ranges pos pieces ++ more) = true := by
  induction pieces generalizing start pos with
  | nil =>
    obtain rfl : pos = stop := hstop
    cases more with
    | nil => rfl
    | cons s rest =>
      simp only [Piece.ranges, List.nil_append, Span.inOrder, Bool.and_eq_true,
        decide_eq_true_eq] at hmore ⊢
      exact ⟨⟨⟨Nat.le_trans hstart hmore.1.1.1, hmore.1.1.2⟩, hmore.1.2⟩, hmore.2⟩
  | cons piece rest ih =>
    rw [Piece.join_cons, Text.byteLen_append, ← Nat.add_assoc] at hstop
    cases piece with
    | plain c => exact ih (Nat.le_add_right_of_le hstart) hstop
    | found t =>
      change pos + t.byteLen + _ = stop at hstop
      by_cases hempty : t.isEmpty
      · rw [Piece.ranges, if_pos hempty]
        exact ih (Nat.le_add_right_of_le hstart) hstop
      · have ht : 0 < t.byteLen := Nat.pos_of_ne_zero fun h0 =>
          hempty (List.isEmpty_iff.mpr (Text.eq_nil_of_byteLen h0))
        rw [Piece.ranges, if_neg hempty, List.cons_append, Span.inOrder]
        simp only [Bool.and_eq_true, decide_eq_true_eq]
        exact ⟨⟨⟨hstart, by omega⟩, by omega⟩, ih (Nat.le_refl _) hstop⟩

/-- What was found in a generic interval is laid out in its place. -/
theorem sweep_layout (label : Tag) {pieces : List Piece} {start pos stop last : Nat}
    (hstart : start ≤ pos) (hstop : pos + (Piece.join pieces).byteLen = stop)
    {tail : List Interval} (htail : Fills last stop tail) {more : List Span}
    (hmore : ∀ s ∈ more, stop ≤ s.start) :
    sweep label (Piece.ranges pos pieces ++ more) (gap start stop ++ tail)
      = layout start pos (ofPieces label pieces) ++ sweep label more tail := by
  induction pieces generalizing start pos with
  | nil =>
    obtain rfl : pos = stop := hstop
    refine sweep_append label (fun iv hiv s hs => ?_) tail
    unfold gap at hiv
    split at hiv
    · rw [List.mem_singleton.mp hiv]
      exact hmore s hs
    · cases hiv
  | cons piece rest ih =>
    rw [Piece.join_cons, Text.byteLen_append, ← Nat.add_assoc] at hstop
    cases piece with
    | plain c =>
      have hc : Text.byteLen (Piece.text (.plain c)) = c.utf8Size := Nat.add_zero _
      rw [hc] at hstop
      exact ih (Nat.le_add_right_of_le hstart) hstop
    | found t =>
      have ht : Text.byteLen (Piece.text (.found t)) = t.byteLen := rfl
      rw [ht] at hstop
      by_cases hempty : t.isEmpty
      · obtain rfl := List.isEmpty_iff.mp hempty
        exact ih hstart hstop
      · rw [Piece.ranges, if_neg hempty, ofPieces, if_neg hempty, List.cons_append, sweep,
          around_gap hstart (Nat.le_add_right _ _) (by dsimp only; omega) htail]
        dsimp only
        rw [ih (Nat.le_refl _) hstop, layout, List.append_assoc, List.cons_append]

end Interval

/-! ## Rules -/

namespace Tokenizer

/-- What a search with a label puts in place of an interval. -/
def split (source : Source) (label : Tag) (find : Text → List Piece) (iv : Interval) :
    List Interval :=
  if iv.tag.isGeneric then
    Mark.layout iv.span.start iv.span.start
      (Mark.ofPieces label (find (source.text.slice iv.span.start iv.span.stop)))
  else [iv]

/-- The perspective with what a rule finds in it. -/
def refine (source : Source) (p : Perspective) (rule : Rule) : Perspective :=
  { p with intervals := p.intervals.flatMap (split source rule.label rule.find) }

variable {source : Source} {find : Text → List Piece} {row : List Interval} {pos stop : Nat}

theorem findsIn_cons (iv : Interval) (row : List Interval) (find : Text → List Piece) :
    findsIn ((iv :: row).map (Token.ofInterval source.text)) find
      = (if iv.tag.isGeneric then Piece.ranges iv.span.start
          (find (source.text.slice iv.span.start iv.span.stop)) else [])
        ++ findsIn (row.map (Token.ofInterval source.text)) find := by
  unfold findsIn
  rw [List.map_cons]
  by_cases hg : iv.tag.isGeneric = true
  · rw [List.filter_cons_of_pos (by exact hg), if_pos hg, List.flatMap_cons]
    rfl
  · rw [List.filter_cons_of_neg (by exact hg), if_neg hg, List.nil_append]

theorem byteLen_slice {iv : Interval} (h : source.Admits iv.span) :
    iv.span.start + (source.text.slice iv.span.start iv.span.stop).byteLen = iv.span.stop := by
  obtain ⟨a, t, b, hsource, hstart, hstop⟩ := h.exists_split
  rw [← hsource, ← hstart, ← hstop, Text.slice_byteLen_append]

/-- What was found in a row lies in its range, one after the other, and to tag it is to split each
interval. -/
theorem sweep_findsIn (hfind : Lossless find) (hrow : Interval.Fills stop pos row)
    (hends : Interval.EndsIn (fun n => source.text.isBoundary n = true) row) (label : Tag) :
    Span.inOrder stop pos (findsIn (row.map (Token.ofInterval source.text)) find) = true ∧
      Interval.sweep label (findsIn (row.map (Token.ofInterval source.text)) find) row
        = row.flatMap (split source label find) := by
  induction row generalizing pos with
  | nil => exact ⟨rfl, rfl⟩
  | cons iv rest ih =>
    obtain ⟨rfl, hlt, hrest⟩ := hrow
    obtain ⟨hiv, hlater⟩ := List.forall_mem_cons.mp hends
    obtain ⟨hordered, hswept⟩ := ih hrest hlater
    have hmore {s : Span} (hs : s ∈ findsIn (rest.map (Token.ofInterval source.text)) find) :
        iv.span.stop ≤ s.start := Interval.start_le_of_inOrder hordered hs
    rw [findsIn_cons, List.flatMap_cons, split]
    by_cases hg : iv.tag.isGeneric = true
    · have hlen : iv.span.start
          + (Piece.join (find (source.text.slice iv.span.start iv.span.stop))).byteLen
          = iv.span.stop := by
        rw [hfind]
        exact byteLen_slice ⟨Nat.le_of_lt hlt, hiv.1, hiv.2⟩
      have hgap : [iv] = Mark.gap iv.span.start iv.span.stop := by
        rw [Mark.gap_of_lt hlt, ← beq_iff_eq.mp hg]
      rw [if_pos hg, if_pos hg]
      refine ⟨Interval.inOrder_ranges (Nat.le_refl _) hlen hrest.le hordered, ?_⟩
      rw [← List.singleton_append, hgap,
        Interval.sweep_layout label (Nat.le_refl _) hlen hrest fun s hs => hmore hs, hswept]
    · rw [if_neg hg, if_neg hg, List.nil_append]
      constructor
      · show Span.inOrder stop iv.span.start (Piece.ranges iv.span.stop [] ++ _) = true
        exact Interval.inOrder_ranges (Nat.le_of_lt hlt) rfl hrest.le hordered
      · rw [← List.singleton_append, Interval.sweep_append label, hswept]
        intro done hdone s hs
        rw [List.mem_singleton.mp hdone]
        exact hmore hs

/-- Spans that follow each other are tagged in one go. -/
theorem tagAll_put_sweep (text : TaggedText) (name : String) {p : Perspective} {spans : List Span}
    (hs : ∀ s ∈ spans, text.source.Admits s) (ho : Span.inOrder p.length 0 spans = true)
    (label : Tag) :
    (text.put name p).tagAll name spans label = .ok (text.put name (p.sweep spans label)) := by
  rw [TaggedText.tagAll_eq_foldlM]
  by_cases hne : spans = []
  · subst hne
    rfl
  · have hsplit : ∀ s ∈ spans, (text.put name p).splitOffset? s.start s.stop = none :=
      fun s hmem => TaggedText.splitOffset?_of_admits (hs s hmem)
    rw [TaggedText.foldlM_tag (TaggedText.get?_put_self text name p) hne hsplit,
      Perspective.foldlM_tag ho, Except.map, TaggedText.put_put]

/-- A rule splits each interval of its perspective, which still fits. -/
theorem applyRule_eq (text : TaggedText) (name : String) {p : Perspective}
    (hp : p.Fits text.source) {rule : Rule} (hrule : Lossless rule.find) :
    applyRule name (text.put name p) rule = .ok (text.put name (refine text.source p rule)) ∧
      (refine text.source p rule).Fits text.source := by
  obtain ⟨q, hq, hqfits⟩ := applyRule_ok text name hp hrule
  have hrefine : applyRule name (text.put name p) rule
      = .ok (text.put name (refine text.source p rule)) := by
    obtain ⟨hordered, hswept⟩ := sweep_findsIn hrule hp.filled hp.ends rule.label
    rw [applyRule, TaggedText.tokens_eq (TaggedText.get?_put_self text name p) hp]
    refine (tagAll_put_sweep text name (fun s hs => admits_findsIn hp hrule hs) hordered
      rule.label).trans ?_
    rw [Perspective.sweep, hswept]
    rfl
  refine ⟨hrefine, ?_⟩
  have hsame := congrArg (·.perspectives.get? name) (Except.ok.inj (hq.symm.trans hrefine))
  simp only [TaggedText.get?_put_self, Option.some.injEq] at hsame
  rwa [← hsame]

theorem applyRules_eq (text : TaggedText) (name : String) {p : Perspective}
    (hp : p.Fits text.source) {rules : List Rule} (hrules : ∀ rule ∈ rules, Lossless rule.find) :
    rules.foldlM (applyRule name) (text.put name p)
      = .ok (text.put name (rules.foldl (refine text.source) p)) := by
  induction rules generalizing p with
  | nil => rfl
  | cons rule rest ih =>
    obtain ⟨hfirst, hrest⟩ := List.forall_mem_cons.mp hrules
    obtain ⟨hrule, hfits⟩ := applyRule_eq text name hp hfirst
    rw [List.foldlM_cons, hrule]
    exact ih hfits hrest

/-- A pass writes what its rules make of the perspective that it copies. -/
theorem runPass_eq {text : TaggedText} (ht : text.Sound) {pass : Pass} {p : Perspective}
    (hp : text.perspectives.get? pass.source = some p)
    (hrules : ∀ rule ∈ pass.rules, Lossless rule.find) :
    runPass text pass
      = .ok (text.put pass.target (pass.rules.foldl (refine text.source) p)) := by
  rw [runPass, TaggedText.copy_eq_ok.mpr ⟨p, hp, rfl⟩]
  exact applyRules_eq text pass.target (ht pass.source p hp) hrules

theorem get?_target {text text' : TaggedText} (ht : text.Sound) {pass : Pass}
    (h : runPass text pass = .ok text') {p : Perspective}
    (hp : text.perspectives.get? pass.source = some p)
    (hrules : ∀ rule ∈ pass.rules, Lossless rule.find) :
    text'.perspectives.get? pass.target = some (pass.rules.foldl (refine text.source) p) ∧
      text'.source = text.source := by
  cases (runPass_eq ht hp hrules).symm.trans h
  exact ⟨TaggedText.get?_put_self text pass.target _, rfl⟩

/-! ## Passes leave other perspectives alone -/

theorem get?_runPass {text text' : TaggedText} {pass : Pass} (h : runPass text pass = .ok text')
    {name : String} (hname : name ≠ pass.target) :
    text'.perspectives.get? name = text.perspectives.get? name := by
  obtain ⟨copied, hcopy, hrules⟩ := bind_eq_ok.mp h
  have hput (t : TaggedText) (p : Perspective) :
      (t.put pass.target p).perspectives.get? name = t.perspectives.get? name := by
    rw [TaggedText.get?_put, if_neg hname]
  have htag {t t' : TaggedText} {s : Span} {label : Tag}
      (h : t.tag pass.target s.start s.stop label = .ok t') :
      t'.perspectives.get? name = t.perspectives.get? name := by
    obtain ⟨-, q, -, -, -, rfl⟩ := TaggedText.tag_eq_ok h
    exact hput t q
  have hrule {t t' : TaggedText} {rule : Rule} (h : applyRule pass.target t rule = .ok t') :
      t'.perspectives.get? name = t.perspectives.get? name := by
    obtain ⟨tokens, -, htags⟩ := bind_eq_ok.mp h
    rw [TaggedText.tagAll_eq_foldlM] at htags
    exact foldlM_invariant (P := fun u => u.perspectives.get? name = t.perspectives.get? name)
      (fun hu h => (htag h).trans hu) rfl htags
  obtain ⟨p, -, rfl⟩ := TaggedText.copy_eq_ok.mp hcopy
  exact foldlM_invariant (P := fun u => u.perspectives.get? name = text.perspectives.get? name)
    (fun hu h => (hrule h).trans hu) (hput text p) hrules

theorem get?_runPasses {passes : List Pass} {text text' : TaggedText}
    (h : passes.foldlM runPass text = .ok text') {name : String}
    (hname : name ∉ passes.map (·.target)) :
    text'.perspectives.get? name = text.perspectives.get? name := by
  induction passes generalizing text with
  | nil =>
    cases h
    rfl
  | cons pass rest ih =>
    rw [List.foldlM_cons] at h
    obtain ⟨next, hpass, hrest⟩ := bind_eq_ok.mp h
    obtain ⟨hne, hnot⟩ := not_or.mp fun hmem => hname (List.mem_cons.mpr hmem)
    exact (ih hrest hnot).trans (get?_runPass hpass hne)

end Tokenizer

end TagLayers
