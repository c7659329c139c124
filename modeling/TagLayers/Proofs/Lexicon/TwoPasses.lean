import Mathlib
import TagLayers.Proofs.Lexicon.OneMachine

/-!
# Two passes

A tokenizer finds comments in one pass and strings in a later one, which searches each stretch
between two comments on its own. It still finds what a machine finds that reads the text once: a
comment starts outside of strings, so each string ends before the comment that follows, and is as
long when what follows is cut off.

Results:
1. `Reads.comments_eq`: the pass over the whole text.
2. `Reads.strings_eq`: the search of one stretch between comments.
3. `Reads.split_layout`: both passes.
4. `tokenize_eq_lexemes`: the tokens of a tokenizer.
-/

namespace TagLayers

namespace Piece

variable {σ : Type} {find : σ → Text → Option Nat} {pass : σ → Char → σ} {jump : σ → Text → σ}
  {s : σ} {c : Char} {rest : Text}

theorem search_plain (h : find s (c :: rest) = none) :
    search find pass jump s (c :: rest) = plain c :: search find pass jump (pass s c) rest := by
  rw [search, h]

theorem search_found {body : Text} (h : find s (c :: (body ++ rest)) = some (body.length + 1)) :
    search find pass jump s (c :: (body ++ rest))
      = found (c :: body) :: search find pass jump (jump s (c :: body)) rest := by
  rw [search, h]
  dsimp only
  rw [List.take_left, List.drop_left]

end Piece

namespace Mark

variable {label : Tag} {marks : List Mark}

def hasLabel (label : Tag) : Mark → Bool
  | plain _ => false
  | tagged l _ => l == label

/-- The marks with one label. All else stays generic. -/
def only (label : Tag) (marks : List Mark) : List Mark :=
  marks.flatMap fun m => if m.hasLabel label then [m] else m.text.map plain

theorem only_cons (label : Tag) (m : Mark) (rest : List Mark) :
    only label (m :: rest)
      = (if m.hasLabel label then [m] else m.text.map plain) ++ only label rest :=
  List.flatMap_cons

theorem join_cons (m : Mark) (rest : List Mark) : join (m :: rest) = m.text ++ join rest :=
  List.flatMap_cons

theorem only_of_forall (h : ∀ m ∈ marks, m.hasLabel label = false) :
    only label marks = (join marks).map plain := by
  induction marks with
  | nil => rfl
  | cons m rest ih =>
    obtain ⟨hm, hrest⟩ := List.forall_mem_cons.mp h
    rw [join_cons, List.map_append, only_cons, hm, ih hrest]
    rfl

/-- Marks begin with some that do not have a label, up to the first that has it. -/
theorem exists_run (label : Tag) (marks : List Mark) :
    ∃ run tail, marks = run ++ tail ∧ (∀ m ∈ run, m.hasLabel label = false) ∧
      (tail = [] ∨ ∃ t more, tail = tagged label t :: more) := by
  induction marks with
  | nil => exact ⟨[], [], rfl, List.forall_mem_nil _, .inl rfl⟩
  | cons m rest ih =>
    cases hm : m.hasLabel label with
    | false =>
      obtain ⟨run, tail, rfl, hrun, htail⟩ := ih
      exact ⟨m :: run, tail, rfl, List.forall_mem_cons.mpr ⟨hm, hrun⟩, htail⟩
    | true =>
      cases m with
      | plain c => cases hm
      | tagged l t =>
        obtain rfl := beq_iff_eq.mp hm
        exact ⟨[], _, rfl, List.forall_mem_nil _, .inr ⟨t, rest, rfl⟩⟩

theorem layout_plains (start pos : Nat) (text : Text) (marks : List Mark) :
    layout start pos (text.map plain ++ marks) = layout start (pos + text.byteLen) marks := by
  induction text generalizing pos with
  | nil => rfl
  | cons c rest ih =>
    rw [Text.byteLen, ← Nat.add_assoc]
    exact ih _

theorem layout_append_tagged {start pos next : Nat} {run : List Mark} {t : Text}
    (hnext : pos + (join run).byteLen = next) :
    layout start pos (run ++ tagged label t :: marks)
      = layout start pos run ++ ⟨⟨next, next + t.byteLen⟩, label⟩
        :: layout (next + t.byteLen) (next + t.byteLen) marks := by
  induction run generalizing start pos with
  | nil =>
    obtain rfl : pos = next := hnext
    rfl
  | cons m rest ih =>
    rw [join_cons, Text.byteLen_append, ← Nat.add_assoc] at hnext
    cases m with
    | plain c => exact ih hnext
    | tagged l u =>
      have hrest : pos + u.byteLen + (join rest).byteLen = next := hnext
      rw [List.cons_append, layout, layout, List.append_assoc, List.cons_append, ih hrest]

end Mark

/-! ## The search for comments -/

namespace Lexicon

variable {lex : Lexicon} {text rest : Text} {marks : List Mark}

/-- The search outside of strings, from any state on. -/
def outsideStringsFrom (lex : Lexicon) (find : Text → Option Nat) (s : StringState) (text : Text) :
    List Piece :=
  Piece.search
    (fun s rest => if s = .outside ∧ rest.head? ≠ some lex.quote then find rest else none)
    (StringState.next lex.quote lex.escape) (fun s _ => s) s text

/-- Nothing is found in a string. -/
theorem StringTail.outsideStringsFrom_eq {b : Bool} {body : Text} (h : lex.StringTail b body rest)
    (label : Tag) (find : Text → Option Nat) :
    Mark.ofPieces label
        (lex.outsideStringsFrom find (if b then .escaped else .inside) (body ++ rest))
      = body.map .plain ++ Mark.ofPieces label (lex.outsideStrings find rest) := by
  have hinside (c : Char) (text : Text) : lex.outsideStringsFrom find .inside (c :: text)
      = .plain c :: lex.outsideStringsFrom find (.next lex.quote lex.escape .inside c) text :=
    Piece.search_plain (if_neg fun h => nomatch h.1)
  have hescaped (c : Char) (text : Text) : lex.outsideStringsFrom find .escaped (c :: text)
      = .plain c :: lex.outsideStringsFrom find .inside text :=
    Piece.search_plain (if_neg fun h => nomatch h.1)
  induction h with
  | unended b =>
    rw [List.nil_append, outsideStringsFrom, outsideStrings, Piece.search, Piece.search]
    rfl
  | ended hne =>
    rw [if_neg Bool.false_ne_true, List.singleton_append, hinside, StringState.next, if_neg hne,
      if_pos rfl]
    rfl
  | escape _ ih =>
    rw [if_neg Bool.false_ne_true, List.cons_append, hinside, StringState.next, if_pos rfl]
    exact congrArg _ ih
  | escaped _ ih =>
    rw [if_pos rfl, List.cons_append, hescaped]
    exact congrArg _ ih
  | inside hescape hquote _ ih =>
    rw [if_neg Bool.false_ne_true, List.cons_append, hinside, StringState.next, if_neg hescape,
      if_neg hquote]
    exact congrArg _ ih

/-- The search through the whole text finds the comments. -/
theorem Reads.comments_eq (h : lex.Reads text marks) :
    Mark.ofPieces (Tag.ofCategory .comment) (lex.comments text)
      = Mark.only (Tag.ofCategory .comment) marks := by
  induction h with
  | nil =>
    rw [comments, outsideStrings, Piece.search]
    rfl
  | @plain c rest marks hc hat _ ih =>
    have hnone : (if StringState.outside = .outside ∧ (c :: rest).head? ≠ some lex.quote then
        lex.commentAt? (c :: rest) else none) = none := by
      rw [hat, ite_self]
    rw [comments, outsideStrings, Piece.search_plain hnone, StringState.next, if_neg hc]
    exact congrArg _ ih
  | @string body rest marks hbody _ ih =>
    have hnone : (if StringState.outside = .outside ∧
        (lex.quote :: (body ++ rest)).head? ≠ some lex.quote then
        lex.commentAt? (lex.quote :: (body ++ rest)) else none) = none := if_neg fun h => h.2 rfl
    have hlabel : ¬ (Mark.tagged (Tag.ofCategory .string) (lex.quote :: body)).hasLabel
        (Tag.ofCategory .comment) = true := by
      show ¬ (Tag.ofCategory .string == Tag.ofCategory .comment) = true
      decide
    have hskip := hbody.outsideStringsFrom_eq (Tag.ofCategory .comment) lex.commentAt?
    rw [comments, outsideStrings, Piece.search_plain hnone, StringState.next, if_pos rfl]
    rw [Mark.only_cons, if_neg hlabel, ← ih]
    exact congrArg (Mark.plain lex.quote :: ·) hskip
  | @comment c body rest marks hc hat _ ih =>
    have hsome : (if StringState.outside = .outside ∧
        (c :: (body ++ rest)).head? ≠ some lex.quote then
        lex.commentAt? (c :: (body ++ rest)) else none) = some (body.length + 1) := by
      rw [hat]
      exact if_pos ⟨rfl, fun h => hc (Option.some.inj h)⟩
    rw [comments, outsideStrings, Piece.search_found hsome]
    exact congrArg _ ih

/-! ## The search for strings between comments -/

/-- What follows a string that has ended does not change its length. -/
theorem StringTail.cut {b : Bool} {body more : Text} (h : lex.StringTail b body rest)
    (hmore : rest = [] → more = []) : lex.StringTail b body more := by
  induction h with
  | unended b =>
    rw [hmore rfl]
    exact .unended b
  | ended hne => exact .ended hne
  | escape _ ih => exact .escape (ih hmore)
  | escaped _ ih => exact .escaped (ih hmore)
  | inside hescape hquote _ ih => exact .inside hescape hquote (ih hmore)

theorem StringTail.stringLength_eq {b : Bool} {body : Text} (h : lex.StringTail b body rest) :
    stringLength lex.quote lex.escape b (body ++ rest) = body.length := by
  induction h with
  | unended b =>
    rw [List.nil_append, stringLength]
    rfl
  | ended hne =>
    rw [List.singleton_append, stringLength, if_neg hne, if_pos rfl]
    rfl
  | escape _ ih =>
    rw [List.cons_append, stringLength, if_pos rfl, ih, List.length_cons, Nat.add_comm]
  | escaped _ ih => rw [List.cons_append, stringLength, ih, List.length_cons, Nat.add_comm]
  | inside hescape hquote _ ih =>
    rw [List.cons_append, stringLength, if_neg hescape, if_neg hquote, ih, List.length_cons,
      Nat.add_comm]

theorem strings_plain {c : Char} (hc : c ≠ lex.quote) (text : Text) :
    lex.strings (c :: text) = .plain c :: lex.strings text :=
  Piece.search_plain (if_neg hc)

theorem StringTail.strings_eq {body : Text} (h : lex.StringTail false body rest) :
    lex.strings (lex.quote :: (body ++ rest)) = .found (lex.quote :: body) :: lex.strings rest := by
  refine Piece.search_found ?_
  rw [stringAt?, if_pos rfl, h.stringLength_eq, Nat.add_comm]

/-- Where marks without comments are cut off, the search finds their strings. -/
theorem Reads.strings_eq {run tail : List Mark} (h : lex.Reads text (run ++ tail))
    (hrun : ∀ m ∈ run, m.hasLabel (Tag.ofCategory .comment) = false) :
    ∃ rest, text = Mark.join run ++ rest ∧ lex.Reads rest tail ∧
      Mark.ofPieces (Tag.ofCategory .string) (lex.strings (Mark.join run)) = run := by
  induction run generalizing text with
  | nil =>
    refine ⟨text, rfl, h, ?_⟩
    show Mark.ofPieces _ (lex.strings []) = []
    rw [strings, Piece.search]
    rfl
  | cons m run ih =>
    obtain ⟨hm, hlater⟩ := List.forall_mem_cons.mp hrun
    rw [List.cons_append] at h
    cases h with
    | @plain c rest _ hc _ hrest =>
      obtain ⟨last, rfl, hlast, hstrings⟩ := ih hrest hlater
      refine ⟨last, rfl, hlast, ?_⟩
      show Mark.ofPieces _ (lex.strings (c :: Mark.join run)) = _
      rw [strings_plain hc]
      exact congrArg _ hstrings
    | @string body rest _ hbody hrest =>
      obtain ⟨last, rfl, hlast, hstrings⟩ := ih hrest hlater
      refine ⟨last, ?_, hlast, ?_⟩
      · rw [Mark.join_cons, List.append_assoc]
        rfl
      · have hcut : lex.StringTail false body (Mark.join run) :=
          hbody.cut fun hnil => (List.append_eq_nil_iff.mp hnil).1
        show Mark.ofPieces _ (lex.strings (lex.quote :: (body ++ Mark.join run))) = _
        rw [hcut.strings_eq]
        exact congrArg _ hstrings
    | comment => exact absurd (beq_self_eq_true _) (ne_true_of_eq_false hm)

/-! ## Both passes -/

/-- A generic interval is split where a search finds something. -/
theorem split_gap {source : Source} {label : Tag} {find : Text → List Piece} (before : Text)
    {under after : Text} (hsource : before ++ (under ++ after) = source.text) (hnil : find [] = [])
    {stop : Nat} (hstop : stop = before.byteLen + under.byteLen) :
    (Mark.gap before.byteLen stop).flatMap (Tokenizer.split source label find)
      = Mark.layout before.byteLen before.byteLen (Mark.ofPieces label (find under)) := by
  subst hstop
  by_cases hunder : under = []
  · subst hunder
    rw [hnil, Text.byteLen, Nat.add_zero, Mark.gap_self]
    exact (Mark.gap_self _).symm
  · have hpos : 0 < under.byteLen := Nat.pos_of_ne_zero fun h0 => hunder (Text.eq_nil_of_byteLen h0)
    rw [Mark.gap_of_lt (by omega), List.flatMap_singleton, Tokenizer.split, if_pos (by rfl)]
    dsimp only
    rw [← hsource, Text.slice_byteLen_append]

/-- The strings between the comments of a text, each found in a stretch of its own, are the strings
of the text. -/
theorem Reads.split_layout {source : Source} {before : Text} (h : lex.Reads text marks)
    (hsource : before ++ text = source.text) :
    (Mark.layout before.byteLen before.byteLen (Mark.only (Tag.ofCategory .comment) marks)).flatMap
        (Tokenizer.split source (Tag.ofCategory .string) lex.strings)
      = Mark.layout before.byteLen before.byteLen marks := by
  induction hlen : marks.length using Nat.strongRecOn generalizing before text marks with
  | _ n ih =>
    obtain ⟨run, tail, rfl, hrun, htail⟩ := Mark.exists_run (Tag.ofCategory .comment) marks
    obtain ⟨rest, rfl, hrest, hstrings⟩ := h.strings_eq hrun
    have hnil : lex.strings [] = [] := by rw [strings, Piece.search]
    have hgap : (Mark.gap before.byteLen (before.byteLen + (Mark.join run).byteLen)).flatMap
        (Tokenizer.split source (Tag.ofCategory .string) lex.strings)
        = Mark.layout before.byteLen before.byteLen run := by
      rw [split_gap before hsource hnil rfl, hstrings]
    rw [Mark.only, List.flatMap_append, ← Mark.only, ← Mark.only, Mark.only_of_forall hrun,
      Mark.layout_plains]
    rcases htail with rfl | ⟨t, more, rfl⟩
    · rw [List.append_nil]
      exact hgap
    · have hlabel : (Mark.tagged (Tag.ofCategory .comment) t).hasLabel (Tag.ofCategory .comment)
          = true := beq_self_eq_true _
      have hgeneric : ¬ (Tag.ofCategory .comment).isGeneric = true := by decide
      rw [Mark.only_cons, if_pos hlabel, List.singleton_append, Mark.layout, List.flatMap_append,
        List.flatMap_cons, hgap, Mark.layout_append_tagged rfl, Tokenizer.split, if_neg hgeneric,
        List.singleton_append]
      cases hrest with
      | @comment c body rest more hc hat hmore =>
        have hshorter : more.length < n := by
          rw [← hlen, List.length_append, List.length_cons]
          omega
        have hbefore : (before ++ (Mark.join run ++ c :: body)).byteLen
            = before.byteLen + (Mark.join run).byteLen + Text.byteLen (c :: body) := by
          rw [Text.byteLen_append, Text.byteLen_append, Nat.add_assoc]
        have hafter : before ++ (Mark.join run ++ c :: body) ++ rest = source.text := by
          rw [← hsource, List.append_assoc, List.append_assoc]
          rfl
        have hmarks := ih more.length hshorter hmore hafter rfl
        rw [hbefore] at hmarks
        rw [hmarks]

/-- What is not generic in a layout are the comments and strings. -/
theorem Reads.filter_layout (h : lex.Reads text marks) (start pos : Nat) :
    (Mark.layout start pos marks).filter (fun iv => !iv.tag.isGeneric)
      = Mark.stretches pos marks := by
  have hgap (start stop : Nat) :
      (Mark.gap start stop).filter (fun iv => !iv.tag.isGeneric) = [] := by
    unfold Mark.gap
    split <;> rfl
  induction h generalizing start pos with
  | nil => exact hgap start pos
  | plain _ _ _ ih => exact ih start _
  | string _ _ ih =>
    rw [Mark.layout, List.filter_append, hgap, List.nil_append, List.filter_cons_of_pos (by rfl),
      ih, Mark.stretches]
  | comment _ _ _ ih =>
    rw [Mark.layout, List.filter_append, hgap, List.nil_append, List.filter_cons_of_pos (by rfl),
      ih, Mark.stretches]

theorem marked_of_validate (h : lex.validate = .ok ()) : lex.Marked := by
  unfold validate at h
  by_cases hline : lex.lineComment = some ""
  · rw [if_pos hline] at h
    cases h
  · rw [if_neg hline] at h
    refine ⟨fun mark hmark hnil => hline ?_, fun opener closer hmarks => ?_⟩
    · rw [hmark, String.toList_eq_nil_iff.mp hnil]
    · rw [hmarks] at h
      by_cases hempty : (opener.isEmpty || closer.isEmpty) = true
      · simp only [if_pos hempty] at h
        cases h
      · rw [Bool.or_eq_true, not_or, String.isEmpty_iff, String.isEmpty_iff] at hempty
        exact hempty.imp (mt String.toList_eq_nil_iff.mp) (mt String.toList_eq_nil_iff.mp)

end Lexicon

/-- The interval of a token. -/
def Token.interval (token : Token) : Interval := ⟨token.span, token.tag⟩

namespace Tokenizer

theorem ofLexicon_eq_ok {lex : Lexicon} {engine : Engine} {t : Tokenizer}
    (h : ofLexicon lex engine = .ok t) :
    lex.validate = .ok () ∧ t.lexicon = lex ∧
      t.directives = longestFirst Prod.fst lex.directives := by
  obtain ⟨_, hvalid, h⟩ := bind_eq_ok.mp h
  obtain ⟨reserved, -, h⟩ := bind_eq_ok.mp h
  obtain ⟨pairs, -, h⟩ := bind_eq_ok.mp h
  cases h
  exact ⟨hvalid, rfl, rfl⟩

/-- Without directives the strings are searched for in what the search for comments leaves. -/
theorem tokenize_strings (t : Tokenizer) (hdirectives : t.directives = []) (source : Source) :
    ∃ text, t.tokenize source = .ok text ∧ text.Sound ∧ text.source = source ∧
      text.perspectives.get? "strings" = some
        (refine source
          (refine source (Perspective.fresh source.length)
            ⟨Tag.ofCategory .comment, t.lexicon.comments⟩)
          ⟨Tag.ofCategory .string, t.lexicon.strings⟩) := by
  obtain ⟨text, htext, hsound, hsource, -⟩ := t.tokenize_ok source
  refine ⟨text, htext, hsound, hsource, ?_⟩
  have hfind (text : Text) : Piece.join (t.lexicon.comments text) = text :=
    Piece.join_search _ _ _ _ text
  have hfind' (text : Text) : Piece.join (t.lexicon.strings text) = text :=
    Piece.join_search _ _ _ _ text
  have hpasses := htext
  rw [tokenize, passes, hdirectives, List.map_nil, List.foldlM_cons] at hpasses
  obtain ⟨text₁, hcomments, hpasses⟩ := bind_eq_ok.mp hpasses
  rw [List.foldlM_cons] at hpasses
  obtain ⟨text₂, hmacros, hpasses⟩ := bind_eq_ok.mp hpasses
  rw [List.foldlM_cons] at hpasses
  obtain ⟨text₃, hstrings, hpasses⟩ := bind_eq_ok.mp hpasses
  have hreach₁ := reachable_runPass (.ofSource source) hcomments
  have hreach₂ := reachable_runPass hreach₁ hmacros
  have htop : (TaggedText.ofSource source).perspectives.get? TaggedText.top
      = some (Perspective.fresh source.length) := by
    rw [TaggedText.ofSource, NameTable.get?_insert, if_pos rfl]
  obtain ⟨hfirst, hsource₁⟩ := get?_target (TaggedText.sound_ofSource source) hcomments htop
    (List.forall_mem_singleton.mpr hfind)
  obtain ⟨hsecond, hsource₂⟩ := get?_target hreach₁.sound hmacros hfirst (List.forall_mem_nil _)
  obtain ⟨hthird, -⟩ := get?_target hreach₂.sound hstrings hsecond
    (List.forall_mem_singleton.mpr hfind')
  rw [get?_runPasses hpasses (by simp), hthird, hsource₂, hsource₁]
  rfl

/-- The two searches lay out all that can be read in a source. -/
theorem intervals_of_reads {lex : Lexicon} {source : Source} {marks : List Mark}
    (h : lex.Reads source.text marks) :
    (refine source
      (refine source (Perspective.fresh source.length) ⟨Tag.ofCategory .comment, lex.comments⟩)
      ⟨Tag.ofCategory .string, lex.strings⟩).intervals = Mark.layout 0 0 marks := by
  have hfresh : (Perspective.fresh source.length).intervals = Mark.gap 0 source.length := by
    unfold Perspective.fresh Mark.gap
    dsimp only
    split <;> split <;> first | rfl | omega
  have hnil : lex.comments [] = [] := by
    rw [Lexicon.comments, Lexicon.outsideStrings, Piece.search]
  have hcomments : (Mark.gap 0 source.length).flatMap
      (split source (Tag.ofCategory .comment) lex.comments)
      = Mark.layout 0 0 (Mark.only (Tag.ofCategory .comment) marks) := by
    rw [← h.comments_eq]
    exact Lexicon.split_gap [] (List.append_nil source.text) hnil (Nat.zero_add _).symm
  show ((Perspective.fresh source.length).intervals.flatMap _).flatMap _ = _
  rw [hfresh, hcomments]
  exact h.split_layout (List.nil_append source.text)

/-- The comments and strings that the passes tag are those of the machine, and they tag nothing
else. -/
theorem tokenize_eq_lexemes {lex : Lexicon} {engine : Engine} {t : Tokenizer}
    (h : ofLexicon lex engine = .ok t)
    (hdirectives : lex.directives = []) (source : Source) :
    ∃ text tokens, t.tokenize source = .ok text ∧ text.tokens "strings" = .ok tokens ∧
      tokens.flatMap (·.text) = source.text ∧
      (tokens.filter (!·.tag.isGeneric)).map Token.interval
        = lex.lexemes source.text := by
  obtain ⟨hvalid, rfl, hlongest⟩ := ofLexicon_eq_ok h
  rw [hdirectives, longestFirst, List.mergeSort_nil] at hlongest
  have hmarked := Lexicon.marked_of_validate hvalid
  obtain ⟨marks, hreads⟩ := Lexicon.exists_reads hmarked source.text
  obtain ⟨text, htext, hsound, rfl, hstrings⟩ := t.tokenize_strings hlongest source
  have hfits := hsound "strings" _ hstrings
  refine ⟨text, _, htext, TaggedText.tokens_eq hstrings hfits, hfits.join_tokens, ?_⟩
  rw [intervals_of_reads hreads, List.filter_map, List.map_map]
  refine (List.map_id _).trans ?_
  exact (hreads.filter_layout 0 0).trans (hreads.lexFrom_eq hmarked 0).symm

/-- Strings and comments with each other's marks in them, and a string without an end. -/
def mixedSource : Source := ⟨"mixed", "\"//\" /*\"*/é//\"\n\"/*é".toList⟩

theorem tokenize_eq_lexemes_mixedSource :
    ∃ t text tokens, ofLexicon {} = .ok t ∧ ({} : Lexicon).directives = [] ∧
      t.tokenize mixedSource = .ok text ∧ text.tokens "strings" = .ok tokens ∧
      tokens.flatMap (·.text) = mixedSource.text ∧
      (tokens.filter (!·.tag.isGeneric)).map Token.interval
        = [⟨⟨0, 4⟩, Tag.ofCategory .string⟩, ⟨⟨5, 10⟩, Tag.ofCategory .comment⟩,
          ⟨⟨12, 15⟩, Tag.ofCategory .comment⟩, ⟨⟨16, 21⟩, Tag.ofCategory .string⟩] := by
  have hvalid : ({} : Lexicon).validate = .ok () := rfl
  obtain ⟨t, ht, -⟩ := ofLexicon_ok .standard hvalid (List.forall_mem_nil _) rfl
  obtain ⟨text, tokens, htext, htokens, hjoin, hfound⟩ :=
    tokenize_eq_lexemes ht rfl mixedSource
  refine ⟨t, text, tokens, ht, rfl, htext, htokens, hjoin, hfound.trans ?_⟩
  cbv

end Tokenizer

end TagLayers
