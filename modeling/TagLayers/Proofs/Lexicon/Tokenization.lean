import TagLayers.Lexicon.Tokenizer
import TagLayers.Proofs.Layer.Texts
import TagLayers.Proofs.Sorting
import TagLayers.Proofs.Success

/-!
# Tokenization

A rule searches generic tokens and tags what it finds. No search loses a character of its text, so
what it finds lies within the token and between characters, where it can be tagged. Each pass copies
a perspective that is there from the start or has been written by an earlier pass. So no source and
no tokenizer make a tokenization fail.

Results:
1. `Piece.exists_of_mem_ranges`, `admits_ranges`: what a search finds in a token.
2. `lossless_of_mem_passes`: no rule of a tokenizer loses a character.
3. `runPass_ok`: a pass whose source is there succeeds.
4. `tokenize_ok`: so does a tokenization, and all of its perspectives are there.
5. `longestFirst_eq`, `ofLexicon_ok`: tokenizers from lexicons.
-/

namespace TagLayers

namespace Piece

theorem join_cons (piece : Piece) (rest : List Piece) :
    join (piece :: rest) = piece.text ++ join rest := rfl

/-- Each range is that of a stretch of the text. -/
theorem exists_of_mem_ranges {pos : Nat} {pieces : List Piece} {s : Span}
    (h : s ∈ ranges pos pieces) :
    ∃ a t b : Text, a ++ (t ++ b) = join pieces ∧ t ≠ [] ∧ pos + a.byteLen = s.start ∧
      s.start + t.byteLen = s.stop := by
  induction pieces generalizing pos with
  | nil => cases h
  | cons piece rest ih =>
    cases piece with
    | plain c =>
      obtain ⟨a, t, b, hjoin, ht, hstart, hstop⟩ := ih h
      refine ⟨c :: a, t, b, ?_, ht, ?_, hstop⟩
      · rw [join_cons, ← hjoin]
        rfl
      · rw [← hstart, Text.byteLen, Nat.add_assoc]
    | found u =>
      -- in what follows the stretch that is found here stands before the range
      have later (h : s ∈ ranges (pos + u.byteLen) rest) :
          ∃ a t b : Text, a ++ (t ++ b) = join (found u :: rest) ∧ t ≠ [] ∧
            pos + a.byteLen = s.start ∧ s.start + t.byteLen = s.stop := by
        obtain ⟨a, t, b, hjoin, ht, hstart, hstop⟩ := ih h
        refine ⟨u ++ a, t, b, ?_, ht, ?_, hstop⟩
        · rw [join_cons, ← hjoin, List.append_assoc]
          rfl
        · rw [← hstart, Text.byteLen_append, Nat.add_assoc]
      by_cases hu : u.isEmpty
      · rw [ranges, if_pos hu] at h
        exact later h
      · rw [ranges, if_neg hu] at h
        rcases List.mem_cons.mp h with rfl | h
        · exact ⟨[], u, join rest, rfl, fun hnil => hu (List.isEmpty_iff.mpr hnil), rfl, rfl⟩
        · exact later h

end Piece

namespace Tokenizer

/-- What a search finds in a token is not empty, lies within the token, and between characters. -/
theorem admits_ranges {source : Source} {token : Token} (ht : source.Admits token.span)
    (htext : token.text = source.text.slice token.span.start token.span.stop)
    {pieces : List Piece} (hjoin : Piece.join pieces = token.text) {s : Span}
    (hs : s ∈ Piece.ranges token.span.start pieces) :
    source.Admits s ∧ token.span.start ≤ s.start ∧ s.start < s.stop ∧
      s.stop ≤ token.span.stop := by
  obtain ⟨before, under, after, hsource, hstart, hstop⟩ := ht.exists_split
  have hunder : token.text = under := by
    rw [htext, ← hsource, ← hstart, ← hstop, Text.slice_byteLen_append]
  obtain ⟨a, t, b, hpieces, hne, hs1, hs2⟩ := Piece.exists_of_mem_ranges hs
  rw [hjoin, hunder] at hpieces
  have hpos : 0 < t.byteLen := Nat.pos_of_ne_zero fun h0 => hne (Text.eq_nil_of_byteLen h0)
  have hlen : under.byteLen = a.byteLen + (t.byteLen + b.byteLen) := by
    rw [← hpieces, Text.byteLen_append, Text.byteLen_append]
  refine ⟨⟨by omega, ?_, ?_⟩, by omega, by omega, by omega⟩
  · refine Text.isBoundary_iff.mpr ⟨before ++ a, t ++ b ++ after, ?_, ?_⟩
    · rw [← hsource, ← hpieces]
      simp only [List.append_assoc]
    · rw [Text.byteLen_append]
      omega
  · refine Text.isBoundary_iff.mpr ⟨before ++ a ++ t, b ++ after, ?_, ?_⟩
    · rw [← hsource, ← hpieces]
      simp only [List.append_assoc]
    · rw [Text.byteLen_append, Text.byteLen_append]
      omega

/-! ## Rules -/

/-- The search loses no character. -/
def Lossless (find : Text → List Piece) : Prop := ∀ text, Piece.join (find text) = text

theorem lossless_of_mem_passes {t : Tokenizer} {pass : Pass} (hpass : pass ∈ t.passes)
    {rule : Rule} (hrule : rule ∈ pass.rules) : Lossless rule.find := by
  intro text
  simp only [passes, List.mem_cons, List.not_mem_nil, or_false] at hpass
  rcases hpass with rfl | rfl | rfl | rfl | rfl | rfl
  · obtain rfl := List.mem_singleton.mp hrule
    exact Piece.join_search _ _ _ _ text
  · obtain ⟨d, -, rfl⟩ := List.mem_map.mp hrule
    exact Piece.join_search _ _ _ _ text
  · obtain rfl := List.mem_singleton.mp hrule
    exact Piece.join_search _ _ _ _ text
  · obtain rfl := List.mem_singleton.mp hrule
    exact Piece.join_search _ _ _ _ text
  · obtain ⟨r, -, rfl⟩ := List.mem_map.mp hrule
    exact r.1.join_pieces text
  · obtain ⟨k, -, rfl⟩ := List.mem_map.mp hrule
    exact k.1.join_pieces text

/-- All that a search finds in the tokens of a perspective can be tagged. -/
theorem admits_findsIn {source : Source} {p : Perspective} (hp : p.Fits source)
    {find : Text → List Piece} (hfind : Lossless find) {s : Span}
    (hs : s ∈ findsIn (p.intervals.map (Token.ofInterval source.text)) find) :
    source.Admits s := by
  obtain ⟨token, htoken, hs⟩ := List.mem_flatMap.mp hs
  obtain ⟨iv, hiv, rfl⟩ := List.mem_map.mp (List.mem_filter.mp htoken).1
  exact (admits_ranges (hp.admits hiv).1 rfl (hfind _) hs).1

theorem applyRule_ok (text : TaggedText) (name : String) {p : Perspective}
    (hp : p.Fits text.source) {rule : Rule} (hrule : Lossless rule.find) :
    ∃ q, applyRule name (text.put name p) rule = .ok (text.put name q) ∧ q.Fits text.source := by
  have htokens : (text.put name p).tokens name
      = .ok (p.intervals.map (Token.ofInterval text.source.text)) :=
    TaggedText.tokens_eq (TaggedText.get?_put_self text name p) hp
  obtain ⟨q, hq, hqfits, -⟩ :=
    TaggedText.tagAll_put text name hp (fun s hs => admits_findsIn hp hrule hs) rule.label
  refine ⟨q, ?_, hqfits⟩
  rw [applyRule, htokens]
  exact hq

theorem applyRules_ok (text : TaggedText) (name : String) {p : Perspective}
    (hp : p.Fits text.source) {rules : List Rule} (hrules : ∀ rule ∈ rules, Lossless rule.find) :
    ∃ q, rules.foldlM (applyRule name) (text.put name p) = .ok (text.put name q) ∧
      q.Fits text.source := by
  induction rules generalizing p with
  | nil => exact ⟨p, rfl, hp⟩
  | cons rule rest ih =>
    obtain ⟨hfirst, hrest⟩ := List.forall_mem_cons.mp hrules
    obtain ⟨q, hq, hqfits⟩ := applyRule_ok text name hp hfirst
    obtain ⟨r, hr, hrfits⟩ := ih hqfits hrest
    refine ⟨r, ?_, hrfits⟩
    rw [List.foldlM_cons, hq]
    exact hr

/-! ## Passes -/

/-- A pass whose source is there puts one perspective in place of its target. -/
theorem runPass_ok {text : TaggedText} (ht : text.Sound) {pass : Pass} {p : Perspective}
    (hp : text.perspectives.get? pass.source = some p)
    (hrules : ∀ rule ∈ pass.rules, Lossless rule.find) :
    ∃ q, runPass text pass = .ok (text.put pass.target q) ∧ q.Fits text.source := by
  obtain ⟨q, hq, hqfits⟩ := applyRules_ok text pass.target (ht pass.source p hp) hrules
  refine ⟨q, ?_, hqfits⟩
  rw [runPass, TaggedText.copy_eq_ok.mpr ⟨p, hp, rfl⟩]
  exact hq

/-- Each step, from one name to another, starts at one of the names or where an earlier step has
ended. -/
def Fed : List String → List (String × String) → Prop
  | _, [] => True
  | names, step :: rest => step.1 ∈ names ∧ Fed (names ++ [step.2]) rest

theorem fed_passes (t : Tokenizer) :
    Fed [TaggedText.top] (t.passes.map fun pass => (pass.source, pass.target)) := by
  simp [passes, Fed]

theorem runPasses_ok {names : List String} {passes : List Pass}
    (hfed : Fed names (passes.map fun pass => (pass.source, pass.target)))
    {text : TaggedText} (ht : text.Sound)
    (hnames : ∀ name ∈ names, (text.perspectives.get? name).isSome)
    (hrules : ∀ pass ∈ passes, ∀ rule ∈ pass.rules, Lossless rule.find) :
    ∃ text', passes.foldlM runPass text = .ok text' ∧ text'.Sound ∧
      text'.source = text.source ∧
      ∀ name ∈ names ++ passes.map (·.target), (text'.perspectives.get? name).isSome := by
  induction passes generalizing names text with
  | nil =>
    refine ⟨text, rfl, ht, rfl, fun name hname => hnames name ?_⟩
    rwa [List.map_nil, List.append_nil] at hname
  | cons pass rest ih =>
    obtain ⟨hsource, hrest⟩ := hfed
    obtain ⟨hfirst, hlater⟩ := List.forall_mem_cons.mp hrules
    obtain ⟨p, hp⟩ := Option.isSome_iff_exists.mp (hnames pass.source hsource)
    obtain ⟨q, hq, hqfits⟩ := runPass_ok ht hp hfirst
    obtain ⟨text', hrun, hsound, hsame, hall⟩ := ih hrest (ht.put pass.target hqfits)
      (TaggedText.isSome_put hnames pass.target q) hlater
    refine ⟨text', ?_, hsound, hsame, fun name hname => hall name ?_⟩
    · rw [List.foldlM_cons, hq]
      exact hrun
    · rwa [List.append_assoc]

/-- The perspectives that a tokenizer writes, and the one that it starts from. -/
def perspectiveNames : List String :=
  ["top", "comments", "macros", "strings", "whitespace", "reserved", "keywords"]

/-- Tokenizations never fail, and all perspectives are there. -/
theorem tokenize_ok (t : Tokenizer) (source : Source) :
    ∃ text, t.tokenize source = .ok text ∧ text.Sound ∧ text.source = source ∧
      ∀ name ∈ perspectiveNames, (text.perspectives.get? name).isSome := by
  have htop : ∀ name ∈ [TaggedText.top],
      ((TaggedText.ofSource source).perspectives.get? name).isSome := by
    intro name hname
    rw [List.mem_singleton.mp hname, TaggedText.ofSource, NameTable.get?_insert, if_pos rfl]
    rfl
  exact runPasses_ok t.fed_passes (TaggedText.sound_ofSource source) htop
    fun pass hpass rule hrule => lossless_of_mem_passes hpass hrule

/-! ## Tokenizers from lexicons -/

theorem keyOrder_longest : KeyOrder fun size size' : Nat => decide (size' ≤ size) where
  trans hab hbc := by
    rw [decide_eq_true_eq] at hab hbc ⊢
    omega
  total size size' := by
    rw [Bool.or_eq_true, decide_eq_true_eq, decide_eq_true_eq]
    omega
  antisymm hab hba := by
    rw [decide_eq_true_eq] at hab hba
    omega

/-- The items of each length have to come in the same order. -/
theorem longestFirst_eq {α : Type} {text : α → String} {items target : List α}
    (htarget : target.Pairwise fun a b => (text b).utf8ByteSize ≤ (text a).utf8ByteSize)
    (h : ∀ a ∈ items ++ target,
      items.filter (fun b => (text b).utf8ByteSize == (text a).utf8ByteSize)
        = target.filter fun b => (text b).utf8ByteSize == (text a).utf8ByteSize) :
    longestFirst text items = target :=
  keyOrder_longest.mergeSort_eq (htarget.imp decide_eq_true) h

/-- A valid lexicon makes a tokenizer where the engine takes its patterns. -/
theorem ofLexicon_ok (engine : Engine) {lex : Lexicon} {pairs : PairTable}
    (hvalid : lex.validate = .ok ())
    (hpatterns : ∀ r ∈ lex.reserved, r.pattern.all fun p => (engine p.toList).isSome)
    (hpairs : pairTable lex = .ok pairs) :
    ∃ t, ofLexicon lex engine = .ok t ∧ t.pairs = pairs := by
  obtain ⟨finders, hfinders⟩ : ∃ finders,
      (longestFirst Reserved.symbol lex.reserved).mapM
        (fun r => do return (← finderOf engine r, r.id)) = .ok finders := by
    refine exists_mapM_eq_ok fun r hr => ?_
    have htaken := hpatterns r (List.mem_mergeSort.mp hr)
    unfold finderOf
    cases hp : r.pattern with
    | none => exact ⟨_, rfl⟩
    | some pattern =>
      rw [hp, Option.all_some, Option.isSome_iff_exists] at htaken
      obtain ⟨search, hsearch⟩ := htaken
      exact ⟨(.expression search, r.id), by dsimp only; rw [hsearch]; rfl⟩
  refine ⟨⟨lex, longestFirst Prod.fst lex.directives, finders,
    lex.keywords.map fun k => (.word k.1.toList, k.2), pairs⟩, ?_, rfl⟩
  rw [ofLexicon, hvalid, hpairs]
  simp only [bind, Except.bind] at hfinders ⊢
  rw [hfinders]
  rfl

/-! ## Tokenizations are calls -/

theorem reachable_applyRule {text text' : TaggedText} (ht : text.Reachable) {name : String}
    {rule : Rule} (h : applyRule name text rule = .ok text') : text'.Reachable := by
  obtain ⟨tokens, -, htag⟩ := bind_eq_ok.mp h
  exact ht.tagAll htag

theorem reachable_runPass {text text' : TaggedText} (ht : text.Reachable) {pass : Pass}
    (h : runPass text pass = .ok text') : text'.Reachable := by
  obtain ⟨copied, hcopy, hrules⟩ := bind_eq_ok.mp h
  exact foldlM_invariant (fun ht hx => reachable_applyRule ht hx) (ht.copy hcopy) hrules

/-- A tokenizer makes calls to the text and nothing else. -/
theorem reachable_tokenize {t : Tokenizer} {source : Source} {text : TaggedText}
    (h : t.tokenize source = .ok text) : text.Reachable :=
  foldlM_invariant (fun ht hx => reachable_runPass ht hx) (.ofSource source) h

end Tokenizer

end TagLayers
