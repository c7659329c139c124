import Mathlib.Data.List.SplitBy
import TagLayers.Proofs.Lexicon.Places

/-!
# Words

A text divides into runs: words, and what stands between them. The edges of words are the places
where a run ends. So a symbol that consists of characters of words is found between two edges where
it is a run as a whole, and nowhere else. What has been found is taken out of the text, and this
makes no new edges. So searches for words, one after the other, come to one look-up of each run.

Results:
1. `runs_append_word`, `AreRuns.wordBetween`: the words of a text are runs of it.
2. `ofPieces_word`: the search for a word.
3. `ofRules_wordRules`, `ofRules_words_congr`: searches for words as a look-up.
4. `stands_ofRuns_iff`, `stands_words_iff`: what a look-up has found.
-/

namespace TagLayers

namespace Text

open Unicode

/-- Two neighbours without an edge of a word between them. -/
def joined (a b : Char) : Bool := isWord a == isWord b

/-- The runs of a text: words, and stretches without one. -/
def runs (text : Text) : List Text := text.splitBy joined

theorem flatten_runs (text : Text) : text.runs.flatten = text := List.flatten_splitBy _ text

/-- The texts are the runs of what they join to. -/
inductive AreRuns : List Text → Prop
  | nil : AreRuns []
  | cons {run : Text} {rest : List Text} {inWord : Bool} :
      run ≠ [] → (∀ c ∈ run, isWord c = inWord) →
      (∀ c ∈ rest.flatten.head?, isWord c = !inWord) → AreRuns rest → AreRuns (run :: rest)

theorem isWord_eq_of_isChain {c : Char} {run : Text}
    (h : (c :: run).IsChain fun a b => joined a b = true) :
    ∀ d ∈ c :: run, isWord d = isWord c := by
  induction run generalizing c with
  | nil =>
    intro d hd
    rw [List.mem_singleton.mp hd]
  | cons c' run ih =>
    obtain ⟨hc, hrun⟩ := List.isChain_cons_cons.mp h
    refine List.forall_mem_cons.mpr ⟨rfl, fun d hd => ?_⟩
    rw [ih hrun d hd, beq_iff_eq.mp hc]

theorem areRuns_of_isChain {rs : List Text} (hne : [] ∉ rs)
    (hsame : ∀ run ∈ rs, run.IsChain fun a b => joined a b = true)
    (hedges : rs.IsChain fun a b => ∃ ha hb, joined (a.getLast ha) (b.head hb) = false) :
    AreRuns rs := by
  induction rs with
  | nil => exact .nil
  | cons run rest ih =>
    obtain ⟨hrun, hrest⟩ := List.forall_mem_cons.mp hsame
    obtain ⟨c, run, rfl⟩ := List.exists_cons_of_ne_nil (List.ne_of_not_mem_cons hne).symm
    have hkind := isWord_eq_of_isChain hrun
    refine .cons (List.cons_ne_nil c run) hkind ?_
      (ih (List.not_mem_of_not_mem_cons hne) hrest hedges.tail)
    cases rest with
    | nil => exact nofun
    | cons next rest =>
      obtain ⟨hc, hd, hedge⟩ := (List.isChain_cons_cons.mp hedges).1
      rw [joined, hkind _ (List.getLast_mem hc), beq_eq_false_iff_ne] at hedge
      obtain ⟨d, next, rfl⟩ := List.exists_cons_of_ne_nil hd
      intro d' hd'
      obtain rfl : d = d' := Option.some.inj hd'
      exact Bool.eq_not.mpr hedge.symm

theorem areRuns_runs (text : Text) : AreRuns text.runs :=
  areRuns_of_isChain (List.nil_notMem_splitBy _ text) (fun _ => List.isChain_of_mem_splitBy)
    (List.isChain_getLast_head_splitBy _ text)

variable {rs rs' : List Text} {u w v : Text}

theorem AreRuns.of_append_left (h : AreRuns (rs ++ rs')) : AreRuns rs := by
  induction rs with
  | nil => exact .nil
  | cons run rest ih =>
    obtain _ | ⟨hne, hkind, hnext, hrest⟩ := h
    refine .cons hne hkind (fun c hc => hnext c ?_) (ih hrest)
    show c ∈ (rest ++ rs').flatten.head?
    rw [List.flatten_append, List.head?_append, Option.mem_def.mp hc]
    rfl

theorem AreRuns.tail (h : AreRuns (u :: rs)) : AreRuns rs := by
  obtain _ | ⟨-, -, -, hrest⟩ := h
  exact hrest

theorem AreRuns.of_append_right (h : AreRuns (rs ++ rs')) : AreRuns rs' := by
  induction rs with
  | nil => exact h
  | cons run rest ih => exact ih h.tail

/-- A word consists of characters of words. -/
structure IsWord (w : Text) : Prop where
  ne_nil : w ≠ []
  word : ∀ c ∈ w, isWord c = true

/-- A word that neither what stands before it nor what stands after it carries on. -/
structure WordBetween (u w v : Text) : Prop extends IsWord w where
  before : ∀ c ∈ u.getLast?, isWord c = false
  after : ∀ c ∈ v.head?, isWord c = false

theorem runs_append_word (h : WordBetween u w v) :
    (u ++ (w ++ v)).runs = u.runs ++ w :: v.runs := by
  have hrun : w.runs = [w] := by
    refine List.splitBy_of_isChain h.ne_nil (List.Pairwise.isChain ?_)
    refine List.pairwise_of_forall_mem_list fun a ha b hb => ?_
    rw [joined, h.word a ha, h.word b hb]
    rfl
  have hbefore : (u ++ (w ++ v)).runs = u.runs ++ (w ++ v).runs := by
    refine List.splitBy_append fun a ha b hb => ?_
    rw [List.head?_append_of_ne_nil _ h.ne_nil] at hb
    rw [joined, h.before a ha, h.word b (List.mem_of_mem_head? hb)]
    rfl
  have hafter : (w ++ v).runs = w.runs ++ v.runs := by
    refine List.splitBy_append fun a ha b hb => ?_
    rw [joined, h.after b hb, h.word a (List.mem_of_mem_getLast? ha)]
    rfl
  rw [hbefore, hafter, hrun, List.singleton_append]

theorem AreRuns.wordBetween (h : AreRuns (rs ++ w :: rs')) (hw : w.IsWord) :
    WordBetween rs.flatten w rs'.flatten := by
  obtain _ | ⟨hne, hkind, hnext, -⟩ := h.of_append_right
  obtain ⟨c, w, rfl⟩ := List.exists_cons_of_ne_nil hne
  obtain rfl := (hw.word c List.mem_cons_self).symm.trans (hkind c List.mem_cons_self)
  refine ⟨hw, fun b hb => ?_, hnext⟩
  rcases List.eq_nil_or_concat rs with rfl | ⟨x, run, rfl⟩
  · cases hb
  · rw [List.concat_eq_append] at h hb
    rw [List.append_assoc] at h
    obtain _ | ⟨hrun, hkind', hnext', -⟩ := h.of_append_right
    rw [List.flatten_append, List.flatten_singleton, List.getLast?_append_of_ne_nil _ hrun] at hb
    rw [hkind' b (List.mem_of_mem_getLast? hb)]
    have hc := hnext' c rfl
    rw [hw.word c List.mem_cons_self] at hc
    exact (Bool.not_eq_true' _).mp hc.symm

end Text

/-! ## The search for a word -/

namespace Finder

open Unicode

variable {word later rest : Text} {before : Option Char}

theorem isWordAt_some (c : Char) : Assertion.isWordAt (some c) = isWord c := by
  rw [Assertion.isWordAt, Option.any_some]

/-- Both ends of a word are characters of it. -/
theorem isWordAt_ends (hword : word.IsWord) (before : Option Char) (later : Text) :
    Assertion.isWordAt (word ++ later).head? = true ∧
      Assertion.isWordAt (word.getLast?.or before) = true := by
  constructor
  · rw [List.head?_append_of_ne_nil _ hword.ne_nil, List.head?_eq_some_head hword.ne_nil,
      isWordAt_some]
    exact hword.word _ (List.head_mem _)
  · rw [List.getLast?_eq_some_getLast hword.ne_nil, Option.some_or, isWordAt_some]
    exact hword.word _ (List.getLast_mem _)

theorem wordAt?_append (hword : word.IsWord)
    (hbefore : Assertion.isWordAt before = false)
    (hlater : Assertion.isWordAt later.head? = false) :
    wordAt? word before (word ++ later) = some word.length := by
  obtain ⟨hfirst, hlast⟩ := isWordAt_ends hword before later
  rw [wordAt?, Assertion.holds, Assertion.holds, hbefore, hfirst, hlast, List.drop_left, hlater,
    List.isPrefixOf_iff_prefix.mpr (List.prefix_append _ later)]
  rfl

/-- A word is not found where one end of it is no edge. -/
theorem wordAt?_eq_none (hword : word.IsWord)
    (h : ∀ later, rest = word ++ later →
      Assertion.isWordAt before = true ∨ Assertion.isWordAt later.head? = true) :
    wordAt? word before rest = none := by
  refine if_neg fun hfound => ?_
  rw [Bool.and_eq_true, Bool.and_eq_true] at hfound
  obtain ⟨⟨hstarts, hstart⟩, hstop⟩ := hfound
  obtain ⟨later, rfl⟩ := List.isPrefixOf_iff_prefix.mp hstarts
  obtain ⟨hfirst, hlast⟩ := isWordAt_ends hword before later
  rcases h later rfl with hbefore | hlater
  · rw [Assertion.holds, hbefore, hfirst] at hstart
    cases hstart
  · rw [Assertion.holds, hlast, List.drop_left, hlater] at hstop
    cases hstop

theorem foldl_some (text : Text) (before : Option Char) :
    text.foldl (fun _ c => some c) before = text.getLast?.or before := by
  rcases List.eq_nil_or_concat text with rfl | ⟨text, c, rfl⟩
  · rfl
  · rw [List.concat_eq_append, List.foldl_append, List.getLast?_append]
    rfl

/-- In a run that is another text than a word, the word is found nowhere. -/
theorem wordAt?_of_run {a b : Text} {inWord : Bool} (hword : word.IsWord)
    (hkind : ∀ c ∈ a ++ b, isWord c = inWord)
    (hnext : ∀ c ∈ rest.head?, isWord c = !inWord) (hb : b ≠ []) (hother : a ++ b ≠ word) :
    wordAt? word (a.getLast?.or before) (b ++ rest) = none := by
  refine wordAt?_eq_none hword fun later hlater => ?_
  obtain ⟨c, w, rfl⟩ := List.exists_cons_of_ne_nil hword.ne_nil
  obtain ⟨d, b, rfl⟩ := List.exists_cons_of_ne_nil hb
  obtain ⟨rfl, hmore⟩ := List.cons.inj hlater
  obtain rfl : inWord = true := by
    rw [← hword.word d List.mem_cons_self, hkind d (by simp)]
  rcases List.eq_nil_or_concat a with rfl | ⟨a, e, rfl⟩
  · -- the run and the word differ in length, and the shorter one ends within a word
    refine .inr ?_
    rcases List.append_eq_append_iff.mp hmore with ⟨u, rfl, hu⟩ | ⟨u, rfl, rfl⟩
    · cases u with
      | nil => exact absurd (by rw [List.append_nil]; rfl) hother
      | cons e u =>
        have he : isWord e = false := hnext e (by rw [hu]; rfl)
        rw [hword.word e (by simp)] at he
        cases he
    · cases u with
      | nil => exact absurd (by rw [List.append_nil]; rfl) hother
      | cons e u =>
        rw [List.cons_append, List.head?_cons, isWordAt_some]
        exact hkind e (by simp)
  · refine .inl ?_
    rw [List.concat_eq_append, List.getLast?_concat, Option.some_or, isWordAt_some]
    exact hkind e (by simp)

end Finder

namespace Segment

open Unicode

variable {look : Text → Option Tag} {row : List Segment} {run before : Text} {g : Segment}
  {label : Tag} {rs rs' : List Text}

/-- The segments of runs that are looked up, after generic text. -/
def ofRuns (look : Text → Option Tag) (run : Text) : List Text → List Segment
  | [] => gap run
  | r :: rest =>
      match look r with
      | some label => gap run ++ ⟨label, r⟩ :: ofRuns look [] rest
      | none => ofRuns look (run ++ r) rest

theorem ofRuns_some {r : Text} (h : look r = some label) :
    ofRuns look run (r :: rs) = gap run ++ ⟨label, r⟩ :: ofRuns look [] rs := by
  rw [ofRuns, h]

theorem ofRuns_none {r : Text} (h : look r = none) :
    ofRuns look run (r :: rs) = ofRuns look (run ++ r) rs := by
  rw [ofRuns, h]

/-- What a search passes over stays generic. -/
theorem ofPieces_skip {σ : Type} {find : σ → Text → Option Nat} {pass : σ → Char → σ}
    {jump : σ → Text → σ} {s : σ} {text rest : Text}
    (h : ∀ a b, text = a ++ b → b ≠ [] → find (a.foldl pass s) (b ++ rest) = none) :
    ofPieces label run (Piece.search find pass jump s (text ++ rest))
      = ofPieces label (run ++ text) (Piece.search find pass jump (text.foldl pass s) rest) := by
  induction text generalizing s run with
  | nil => rw [List.append_nil]; rfl
  | cons c text ih =>
    have hfirst : find s (c :: (text ++ rest)) = none := h [] (c :: text) rfl (List.cons_ne_nil _ _)
    rw [List.cons_append, Piece.search_plain hfirst, ofPieces,
      ih fun a b hab hb => h (c :: a) b (congrArg (c :: ·) hab) hb, List.append_assoc]
    rfl

/-- The rule that finds a word. -/
def wordRule (w : Text × Tag) : Rule := ⟨w.2, (Finder.word w.1).pieces⟩

/-- The search for a word finds the runs that are this word. -/
theorem ofPieces_word {word : Text} (hword : word.IsWord) {before : Option Char}
    (hruns : Text.AreRuns rs)
    (hbefore : ∀ c ∈ rs.flatten.head?, isWord c = true → Assertion.isWordAt before = false) :
    ofPieces label run (Piece.search (Finder.wordAt? word) (fun _ c => some c)
      (fun before t => t.getLast?.or before) before rs.flatten)
      = ofRuns ([(word, label)].lookup ·) run rs := by
  induction hruns generalizing run before with
  | nil => rw [List.flatten_nil, Piece.search]; rfl
  | @cons r rest inWord hr hkind hnext _ ih =>
    have hlast : Assertion.isWordAt (r.getLast?.or before) = inWord := by
      rw [List.getLast?_eq_some_getLast hr, Option.some_or, Finder.isWordAt_some]
      exact hkind _ (List.getLast_mem hr)
    have hedge : ∀ d ∈ rest.flatten.head?, isWord d = true →
        Assertion.isWordAt (r.getLast?.or before) = false := by
      intro d hd hdword
      rw [hnext d hd] at hdword
      rw [hlast, ← Bool.not_eq_true', hdword]
    rw [List.flatten_cons]
    by_cases hsame : r = word
    · subst hsame
      obtain ⟨c, r, rfl⟩ := List.exists_cons_of_ne_nil hr
      have hc := hword.word c List.mem_cons_self
      have hstart : Assertion.isWordAt before = false := hbefore c rfl hc
      have hstop : Assertion.isWordAt rest.flatten.head? = false := by
        cases hhead : rest.flatten.head? with
        | none => rfl
        | some d =>
          rw [Finder.isWordAt_some, hnext d hhead, ← hkind c List.mem_cons_self, hc]
          rfl
      have hfind : Finder.wordAt? (c :: r) before (c :: (r ++ rest.flatten))
          = some (r.length + 1) := Finder.wordAt?_append hword hstart hstop
      rw [List.cons_append, Piece.search_found hfind, ofPieces,
        if_neg (by simp), ih hedge, ofRuns_some List.lookup_cons_self]
    · have hlook : [(word, label)].lookup r = none := by
        rw [List.lookup_cons, beq_false_of_ne hsame]
        rfl
      rw [ofRuns_none hlook, ofPieces_skip, Finder.foldl_some]
      · exact ih hedge
      · rintro a b rfl hb
        rw [Finder.foldl_some]
        exact Finder.wordAt?_of_run hword hkind hnext hb hsame

theorem ofRuns_append_some {r : Text} (h : look r = some label) :
    ofRuns look run (rs ++ r :: rs') = ofRuns look run rs ++ ⟨label, r⟩ :: ofRuns look [] rs' := by
  induction rs generalizing run with
  | nil => exact ofRuns_some h
  | cons q rs ih =>
    cases hq : look q with
    | none => rw [List.cons_append, ofRuns_none hq, ofRuns_none hq, ih]
    | some label' =>
      rw [List.cons_append, ofRuns_some hq, ofRuns_some hq, ih, List.append_assoc]
      rfl

theorem ofRuns_congr {look' : Text → Option Tag} (h : ∀ r ∈ rs, look r = look' r) :
    ofRuns look run rs = ofRuns look' run rs := by
  induction rs generalizing run with
  | nil => rfl
  | cons r rs ih =>
    obtain ⟨hr, hrest⟩ := List.forall_mem_cons.mp h
    rw [ofRuns, ofRuns, ← hr]
    split
    · rw [ih hrest]
    · exact ih hrest

theorem ofRuns_of_none (h : ∀ r ∈ rs, look r = none) :
    ofRuns look run rs = gap (run ++ rs.flatten) := by
  induction rs generalizing run with
  | nil => rw [List.flatten_nil, List.append_nil]; rfl
  | cons r rs ih =>
    obtain ⟨hr, hrest⟩ := List.forall_mem_cons.mp h
    rw [ofRuns_none hr, ih hrest, List.flatten_cons, List.append_assoc]

/-- What can be looked up: words, each with a tag that is not the generic one. -/
def Words (words : List (Text × Tag)) : Prop :=
  ∀ w ∈ words, w.1.IsWord ∧ w.2.isGeneric = false

theorem Words.of_lookup {words : List (Text × Tag)} (h : Words words) {r : Text}
    (hr : words.lookup r = some label) : r.IsWord ∧ label.isGeneric = false := by
  obtain ⟨_, _, rfl, -⟩ := List.lookup_eq_some_iff.mp hr
  exact h (r, label) (by simp)

theorem split_gap {w : Text × Tag} (hw : w.1.IsWord) (hruns : Text.AreRuns rs) :
    (gap rs.flatten).flatMap (split (wordRule w)) = ofRuns ([w].lookup ·) [] rs := by
  by_cases hrs : rs.flatten = []
  · have hnil : rs = [] := by
      cases hruns with
      | nil => rfl
      | cons hr => exact absurd (List.append_eq_nil_iff.mp hrs).1 hr
    rw [hnil]
    rfl
  · rw [gap_of_ne hrs, List.flatMap_singleton]
    exact ofPieces_word hw hruns fun _ _ _ => rfl

theorem flatMap_split_ofRuns {w : Text × Tag} (hw : w.1.IsWord)
    (hlook : ∀ r label, look r = some label → label.isGeneric = false)
    (hruns : Text.AreRuns (rs ++ rs')) (hnone : ∀ r ∈ rs, look r = none) :
    (ofRuns look rs.flatten rs').flatMap (split (wordRule w))
      = ofRuns (fun r => (look r).or ([w].lookup r)) [] (rs ++ rs') := by
  -- what is known to be generic is searched for the word, and that is a look-up as well
  have hgap {rs : List Text} (hruns : Text.AreRuns rs) (hnone : ∀ r ∈ rs, look r = none) :
      (gap rs.flatten).flatMap (split (wordRule w))
        = ofRuns (fun r => (look r).or ([w].lookup r)) [] rs := by
    rw [split_gap hw hruns]
    refine ofRuns_congr fun r hr => ?_
    rw [hnone r hr, Option.none_or]
  induction rs' generalizing rs with
  | nil =>
    rw [List.append_nil] at hruns ⊢
    exact hgap hruns hnone
  | cons r rs' ih =>
    cases hr : look r with
    | none =>
      rw [ofRuns_none hr, ← List.flatten_concat, ih, List.append_assoc]
      · rfl
      · rwa [List.append_assoc]
      · refine List.forall_mem_append.mpr ⟨hnone, ?_⟩
        exact List.forall_mem_singleton.mpr hr
    | some label =>
      have htagged : split (wordRule w) ⟨label, r⟩ = [⟨label, r⟩] :=
        split_of_tagged _ (hlook r label hr)
      have hlater : (ofRuns look [] rs').flatMap (split (wordRule w))
          = ofRuns (fun r => (look r).or ([w].lookup r)) [] rs' :=
        @ih [] hruns.of_append_right.tail (List.forall_mem_nil _)
      rw [ofRuns_some hr, List.flatMap_append, List.flatMap_cons, htagged,
        hgap hruns.of_append_left hnone, ofRuns_append_some (by rw [hr]; rfl)]
      exact congrArg _ (congrArg _ hlater)

/-- Searches for words, one after the other, are one look-up of each run. -/
theorem ofRules_wordRules {words : List (Text × Tag)} (hwords : Words words)
    (hruns : Text.AreRuns rs) :
    ofRules (words.map wordRule) (gap rs.flatten) = ofRuns (words.lookup ·) [] rs := by
  induction words using List.reverseRecOn with
  | nil =>
    show gap ([] ++ rs.flatten) = ofRuns (fun _ => none) [] rs
    exact (ofRuns_of_none fun _ _ => rfl).symm
  | append_singleton words w ih =>
    obtain ⟨hwords, hlast⟩ := List.forall_mem_append.mp hwords
    have hw := (hlast w (List.mem_singleton_self w)).1
    rw [List.map_append, ofRules_append, ih hwords]
    have hlook (r : Text) (label : Tag) (hr : words.lookup r = some label) :
        label.isGeneric = false := (Words.of_lookup hwords hr).2
    have hsplit : (ofRuns (words.lookup ·) ([] : List Text).flatten rs).flatMap
        (split (wordRule w)) = ofRuns (fun r => (words.lookup r).or ([w].lookup r)) [] ([] ++ rs) :=
      flatMap_split_ofRuns hw hlook hruns (List.forall_mem_nil _)
    simp only [List.lookup_append]
    exact hsplit

theorem stands_gap_append (htagged : g.tag.isGeneric = false) :
    Stands (gap run ++ row) before g ↔ ∃ later, before = run ++ later ∧ Stands row later g := by
  by_cases hrun : run = []
  · subst hrun
    refine ⟨fun h => ⟨before, rfl, h⟩, ?_⟩
    rintro ⟨later, rfl, h⟩
    exact h
  · rw [gap_of_ne hrun, List.singleton_append, stands_cons]
    refine ⟨?_, .inr⟩
    rintro (⟨-, rfl⟩ | h)
    · cases htagged
    · exact h

/-- What a look-up has found stands where the run stands. -/
theorem stands_ofRuns_iff (htagged : g.tag.isGeneric = false) :
    Stands (ofRuns look run rs) before g
      ↔ look g.text = some g.tag ∧ ∃ x y, rs = x ++ g.text :: y ∧ before = run ++ x.flatten := by
  induction rs generalizing run before with
  | nil =>
    constructor
    · intro hstands
      cases htagged.symm.trans (ne_nil_of_mem_gap hstands.mem).2
    · rintro ⟨-, x, y, hrs, -⟩
      exact absurd hrs (by simp)
  | cons r rs ih =>
    cases hr : look r with
    | none =>
      rw [ofRuns_none hr, ih]
      refine and_congr_right fun hg => ⟨?_, ?_⟩
      · rintro ⟨x, y, rfl, rfl⟩
        exact ⟨r :: x, y, rfl, by rw [List.flatten_cons, List.append_assoc]⟩
      · rintro ⟨x, y, hrs, rfl⟩
        cases x with
        | nil =>
          obtain ⟨rfl, -⟩ := List.cons.inj hrs
          cases hr.symm.trans hg
        | cons r' x =>
          obtain ⟨rfl, rfl⟩ := List.cons.inj hrs
          exact ⟨x, y, rfl, by rw [List.flatten_cons, List.append_assoc]⟩
    | some label =>
      rw [ofRuns_some hr, stands_gap_append htagged]
      constructor
      · rintro ⟨later, rfl, hstands⟩
        rcases stands_cons.mp hstands with ⟨rfl, rfl⟩ | ⟨later, rfl, hlater⟩
        · exact ⟨hr, [], rs, rfl, rfl⟩
        · obtain ⟨hg, x, y, rfl, rfl⟩ := ih.mp hlater
          exact ⟨hg, r :: x, y, rfl, rfl⟩
      · rintro ⟨hg, x, y, hrs, rfl⟩
        refine ⟨x.flatten, rfl, stands_cons.mpr ?_⟩
        cases x with
        | nil =>
          obtain ⟨rfl, -⟩ := List.cons.inj hrs
          cases hr.symm.trans hg
          exact .inl ⟨rfl, rfl⟩
        | cons r' x =>
          obtain ⟨rfl, rfl⟩ := List.cons.inj hrs
          exact .inr ⟨x.flatten, rfl, ih.mpr ⟨hg, x, y, rfl, rfl⟩⟩

variable {words words' : List (Text × Tag)} {s : Segment}

theorem ofRules_of_words (hwords : Words words) (hs : s.text ≠ []) :
    ofRules (words.map wordRule) [s]
      = if s.tag.isGeneric then ofRuns (words.lookup ·) [] s.text.runs else [s] := by
  split
  · next hgeneric =>
    have hgap : [s] = gap s.text.runs.flatten := by
      rw [Text.flatten_runs, gap_of_ne hs, ← beq_iff_eq.mp hgeneric]
    rw [hgap, ofRules_wordRules hwords s.text.areRuns_runs]
  · next hgeneric => exact ofRules_of_tagged _ (Bool.eq_false_of_not_eq_true hgeneric)

/-- The order of the searches does not matter beyond the look-up. -/
theorem ofRules_words_congr (hwords : Words words) (hwords' : Words words')
    (hsame : ∀ w, words.lookup w = words'.lookup w) (hrow : ∀ s ∈ row, s.text ≠ []) :
    ofRules (words.map wordRule) row = ofRules (words'.map wordRule) row := by
  rw [ofRules_flatMap, ofRules_flatMap (words'.map wordRule)]
  refine List.flatMap_congr fun s hs => ?_
  rw [ofRules_of_words hwords (hrow s hs), ofRules_of_words hwords' (hrow s hs)]
  simp only [hsame]

/-- What the searches for words have found: words of generic segments, as large as they can be. -/
theorem stands_words_iff (hwords : Words words) (hrow : ∀ s ∈ row, s.text ≠ []) (hnew : g ∉ row)
    (htagged : g.tag.isGeneric = false) :
    Stands (ofRules (words.map wordRule) row) before g
      ↔ words.lookup g.text = some g.tag ∧ ∃ outer s u v, Stands row outer s ∧
        s.tag.isGeneric = true ∧ s.text = u ++ (g.text ++ v) ∧ Text.WordBetween u g.text v ∧
        before = outer ++ u := by
  have hrules : ∀ rule ∈ words.map wordRule, Tokenizer.Lossless rule.find := by
    intro rule hrule
    obtain ⟨w, -, rfl⟩ := List.mem_map.mp hrule
    exact (Finder.word w.1).join_pieces
  constructor
  · intro hstands
    obtain ⟨outer, s, inner, hs, hinner, rfl⟩ := hstands.exists_outer hrules
    rw [ofRules_of_words hwords (hrow s hs.mem)] at hinner
    split at hinner
    · next hgeneric =>
      obtain ⟨hlook, x, y, hxy, rfl⟩ := (stands_ofRuns_iff htagged).mp hinner
      have hword := (hwords.of_lookup hlook).1
      have hruns := s.text.areRuns_runs
      rw [hxy] at hruns
      refine ⟨hlook, outer, s, x.flatten, y.flatten, hs, hgeneric, ?_, hruns.wordBetween hword, rfl⟩
      rw [← Text.flatten_runs s.text, hxy, List.flatten_append, List.flatten_cons]
    · rw [hinner.eq_of_singleton.2] at hnew
      exact absurd hs.mem hnew
  · rintro ⟨hlook, outer, s, u, v, hs, hgeneric, htext, hword, rfl⟩
    refine hs.ofRules hrules ?_
    rw [ofRules_of_words hwords (hrow s hs.mem), if_pos hgeneric, htext,
      Text.runs_append_word hword]
    refine (stands_ofRuns_iff htagged).mpr ⟨hlook, u.runs, v.runs, rfl, ?_⟩
    exact (Text.flatten_runs u).symm

end Segment

end TagLayers
