import Mathlib.Data.List.Chain
import TagLayers.Proofs.Lexicon.Segments

/-!
# Layering

Each pass of a tokenizer refines the perspective before it: what has been classified stays as it is,
and what has not is divided. So an interval that a pass has classified is an interval of every later
pass, and what a pass has not classified never stands beside more of the same. Once the strings and
the blanks have been found there is neither a quote nor a blank in what is left.

Results:
1. `Refines.trans`, `refines_refine`: refinement, and what rules do.
2. `alternates_refine`: no two generic intervals come next to each other.
3. `get?_targets`: the perspectives that passes write.
4. `sound_layers`: any passes with rules that lose nothing.
5. `Searched.idle`: what a search has passed over.
6. `passes_refine`: the passes of a tokenizer.
-/

namespace TagLayers

namespace Perspective

/-- What the earlier perspective has classified the later one has as it is, and each of its
intervals lies within one of the earlier perspective. -/
structure Refines (later earlier : Perspective) : Prop where
  kept : ∀ iv ∈ earlier.intervals, iv.tag.isGeneric = false → iv ∈ later.intervals
  within : ∀ iv ∈ later.intervals, ∃ jv ∈ earlier.intervals, jv.span.contains iv.span = true

/-- No two intervals next to each other are generic. -/
def Alternates (p : Perspective) : Prop :=
  p.intervals.IsChain fun a b => ¬(a.tag.isGeneric = true ∧ b.tag.isGeneric = true)

theorem Refines.refl (p : Perspective) : p.Refines p where
  kept _ hiv _ := hiv
  within iv hiv := ⟨iv, hiv, iv.span.contains_self⟩

theorem Refines.trans {p q r : Perspective} (hrq : r.Refines q) (hqp : q.Refines p) :
    r.Refines p where
  kept iv hiv hg := hrq.kept iv (hqp.kept iv hiv hg) hg
  within iv hiv := by
    obtain ⟨jv, hjv, hij⟩ := hrq.within iv hiv
    obtain ⟨kv, hkv, hjk⟩ := hqp.within jv hjv
    obtain ⟨hs, ht⟩ := Span.contains_iff.mp hij
    obtain ⟨hs', ht'⟩ := Span.contains_iff.mp hjk
    exact ⟨kv, hkv, Span.contains_iff.mpr ⟨Nat.le_trans hs' hs, Nat.le_trans ht ht'⟩⟩

instance : Trans (fun p q : Perspective => q.Refines p) (fun p q : Perspective => q.Refines p)
    (fun p q : Perspective => q.Refines p) where
  trans hpq hqr := hqr.trans hpq

end Perspective

/-- The layout of pieces fills the range of the pieces. -/
theorem Mark.fills_layout (label : Tag) (pieces : List Piece) {start pos : Nat} (h : start ≤ pos) :
    Interval.Fills (pos + (Piece.join pieces).byteLen) start
      (layout start pos (ofPieces label pieces)) := by
  have hgap {start stop : Nat} (h : start ≤ stop) : Interval.Fills stop start (gap start stop) := by
    unfold gap
    split
    · next hlt => exact ⟨rfl, hlt, rfl⟩
    · next hlt => exact Nat.le_antisymm h (Nat.not_lt.mp hlt)
  induction pieces generalizing start pos with
  | nil => exact hgap h
  | cons piece rest ih =>
    rw [Piece.join_cons, Text.byteLen_append, ← Nat.add_assoc]
    cases piece with
    | plain c => exact ih (Nat.le_add_right_of_le h)
    | found t =>
      rw [ofPieces]
      split
      · next ht =>
        obtain rfl := List.isEmpty_iff.mp ht
        exact ih h
      · next ht =>
        have hpos : 0 < t.byteLen := Nat.pos_of_ne_zero fun h0 =>
          ht (List.isEmpty_iff.mpr (Text.eq_nil_of_byteLen h0))
        exact (hgap h).append ⟨rfl, Nat.lt_add_of_pos_right hpos, ih (Nat.le_refl _)⟩

namespace Segment

/-- No two segments next to each other are generic. -/
def Alternates (row : List Segment) : Prop :=
  row.IsChain fun a b => ¬(a.tag.isGeneric = true ∧ b.tag.isGeneric = true)

theorem alternates_ofPieces {label : Tag} (hlabel : label.isGeneric = false) (run : Text)
    (pieces : List Piece) : Alternates (ofPieces label run pieces) := by
  have hgap (run : Text) : Alternates (gap run) := by
    unfold gap
    split
    · exact .nil
    · exact .singleton _
  induction pieces generalizing run with
  | nil => exact hgap run
  | cons piece rest ih =>
    cases piece with
    | plain c => exact ih (run ++ [c])
    | found t =>
      rw [ofPieces]
      split
      · exact ih run
      · refine List.isChain_append.mpr ⟨hgap run, List.isChain_cons.mpr ⟨?_, ih []⟩, ?_⟩
        · intro s _ h
          cases hlabel.symm.trans h.1
        · intro s _ s' hs' h
          obtain rfl := Option.some.inj hs'
          cases hlabel.symm.trans h.2

theorem alternates_split {rule : Rule} (hlabel : rule.label.isGeneric = false) {row : List Segment}
    (h : Alternates row) : Alternates (row.flatMap (split rule)) := by
  induction row with
  | nil => exact .nil
  | cons s rest ih =>
    obtain ⟨hhead, hrest⟩ := List.isChain_cons.mp h
    refine List.isChain_append.mpr ⟨?_, ih hrest, ?_⟩
    · unfold split
      split
      · exact alternates_ofPieces hlabel _ _
      · exact .singleton _
    · intro a ha b hb hab
      cases hs : s.tag.isGeneric with
      | false =>
        rw [split_of_tagged rule hs] at ha
        obtain rfl := Option.some.inj ha
        cases hs.symm.trans hab.1
      | true =>
        -- what comes next is not generic, so it is there as it was
        cases rest with
        | nil => cases hb
        | cons next rest =>
          have hnext : next.tag.isGeneric = false :=
            eq_false_of_ne_true fun hg => hhead next rfl ⟨hs, hg⟩
          replace hb : b ∈ (next.split rule ++ rest.flatMap (split rule)).head? := hb
          rw [split_of_tagged rule hnext] at hb
          obtain rfl := Option.some.inj hb
          cases hnext.symm.trans hab.2

theorem Alternates.next {x y : List Segment} {g : Segment} (h : Alternates (x ++ g :: y))
    (hg : g.tag.isGeneric = true) : ∀ s ∈ y.head?, s.tag.isGeneric = false := by
  intro s hs
  have htail := (List.isChain_append.mp h).2.1
  exact eq_false_of_ne_true fun hsg => (List.isChain_cons.mp htail).1 s hs ⟨hg, hsg⟩

/-- All characters of generic segments have a property. -/
def GenericIn (P : Char → Prop) (row : List Segment) : Prop :=
  ∀ s ∈ row, s.tag.isGeneric = true → ∀ c ∈ s.text, P c

theorem GenericIn.split {P : Char → Prop} {row : List Segment} (h : GenericIn P row) {rule : Rule}
    (hrule : Tokenizer.Lossless rule.find) : GenericIn P (row.flatMap (split rule)) := by
  intro g hg hgeneric c hc
  obtain ⟨s, hs, hgs⟩ := List.mem_flatMap.mp hg
  cases hsg : s.tag.isGeneric with
  | false =>
    rw [split_of_tagged rule hsg] at hgs
    obtain rfl := List.mem_singleton.mp hgs
    exact h g hs hgeneric c hc
  | true =>
    refine h s hs hsg c ?_
    rw [← join_split hrule s]
    exact List.mem_flatMap.mpr ⟨g, hgs, hc⟩

section Search

variable {σ : Type} {find : σ → Text → Option Nat} {pass : σ → Char → σ} {jump : σ → Text → σ}

theorem mem_gap {g : Segment} {run : Text} (h : g ∈ gap run) : g.text = run := by
  unfold gap at h
  split at h
  · cases h
  · rw [List.mem_singleton.mp h]

/-- A search has found nothing at the characters that it has passed over. -/
theorem Searched.idle {label : Tag} (hlabel : label.isGeneric = false) {s : σ}
    {row : List Segment} (h : Searched find pass jump label s row) :
    GenericIn (fun c => ∃ s' rest, (find s' (c :: rest)).getD 0 = 0) row := by
  induction h with
  | rest hrun =>
    intro g hg _ c hc
    rw [mem_gap hg] at hc
    exact hrun.idle hc
  | found hrun _ _ _ _ ih =>
    intro g hg hgeneric c hc
    rcases List.mem_append.mp hg with hg | hg
    · rw [mem_gap hg] at hc
      exact hrun.idle hc
    · rcases List.mem_cons.mp hg with rfl | hg
      · cases hlabel.symm.trans hgeneric
      · exact ih g hg hgeneric c hc

theorem genericIn_search {P : Char → Prop} {label : Tag} (hlabel : label.isGeneric = false) (s : σ)
    (hP : ∀ s' c rest, (find s' (c :: rest)).getD 0 = 0 → P c) (row : List Segment) :
    GenericIn P (row.flatMap (split ⟨label, Piece.search find pass jump s⟩)) := by
  intro g hg hgeneric c hc
  obtain ⟨s₀, -, hgs⟩ := List.mem_flatMap.mp hg
  cases hsg : s₀.tag.isGeneric with
  | false =>
    rw [split_of_tagged _ hsg] at hgs
    obtain rfl := List.mem_singleton.mp hgs
    cases hsg.symm.trans hgeneric
  | true =>
    rw [Segment.split, if_pos hsg] at hgs
    have hsearched := searched_search find pass jump label s s₀.text
    obtain ⟨s', rest, hidle⟩ := hsearched.idle hlabel g hgs hgeneric c hc
    exact hP s' c rest hidle

end Search

end Segment

namespace Tokenizer

variable {source : Source} {p : Perspective}

/-! ## Rules -/

theorem refines_refine (hp : p.Fits source) {rule : Rule} (hrule : Lossless rule.find) :
    (refine source p rule).Refines p where
  kept iv hiv hg := by
    refine List.mem_flatMap.mpr ⟨iv, hiv, ?_⟩
    rw [split, if_neg (by simp [hg])]
    exact List.mem_singleton_self iv
  within iv hiv := by
    obtain ⟨jv, hjv, hin⟩ := List.mem_flatMap.mp hiv
    refine ⟨jv, hjv, Span.contains_iff.mpr ?_⟩
    unfold split at hin
    split at hin
    · have hfills := Mark.fills_layout rule.label
        (rule.find (source.text.slice jv.span.start jv.span.stop)) (Nat.le_refl jv.span.start)
      rw [hrule, byteLen_slice (hp.admits hjv).1] at hfills
      obtain ⟨hstart, -, hstop⟩ := hfills.mem hin
      exact ⟨hstart, hstop⟩
    · rw [List.mem_singleton.mp hin]
      exact ⟨Nat.le_refl _, Nat.le_refl _⟩

theorem alternates_segments (source : Source) :
    Segment.Alternates (p.segments source) ↔ p.Alternates :=
  List.isChain_map _

theorem alternates_refine (hp : p.Fits source) (h : p.Alternates) {rule : Rule}
    (hrule : Lossless rule.find) (hlabel : rule.label.isGeneric = false) :
    (refine source p rule).Alternates := by
  rw [← alternates_segments source] at h ⊢
  rw [segments_refine hp hrule]
  exact Segment.alternates_split hlabel h

/-- What a perspective keeps when it is refined. -/
structure Sound (source : Source) (p : Perspective) : Prop where
  fits : p.Fits source
  alternates : p.Alternates

theorem Sound.refines {rules : List Rule} (hp : Sound source p)
    (hrules : ∀ rule ∈ rules, Lossless rule.find ∧ rule.label.isGeneric = false) :
    Sound source (rules.foldl (refine source) p) ∧ (rules.foldl (refine source) p).Refines p := by
  induction rules generalizing p with
  | nil => exact ⟨hp, .refl p⟩
  | cons rule rules ih =>
    obtain ⟨⟨hfind, hlabel⟩, hrest⟩ := List.forall_mem_cons.mp hrules
    obtain ⟨hsound, hrefines⟩ := ih
      ⟨fits_refine hp.fits hfind, alternates_refine hp.fits hp.alternates hfind hlabel⟩ hrest
    exact ⟨hsound, hrefines.trans (refines_refine hp.fits hfind)⟩

theorem label_of_mem_passes {t : Tokenizer} {pass : Pass} (hpass : pass ∈ t.passes) {rule : Rule}
    (hrule : rule ∈ pass.rules) : rule.label.isGeneric = false := by
  simp only [passes, List.mem_cons, List.not_mem_nil, or_false] at hpass
  rcases hpass with rfl | rfl | rfl | rfl | rfl | rfl
  · obtain rfl := List.mem_singleton.mp hrule
    rfl
  · obtain ⟨d, -, rfl⟩ := List.mem_map.mp hrule
    rfl
  · obtain rfl := List.mem_singleton.mp hrule
    rfl
  · obtain rfl := List.mem_singleton.mp hrule
    rfl
  · obtain ⟨r, -, rfl⟩ := List.mem_map.mp hrule
    rfl
  · obtain ⟨k, -, rfl⟩ := List.mem_map.mp hrule
    rfl

/-! ## The perspectives that passes write -/

/-- What passes make of a perspective, one after the other. -/
def layers (source : Source) (p : Perspective) : List Pass → List Perspective
  | [] => []
  | pass :: rest =>
      pass.rules.foldl (refine source) p :: layers source (pass.rules.foldl (refine source) p) rest

/-- Each step, from one name to another, starts where the one before it has ended, and ends where no
later one does. -/
def Chained : String → List (String × String) → Prop
  | _, [] => True
  | name, step :: rest => step.1 = name ∧ step.2 ∉ rest.map (·.2) ∧ Chained step.2 rest

theorem chained_passes (t : Tokenizer) :
    Chained TaggedText.top (t.passes.map fun pass => (pass.source, pass.target)) := by
  simp [passes, Chained]

theorem get?_targets {name : String} {passes : List Pass}
    (hchained : Chained name (passes.map fun pass => (pass.source, pass.target)))
    {text text' : TaggedText} (ht : text.Reachable) (hp : text.perspectives.get? name = some p)
    (hrules : ∀ pass ∈ passes, ∀ rule ∈ pass.rules, Lossless rule.find)
    (h : passes.foldlM runPass text = .ok text') :
    passes.map (fun pass => text'.perspectives.get? pass.target)
      = (layers text.source p passes).map some := by
  induction passes generalizing name p text with
  | nil => rfl
  | cons pass rest ih =>
    obtain ⟨rfl, hlast, hlater⟩ := hchained
    obtain ⟨hfirst, hrest⟩ := List.forall_mem_cons.mp hrules
    rw [List.foldlM_cons] at h
    obtain ⟨next, hpass, hnext⟩ := bind_eq_ok.mp h
    obtain ⟨htarget, hsource⟩ := get?_target ht.sound hpass hp hfirst
    rw [List.map_cons, layers, List.map_cons, ← hsource,
      ← ih hlater (reachable_runPass ht hpass) (hsource ▸ htarget) hrest hnext, hsource,
      get?_runPasses hnext (by simpa using hlast), htarget]

theorem sound_layers {passes : List Pass} (hp : Sound source p)
    (hrules : ∀ pass ∈ passes, ∀ rule ∈ pass.rules,
      Lossless rule.find ∧ rule.label.isGeneric = false) :
    (∀ q ∈ p :: layers source p passes, Sound source q) ∧
      (p :: layers source p passes).IsChain fun earlier later => later.Refines earlier := by
  induction passes generalizing p with
  | nil => exact ⟨List.forall_mem_singleton.mpr hp, .singleton p⟩
  | cons pass rest ih =>
    obtain ⟨hfirst, hrest⟩ := List.forall_mem_cons.mp hrules
    obtain ⟨hsound, hrefines⟩ := hp.refines hfirst
    obtain ⟨hall, hchain⟩ := ih hsound hrest
    exact ⟨List.forall_mem_cons.mpr ⟨hp, hall⟩, .cons_cons hrefines hchain⟩

theorem genericIn_refines {P : Char → Prop} {rules : List Rule} (hp : p.Fits source)
    (h : Segment.GenericIn P (p.segments source)) (hrules : ∀ rule ∈ rules, Lossless rule.find) :
    Segment.GenericIn P ((rules.foldl (refine source) p).segments source) := by
  induction rules generalizing p with
  | nil => exact h
  | cons rule rules ih =>
    obtain ⟨hrule, hrest⟩ := List.forall_mem_cons.mp hrules
    refine ih (fits_refine hp hrule) ?_ hrest
    rw [segments_refine hp hrule]
    exact h.split hrule

/-- Characters that are not left in a perspective are not left in later ones. -/
theorem genericIn_layers {P : Char → Prop} {passes : List Pass} (hp : Sound source p)
    (h : Segment.GenericIn P (p.segments source))
    (hrules : ∀ pass ∈ passes, ∀ rule ∈ pass.rules,
      Lossless rule.find ∧ rule.label.isGeneric = false) :
    ∀ q ∈ p :: layers source p passes, Segment.GenericIn P (q.segments source) := by
  induction passes generalizing p with
  | nil => exact List.forall_mem_singleton.mpr h
  | cons pass rest ih =>
    obtain ⟨hfirst, hrest⟩ := List.forall_mem_cons.mp hrules
    refine List.forall_mem_cons.mpr ⟨h, ih (hp.refines hfirst).1 ?_ hrest⟩
    exact genericIn_refines hp.fits h fun rule hrule => (hfirst rule hrule).1

theorem sound_fresh (source : Source) : Sound source (Perspective.fresh source.length) where
  fits := .fresh source
  alternates := by
    unfold Perspective.Alternates Perspective.fresh
    dsimp only
    split
    · exact .nil
    · exact .singleton _

/-- The perspectives of a tokenization, from the one that it starts from to the last. -/
theorem get?_perspectiveNames (t : Tokenizer) (source : Source) :
    ∃ text, t.tokenize source = .ok text ∧ text.Sound ∧ text.source = source ∧
      perspectiveNames.map text.perspectives.get?
        = (Perspective.fresh source.length
            :: layers source (Perspective.fresh source.length) t.passes).map some := by
  obtain ⟨text, htext, hsound, hsource, -⟩ := t.tokenize_ok source
  refine ⟨text, htext, hsound, hsource, ?_⟩
  have hstart : (TaggedText.ofSource source).perspectives.get? TaggedText.top
      = some (Perspective.fresh source.length) := by
    rw [TaggedText.ofSource, NameTable.get?_insert, if_pos rfl]
  have htop : text.perspectives.get? TaggedText.top = some (Perspective.fresh source.length) :=
    (get?_runPasses htext (by simp [passes, TaggedText.top])).trans hstart
  have htargets := get?_targets t.chained_passes (.ofSource source) hstart
    (fun pass hpass rule hrule => lossless_of_mem_passes hpass hrule) htext
  rw [List.map_cons, ← htop]
  exact congrArg (text.perspectives.get? TaggedText.top :: ·) htargets

theorem genericIn_strings (lex : Lexicon) (row : List Segment) :
    Segment.GenericIn (· ≠ lex.quote)
      (row.flatMap (Segment.split ⟨Tag.ofCategory .string, lex.strings⟩)) := by
  refine Segment.genericIn_search rfl () (fun _ c rest hidle hc => ?_) row
  rw [Lexicon.stringAt?, if_pos hc, Option.getD_some] at hidle
  omega

/-- The perspective in which the strings have been found, and the one in which the blanks have. -/
theorem genericIn_blanks (t : Tokenizer) {p : Perspective} (hp : p.Fits source) :
    let blanks := refine source (refine source p ⟨Tag.ofCategory .string, t.lexicon.strings⟩)
      ⟨Tag.ofCategory .whitespace, Lexicon.blanks⟩
    Segment.GenericIn (fun c => c ≠ t.lexicon.quote ∧ Unicode.isBlank c = false)
      (blanks.segments source) := by
  have hstrings : Lossless t.lexicon.strings := Piece.join_search _ _ _ _
  have hblanks : Lossless Lexicon.blanks := Piece.join_search _ _ _ _
  have hquote : Segment.GenericIn (· ≠ t.lexicon.quote)
      ((refine source p ⟨Tag.ofCategory .string, t.lexicon.strings⟩).segments source) := by
    rw [segments_refine hp hstrings]
    exact genericIn_strings t.lexicon _
  intro blanks g hg hgeneric c hc
  rw [segments_refine (fits_refine hp hstrings) hblanks] at hg
  refine ⟨hquote.split hblanks g hg hgeneric c hc, ?_⟩
  refine Segment.genericIn_search (P := fun c => Unicode.isBlank c = false) rfl ()
    (fun _ c rest hidle => eq_false_of_ne_true fun hc => ?_) _ g hg hgeneric c hc
  rw [Option.getD_some, List.takeWhile_cons_of_pos hc] at hidle
  exact Nat.succ_ne_zero _ hidle

/-- Each pass refines those before it: what they have classified stays as it is, and each interval
lies within one of theirs. In no perspective do two generic intervals come next to each other, and
from the one of the blanks on no generic interval holds a quote or a blank. -/
theorem passes_refine (t : Tokenizer) (source : Source) :
    ∃ (text : TaggedText) (rows : List Perspective), t.tokenize source = .ok text ∧
      perspectiveNames.map text.perspectives.get? = rows.map some ∧
      rows.Pairwise (fun earlier later => later.Refines earlier) ∧
      (∀ p ∈ rows, p.Alternates) ∧
      ∀ p ∈ rows.drop 4, ∀ iv ∈ p.intervals, iv.tag.isGeneric = true →
        ∀ c ∈ source.text.slice iv.span.start iv.span.stop,
          c ≠ t.lexicon.quote ∧ Unicode.isBlank c = false := by
  obtain ⟨text, htext, -, -, hnames⟩ := t.get?_perspectiveNames source
  have hrules : ∀ pass ∈ t.passes, ∀ rule ∈ pass.rules,
      Lossless rule.find ∧ rule.label.isGeneric = false := fun pass hpass rule hrule =>
    ⟨lossless_of_mem_passes hpass hrule, label_of_mem_passes hpass hrule⟩
  obtain ⟨hsound, hchain⟩ := sound_layers (sound_fresh source) hrules
  refine ⟨text, _, htext, hnames, hchain.pairwise, fun p hp => (hsound p hp).alternates, ?_⟩
  intro p hp iv hiv hg c hc
  have hmacros := hsound _ (.tail _ (.tail _ (.head _)))
  have hblanks := hsound _ (.tail _ (.tail _ (.tail _ (.tail _ (.head _)))))
  have hlater : ∀ pass ∈ t.passes.drop 4, ∀ rule ∈ pass.rules,
      Lossless rule.find ∧ rule.label.isGeneric = false := fun pass hpass =>
    hrules pass (List.mem_of_mem_drop hpass)
  exact genericIn_layers hblanks (genericIn_blanks t hmacros.fits) hlater p hp _
    (List.mem_map_of_mem hiv) hg c hc

end Tokenizer

end TagLayers
