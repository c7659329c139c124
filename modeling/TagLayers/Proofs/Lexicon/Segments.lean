import Mathlib.Data.List.Basic
import TagLayers.Proofs.Lexicon.Layouts

/-!
# Segments

Where offsets do not matter, a perspective is a row of segments: tags with the texts under them. A
rule divides each generic segment on its own, and what its search has found in it stands between
what it has passed over.

Results:
1. `segments_refine`: what a rule does to the segments of a perspective.
2. `searched_ofPieces`: a search passes over nothing that it finds.
3. `ofRules_flatMap`: rules divide each segment on its own.
-/

namespace TagLayers

/-- A segment in what a row has been divided into lies in what one of its segments has been. -/
theorem exists_of_flatMap_eq {α β : Type} {f : α → List β} {row : List α} {x y : List β} {g : β}
    (h : row.flatMap f = x ++ g :: y) :
    ∃ x₀ s y₀ u v, row = x₀ ++ s :: y₀ ∧ f s = u ++ g :: v ∧ x = x₀.flatMap f ++ u ∧
      y = v ++ y₀.flatMap f := by
  induction row generalizing x with
  | nil => exact absurd h (by simp)
  | cons s rest ih =>
    rw [List.flatMap_cons] at h
    rcases List.append_eq_append_iff.mp h with ⟨u, rfl, hrest⟩ | ⟨v, hs, hy⟩
    · obtain ⟨x₀, s', y₀, u', v, rfl, hs', rfl, rfl⟩ := ih hrest
      exact ⟨s :: x₀, s', y₀, u', v, rfl, hs', by simp, rfl⟩
    · cases v with
      | nil =>
        rw [List.nil_append] at hy
        rw [List.append_nil] at hs
        obtain ⟨x₀, s', y₀, u', v, rfl, hs', hx, rfl⟩ := ih (x := []) hy.symm
        refine ⟨s :: x₀, s', y₀, u', v, rfl, hs', ?_, rfl⟩
        rw [List.flatMap_cons, List.append_assoc, ← hx, List.append_nil, hs]
      | cons g' v =>
        obtain ⟨rfl, rfl⟩ := List.cons.inj hy
        exact ⟨[], s, rest, x, v, rfl, hs, rfl, rfl⟩

theorem eq_of_singleton_eq {α : Type} {s g : α} {x y : List α} (h : [s] = x ++ g :: y) :
    x = [] ∧ g = s ∧ y = [] := by
  cases x with
  | nil =>
    obtain ⟨rfl, hy⟩ := List.cons.inj h
    exact ⟨rfl, rfl, hy.symm⟩
  | cons s' x =>
    obtain ⟨-, hx⟩ := List.cons.inj h
    exact absurd hx (by simp)

/-- A tag and the text under it. -/
structure Segment where
  tag : Tag
  text : Text
deriving DecidableEq, Repr

namespace Segment

def join (row : List Segment) : Text := row.flatMap (·.text)

theorem join_cons (s : Segment) (row : List Segment) : join (s :: row) = s.text ++ join row := rfl

theorem join_append (a b : List Segment) : join (a ++ b) = join a ++ join b :=
  List.flatMap_append

/-- The generic segment of a text, if there is anything in it. -/
def gap (run : Text) : List Segment := if run.isEmpty then [] else [⟨Tag.generic, run⟩]

@[simp] theorem gap_nil : gap [] = [] := rfl

theorem gap_of_ne {run : Text} (h : run ≠ []) : gap run = [⟨Tag.generic, run⟩] :=
  if_neg (by simpa using h)

@[simp] theorem join_gap (run : Text) : join (gap run) = run := by
  cases run with
  | nil => rfl
  | cons c run => exact List.append_nil _

/-- The segments of pieces after generic text. What was found in pieces has the label. -/
def ofPieces (label : Tag) (run : Text) : List Piece → List Segment
  | [] => gap run
  | .plain c :: rest => ofPieces label (run ++ [c]) rest
  | .found t :: rest =>
      if t.isEmpty then ofPieces label run rest
      else gap run ++ ⟨label, t⟩ :: ofPieces label [] rest

theorem join_ofPieces (label : Tag) (run : Text) (pieces : List Piece) :
    join (ofPieces label run pieces) = run ++ Piece.join pieces := by
  induction pieces generalizing run with
  | nil => exact (join_gap run).trans (List.append_nil run).symm
  | cons piece rest ih =>
    cases piece with
    | plain c => rw [ofPieces, ih, Piece.join_cons, List.append_assoc]; rfl
    | found t =>
      rw [ofPieces, Piece.join_cons]
      split
      · next h => rw [ih, List.isEmpty_iff.mp h]; rfl
      · rw [join_append, join_gap, join_cons, ih]; rfl

/-- What a rule makes of a segment. -/
def split (rule : Rule) (s : Segment) : List Segment :=
  if s.tag.isGeneric then ofPieces rule.label [] (rule.find s.text) else [s]

theorem split_of_tagged (rule : Rule) {s : Segment} (h : s.tag.isGeneric = false) :
    s.split rule = [s] :=
  if_neg (by simp [h])

theorem join_split {rule : Rule} (hrule : Tokenizer.Lossless rule.find) (s : Segment) :
    join (s.split rule) = s.text := by
  unfold split
  split
  · rw [join_ofPieces, hrule, List.nil_append]
  · exact List.append_nil _

/-- What rules make of a row, one after the other. -/
def ofRules (rules : List Rule) (row : List Segment) : List Segment :=
  rules.foldl (fun row rule => row.flatMap (split rule)) row

theorem ofRules_append (a b : List Rule) (row : List Segment) :
    ofRules (a ++ b) row = ofRules b (ofRules a row) :=
  List.foldl_append

/-- Rules divide each segment on its own. -/
theorem ofRules_flatMap (rules : List Rule) (row : List Segment) :
    ofRules rules row = row.flatMap fun s => ofRules rules [s] := by
  induction rules generalizing row with
  | nil => exact (List.flatMap_singleton' row).symm
  | cons rule rules ih =>
    show ofRules rules (row.flatMap (split rule))
      = row.flatMap fun s => ofRules rules ([s].flatMap (split rule))
    rw [ih, List.flatMap_assoc]
    exact List.flatMap_congr fun s _ => by rw [List.flatMap_singleton, ← ih]

theorem ofRules_of_tagged (rules : List Rule) {s : Segment} (h : s.tag.isGeneric = false) :
    ofRules rules [s] = [s] := by
  induction rules with
  | nil => rfl
  | cons rule rules ih =>
    show ofRules rules ([s].flatMap (split rule)) = [s]
    rw [List.flatMap_singleton, split_of_tagged rule h, ih]

theorem join_ofRules {rules : List Rule} (hrules : ∀ rule ∈ rules, Tokenizer.Lossless rule.find)
    (row : List Segment) : join (ofRules rules row) = join row := by
  induction rules generalizing row with
  | nil => rfl
  | cons rule rules ih =>
    obtain ⟨hrule, hrest⟩ := List.forall_mem_cons.mp hrules
    show join (ofRules rules (row.flatMap (split rule))) = join row
    rw [ih hrest, join, List.flatMap_assoc]
    exact List.flatMap_congr fun s _ => join_split hrule s

theorem ne_nil_of_mem_gap {g : Segment} {run : Text} (h : g ∈ gap run) :
    g.text ≠ [] ∧ g.tag.isGeneric = true := by
  unfold gap at h
  split at h
  · cases h
  · next hrun =>
    obtain rfl := List.mem_singleton.mp h
    exact ⟨fun hnil => hrun (List.isEmpty_iff.mpr hnil), rfl⟩

theorem gap_eq_append {run : Text} {x y : List Segment} {g : Segment}
    (h : gap run = x ++ g :: y) : x = [] ∧ g = ⟨Tag.generic, run⟩ ∧ y = [] := by
  unfold gap at h
  split at h
  · exact absurd h (by simp)
  · exact eq_of_singleton_eq h

theorem isGeneric_of_ofRules {rules : List Rule} {s g : Segment} {x y : List Segment}
    (h : ofRules rules [s] = x ++ g :: y) (hg : g.tag.isGeneric = true) :
    s.tag.isGeneric = true := by
  cases hs : s.tag.isGeneric with
  | true => rfl
  | false =>
    rw [ofRules_of_tagged rules hs] at h
    rwa [(eq_of_singleton_eq h).2.1, hs] at hg

/-- A segment of a row is its first one, its second one, or one of the rest. -/
theorem gap_append_eq {run : Text} {s g : Segment} {row x y : List Segment}
    (h : gap run ++ s :: row = x ++ g :: y) :
    x = [] ∧ g = ⟨Tag.generic, run⟩ ∧ y = s :: row ∨ x = gap run ∧ g = s ∧ y = row ∨
      ∃ x', x = gap run ++ s :: x' ∧ row = x' ++ g :: y := by
  rcases List.append_eq_append_iff.mp h with ⟨u, rfl, hrow⟩ | ⟨v, hgap, hy⟩
  · cases u with
    | nil =>
      obtain ⟨rfl, rfl⟩ := List.cons.inj hrow
      exact .inr (.inl ⟨List.append_nil _, rfl, rfl⟩)
    | cons s' x' =>
      obtain ⟨rfl, rfl⟩ := List.cons.inj hrow
      exact .inr (.inr ⟨x', rfl, rfl⟩)
  · cases v with
    | nil =>
      obtain ⟨rfl, rfl⟩ := List.cons.inj hy
      exact .inr (.inl ⟨by rw [hgap, List.append_nil], rfl, rfl⟩)
    | cons g' v =>
      obtain ⟨rfl, rfl⟩ := List.cons.inj hy
      obtain ⟨rfl, rfl, rfl⟩ := gap_eq_append hgap
      exact .inl ⟨rfl, rfl, rfl⟩

theorem forall_mem_ofRules {Q : Segment → Prop} {rules : List Rule} {row : List Segment}
    (hrules : ∀ rule ∈ rules, ∀ text,
    ∀ s ∈ ofPieces rule.label [] (rule.find text), Q s) (h : ∀ s ∈ row, Q s) :
    ∀ s ∈ ofRules rules row, Q s := by
  induction rules generalizing row with
  | nil => exact h
  | cons rule rules ih =>
    obtain ⟨hrule, hrest⟩ := List.forall_mem_cons.mp hrules
    refine ih hrest fun s hs => ?_
    obtain ⟨s₀, hs₀, hs⟩ := List.mem_flatMap.mp hs
    unfold split at hs
    split at hs
    · exact hrule s₀.text s hs
    · rw [List.mem_singleton.mp hs]
      exact h s₀ hs₀

/-! ## Segments of a perspective -/

def ofInterval (text : Text) (iv : Interval) : Segment :=
  ⟨iv.tag, text.slice iv.span.start iv.span.stop⟩

variable {before run after text : Text}

theorem map_gap (h : before ++ (run ++ after) = text) {stop : Nat}
    (hstop : before.byteLen + run.byteLen = stop) :
    (Mark.gap before.byteLen stop).map (ofInterval text) = gap run := by
  subst h hstop
  cases run with
  | nil => rw [Text.byteLen, Nat.add_zero, Mark.gap_self]; rfl
  | cons c run =>
    have hpos : 0 < Text.byteLen (c :: run) :=
      Nat.pos_of_ne_zero fun h0 => List.cons_ne_nil c run (Text.eq_nil_of_byteLen h0)
    rw [Mark.gap_of_lt (by omega), gap_of_ne (List.cons_ne_nil c run), List.map_singleton,
      ofInterval, Text.slice_byteLen_append]

/-- The layout of pieces has the segments of the pieces. -/
theorem map_layout (label : Tag) {pieces : List Piece}
    (h : before ++ (run ++ (Piece.join pieces ++ after)) = text) {pos : Nat}
    (hpos : before.byteLen + run.byteLen = pos) :
    (Mark.layout before.byteLen pos (Mark.ofPieces label pieces)).map (ofInterval text)
      = ofPieces label run pieces := by
  induction pieces generalizing before run pos with
  | nil => exact map_gap h hpos
  | cons piece rest ih =>
    cases piece with
    | plain c =>
      refine ih ?_ ?_
      · rw [← h, Piece.join_cons]
        simp [Piece.text]
      · rw [Text.byteLen_append, ← Nat.add_assoc, hpos]
        rfl
    | found t =>
      rw [Mark.ofPieces, ofPieces]
      rw [Piece.join_cons, List.append_assoc] at h
      split
      · next ht =>
        obtain rfl := List.isEmpty_iff.mp ht
        exact ih h hpos
      · have hbefore : (before ++ (run ++ t)).byteLen = pos + t.byteLen := by
          rw [Text.byteLen_append, Text.byteLen_append, ← Nat.add_assoc, hpos]
        have hfound : (before ++ run) ++ (t ++ (Piece.join rest ++ after)) = text := by
          rw [← h, List.append_assoc]
          rfl
        have hrest : (before ++ (run ++ t)) ++ ([] ++ (Piece.join rest ++ after)) = text := by
          rw [← h]
          simp [Piece.text]
        have hlater := ih hrest (Nat.add_zero _)
        rw [hbefore] at hlater
        rw [Mark.layout, List.map_append, List.map_cons, hlater, map_gap h hpos]
        refine congrArg (fun s => gap run ++ s :: ofPieces label [] rest) ?_
        have hslice := Text.slice_byteLen_append (before ++ run) t (Piece.join rest ++ after)
        rw [hfound, Text.byteLen_append, hpos] at hslice
        exact congrArg (Segment.mk label) hslice

end Segment

/-- The segments of a perspective. -/
def Perspective.segments (source : Source) (p : Perspective) : List Segment :=
  p.intervals.map (Segment.ofInterval source.text)

namespace Tokenizer

open Segment

variable {source : Source} {p : Perspective}

theorem map_split {rule : Rule} (hrule : Lossless rule.find) {iv : Interval}
    (h : source.Admits iv.span) :
    (split source rule.label rule.find iv).map (ofInterval source.text)
      = (ofInterval source.text iv).split rule := by
  obtain ⟨before, under, after, hsource, hstart, hstop⟩ := h.exists_split
  have hunder : source.text.slice iv.span.start iv.span.stop = under := by
    rw [← hsource, ← hstart, ← hstop, Text.slice_byteLen_append]
  unfold split Segment.split ofInterval
  rw [hunder]
  dsimp only
  by_cases hg : iv.tag.isGeneric = true
  · rw [if_pos hg, if_pos hg, ← hstart]
    have hpieces : before ++ ([] ++ (Piece.join (rule.find under) ++ after)) = source.text := by
      rw [hrule]
      exact hsource
    exact map_layout rule.label hpieces (Nat.add_zero _)
  · rw [if_neg hg, if_neg hg, ← hunder]
    rfl

theorem fits_refine (hp : p.Fits source) {rule : Rule} (hrule : Lossless rule.find) :
    (refine source p rule).Fits source :=
  (applyRule_eq ⟨source, {}⟩ "" hp hrule).2

/-- A rule divides each segment on its own. -/
theorem segments_refine (hp : p.Fits source) {rule : Rule} (hrule : Lossless rule.find) :
    (refine source p rule).segments source = (p.segments source).flatMap (Segment.split rule) := by
  unfold Perspective.segments refine
  rw [List.map_flatMap, List.flatMap_map]
  exact List.flatMap_congr fun iv hiv => map_split hrule (hp.admits hiv).1

theorem segments_refines {rules : List Rule} (hp : p.Fits source)
    (hrules : ∀ rule ∈ rules, Lossless rule.find) :
    (rules.foldl (refine source) p).segments source = ofRules rules (p.segments source) := by
  induction rules generalizing p with
  | nil => rfl
  | cons rule rules ih =>
    obtain ⟨hrule, hrest⟩ := List.forall_mem_cons.mp hrules
    show (rules.foldl (refine source) (refine source p rule)).segments source
      = ofRules rules ((p.segments source).flatMap (Segment.split rule))
    rw [ih (fits_refine hp hrule) hrest, segments_refine hp hrule]

end Tokenizer

/-! ## Searches -/

namespace Segment

section Search

variable {σ : Type} (find : σ → Text → Option Nat) (pass : σ → Char → σ) (jump : σ → Text → σ)

/-- Nothing is found at any place of a run, which starts in a state and goes on with a text. -/
def Unfound (s : σ) (run rest : Text) : Prop :=
  ∀ a b, run = a ++ b → b ≠ [] → (find (a.foldl pass s) (b ++ rest)).getD 0 = 0

/-- The segments that a search makes of a text. -/
inductive Searched (label : Tag) : σ → List Segment → Prop
  | rest {s : σ} {run : Text} : Unfound find pass s run [] → Searched label s (gap run)
  | found {s : σ} {run t : Text} {n : Nat} {row : List Segment} :
      Unfound find pass s run (t ++ join row) →
      find (run.foldl pass s) (t ++ join row) = some (n + 1) → t = (t ++ join row).take (n + 1) →
      t ≠ [] → Searched label (jump (run.foldl pass s) t) row →
      Searched label s (gap run ++ ⟨label, t⟩ :: row)

variable {find pass jump}

theorem Unfound.concat {s : σ} {run rest : Text} {c : Char}
    (h : Unfound find pass s run (c :: rest))
    (hc : (find (run.foldl pass s) (c :: rest)).getD 0 = 0) :
    Unfound find pass s (run ++ [c]) rest := by
  intro a b hab hb
  rcases List.eq_nil_or_concat b with rfl | ⟨b, d, rfl⟩
  · exact absurd rfl hb
  · rw [List.concat_eq_append] at hab ⊢
    rw [← List.append_assoc] at hab
    obtain ⟨rfl, hd⟩ := List.append_inj' hab rfl
    obtain rfl := List.singleton_inj.mp hd
    rw [List.append_assoc]
    by_cases hnil : b = []
    · subst hnil
      rwa [List.append_nil] at hc
    · exact h a b rfl hnil

theorem Unfound.idle {s : σ} {run rest : Text} (h : Unfound find pass s run rest) {c : Char}
    (hc : c ∈ run) : ∃ s' rest', (find s' (c :: rest')).getD 0 = 0 := by
  obtain ⟨a, b, rfl⟩ := List.append_of_mem hc
  exact ⟨_, _, h a (c :: b) rfl (List.cons_ne_nil c b)⟩

/-- A search finds nothing in what it passes over. -/
theorem searched_ofPieces (label : Tag) {s₀ s : σ} {run text : Text}
    (hrun : Unfound find pass s₀ run text) (hs : run.foldl pass s₀ = s) :
    Searched find pass jump label s₀
      (ofPieces label run (Piece.search find pass jump s text)) := by
  fun_induction Piece.search find pass jump s text generalizing s₀ run with
  | case1 s => exact .rest hrun
  | case2 s c rest n hfind ih =>
    subst hs
    have hjoin : join (ofPieces label [] (Piece.search find pass jump
        (jump (run.foldl pass s₀) (c :: rest.take n)) (rest.drop n))) = rest.drop n := by
      rw [join_ofPieces, Piece.join_search]
      rfl
    have htext : c :: rest.take n ++ rest.drop n = c :: rest := by simp
    rw [ofPieces, if_neg (by simp)]
    refine .found (n := n) ?_ ?_ ?_ (List.cons_ne_nil _ _) (ih ?_ rfl)
    · rw [hjoin, htext]
      exact hrun
    · rw [hjoin, htext]
      exact hfind
    · rw [hjoin, htext]
      rfl
    · intro a b hab hb
      exact absurd (List.append_eq_nil_iff.mp hab.symm).2 hb
  | case3 s c rest hfind ih =>
    subst hs
    refine ih (hrun.concat ?_) ?_
    · cases hn : find (run.foldl pass s₀) (c :: rest) with
      | none => rfl
      | some n =>
        cases n with
        | zero => rfl
        | succ n => exact absurd hn (hfind n)
    · rw [List.foldl_append]
      rfl

theorem searched_search (find : σ → Text → Option Nat) (pass : σ → Char → σ) (jump : σ → Text → σ)
    (label : Tag) (s : σ) (text : Text) :
    Searched find pass jump label s (ofPieces label [] (Piece.search find pass jump s text)) := by
  refine searched_ofPieces label (fun a b hab hb => ?_) rfl
  exact absurd (List.append_eq_nil_iff.mp hab.symm).2 hb

end Search

/-- What a search makes of a text is not empty, and is either generic or has been found. -/
theorem Searched.mem {σ : Type} {find : σ → Text → Option Nat} {pass : σ → Char → σ}
    {jump : σ → Text → σ} {label : Tag} {s : σ} {row : List Segment}
    (h : Searched find pass jump label s row) {g : Segment} (hg : g ∈ row) :
    g.text ≠ [] ∧ (g.tag.isGeneric = true ∨
      g.tag = label ∧ ∃ s rest n, find s (g.text ++ rest) = some (n + 1)) := by
  induction h with
  | rest => exact (ne_nil_of_mem_gap hg).imp_right .inl
  | found _ hfind _ ht _ ih =>
    rcases List.mem_append.mp hg with hg | hg
    · exact (ne_nil_of_mem_gap hg).imp_right .inl
    · rcases List.mem_cons.mp hg with rfl | hg
      · exact ⟨ht, .inr ⟨rfl, _, _, _, hfind⟩⟩
      · exact ih hg

end Segment

end TagLayers
