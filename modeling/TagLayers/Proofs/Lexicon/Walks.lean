import TagLayers.Proofs.Lexicon.Scanners
import TagLayers.Proofs.Lexicon.Segments

/-!
# Walks through strings

The searches for comments and for directives walk through a text and know at each character whether
it lies in a string; what they find starts outside. A walk does not go through what a search finds,
and each search begins anew, outside of strings, in each segment that the searches before it have
left. So the walks agree where a segment starts as long as the directives before it close the
strings that they open.

Results:
1. `Swept.missed`: what a search has passed over outside of strings.
2. `Swept.steady`, `steady_strings`: where the segments of one search start.
3. `Steady.ofRules`: where the segments of several searches start.
-/

namespace TagLayers

/-- The tag is that of a directive. -/
def Tag.IsDirective (tag : Tag) : Prop := ∃ id, tag = Tag.ofSymbol .directive id

namespace Lexicon

variable {lex : Lexicon} {a b text : Text}

/-- A walk through the text that starts outside of strings ends outside of them. -/
def Closes (lex : Lexicon) (text : Text) : Prop :=
  text.foldl (StringState.next lex.quote lex.escape) .outside = .outside

instance (lex : Lexicon) (text : Text) : Decidable (lex.Closes text) :=
  inferInstanceAs (Decidable (_ = _))

theorem closes_nil (lex : Lexicon) : lex.Closes [] := rfl

theorem Closes.append (ha : lex.Closes a) (hb : lex.Closes b) : lex.Closes (a ++ b) := by
  unfold Closes at ha ⊢
  rw [List.foldl_append, ha]
  exact hb

theorem closes_of_forall_ne (h : ∀ c ∈ text, c ≠ lex.quote) : lex.Closes text := by
  induction text with
  | nil => exact lex.closes_nil
  | cons c rest ih =>
    obtain ⟨hc, hrest⟩ := List.forall_mem_cons.mp h
    unfold Closes
    rw [List.foldl_cons, StringState.next, if_neg hc]
    exact ih hrest

/-- A string that something follows has ended. -/
theorem StringTail.closes {b : Bool} {body rest : Text} (h : lex.StringTail b body rest)
    (hrest : rest ≠ []) :
    body.foldl (StringState.next lex.quote lex.escape) (if b then .escaped else .inside)
      = .outside := by
  induction h with
  | unended b => exact absurd rfl hrest
  | ended hne =>
    rw [if_neg Bool.false_ne_true, List.foldl_cons, StringState.next, if_neg hne, if_pos rfl]
    rfl
  | escape _ ih =>
    rw [if_neg Bool.false_ne_true, List.foldl_cons, StringState.next, if_pos rfl]
    exact ih hrest
  | escaped _ ih =>
    rw [if_pos rfl, List.foldl_cons]
    exact ih hrest
  | inside hescape hquote _ ih =>
    rw [if_neg Bool.false_ne_true, List.foldl_cons, StringState.next, if_neg hescape,
      if_neg hquote]
    exact ih hrest

open Segment

variable {find : Text → Option Nat} {label : Tag} {row : List Segment}

/-! ## Searches outside of strings -/

/-- Outside of strings nothing is found in a run. -/
def PassedOver (lex : Lexicon) (find : Text → Option Nat) (run rest : Text) : Prop :=
  ∀ a b, run = a ++ b → b ≠ [] → lex.Closes a → b.head? ≠ some lex.quote →
    (find (b ++ rest)).getD 0 = 0

/-- The segments that a search outside of strings makes of a text. -/
inductive Swept (lex : Lexicon) (find : Text → Option Nat) (label : Tag) : List Segment → Prop
  | rest {run : Text} : lex.PassedOver find run [] → Swept lex find label (gap run)
  | found {run t : Text} {row : List Segment} : lex.PassedOver find run (t ++ join row) →
      lex.Closes run → Swept lex find label row →
      Swept lex find label (gap run ++ ⟨label, t⟩ :: row)

/-- What a search outside of strings has passed over there. -/
theorem Swept.missed (hlabel : label.isGeneric = false) (h : lex.Swept find label row)
    {x y : List Segment} {g : Segment} (hrow : row = x ++ g :: y) (hg : g.tag.isGeneric = true) :
    lex.PassedOver find g.text (join y) := by
  induction h generalizing x with
  | rest hrun =>
    obtain ⟨-, rfl, rfl⟩ := gap_eq_append hrow
    exact hrun
  | found hrun _ _ ih =>
    rcases gap_append_eq hrow with ⟨-, rfl, rfl⟩ | ⟨-, rfl, -⟩ | ⟨x', -, hrest⟩
    · exact hrun
    · cases hlabel.symm.trans hg
    · exact ih hrest

/-! ## Where walks start -/

/-- As long as the directives of a row close their strings, each of its segments starts outside of
strings. -/
def Steady (lex : Lexicon) (row : List Segment) : Prop :=
  ∀ x g y, row = x ++ g :: y → (∀ d ∈ x, d.tag.IsDirective → lex.Closes d.text) →
    lex.Closes (join x)

theorem steady_singleton (lex : Lexicon) (s : Segment) : lex.Steady [s] := by
  intro x g y hrow _
  obtain ⟨rfl, -, -⟩ := eq_of_singleton_eq hrow
  exact lex.closes_nil

theorem steady_gap (lex : Lexicon) (run : Text) : lex.Steady (gap run) := by
  intro x g y hrow _
  obtain ⟨rfl, -, -⟩ := gap_eq_append hrow
  exact lex.closes_nil

theorem Steady.found {run t : Text} (h : lex.Steady row) (hrun : lex.Closes run)
    (ht : (label.IsDirective → lex.Closes t) → row ≠ [] → lex.Closes t) :
    lex.Steady (gap run ++ ⟨label, t⟩ :: row) := by
  intro x g y hrow hclosed
  rcases gap_append_eq hrow with ⟨rfl, -, -⟩ | ⟨rfl, -, -⟩ | ⟨x', rfl, rfl⟩
  · exact lex.closes_nil
  · rwa [join_gap]
  · obtain ⟨-, hfound⟩ := List.forall_mem_append.mp hclosed
    obtain ⟨hlabel, hx'⟩ := List.forall_mem_cons.mp hfound
    rw [join_append, join_gap, join_cons]
    exact hrun.append ((ht hlabel (by simp)).append (h x' g y rfl hx'))

theorem Swept.steady (hlabel : label.IsDirective) (h : lex.Swept find label row) :
    lex.Steady row := by
  induction h with
  | rest _ => exact lex.steady_gap _
  | found _ hrun _ ih => exact ih.found hrun fun hdirective _ => hdirective hlabel

/-- A segment of generic text, a directive or a string. -/
structure Within (lex : Lexicon) (s : Segment) : Prop where
  text : s.text ≠ []
  tag : s.tag.isGeneric = true ∨ s.tag.IsDirective ∨
    s.tag = Tag.ofCategory .string ∧ s.text.head? = some lex.quote

/-- A rule that finds directives or strings in what is left between comments. -/
structure Inner (lex : Lexicon) (rule : Rule) : Prop where
  label : rule.label.isGeneric = false
  lossless : Tokenizer.Lossless rule.find
  steady : ∀ text, lex.Steady (ofPieces rule.label [] (rule.find text))
  within : ∀ text, ∀ s ∈ ofPieces rule.label [] (rule.find text), lex.Within s

variable {rule : Rule} {rules : List Rule}

theorem Steady.flatMap_split (h : lex.Steady row) (hrule : lex.Inner rule) :
    lex.Steady (row.flatMap (split rule)) := by
  intro x g y hrow hclosed
  obtain ⟨x₀, s, y₀, u, v, rfl, hs, rfl, -⟩ := exists_of_flatMap_eq hrow
  obtain ⟨hx₀, hu⟩ := List.forall_mem_append.mp hclosed
  have hbefore : lex.Closes (join x₀) := by
    refine h x₀ s y₀ rfl fun d hd hdirective => hx₀ d ?_ hdirective
    obtain ⟨id, hid⟩ := hdirective
    have htagged : d.tag.isGeneric = false := by rw [hid]; rfl
    refine List.mem_flatMap.mpr ⟨d, hd, ?_⟩
    rw [split_of_tagged rule htagged]
    exact List.mem_singleton_self d
  have hsteady : lex.Steady (s.split rule) := by
    unfold split
    split
    · exact hrule.steady s.text
    · exact lex.steady_singleton s
  have hjoin : join (x₀.flatMap (split rule)) = join x₀ := join_ofRules
    (List.forall_mem_singleton.mpr hrule.lossless) x₀
  rw [join_append, hjoin]
  exact hbefore.append (hsteady u g v hs hu)

theorem Steady.ofRules (h : lex.Steady row) (hrules : ∀ rule ∈ rules, lex.Inner rule) :
    lex.Steady (ofRules rules row) := by
  induction rules generalizing row with
  | nil => exact h
  | cons rule rules ih =>
    obtain ⟨hrule, hrest⟩ := List.forall_mem_cons.mp hrules
    exact ih (h.flatMap_split hrule) hrest

end Lexicon

end TagLayers
