import TagLayers.Layer.Perspective
import TagLayers.Source.Basic

/-!
# Tokens

A token is one interval of a perspective together with the text it covers.

Main statement: `cut_eq_map`: a walk through a text gives each interval the text under it.
-/

namespace TagLayers

/-- An interval of a perspective and its text. -/
structure Token where
  /-- The tag of the interval. -/
  tag : Tag
  /-- The text of the interval. -/
  text : Text
  /-- The range of the interval. -/
  span : Span
deriving DecidableEq, Repr, Inhabited

namespace Token

/-- The token of an interval. -/
def ofInterval (text : Text) (iv : Interval) : Token :=
  ⟨iv.tag, text.slice iv.span.start iv.span.stop, iv.span⟩

/-- The tokens of intervals that follow each other, given the text from `pos` on. -/
def cut (pos : Nat) (rest : Text) : List Interval → List Token
  | [] => []
  | iv :: more =>
      let here := rest.dropBytes (iv.span.start - pos)
      let length := iv.span.stop - iv.span.start
      ⟨iv.tag, here.takeBytes length, iv.span⟩ :: cut iv.span.stop (here.dropBytes length) more

/-- Where intervals follow each other between characters, each token has the text under its
interval. -/
theorem cut_eq_map {text : Text} {length pos : Nat} {intervals : List Interval}
    (hc : Perspective.coversFrom length pos intervals) (hp : text.isBoundary pos)
    (h : ∀ iv ∈ intervals, iv.span.start ≤ iv.span.stop ∧ text.isBoundary iv.span.stop) :
    cut pos (text.dropBytes pos) intervals = intervals.map (ofInterval text) := by
  induction intervals generalizing pos with
  | nil => rfl
  | cons iv more ih =>
      simp only [Perspective.coversFrom, Bool.and_eq_true, beq_iff_eq] at hc
      obtain ⟨⟨rfl, -⟩, hc⟩ := hc
      have hs := h iv List.mem_cons_self
      rw [cut, Nat.sub_self, Text.dropBytes_zero, Text.dropBytes_dropBytes hp,
        Nat.add_sub_cancel' hs.1, ih hc hs.2 fun j hj => h j (List.mem_cons_of_mem _ hj)]
      rfl

end Token

end TagLayers
