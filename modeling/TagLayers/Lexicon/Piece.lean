import TagLayers.Source.Span
import TagLayers.Text

/-!
# Texts in pieces

A search through a text gives the text back in pieces: the characters that were passed over,
and the stretches that were found. The pieces joined are the text, so the ranges of what was
found lie within the text, on boundaries of characters, and one after the other.

Main statement:
1. `join_search`: a search loses nothing.
-/

namespace TagLayers

/-- A piece of a searched text. -/
inductive Piece where
  /-- A character that was passed over. -/
  | plain (c : Char)
  /-- A stretch that was found. -/
  | found (text : Text)
deriving DecidableEq, Repr

namespace Piece

/-- The text of a piece. -/
def text : Piece → Text
  | plain c => [c]
  | found t => t

/-- The ranges of what was found, for pieces that start at offset `pos`. Empty finds have no
range. -/
def ranges (pos : Nat) : List Piece → List Span
  | [] => []
  | plain c :: rest => ranges (pos + c.utf8Size) rest
  | found t :: rest =>
      let stop := pos + t.byteLen
      if t.isEmpty then ranges stop rest else ⟨pos, stop⟩ :: ranges stop rest

/-- The pieces joined. -/
def join (pieces : List Piece) : Text := pieces.flatMap text

/-- Searches a text. At each position `find` says how many characters to take there, if any;
otherwise one character is passed over. The state `s` is what the search knows of the text
before the position: it follows `pass` over a character and `jump` over a stretch. -/
def search {σ : Type} (find : σ → Text → Option Nat) (pass : σ → Char → σ)
    (jump : σ → Text → σ) (s : σ) (text : Text) : List Piece :=
  match text with
  | [] => []
  | c :: rest =>
      match find s (c :: rest) with
      | some (n + 1) =>
          found (c :: rest.take n)
            :: search find pass jump (jump s (c :: rest.take n)) (rest.drop n)
      | _ => plain c :: search find pass jump (pass s c) rest
termination_by text.length
decreasing_by
  · rw [List.length_drop, List.length_cons]
    omega
  · exact Nat.lt_succ_self _

/-- A search loses nothing. -/
theorem join_search {σ : Type} (find : σ → Text → Option Nat) (pass : σ → Char → σ)
    (jump : σ → Text → σ) (s : σ) (input : Text) :
    join (search find pass jump s input) = input := by
  fun_induction search find pass jump s input with
  | case1 => rfl
  | case2 s c rest n h ih =>
      simp only [join, List.flatMap_cons, text] at ih ⊢
      simp [ih]
  | case3 s c rest h ih => simpa [join, text] using ih

end Piece

end TagLayers
