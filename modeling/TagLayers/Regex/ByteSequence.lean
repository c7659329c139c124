import TagLayers.Unicode.Ranges

/-!
# Sets of characters as sequences of bytes

An automaton that reads bytes takes a character in several steps. A set of characters becomes a
list of sequences of ranges of bytes: a character belongs to the set when the bytes of its UTF-8
form lie in the ranges of one of the sequences.
-/

namespace TagLayers.Regex

open Unicode

/-- A range of values of one byte, both ends included. -/
abbrev ByteRange := Nat × Nat

/-- Byte after byte, a range each. -/
abbrev ByteSequence := List ByteRange

namespace ByteSequence

/-- The sequences for the numbers from `lo` to `hi` with a number of digits to the base 64, in
order. Behind a digit that belongs to `lo` or `hi` alone the sequences go on with what is left of
the number, and the digits between them are one range. -/
def ofDigits : Nat → Nat → Nat → List ByteSequence
  | 0, _, _ => [[]]
  | more + 1, lo, hi =>
      let unit := Nat.pow 64 more
      let low := lo / unit
      let high := hi / unit
      let after (digits : ByteRange) (lo hi : Nat) : List ByteSequence :=
        (ofDigits more lo hi).map (digits :: ·)
      if low = high then after (low, low) (lo % unit) (hi % unit)
      else
        let start := if lo % unit = 0 then low else low + 1
        let stop := if hi % unit + 1 = unit then high + 1 else high
        (if start = low then [] else after (low, low) (lo % unit) (unit - 1))
          ++ (if start < stop then after (start, stop - 1) 0 (unit - 1) else [])
          ++ (if stop = high then after (high, high) 0 (hi % unit) else [])

/-- A stretch of code points whose characters have equally many bytes. -/
structure Stretch where
  /-- How many bytes follow the first one. -/
  more : Nat
  /-- What the first byte of a character is more than its first digit. -/
  mark : Nat
  /-- The first code point. -/
  lo : Nat
  /-- The last code point. -/
  hi : Nat

/-- No character has more bytes. -/
def maxLength : Nat := 4

/-- The stretches. The surrogates lie between the third and the fourth. -/
def stretches : List Stretch :=
  [⟨0, 0x0, 0x0, 0x7f⟩, ⟨1, 0xc0, 0x80, 0x7ff⟩, ⟨2, 0xe0, 0x800, 0xd7ff⟩,
   ⟨2, 0xe0, 0xe000, 0xffff⟩, ⟨3, 0xf0, 0x10000, 0x10ffff⟩]

/-- Ranges of digits as ranges of bytes: the first byte carries the mark of its stretch, and the
bytes after it are those from 0x80 on. -/
def marked (mark : Nat) : ByteSequence → ByteSequence
  | [] => []
  | first :: rest =>
      (mark + first.1, mark + first.2) :: rest.map fun digits => (0x80 + digits.1, 0x80 + digits.2)

/-- The sequences of the code points from `lo` to `hi`, in order. -/
def ofRange (lo hi : Nat) : List ByteSequence :=
  stretches.flatMap fun s =>
    let lo := max lo s.lo
    let hi := min hi s.hi
    if lo ≤ hi then (ofDigits (s.more + 1) lo hi).map (marked s.mark) else []

/-- The sequences of a set, in order. -/
def ofSet (chars : Ranges) : List ByteSequence := chars.flatMap fun range => ofRange range.1 range.2

example : ofRange 0x7f 0x80 = [[(0x7f, 0x7f)], [(0xc2, 0xc2), (0x80, 0x80)]] := by decide

end ByteSequence

end TagLayers.Regex
