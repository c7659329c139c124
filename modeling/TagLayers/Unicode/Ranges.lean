/-!
# Sets of characters as ranges of code points

A set is a list of ranges of code points, both ends included. The ranges are in increasing order
and do not touch each other, so that a set has one form only.
-/

namespace TagLayers.Unicode

/-- Ranges of code points in increasing order, both ends included. -/
abbrev Ranges := List (Nat × Nat)

namespace Ranges

/-- The greatest code point. -/
def last : Nat := 0x10ffff

/-- The code point lies in one of the ranges. The search ends at the first range above it. -/
def contains : Ranges → Nat → Bool
  | [], _ => false
  | (lo, hi) :: rest, n => if n < lo then false else n ≤ hi || contains rest n

/-- The set of one character. -/
def single (c : Char) : Ranges := [(c.toNat, c.toNat)]

/-- The set with the code points of one more range. Ranges that meet become one. -/
def add (range : Nat × Nat) : Ranges → Ranges
  | [] => [range]
  | r :: rest =>
      if range.2 + 1 < r.1 then range :: r :: rest
      else if r.2 + 1 < range.1 then r :: add range rest
      else add (min range.1 r.1, max range.2 r.2) rest

/-- The code points of either set. -/
def union (a b : Ranges) : Ranges := b.foldr add a

/-- The code points from `n` on that the set does not have. -/
def gapsFrom (n : Nat) : Ranges → Ranges
  | [] => if n ≤ last then [(n, last)] else []
  | (lo, hi) :: rest =>
      if n < lo then (n, lo - 1) :: gapsFrom (hi + 1) rest else gapsFrom (hi + 1) rest

/-- The code points that the set does not have. -/
def complement (a : Ranges) : Ranges := gapsFrom 0 a

/-- The code points of both sets. -/
def inter (a b : Ranges) : Ranges := complement (union (complement a) (complement b))

/-- The code points of the first set that the second does not have. -/
def without (a b : Ranges) : Ranges := inter a (complement b)

/-- The characters of a set: its code points without the surrogates. -/
def characters (a : Ranges) : Ranges :=
  a.flatMap fun (lo, hi) =>
    [(lo, min hi 0xd7ff), (max lo 0xe000, hi)].filter fun range => range.1 ≤ range.2

end Ranges

end TagLayers.Unicode
