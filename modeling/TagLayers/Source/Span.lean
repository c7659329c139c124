/-!
# Spans

A span is a half-open byte range `[start, stop)` of a text. A span may be empty, and a span
whose end lies before its start is a value too: it has no length.
-/

namespace TagLayers

/-- A byte range `[start, stop)`. -/
structure Span where
  /-- Offset of the first byte. -/
  start : Nat := 0
  /-- Offset one past the last byte. -/
  stop : Nat := 0
deriving DecidableEq, Repr, Inhabited

namespace Span

/-- The smallest span that covers both. -/
def merge (a b : Span) : Span := ⟨min a.start b.start, max a.stop b.stop⟩

/-- The number of bytes; a span that ends before it starts has none. -/
def length? (s : Span) : Option Nat :=
  if s.start ≤ s.stop then some (s.stop - s.start) else none

/-- The two ends are the same. -/
def isEmpty (s : Span) : Bool := s.start == s.stop

/-- Both ends of `b` lie within `a`. -/
def contains (a b : Span) : Bool := a.start ≤ b.start && b.stop ≤ a.stop

/-- Each span starts before the other ends. -/
def intersects (a b : Span) : Bool := a.start < b.stop && b.start < a.stop

/-- The order of reports: by start, then by end. -/
def le (a b : Span) : Bool := a.start < b.start || (a.start == b.start && a.stop ≤ b.stop)

/-- Spans that are not empty and follow each other, from `pos` on and up to `length`. -/
def inOrder (length : Nat) : Nat → List Span → Bool
  | _, [] => true
  | pos, s :: rest =>
      pos ≤ s.start && s.start < s.stop && s.stop ≤ length && inOrder length s.stop rest

end Span

end TagLayers
