import TagLayers.Text
import TagLayers.Unicode.Classes

/-!
# Regular expressions

A regular expression is matched at a position of a text: it sees the character before the
position, if there is one, and the text from the position on. Of several ways to match one is
preferred: the left side of an alternative to the right one, and one more round of a repetition
to none, or the other way about when the repetition is lazy.

This module holds the expressions, the conditions on positions, and the ways to put expressions
together.
-/

namespace TagLayers

open Unicode

/-- A condition on a position. -/
inductive Assertion where
  | textStart
  | textEnd
  | lineStart
  | lineEnd
  /-- Exactly one neighbour is a character of a word. -/
  | wordEdge
  /-- Both neighbours are characters of a word, or neither is. -/
  | noWordEdge
deriving DecidableEq, Repr

namespace Assertion

/-- A character of a word is there. -/
def isWordAt (c : Option Char) : Bool := c.any isWord

/-- The condition holds between the character before a position and the text from it on. -/
def holds (before : Option Char) (rest : Text) : Assertion → Bool
  | textStart => before.isNone
  | textEnd => rest.isEmpty
  | lineStart => before.isNone || before == some '\n'
  | lineEnd => rest.isEmpty || rest.head? == some '\n'
  | wordEdge => isWordAt before != isWordAt rest.head?
  | noWordEdge => isWordAt before == isWordAt rest.head?

end Assertion

/-- A regular expression. -/
inductive Regex where
  /-- Takes nothing. -/
  | empty
  /-- Takes the characters of a text. -/
  | literal (chars : Text)
  /-- Takes one character of a set. -/
  | oneOf (chars : Ranges)
  /-- Takes nothing where a condition holds. -/
  | check (condition : Assertion)
  /-- An expression whose match is remembered under a number. -/
  | group (number : Nat) (body : Regex)
  /-- One expression after the other. -/
  | seq (a b : Regex)
  /-- Either expression. -/
  | alt (a b : Regex)
  /-- At least `least` rounds, and at most `most` if that is given. -/
  | rounds (least : Nat) (most : Option Nat) (greedy : Bool) (body : Regex)
deriving DecidableEq, Repr

namespace Regex

/-- The fewest characters that a match takes, as far as they are known: they are not for an empty
set, nor for an expression that holds one. -/
def leastLength : Regex → Option Nat
  | empty => some 0
  | literal chars => some chars.length
  | oneOf chars => if chars.isEmpty then none else some 1
  | check _ => some 0
  | group _ body => body.leastLength
  | seq a b => do return (← a.leastLength) + (← b.leastLength)
  | alt a b => do return min (← a.leastLength) (← b.leastLength)
  | rounds least _ _ body => do return least * (← body.leastLength)

/-- Every match is known to take something. -/
def takesSomething (r : Regex) : Bool := r.leastLength.any (0 < ·)

/-- The expression can take nothing else than nothing. -/
def takesNothing : Regex → Bool
  | empty => true
  | literal _ => false
  | oneOf _ => false
  | check _ => true
  | group _ body => body.takesNothing
  | seq a b => a.takesNothing && b.takesNothing
  | alt a b => a.takesNothing && b.takesNothing
  | rounds _ _ _ body => body.takesNothing

/-! ## Putting expressions together

Expressions are kept in one form. In a row no part is empty or a row itself, and no two texts
stand side by side. No alternative is an alternative itself; alternatives that only take one
character are a set, and a start that all of them have in common stands before them. -/

/-- The expression that takes one character of a set. -/
def ofSet (chars : Ranges) : Regex :=
  match chars.characters with
  | [(lo, hi)] => if lo = hi then literal [Char.ofNat lo] else oneOf [(lo, hi)]
  | chars => oneOf chars

/-- The parts of a row. -/
def parts : Regex → List Regex
  | empty => []
  | seq a b => a.parts ++ b.parts
  | r => [r]

/-- A part in front of others. Texts that meet become one. -/
def joinPart : Regex → List Regex → List Regex
  | literal s, literal t :: rest => literal (s ++ t) :: rest
  | r, rest => r :: rest

/-- A row of parts. -/
def ofParts (parts : List Regex) : Regex :=
  match parts.reverse with
  | [] => empty
  | last :: before => before.foldl (fun later r => seq r later) last

/-- Expressions one after the other. -/
def sequence (rs : List Regex) : Regex := ofParts ((rs.flatMap parts).foldr joinPart [])

/-- The alternatives of an expression. -/
def alternatives : Regex → List Regex
  | alt a b => a.alternatives ++ b.alternatives
  | r => [r]

/-- The character of an expression that takes no other. -/
def char? : Regex → Option Char
  | literal [c] => some c
  | _ => none

/-- The characters of an expression that takes any one of them. -/
def set? : Regex → Option Ranges
  | oneOf chars => some chars
  | _ => none

/-- The start that two rows have in common. -/
def sharedParts : List Regex → List Regex → List Regex
  | a :: as, b :: bs => if a = b then a :: sharedParts as bs else []
  | _, _ => []

/-- The start that all rows have in common. An alternative that is a single part has no start. -/
def sharedStart (rows : List (List Regex)) : List Regex :=
  match rows with
  | [] => []
  | row :: rest => if rows.all (1 < ·.length) then rest.foldl sharedParts row else []

/-- One of several alternatives, the preferred one first. -/
def oneAlternative (rs : List Regex) : Regex :=
  match rs.mapM char?, rs.mapM set?, rs.reverse with
  | _, _, [] => empty
  | some chars, _, _ => ofSet (chars.foldl (fun set c => set.union (.single c)) [])
  | none, some sets, _ => ofSet (sets.foldl Ranges.union [])
  | none, none, last :: before => before.foldl (fun later r => alt r later) last

/-- Alternatives, the preferred one first. -/
def choice (rs : List Regex) : Regex :=
  match rs.flatMap alternatives with
  | [r] => r
  | rs =>
      let rows := rs.map parts
      match sharedStart rows with
      | [] => oneAlternative rs
      | start =>
          let ends := rows.map fun row => ofParts (row.drop start.length)
          sequence (start ++ [oneAlternative (ends.flatMap alternatives)])

/-- A repetition. Where a round can take nothing else than nothing, one round does the work of
many. -/
def repetition (least : Nat) (most : Option Nat) (greedy : Bool) (body : Regex) : Regex :=
  let limit (n : Nat) : Nat := if body.takesNothing then min n 1 else n
  let most := if body.takesNothing then some (limit (most.getD 1)) else most
  match limit least, most with
  | 0, some 0 => empty
  | 1, some 1 => body
  | least, most => rounds least most greedy body

end Regex

end TagLayers
