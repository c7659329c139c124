import TagLayers.Regex.Basic
import TagLayers.Unicode.Folding

/-!
# Sets of characters in brackets

Between brackets stand characters, ranges, escaped sets, named sets and further brackets; a caret
after the opening bracket negates the whole. Two such lists may be joined by an operation: what
is in both, what is in the first only, or what is in exactly one of them. Operations are carried
out from left to right.

Where the case of letters does not count, a set is completed by the other cases of its characters
before it is negated and before it is joined with another.
-/

namespace TagLayers.Regex

open Unicode

/-! ## Escapes -/

/-- A character given by number: between braces, or by a fixed count of digits. -/
def readCode (count : Nat) : Text → Option (Char × Text)
  | '\x7b' :: rest =>
      match rest.dropWhile (· != '\x7d') with
      | _ :: after =>
          do return (← Text.ofCode? (← Text.hexNumber? (rest.takeWhile (· != '\x7d'))), after)
      | [] => none
  | rest =>
      let digits := rest.take count
      if digits.length < count then none
      else do return (← Text.ofCode? (← Text.hexNumber? digits), rest.drop count)

/-- An escaped character that stands for one character: control letters, code points, and
punctuation other than angle brackets. -/
def readEscapedChar : Text → Option (Char × Text)
  | 'a' :: rest => some ('\x07', rest)
  | 'f' :: rest => some ('\x0c', rest)
  | 't' :: rest => some ('\t', rest)
  | 'n' :: rest => some ('\n', rest)
  | 'r' :: rest => some ('\r', rest)
  | 'v' :: rest => some ('\x0b', rest)
  | 'x' :: rest => readCode 2 rest
  | 'u' :: rest => readCode 4 rest
  | 'U' :: rest => readCode 8 rest
  | c :: rest =>
      if c.toNat < 128 && !c.isAlphanum && c != '<' && c != '>' then some (c, rest) else none
  | [] => none

/-- An escaped letter that stands for a set: digits, blanks or characters of words, and the
capital letter for all others. -/
def escapedSet? : Char → Option Ranges
  | 'd' => some digits
  | 'D' => some (Ranges.complement digits)
  | 's' => some whiteSpace
  | 'S' => some (Ranges.complement whiteSpace)
  | 'w' => some wordChars
  | 'W' => some (Ranges.complement wordChars)
  | _ => none

/-! ## Named sets -/

/-- The sets of characters of ASCII that have names. -/
def asciiSets : List (String × Ranges) :=
  [("alnum", [(0x30, 0x39), (0x41, 0x5a), (0x61, 0x7a)]), ("alpha", [(0x41, 0x5a), (0x61, 0x7a)]),
   ("ascii", [(0x0, 0x7f)]), ("blank", [(0x9, 0x9), (0x20, 0x20)]),
   ("cntrl", [(0x0, 0x1f), (0x7f, 0x7f)]), ("digit", [(0x30, 0x39)]), ("graph", [(0x21, 0x7e)]),
   ("lower", [(0x61, 0x7a)]), ("print", [(0x20, 0x7e)]),
   ("punct", [(0x21, 0x2f), (0x3a, 0x40), (0x5b, 0x60), (0x7b, 0x7e)]),
   ("space", [(0x9, 0xd), (0x20, 0x20)]), ("upper", [(0x41, 0x5a)]),
   ("word", [(0x30, 0x39), (0x41, 0x5a), (0x5f, 0x5f), (0x61, 0x7a)]),
   ("xdigit", [(0x30, 0x39), (0x41, 0x46), (0x61, 0x66)])]

/-- A named set after its opening bracket and colon: the name, negated by a caret, a colon and a
closing bracket. -/
def readNamedSet (text : Text) : Option (Ranges × Text) := do
  let (negated, text) := match text with
    | '^' :: rest => (true, rest)
    | rest => (false, rest)
  let name := String.ofList (text.takeWhile (· != ':'))
  let chars := (← asciiSets.find? (·.1 == name)).2
  match text.dropWhile (· != ':') with
  | ':' :: ']' :: rest => return (if negated then chars.complement else chars, rest)
  | _ => none

/-! ## Brackets -/

/-- A set as written: its characters, and how deep its notation is nested. -/
structure WrittenSet where
  chars : Ranges
  /-- The depth of the notation. -/
  depth : Nat
deriving DecidableEq, Repr

/-- An operation between two lists. -/
inductive SetOperation where
  | both
  /-- What is in the first only. -/
  | first
  /-- What is in exactly one of them. -/
  | either
deriving DecidableEq, Repr

namespace SetOperation

/-- Carries out an operation. -/
def apply (a b : Ranges) : SetOperation → Ranges
  | both => a.inter b
  | first => a.without b
  | either => (a.without b).union (b.without a)

/-- The operation that a doubled character stands for. -/
def ofChar? : Char → Option SetOperation
  | '&' => some both
  | '-' => some first
  | '~' => some either
  | _ => none

end SetOperation

/-- A bracket that is open: the operation that waits for its second list, with the first one, and
the items of the list read so far. -/
structure Bracket where
  /-- The set is negated. -/
  negated : Bool
  /-- The first list and the operation. -/
  pending : Option (WrittenSet × SetOperation) := none
  /-- The characters of the items. -/
  chars : Ranges := []
  /-- The number of items. -/
  count : Nat := 0
  /-- The greatest depth of an item. -/
  depth : Nat := 0
deriving DecidableEq, Repr

namespace Bracket

/-- The bracket with one more item. -/
def push (b : Bracket) (item : WrittenSet) : Bracket :=
  { b with
    chars := b.chars.union item.chars
    count := b.count + 1
    depth := max b.depth item.depth }

/-- The bracket with one more character or range of characters. -/
def pushRange (b : Bracket) (lo hi : Char) : Bracket := b.push ⟨[(lo.toNat, hi.toNat)], 0⟩

/-- The set of the lists read so far. -/
def joined (b : Bracket) (fold : Bool) : WrittenSet :=
  let complete (s : Ranges) : Ranges := if fold then s.foldCase else s
  let second : WrittenSet := ⟨b.chars, if b.count < 2 then b.depth else b.depth + 1⟩
  match b.pending with
  | none => second
  | some (first, operation) =>
      ⟨operation.apply (complete first.chars) (complete second.chars),
        max first.depth second.depth + 1⟩

/-- The bracket with an operation after the lists read so far. -/
def operate (b : Bracket) (fold : Bool) (operation : SetOperation) : Bracket :=
  { negated := b.negated, pending := some (b.joined fold, operation) }

/-- The set of the whole bracket. -/
def close (b : Bracket) (fold : Bool) : WrittenSet :=
  let set := b.joined fold
  let chars := if fold then set.chars.foldCase else set.chars
  ⟨if b.negated then chars.complement else chars, set.depth + 1⟩

/-- What follows an opening bracket: a caret, and then characters that would mean something else
further on, which are dashes or a closing bracket. -/
def start (text : Text) : Bracket × Text :=
  let (negated, text) := match text with
    | '^' :: rest => (true, rest)
    | rest => (false, rest)
  let bracket : Bracket := { negated }
  match text with
  | ']' :: rest => (bracket.pushRange ']' ']', rest)
  | rest =>
      ((rest.takeWhile (· == '-')).foldl (fun b c => b.pushRange c c) bracket,
        rest.dropWhile (· == '-'))

/-- One end of a range, or an escaped set. -/
def readAtom : Text → Option (Sum Char Ranges × Text)
  | [] => none
  | '\\' :: c :: rest =>
      match escapedSet? c with
      | some chars => some (.inr chars, rest)
      | none => (readEscapedChar (c :: rest)).map fun (d, rest) => (.inl d, rest)
  | ['\\'] => none
  | c :: rest => some (.inl c, rest)

/-- A dash that stands between the ends of a range: it is not followed by another one or by the
end of the bracket. -/
def readDash : Text → Option Text
  | '-' :: c :: rest => if c = '-' ∨ c = ']' then none else some (c :: rest)
  | _ => none

/-- One character, range or escaped set. A range must have two characters as its ends, in
order. -/
def readItem (text : Text) : Option (Ranges × Text) := do
  let (a, rest) ← readAtom text
  match readDash rest with
  | none =>
      match a with
      | .inl c => return (.single c, rest)
      | .inr chars => return (chars, rest)
  | some rest =>
      match a, ← readAtom rest with
      | .inl lo, (.inl hi, rest) =>
          if lo ≤ hi then return ([(lo.toNat, hi.toNat)], rest) else none
      | _, _ => none

/-- What a symbol does to the innermost open bracket. -/
inductive Step where
  /-- It adds an item. -/
  | item (chars : Ranges)
  /-- It opens another bracket. -/
  | opens (bracket : Bracket)
  /-- It closes the bracket. -/
  | closes
  | operates (operation : SetOperation)

/-- The first symbol between brackets. -/
def readStep : Text → Option (Step × Text)
  | ']' :: rest => some (.closes, rest)
  | '[' :: rest =>
      match rest with
      | ':' :: name =>
          match readNamedSet name with
          | some (chars, rest) => some (.item chars, rest)
          | none => let (bracket, rest) := start rest; some (.opens bracket, rest)
      | _ => let (bracket, rest) := start rest; some (.opens bracket, rest)
  | c :: d :: rest =>
      match SetOperation.ofChar? c with
      | some operation =>
          if c = d then some (.operates operation, rest)
          else (readItem (c :: d :: rest)).map fun (chars, rest) => (.item chars, rest)
      | none => (readItem (c :: d :: rest)).map fun (chars, rest) => (.item chars, rest)
  | rest => (readItem rest).map fun (chars, rest) => (.item chars, rest)

/-- Reads to the end of the outermost bracket, given the brackets around the innermost one, if
there are at most `size` symbols up to it. -/
def readOn (fold : Bool) :
    Nat → List Bracket → Bracket → Text → Option (WrittenSet × Text)
  | 0, _, _, _ => none
  | size + 1, outer, b, text => do
      let (step, rest) ← readStep text
      match step with
      | .item chars => readOn fold size outer (b.push ⟨chars, 0⟩) rest
      | .operates operation => readOn fold size outer (b.operate fold operation) rest
      | .opens inner => readOn fold size (b :: outer) inner rest
      | .closes =>
          match outer with
          | [] => some (b.close fold, rest)
          | around :: outer => readOn fold size outer (around.push (b.close fold)) rest

/-- Reads a set after its opening bracket, given a length that the text does not exceed. Every
symbol takes at least one character. -/
def read (fold : Bool) (size : Nat) (text : Text) : Option (WrittenSet × Text) :=
  let (bracket, rest) := start text
  readOn fold size [] bracket rest

end Bracket

end TagLayers.Regex
