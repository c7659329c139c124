import TagLayers.Regex.Bracket

/-!
# Symbols of the notation for regular expressions

The written form of a regular expression is a row of symbols: characters and sets of characters
to take, conditions, brackets of groups, bars, and repetitions. This module reads one symbol.
Groups are put together afterwards.
-/

namespace TagLayers.Regex

open Unicode

/-- A switch that a group can set: letter and value. -/
abbrev Switch := Char × Bool

/-- How a group starts. -/
inductive Opening where
  /-- A plain group, whose match is remembered. -/
  | plain
  /-- A group whose match is remembered by a name. -/
  | named (name : Text)
  /-- A group that only brackets, with switches of its own. -/
  | switched (switches : List Switch)
deriving DecidableEq, Repr

/-- A symbol of the written form. -/
inductive Symbol where
  /-- A set of characters, and how deep its notation is nested. -/
  | take (chars : Ranges) (depth : Nat)
  /-- Any character, written as a point. -/
  | point
  /-- The start of the text or line. -/
  | caret
  /-- The end of the text or line. -/
  | dollar
  /-- Another condition. -/
  | check (condition : Assertion)
  /-- The start of a group. -/
  | opening (kind : Opening)
  /-- The end of a group. -/
  | closing
  /-- Switches for the rest of the group. -/
  | switches (values : List Switch)
  /-- A bar between alternatives. -/
  | bar
  /-- A repetition of what stands before. -/
  | repeated (least : Nat) (most : Option Nat) (greedy : Bool)
deriving DecidableEq, Repr

namespace Symbol

/-- A single character; with `fold` its case does not count. -/
def single (fold : Bool) (c : Char) : Symbol :=
  take (if fold then Ranges.foldCase (.single c) else .single c) 0

/-- An escaped letter that stands for a condition. -/
def escapedCheck? : Char → Option Assertion
  | 'b' => some .wordEdge
  | 'B' => some .noWordEdge
  | 'A' => some .textStart
  | 'z' => some .textEnd
  | _ => none

/-- A symbol after a backslash. -/
def readEscape (fold : Bool) : Text → Option (Symbol × Text)
  | [] => none
  | c :: rest =>
      match escapedSet? c, escapedCheck? c with
      | some chars, _ => some (take chars 0, rest)
      | none, some condition => some (check condition, rest)
      | none, none => (readEscapedChar (c :: rest)).map fun (d, rest) => (single fold d, rest)

/-! ## Groups -/

/-- The switches before a colon or a closing bracket: letters, and after a dash letters that
are switched off. -/
def readSwitches (on : Bool) (values : List Switch) : Text → Option (List Switch × Text)
  | [] => none
  | '-' :: rest => if on then readSwitches false values rest else none
  | c :: rest =>
      if c = ':' ∨ c = ')' then
        if !on && values.all (·.2) then none else some (values, c :: rest)
      else if "imsU".toList.contains c && !(values.any (·.1 == c)) then
        readSwitches on (values ++ [(c, on)]) rest
      else none

/-- The name of a group: a letter or underscore, then letters, digits, underscores, points and
brackets. -/
def isGroupName : Text → Bool
  | [] => false
  | c :: rest =>
      (c == '_' || isAlphabetic c)
        && rest.all fun d => isAlphanumeric d || "_.[]".toList.contains d

/-- A named group after its opening angle bracket. -/
def readGroupName (text : Text) : Option (Symbol × Text) :=
  let name := text.takeWhile (· != '>')
  match text.dropWhile (· != '>') with
  | _ :: rest => if isGroupName name then some (opening (.named name), rest) else none
  | [] => none

/-- What follows an opening bracket. -/
def readOpening : Text → Option (Symbol × Text)
  | '?' :: 'P' :: '<' :: rest => readGroupName rest
  | '?' :: '<' :: rest => readGroupName rest
  | '?' :: rest =>
      match readSwitches true [] rest with
      | some (values, ':' :: rest) => some (opening (.switched values), rest)
      | some (values, ')' :: rest) => if values.isEmpty then none else some (switches values, rest)
      | _ => none
  | rest => some (opening .plain, rest)

/-! ## Repetitions -/

/-- The number at the start of a text, between blanks. It must be below 2³². -/
def readCount (text : Text) : Option (Nat × Text) :=
  let text := text.dropWhile isBlank
  let digits := text.takeWhile Char.isDigit
  let n := digits.foldl (fun n c => 10 * n + (c.toNat - '0'.toNat)) 0
  if digits.isEmpty || 4294967296 ≤ n then none
  else some (n, (text.dropWhile Char.isDigit).dropWhile isBlank)

/-- The bounds of a repetition after its opening brace. -/
def readBounds (text : Text) : Option ((Nat × Option Nat) × Text) := do
  match ← readCount text with
  | (n, '\x7d' :: rest) => return ((n, some n), rest)
  | (n, ',' :: '\x7d' :: rest) => return ((n, none), rest)
  | (n, ',' :: rest) =>
      match ← readCount rest with
      | (m, '\x7d' :: rest) => if n ≤ m then return ((n, some m), rest) else none
      | _ => none
  | _ => none

/-- A repetition is lazy when a question mark follows. -/
def readLazy (least : Nat) (most : Option Nat) : Text → Symbol × Text
  | '?' :: rest => (repeated least most false, rest)
  | rest => (repeated least most true, rest)

/-! ## One symbol -/

/-- The first symbol of a text of at most `size` characters; with `fold` the case of letters does
not count. -/
def read (fold : Bool) (size : Nat) : Text → Option (Symbol × Text)
  | [] => none
  | '\\' :: rest => readEscape fold rest
  | '.' :: rest => some (point, rest)
  | '^' :: rest => some (caret, rest)
  | '$' :: rest => some (dollar, rest)
  | '|' :: rest => some (bar, rest)
  | '(' :: rest => readOpening rest
  | ')' :: rest => some (closing, rest)
  | '[' :: rest =>
      (Bracket.read fold size rest).map fun (set, rest) => (take set.chars set.depth, rest)
  | '*' :: rest => some (readLazy 0 none rest)
  | '+' :: rest => some (readLazy 1 none rest)
  | '?' :: rest => some (readLazy 0 (some 1) rest)
  | '\x7b' :: rest => (readBounds rest).map fun ((least, most), rest) => readLazy least most rest
  | c :: rest => some (single fold c, rest)

end Symbol

end TagLayers.Regex
