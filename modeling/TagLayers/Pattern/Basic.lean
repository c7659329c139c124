import TagLayers.Layer.Token
import TagLayers.Tag.Pairs

/-!
# Patterns

A pattern is a sequence of entries. An entry expects a tag in one of five modes, or it is a
group: a pattern in place, which may be declared optional. Walking a pattern visits its tag
entries depth first, each with the path of indices that leads to it.

Main statement:
1. `entries_eq_walk`: the entries are those of the walk.
-/

namespace TagLayers

/-- How a tag entry treats the tokens. -/
inductive Mode where
  /-- Takes a token that hits, and is passed over by any other. -/
  | optional
  /-- Takes a token that hits; any other ends the attempt. -/
  | mandatory
  /-- Takes every token up to and including one that hits. -/
  | collect
  /-- Takes every token before one that hits, and leaves that one out. -/
  | collectDrop
  /-- Takes a balanced region from a token that hits to its closer. -/
  | complete
deriving DecidableEq, Repr, Inhabited

/-- A test for tokens that show a mistake when they miss an entry. -/
abbrev Guard := Token → Bool

/-- An entry that expects a tag. -/
structure TagEntry where
  /-- The tag that a token has to meet in order to hit. -/
  target : Tag
  /-- How hits and misses are treated. -/
  mode : Mode
  /-- The test for mistakes. -/
  guard : Option Guard := none

namespace TagEntry

/-- The entry may be passed over without a token. -/
def isOptional (e : TagEntry) : Bool := e.mode == .optional

/-- The token hits the entry. -/
def hits (e : TagEntry) (token : Token) : Bool := token.tag.meets e.target

/-- The token trips the guard of the entry. -/
def guardHolds (e : TagEntry) (token : Token) : Bool :=
  match e.guard with
  | some g => g token
  | none => false

end TagEntry

/-- A sequence of entries, read from its first entry on. -/
inductive Pattern where
  /-- No entry is left. -/
  | nil
  /-- A tag entry, and what follows it. -/
  | item (entry : TagEntry) (rest : Pattern)
  /-- A group, and what follows it. -/
  | group (optional : Bool) (body : Pattern) (rest : Pattern)

instance : Inhabited Pattern := ⟨.nil⟩

/-- A fault in the structure of a pattern. -/
inductive PatternError where
  /-- An entry opens a region with a tag that has no closer. -/
  | undefinedCloser (pattern : String) (opener : Tag)
deriving DecidableEq, Repr

namespace PatternError

/-- The wording of an error. -/
def message : PatternError → String
  | undefinedCloser pattern opener =>
      s!"pattern '{pattern}' uses {opener.shown} as a group opener but no closer is defined for it"

end PatternError

namespace Pattern

/-- The number of entries; a group counts as one. -/
def size : Pattern → Nat
  | nil => 0
  | item _ rest => rest.size + 1
  | group _ _ rest => rest.size + 1

/-- The pattern has no entry. -/
def isEmpty : Pattern → Bool
  | nil => true
  | _ => false

/-- The entries of one pattern followed by those of another. -/
def append : Pattern → Pattern → Pattern
  | nil, q => q
  | item e rest, q => item e (rest.append q)
  | group o body rest, q => group o body (rest.append q)

instance : Append Pattern := ⟨append⟩

/-! ## Building patterns -/

/-- Adds a tag entry. -/
def expect (p : Pattern) (mode : Mode) (target : Tag) : Pattern :=
  p ++ item ⟨target, mode, none⟩ nil

/-- Adds a mandatory entry. -/
def must (p : Pattern) (target : Tag) : Pattern := p.expect .mandatory target

/-- Adds an optional entry. -/
def can (p : Pattern) (target : Tag) : Pattern := p.expect .optional target

/-- Adds a collecting entry. -/
def collect (p : Pattern) (target : Tag) : Pattern := p.expect .collect target

/-- Adds a collecting entry that leaves its last token out. -/
def collectDrop (p : Pattern) (target : Tag) : Pattern := p.expect .collectDrop target

/-- Adds an entry for a balanced region. -/
def complete (p : Pattern) (target : Tag) : Pattern := p.expect .complete target

/-- Adds a group. -/
def nest (p body : Pattern) : Pattern := p ++ group false body nil

/-- Adds a group that may be absent. -/
def maybe (p body : Pattern) : Pattern := p ++ group true body nil

/-- Gives the last tag entry of the walk a guard, if there is an entry. -/
def guardLast? (g : Guard) : Pattern → Option Pattern
  | nil => none
  | item e rest =>
      match guardLast? g rest with
      | some rest => some (item e rest)
      | none => some (item { e with guard := some g } rest)
  | group o body rest =>
      match guardLast? g rest with
      | some rest => some (group o body rest)
      | none => (guardLast? g body).map (group o · rest)

/-- Gives the last tag entry of the walk a guard; without any tag entry nothing changes. -/
def guarded (p : Pattern) (g : Guard) : Pattern := (guardLast? g p).getD p

/-! ## Walking patterns -/

/-- The tag entries in the order of the walk. -/
def entries : Pattern → List TagEntry
  | nil => []
  | item e rest => e :: rest.entries
  | group _ body rest => body.entries ++ rest.entries

/-- The walk over a pattern that continues the group at `path` from index `i` on. -/
def walkFrom (path : List Nat) (i : Nat) : Pattern → List (List Nat × TagEntry)
  | nil => []
  | item e rest => (path ++ [i], e) :: walkFrom path (i + 1) rest
  | group _ body rest => walkFrom (path ++ [i]) 0 body ++ walkFrom path (i + 1) rest

/-- The tag entries depth first, each with the indices that lead to it. -/
def walk (p : Pattern) : List (List Nat × TagEntry) := walkFrom [] 0 p

/-- Every entry may be passed over without a token. -/
def allOptional : Pattern → Bool
  | nil => true
  | item e rest => e.isOptional && rest.allOptional
  | group o body rest => (o || body.allOptional) && rest.allOptional

/-- For each entry, whether it may be passed over without a token. -/
def optionals : Pattern → List Bool
  | nil => []
  | item e rest => e.isOptional :: rest.optionals
  | group o body rest => (o || body.allOptional) :: rest.optionals

/-- Each opening tag has a closer in the table; the first of the walk without one is the error. -/
def validate (p : Pattern) (name : String) (pairs : PairTable) : Except PatternError Unit :=
  match p.entries.find? fun e => e.mode == .complete && (pairs.closer? e.target).isNone with
  | some e => .error (.undefinedCloser name e.target)
  | none => .ok ()

theorem entries_eq_walkFrom (p : Pattern) (path : List Nat) (i : Nat) :
    p.entries = (walkFrom path i p).map (·.2) := by
  induction p generalizing path i with
  | nil => rfl
  | item e rest ih => simp [walkFrom, entries, ih path (i + 1)]
  | group o body rest ihb ihr => simp [walkFrom, entries, ihb (path ++ [i]) 0, ihr path (i + 1)]

/-- The entries are those of the walk. -/
theorem entries_eq_walk (p : Pattern) : p.entries = p.walk.map (·.2) := entries_eq_walkFrom p [] 0

end Pattern

end TagLayers
