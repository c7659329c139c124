import TagLayers.Pattern.Cursor

/-!
# Automata

An automaton matches one pattern against a stream of tokens that are fed one at a time, each
with its index. The entry under the cursor decides what happens to the token: it is taken or
not, and the cursor moves or not. Two moves offer the same token again to a later entry: an
optional entry that misses, and a miss in an optional group that has taken nothing, which
skips the group. Any other miss of a mandatory entry, or of one that opens a region, drops the
attempt without offering the token to a new one.

A token that trips the guard of its entry ends the attempt, is reported, and is offered once
more to a new attempt. At the end of the pattern the tokens taken are stored as a match, and
the next token starts a new attempt.

Main statement: `step_again_lt`: each time a token is offered again, fewer entries are ahead,
so feeding a token ends.
-/

namespace TagLayers

/-- The progress of one attempt to match. -/
structure Attempt where
  /-- The position in the pattern. -/
  cursor : Cursor
  /-- The indices of the tokens taken. -/
  buffer : Array Nat := #[]
  /-- A token has been taken or left out. -/
  started : Bool := false
  /-- A balanced region is open. -/
  inside : Bool := false
  /-- How many openers wait for their closer; the first one counts. -/
  depth : Nat := 0
  /-- The tag that closes the region. -/
  closer : Option Tag := none

/-- A token that tripped a guard. -/
structure Mismatch where
  /-- The automaton whose attempt ended. -/
  pattern : String
  /-- The index of the token. -/
  token : Nat
  /-- The tag that the entry, or the open region, was waiting for. -/
  expected : Tag
deriving DecidableEq, Repr

/-- A region that was still open at the end of the stream. -/
structure Unterminated where
  /-- The automaton in whose attempt the region was opened. -/
  pattern : String
  /-- The index of the token that opened it. -/
  opener : Nat
  /-- The tag that would have closed it. -/
  expected : Tag
deriving DecidableEq, Repr

/-- A named pattern with the attempt in progress and the matches found. -/
structure Automaton where
  /-- The name used in reports and results. -/
  name : String
  /-- The tag given to matches. -/
  tag : Tag
  /-- The pattern to match. -/
  pattern : Pattern
  /-- The attempt in progress. -/
  attempt : Attempt
  /-- The completed matches, each the indices of its tokens. -/
  completed : Array (List Nat) := #[]
  /-- The index of the token that opened the last region. It stays when the region is over and
  when the attempt is dropped. -/
  opener : Nat := 0

/-- What happens after a step. -/
inductive Move where
  /-- The token is done with. -/
  | next
  /-- The token is offered to the entry now under the cursor. -/
  | again
  /-- The token tripped a guard and is offered to a new attempt. -/
  | mismatch (expected : Tag)
deriving DecidableEq, Repr

namespace Automaton

/-- An automaton that has seen no token. -/
def new (name : String) (tag : Tag) (pattern : Pattern) : Automaton :=
  { name, tag, pattern, attempt := { cursor := Cursor.start pattern } }

/-- A region is open. -/
def isInside (a : Automaton) : Bool := a.attempt.inside

/-- The nesting depth of the open region, or 0. -/
def depth (a : Automaton) : Nat := a.attempt.depth

/-- Drops the attempt; the completed matches stay, and so does the opener. -/
def restart (a : Automaton) : Automaton :=
  { a with attempt := { cursor := Cursor.start a.pattern } }

/-- Drops the attempt and the completed matches. -/
def reset (a : Automaton) : Automaton := { a.restart with completed := #[] }

/-- Takes the completed matches out. -/
def takeCompleted (a : Automaton) : Automaton × List (List Nat) :=
  ({ a with completed := #[] }, a.completed.toList)

/-- Takes the token at index `i` into the attempt. -/
def consume (a : Automaton) (i : Nat) : Automaton :=
  { a with attempt := { a.attempt with
      buffer := a.attempt.buffer.push i
      started := true
      cursor := a.attempt.cursor.consume } }

/-- Leaves a token out of the match but counts it as taken by the groups around the cursor. -/
def leaveOut (a : Automaton) : Automaton :=
  { a with attempt := { a.attempt with
      started := true
      cursor := a.attempt.cursor.consume } }

/-- Stores the attempt as a match, unless it has taken nothing, and starts afresh. -/
def complete (a : Automaton) : Automaton :=
  { a.restart with
    completed := if a.attempt.buffer.isEmpty then a.completed
      else a.completed.push a.attempt.buffer.toList }

/-- Moves the cursor. Past the last entry the attempt is complete; otherwise the token, unless
it was used, is offered to the new entry. -/
def moveTo (a : Automaton) (cursor : Cursor) (used : Bool) : Automaton × Move :=
  let a := { a with attempt := { a.attempt with cursor } }
  if cursor.isPast then (a.complete, .next)
  else (a, if used then .next else .again)

/-- Moves to the next entry. -/
def advance (a : Automaton) (used : Bool) : Automaton × Move :=
  a.moveTo a.attempt.cursor.advance used

/-- A token missed an entry that needs a hit. -/
def miss (a : Automaton) : Automaton × Move :=
  match a.attempt.cursor.skip? with
  | some cursor => a.moveTo cursor false
  | none => (a.restart, .next)

/-- The token closes the open region, or one nested in it. -/
def closes (a : Automaton) (token : Token) : Bool :=
  a.attempt.inside && a.attempt.closer.any token.tag.meets

/-- The token is a mistake at this entry: the attempt has started, the entry is not optional,
the token neither hits nor closes, and the guard holds. -/
def trips (a : Automaton) (entry : TagEntry) (token : Token) : Bool :=
  a.attempt.started && !entry.isOptional && !entry.hits token && !a.closes token
    && entry.guardHolds token

/-- The tag waited for at an entry: the closer of the open region, or the target. -/
def expected (a : Automaton) (entry : TagEntry) : Tag :=
  match a.attempt.closer with
  | some closer => if a.attempt.inside then closer else entry.target
  | none => entry.target

/-- The token opens a region within the open one: it hits the entry, or it opens a region with the
same closer. -/
def nests (a : Automaton) (entry : TagEntry) (token : Token) (pairs : PairTable) : Bool :=
  entry.hits token || (pairs.closer? token.tag).any fun closer => a.attempt.closer == some closer

/-- The depth after a token of the open region: a closer lowers it, and a token that opens a
region within it raises it. -/
def depthAfter (a : Automaton) (entry : TagEntry) (token : Token) (pairs : PairTable) : Nat :=
  if a.closes token then a.attempt.depth - 1
  else if a.nests entry token pairs then a.attempt.depth + 1
  else a.attempt.depth

/-- Notes that the token at index `i` has opened a region. -/
def enterRegion (a : Automaton) (closer : Tag) (i : Nat) : Automaton :=
  { a with
    attempt := { a.attempt with inside := true, depth := 1, closer := some closer }
    opener := i }

/-- Notes the depth of the open region. -/
def setDepth (a : Automaton) (depth : Nat) : Automaton :=
  { a with attempt := { a.attempt with depth } }

/-- Notes that the region is over. -/
def leaveRegion (a : Automaton) : Automaton :=
  { a with attempt := { a.attempt with inside := false, closer := none } }

/-- Takes a token into the open region. -/
def takeInside (a : Automaton) (entry : TagEntry) (i : Nat) (token : Token) (pairs : PairTable) :
    Automaton × Move :=
  match a.depthAfter entry token pairs with
  | 0 => ((a.consume i).setDepth 0).leaveRegion.advance true
  | depth => ((a.consume i).setDepth depth, .next)

/-- Opens a region with a token that hits, if the target of the entry has a closer. -/
def openRegion (a : Automaton) (entry : TagEntry) (i : Nat) (pairs : PairTable) :
    Except PatternError (Automaton × Move) :=
  match pairs.closer? entry.target with
  | none => .error (.undefinedCloser a.name entry.target)
  | some closer => .ok ((a.enterRegion closer i).consume i, .next)

/-- Offers a token to the entry under the cursor. -/
def offer (a : Automaton) (entry : TagEntry) (i : Nat) (token : Token) (pairs : PairTable) :
    Except PatternError (Automaton × Move) :=
  let hit := entry.hits token
  match entry.mode with
  | .optional => .ok (if hit then (a.consume i).advance true else a.advance false)
  | .mandatory => .ok (if hit then (a.consume i).advance true else a.miss)
  | .collect => .ok (if hit then (a.consume i).advance true else (a.consume i, .next))
  | .collectDrop => .ok (if hit then a.leaveOut.advance true else (a.consume i, .next))
  | .complete =>
      if a.attempt.inside then .ok (a.takeInside entry i token pairs)
      else if hit then a.openRegion entry i pairs
      else .ok a.miss

/-- One step: guards come first, then the entry under the cursor. Past the end nothing
happens. -/
def step (a : Automaton) (i : Nat) (token : Token) (pairs : PairTable) :
    Except PatternError (Automaton × Move) :=
  match a.attempt.cursor.current? with
  | none => .ok (a, .next)
  | some entry =>
      if a.trips entry token then .ok (a.restart, .mismatch (a.expected entry))
      else a.offer entry i token pairs

/-! ## Each token is done with -/

theorem moveTo_again {a b : Automaton} {cursor : Cursor} {used : Bool}
    (h : a.moveTo cursor used = (b, .again)) : b.attempt.cursor = cursor := by
  unfold moveTo at h
  split at h
  · simp at h
  · obtain ⟨rfl, -⟩ := Prod.mk.inj h
    rfl

theorem moveTo_used {a b : Automaton} {cursor : Cursor} :
    a.moveTo cursor true ≠ (b, .again) := by
  unfold moveTo
  split <;> simp

theorem miss_again_lt {a b : Automaton} (h : a.miss = (b, .again)) :
    b.attempt.cursor.ahead.length < a.attempt.cursor.ahead.length := by
  unfold miss at h
  split at h
  · next hs => rw [moveTo_again h]; exact Cursor.ahead_skip_lt hs
  · simp at h

theorem takeInside_again {a b : Automaton} {entry : TagEntry} {i : Nat} {token : Token}
    {pairs : PairTable} : a.takeInside entry i token pairs ≠ (b, .again) := by
  unfold takeInside
  split
  · exact moveTo_used
  · simp

theorem offer_again_lt {a b : Automaton} {entry : TagEntry} {i : Nat} {token : Token}
    {pairs : PairTable} (hc : a.attempt.cursor.current? = some entry)
    (h : a.offer entry i token pairs = .ok (b, .again)) :
    b.attempt.cursor.ahead.length < a.attempt.cursor.ahead.length := by
  unfold offer at h
  cases hm : entry.mode <;> simp only [hm] at h
  · by_cases hit : entry.hits token = true
    · simp only [hit, if_true, Except.ok.injEq] at h
      exact absurd h moveTo_used
    · simp only [hit, Except.ok.injEq] at h
      rw [moveTo_again h]
      cases hcur : a.attempt.cursor with
      | on e here outer => exact Cursor.ahead_advance_lt
      | past place => simp [hcur, Cursor.current?] at hc
  · by_cases hit : entry.hits token = true
    · simp only [hit, if_true, Except.ok.injEq] at h
      exact absurd h moveTo_used
    · simp only [hit, Except.ok.injEq] at h
      exact miss_again_lt h
  · by_cases hit : entry.hits token = true
    · simp only [hit, if_true, Except.ok.injEq] at h
      exact absurd h moveTo_used
    · simp [hit] at h
  · by_cases hit : entry.hits token = true
    · simp only [hit, if_true, Except.ok.injEq] at h
      exact absurd h moveTo_used
    · simp [hit] at h
  · by_cases hin : a.attempt.inside = true
    · rw [if_pos hin] at h
      exact absurd (Except.ok.inj h) takeInside_again
    · rw [if_neg hin] at h
      by_cases hit : entry.hits token = true
      · rw [if_pos hit, openRegion] at h
        split at h <;> simp at h
      · rw [if_neg hit] at h
        exact miss_again_lt (Except.ok.inj h)

/-- Offering a token again leaves fewer entries ahead. -/
theorem step_again_lt {a b : Automaton} {i : Nat} {token : Token} {pairs : PairTable}
    (h : a.step i token pairs = .ok (b, .again)) :
    b.attempt.cursor.ahead.length < a.attempt.cursor.ahead.length := by
  unfold step at h
  split at h
  · simp at h
  · next entry hc =>
      split at h
      · simp at h
      · exact offer_again_lt hc h

/-! ## Feeding -/

/-- Offers a token to one entry after the other until it is done with or trips a guard; then
the tag waited for is given. A failing step changes nothing, but the steps before it stay. -/
def run (a : Automaton) (i : Nat) (token : Token) (pairs : PairTable) :
    Automaton × Except PatternError (Option Tag) :=
  match _h : a.step i token pairs with
  | .error e => (a, .error e)
  | .ok (b, .next) => (b, .ok none)
  | .ok (b, .mismatch tag) => (b, .ok (some tag))
  | .ok (b, .again) => b.run i token pairs
termination_by a.attempt.cursor.ahead.length
decreasing_by exact step_again_lt _h

/-- Feeds the token at index `i`. After a guard ended the attempt the token is offered to a
new one, which has not started and so cannot trip a guard. -/
def feed (a : Automaton) (i : Nat) (token : Token) (pairs : PairTable) :
    Automaton × Except PatternError (Option Mismatch) :=
  match a.run i token pairs with
  | (b, .error e) => (b, .error e)
  | (b, .ok none) => (b, .ok none)
  | (b, .ok (some expected)) =>
      match b.run i token pairs with
      | (c, .error e) => (c, .error e)
      | (c, .ok _) => (c, .ok (some ⟨a.name, i, expected⟩))

/-- Ends the stream. An open region is reported; otherwise a started attempt is complete if
what is left of the pattern is optional. -/
def finish (a : Automaton) : Automaton × Option Unterminated :=
  if a.attempt.inside then
    (a.restart, some ⟨a.name, a.opener, a.attempt.closer.getD {}⟩)
  else if a.attempt.started && a.attempt.cursor.restOptional then (a.complete, none)
  else (a.restart, none)

end Automaton

end TagLayers
