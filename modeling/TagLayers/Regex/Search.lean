import Std.Data.HashMap
import Std.Data.HashSet.Lemmas
import TagLayers.Lexicon.Piece
import TagLayers.Regex.Program

/-!
# Searching with programs

A search goes through the text once. It keeps the threads that may still lead to a match in order
of preference: threads of a match that starts earlier come first. At each position every
instruction is visited once at most, for the most preferred thread that reaches it. When a thread
ends a match, those after it are given up, and the match stands unless one before it ends a match
later.

So the match is the one that starts first, and among those the preferred one. A search through a
whole text goes on behind each match. A match that takes nothing is passed over together with the
next character.

Threads that were followed past the end of a match and came to nothing need not be followed again.
The search remembers the instructions that they visited, and the next one does not visit them.

Main statements:
1. `unseen_insert_lt`: a visit leaves fewer instructions to visit, so a search ends.
2. `join_pieces`: a search loses nothing.
-/

namespace TagLayers.Regex

open Unicode

/-- A thread: where its match started, in characters passed over, and its place in the program. -/
structure Thread where
  /-- The characters passed over before the match. -/
  start : Nat
  /-- The place of its next instruction. -/
  place : Nat
deriving DecidableEq, Repr

/-- A thread that waits for a character of a set. -/
structure Waiting where
  /-- The set. -/
  chars : Ranges
  /-- The thread after the character. -/
  after : Thread
deriving DecidableEq, Repr

/-- A match: the characters passed over before it, and the characters taken. -/
structure Hit where
  /-- The characters passed over. -/
  passed : Nat
  /-- The characters taken. -/
  taken : Nat
deriving DecidableEq, Repr

namespace Program

/-- The number of instructions that have not been visited. -/
def unseen (p : Program) (seen : Std.HashSet Nat) : Nat :=
  ((List.range p.code.size).filter fun i => !seen.contains i).length

/-- A visit leaves fewer instructions to visit. -/
theorem unseen_insert_lt {p : Program} {seen : Std.HashSet Nat} {place : Nat}
    (h : place < p.code.size) (hs : seen.contains place = false) :
    p.unseen (seen.insert place) < p.unseen seen := by
  have split : ((List.range p.code.size).filter fun i => !(seen.insert place).contains i)
      = ((List.range p.code.size).filter fun i => !seen.contains i).filter (place != ·) := by
    rw [List.filter_filter]
    refine List.filter_congr fun i _ => ?_
    rw [Std.HashSet.contains_insert, Bool.not_or]
    rfl
  rw [unseen, split, unseen, List.length_filter_lt_length_iff_exists]
  exact ⟨place, by simp [h, hs], by simp⟩

/-- What following threads at one position gives. -/
structure Spread where
  /-- The threads that wait for a character, in order of preference. -/
  waiting : List Waiting
  /-- Where the match of the first thread that ends one started. -/
  ended : Option Nat
  /-- The instructions that have been visited. -/
  seen : Std.HashSet Nat

/-- Follows threads to the instructions that take a character. Threads after the first one that
ends a match are given up. -/
def spread (p : Program) (before : Option Char) (rest : Text) (seen : Std.HashSet Nat)
    (waiting : List Waiting) (threads : List Thread) : Spread :=
  match threads with
  | [] => ⟨waiting.reverse, none, seen⟩
  | t :: more =>
      if _hs : seen.contains t.place then spread p before rest seen waiting more
      else if _h : t.place < p.code.size then
        match p.code[t.place] with
        | .accept => ⟨waiting.reverse, some t.start, seen⟩
        | .take chars next =>
            spread p before rest (seen.insert t.place)
              (⟨chars, { t with place := next }⟩ :: waiting) more
        | .check condition next =>
            spread p before rest (seen.insert t.place) waiting
              (if condition.holds before rest then { t with place := next } :: more else more)
        | .fork first second =>
            spread p before rest (seen.insert t.place) waiting
              ({ t with place := first } :: { t with place := second } :: more)
      else spread p before rest seen waiting more
termination_by (p.unseen seen, threads.length)
decreasing_by
  · exact Prod.Lex.right _ (Nat.lt_succ_self _)
  · exact Prod.Lex.left _ _ (unseen_insert_lt _h (Bool.eq_false_iff.mpr _hs))
  · exact Prod.Lex.left _ _ (unseen_insert_lt _h (Bool.eq_false_iff.mpr _hs))
  · exact Prod.Lex.left _ _ (unseen_insert_lt _h (Bool.eq_false_iff.mpr _hs))
  · exact Prod.Lex.right _ (Nat.lt_succ_self _)

/-- The threads after a character. -/
def take (c : Char) (waiting : List Waiting) : List Thread :=
  waiting.filterMap fun w => if w.chars.contains c.toNat then some w.after else none

/-- Instructions from which no match comes, by position. -/
abbrev DeadEnds := Std.HashMap Nat (Std.HashSet Nat)

/-- A search: what is known from earlier ones, and the best match so far with the instructions
visited at the positions behind its end. -/
structure SearchState where
  /-- What is known from earlier searches. -/
  dead : DeadEnds
  /-- The best match so far. -/
  best : Option Hit := none
  /-- The instructions visited behind its end, the last position first. -/
  behind : List (Nat × Std.HashSet Nat) := []

namespace SearchState

/-- What is known after a search. -/
def known (s : SearchState) : DeadEnds :=
  s.behind.foldl (fun dead visited => dead.insert visited.1 visited.2) s.dead

/-- The search after threads were followed at a position. -/
def note (s : SearchState) (passed : Nat) (spread : Spread) : SearchState :=
  match spread.ended with
  | some start => { s with best := some ⟨start, passed - start⟩, behind := [] }
  | none =>
      if s.best.isSome then { s with behind := (passed, spread.seen) :: s.behind } else s

end SearchState

/-- Follows threads at a position. A new thread starts there unless there is a match. -/
def visit (p : Program) (before : Option Char) (passed : Nat) (s : SearchState)
    (threads : List Thread) (rest : Text) : List Waiting × SearchState :=
  let threads := if s.best.isSome then threads else threads ++ [⟨passed, p.start⟩]
  let spread := p.spread before rest (s.dead.getD passed {}) [] threads
  (spread.waiting, s.note passed spread)

/-- Searches from a position on. -/
def searchFrom (p : Program) (before : Option Char) (passed : Nat) (s : SearchState)
    (threads : List Thread) : Text → SearchState
  | [] => (p.visit before passed s threads []).2
  | c :: rest =>
      let (waiting, s) := p.visit before passed s threads (c :: rest)
      if waiting.isEmpty && s.best.isSome then s
      else searchFrom p (some c) (passed + 1) s (take c waiting) rest

/-- The first match in a text, given the character before the text and its position, and what is
known after the search. -/
def first? (p : Program) (before : Option Char) (pos : Nat) (dead : DeadEnds) (text : Text) :
    Option Hit × DeadEnds :=
  let s := p.searchFrom before pos { dead } [] text
  (s.best.map fun hit => { hit with passed := hit.passed - pos }, s.known)

/-- The character before the position `n` further on. -/
def beforeAfter (before : Option Char) (text : Text) (n : Nat) : Option Char :=
  (text.take n).getLast?.or before

/-- The pieces of a text, given the character before it, its position, and what is known of it. -/
def piecesFrom (p : Program) (before : Option Char) (pos : Nat) (dead : DeadEnds) (text : Text) :
    List Piece :=
  match text with
  | [] => []
  | c :: rest =>
      match p.first? before pos dead (c :: rest) with
      | (none, _) => (c :: rest).map .plain
      | (some ⟨passed, 0⟩, dead) =>
          ((c :: rest).take (passed + 1)).map .plain
            ++ piecesFrom p (beforeAfter before (c :: rest) (passed + 1)) (pos + (passed + 1)) dead
                (rest.drop passed)
      | (some ⟨passed, n + 1⟩, dead) =>
          ((c :: rest).take passed).map .plain
            ++ .found (((c :: rest).drop passed).take (n + 1))
            :: piecesFrom p (beforeAfter before (c :: rest) (passed + (n + 1)))
                (pos + (passed + (n + 1))) dead (rest.drop (passed + n))
termination_by text.length
decreasing_by
  · rw [List.length_drop, List.length_cons]
    omega
  · rw [List.length_drop, List.length_cons]
    omega

/-- The pieces of a search through a text. -/
def pieces (p : Program) (text : Text) : List Piece := p.piecesFrom none 0 {} text

/-! ## Nothing is lost -/

/-- Passing over a text keeps it. -/
theorem join_map_plain (text : Text) : Piece.join (text.map .plain) = text := by
  induction text with
  | nil => rfl
  | cons c rest ih => simpa [Piece.join, Piece.text] using ih

/-- A search from a position on loses nothing. -/
theorem join_piecesFrom (p : Program) (before : Option Char) (pos : Nat) (dead : DeadEnds)
    (text : Text) : Piece.join (p.piecesFrom before pos dead text) = text := by
  fun_induction piecesFrom p before pos dead text with
  | case1 => rfl
  | case2 => exact join_map_plain _
  | case3 before pos dead c rest passed _ h ih =>
      rw [Piece.join, List.flatMap_append, ← Piece.join, ← Piece.join, ih, join_map_plain,
        ← List.drop_succ_cons, List.take_append_drop]
  | case4 before pos dead c rest passed n _ h ih =>
      have behind : rest.drop (passed + n) = ((c :: rest).drop passed).drop (n + 1) := by
        rw [List.drop_drop, ← Nat.add_assoc, List.drop_succ_cons]
      rw [Piece.join, List.flatMap_append, List.flatMap_cons, ← Piece.join, ← Piece.join, ih,
        join_map_plain, Piece.text, behind, List.take_append_drop, List.take_append_drop]

/-- A search loses nothing. -/
theorem join_pieces (p : Program) (text : Text) : Piece.join (p.pieces text) = text :=
  join_piecesFrom p none 0 {} text

end Program

end TagLayers.Regex
