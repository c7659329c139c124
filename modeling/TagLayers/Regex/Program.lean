import TagLayers.Regex.Basic

/-!
# Programs of regular expressions

An expression is laid out as a program: an array of instructions that name their successors by
place. A fork prefers its first successor. The program of an expression is written from the end:
what follows an expression is in place before the expression is.

A repetition without a limit ends in a fork that leads back to the start of its last round, so a
round that takes nothing leads to a fork that has been visited at that position.
-/

namespace TagLayers.Regex

open Unicode

/-- An instruction. -/
inductive Instruction where
  /-- Takes one character of a set. -/
  | take (chars : Ranges) (next : Nat)
  /-- Goes on where a condition holds. -/
  | check (condition : Assertion) (next : Nat)
  /-- Goes on at two places, at the first one for preference. -/
  | fork (first second : Nat)
  /-- Ends a match. -/
  | accept
deriving DecidableEq, Repr

/-- Instructions by place. -/
abbrev Code := Array Instruction

/-- A program. -/
structure Program where
  /-- The instructions. -/
  code : Code
  /-- The place of the first one. -/
  start : Nat
deriving DecidableEq, Repr

namespace Code

/-- A way to write instructions in front of a place: it gives the place to start from. -/
abbrev Writer := Nat → Code → Nat × Code

/-- Adds one instruction. -/
def add (code : Code) (i : Instruction) : Nat × Code := (code.size, code.push i)

/-- A fork into a repetition or past it. -/
def forkTo (greedy : Bool) (inside past : Nat) : Instruction :=
  if greedy then .fork inside past else .fork past inside

/-- Writes a number of copies. -/
def copies (body : Writer) : Nat → Writer
  | 0 => fun next code => (next, code)
  | n + 1 => fun next code =>
      let (later, code) := copies body n next code
      body later code

/-- Writes at most `n` rounds. After every round the repetition may be left. -/
def upTo (body : Writer) (greedy : Bool) : Nat → Writer
  | 0 => fun next code => (next, code)
  | n + 1 => fun next code =>
      let (later, code) := upTo body greedy n next code
      let (entry, code) := body later code
      add code (forkTo greedy entry next)

/-- Writes at least one round. The fork behind the round is returned as well. -/
def loop (body : Writer) (greedy : Bool) (next : Nat) (code : Code) : (Nat × Nat) × Code :=
  let (back, code) := add code .accept
  let (entry, code) := body back code
  ((entry, back), code.setIfInBounds back (forkTo greedy entry next))

/-- Writes any number of rounds. When a round always takes something the repetition is entered at
its fork; otherwise it is at least one round or none. -/
def star (body : Writer) (greedy takesSomething : Bool) (next : Nat) (code : Code) : Nat × Code :=
  let ((entry, back), code) := loop body greedy next code
  if takesSomething then (back, code) else add code (forkTo greedy entry next)

/-- Writes an expression. -/
def write : Regex → Writer
  | .empty => fun next code => (next, code)
  | .literal chars => fun next code =>
      chars.foldr (fun c (next, code) => add code (.take (.single c) next)) (next, code)
  | .oneOf chars => fun next code => add code (.take chars next)
  | .check condition => fun next code => add code (.check condition next)
  | .group _ body => write body
  | .seq a b => fun next code =>
      let (middle, code) := write b next code
      write a middle code
  | .alt a b => fun next code =>
      let (second, code) := write b next code
      let (first, code) := write a next code
      add code (.fork first second)
  | .rounds least (some most) greedy body => fun next code =>
      let (later, code) := upTo (write body) greedy (most - least) next code
      copies (write body) least later code
  | .rounds 0 none greedy body => star (write body) greedy body.takesSomething
  | .rounds (n + 1) none greedy body => fun next code =>
      let ((entry, _), code) := loop (write body) greedy next code
      copies (write body) n entry code

end Code

/-- The program of an expression. -/
def program (r : Regex) : Program :=
  let (accept, code) := Code.add #[] .accept
  let (start, code) := Code.write r accept code
  ⟨code, start⟩

end TagLayers.Regex
