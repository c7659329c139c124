import Std.Data.HashMap

/-!
# Memory of automata

An automaton is built state by state, and a ledger keeps what its states take. A state takes 32
bytes; a fork takes 4 more for each of its ways, and a state with a choice of ranges of bytes 8
more for each range. Building stops as soon as the ledger is over its limit.

A part of an automaton ends in a state from which the way goes on. Where that state is a fork, the
way on is one more of its ways.

States may be shared: a table says which state has been built for a key. A table has a fixed
number of slots, and the hash of a key gives its slot. A new key drives out the one that was in
its slot before, so a state that was driven out is built again.
-/

namespace TagLayers.Regex

/-- What an automaton takes. -/
structure Ledger where
  /-- The number of states, which is also the number of the next one. -/
  states : Nat := 0
  /-- The bytes beyond those that every state takes. -/
  extra : Nat := 0
deriving DecidableEq, Repr

namespace Ledger

/-- The bytes of a state. -/
def stateSize : Nat := 32

/-- The bytes of a way of a fork. -/
def waySize : Nat := 4

/-- The bytes of a range of bytes. -/
def rangeSize : Nat := 8

/-- The greatest size of an automaton, ten mebibytes. -/
def limit : Nat := 10485760

/-- The size of the automaton in bytes. -/
def size (l : Ledger) : Nat := stateSize * l.states + l.extra

end Ledger

/-- A step of building, which fails when the automaton becomes too large. -/
abbrev Building := StateT Ledger Option

namespace Building

/-- Adds states and bytes. -/
def grow (states extra : Nat) : Building Unit := fun l =>
  let l : Ledger := ⟨l.states + states, l.extra + extra⟩
  if l.size ≤ Ledger.limit then some ((), l) else none

/-- Adds a state with bytes of its own, and gives its number. -/
def state (extra : Nat) : Building Nat := do
  let n := (← get).states
  grow 1 extra
  return n

/-- Adds a fork with a number of ways. -/
def fork (ways : Nat) : Building Unit := grow 1 (Ledger.waySize * ways)

end Building

/-! ## Parts -/

/-- The kind of the state in which a part ends. -/
inductive Exit where
  /-- A state with one way on. -/
  | plain
  | fork
deriving DecidableEq, Repr

/-- A part of an automaton. -/
abbrev Plan := Building Exit

namespace Plan

/-- A state with one way on. -/
def single : Plan := do
  Building.grow 1 0
  return .plain

/-- Goes on from the end of a part. -/
def leave : Exit → Building Unit
  | .plain => Building.grow 0 0
  | .fork => Building.grow 0 Ledger.waySize

/-- One part after another. -/
def andThen (a b : Plan) : Plan := do
  leave (← a)
  b

/-- A number of copies of a part, one after the other. -/
def copies (p : Plan) : Nat → Plan
  | 0 => single
  | 1 => p
  | n + 2 => andThen p (copies p (n + 1))

/-- At most a number of copies of a part, each of which may be passed by. -/
def upTo (p : Plan) : Nat → Building Unit
  | 0 => return
  | n + 1 => do
      Building.fork 2
      leave (← p)
      upTo p n

/-- Parts between which an automaton chooses. The states at which they part and meet come after
the second one. -/
def oneOf : List Plan → Plan
  | [] => single
  | [p] => p
  | first :: second :: rest => do
      let a ← first
      let b ← second
      Building.fork (2 + rest.length)
      Building.grow 1 0
      leave a
      leave b
      rest.forM fun p => do leave (← p)
      return .plain

end Plan

/-! ## Shared states -/

/-- The states built for keys, by slots. -/
abbrev StateTable (κ : Type) := Std.HashMap Nat (κ × Nat)

/-- The hash of numbers, after the scheme FNV-1a: each of them in turn is mixed into it and then
spread by a product. -/
def mixed (numbers : List Nat) : UInt64 :=
  numbers.foldl (fun hash n => (hash ^^^ n.toUInt64) * 1099511628211) 14695981039346656037

/-- The state for a key, given its slot. It is built if the table does not have it. -/
def sharedState {κ : Type} [BEq κ] (slot : Nat) (key : κ) (extra : Nat) :
    StateT (StateTable κ) Building Nat := do
  let build : StateT (StateTable κ) Building Nat := do
    let n ← (Building.state extra : Building Nat)
    modify fun table => table.insert slot (key, n)
    return n
  match (← get)[slot]? with
  | some (other, n) => if other == key then return n else build
  | none => build

end TagLayers.Regex
