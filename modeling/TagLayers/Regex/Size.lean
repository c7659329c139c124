import TagLayers.Regex.Basic
import TagLayers.Regex.ByteSequence
import TagLayers.Regex.Ledger

/-!
# The size of a regular expression

An expression that would lead to very large automata is refused. The measure is the memory of two
automata over the bytes of UTF-8: one that reads a text forwards and remembers the matches of
groups, and one that reads it backwards and does not. States that do the same within a set of
characters are shared: forwards those with the same continuations, backwards those with the same
beginnings.

Many texts to choose from are searched for without automata, and have no limit.
-/

namespace TagLayers.Regex

open Unicode

/-- The direction in which an automaton reads. -/
inductive Direction where
  | forwards
  | backwards
deriving DecidableEq, Repr

namespace Direction

/-- Two things in the order in which they are read. -/
def pair {α : Type} (d : Direction) (a b : α) : α × α :=
  match d with
  | forwards => (a, b)
  | backwards => (b, a)

/-- A row in the order in which it is read. -/
def row {α : Type} (d : Direction) (items : List α) : List α :=
  match d with
  | forwards => items
  | backwards => items.reverse

/-- The end of a text that is read first. -/
def edge : Direction → Assertion
  | forwards => .textStart
  | backwards => .textEnd

end Direction

/-! ## Sets of characters -/

/-- A step to a state: the bytes that are taken, and the number of the state. -/
abbrev ByteStep := ByteRange × Nat

/-- The slots of a table of states by their steps. -/
def stepSlots : UInt64 := 10000

/-- The slots of a table of states by the last step of the way to them. -/
def waySlots : UInt64 := 1000

/-- The sequences of a set by their first ranges. -/
def byFirstRange (sequences : List ByteSequence) : List (ByteRange × List ByteSequence) :=
  (sequences.splitBy fun a b => a.head? == b.head?).filterMap fun row =>
    match row with
    | (first :: rest) :: more => some (first, rest :: more.map List.tail)
    | _ => none

/-- The state from which sequences of a number of bytes lead to a target. States with the same
steps are shared. -/
def stateBefore (target : Nat) : Nat → List ByteSequence →
    StateT (StateTable (List ByteStep)) Building Nat
  | 0, _ => return target
  | n + 1, sequences => do
      let steps ← (byFirstRange sequences).mapM fun (range, rest) => do
        if rest == [[]] then return (range, target)
        else return (range, ← stateBefore target n rest)
      let hash := mixed (steps.flatMap fun step => [step.1.1, step.1.2, step.2])
      sharedState (hash % stepSlots).toNat steps (Ledger.rangeSize * steps.length)

/-- The states that lead from a target over the ranges of a sequence. A state is shared by the
sequences that come to it by the same ranges. -/
def stateBehind (target : Nat) (s : ByteSequence) :
    StateT (StateTable (Nat × ByteRange)) Building Nat :=
  s.foldlM
    (fun n range => sharedState (mixed [n, range.1, range.2] % waySlots).toNat (n, range) 0)
    target

/-- A set of characters: one choice of ranges within ASCII, and otherwise the states of the
sequences of bytes. -/
def setPlan (d : Direction) (chars : Ranges) : Plan :=
  if chars.all (·.2 < 0x80) then do
    Building.grow 2 (Ledger.rangeSize * chars.length)
    return .plain
  else
    let sequences := ByteSequence.ofSet chars
    match d with
    | .forwards => do
        let target ← Building.state 0
        let _ ← (stateBefore target ByteSequence.maxLength sequences).run {}
        return .plain
    | .backwards => do
        Building.fork sequences.length
        let target ← Building.state 0
        let _ ← (sequences.forM fun s => do let _ ← stateBehind target s).run {}
        return .plain

/-! ## Texts -/

/-- The bytes of a text. -/
abbrev Bytes := List UInt8

/-- The bytes of a text in UTF-8. -/
def bytesOf (text : Text) : Bytes := text.flatMap String.utf8EncodeChar

/-- The remainders of texts at a state of their tree, in rows. A text that ends there starts a
new row, unless it only repeats one before all remainders. -/
def rows (texts : List Bytes) : List (List Bytes) :=
  match texts with
  | [] :: rest => [] :: ends (rest.dropWhile List.isEmpty)
  | texts => ends texts
where
  /-- Divides remainders at those that are empty. -/
  ends : List Bytes → List (List Bytes)
    | [] => [[]]
    | [] :: rest => [] :: ends rest
    | text :: rest =>
        match ends rest with
        | row :: more => (text :: row) :: more
        | [] => [[text]]

/-- A tree of texts, each of at most a number of bytes: for every state of the tree a fork, and
a state for each of its rows. -/
def treePlan : Nat → List Bytes → Building Unit
  | 0, _ => return
  | n + 1, texts => do
      let all := rows texts
      let filled := all.filter (!·.isEmpty)
      filled.forM fun row => do
        let firsts := (row.filterMap List.head?).eraseDups
        Building.grow 1 (if firsts.length < 2 then 0 else Ledger.rangeSize * firsts.length)
        firsts.forM fun b => do
          let behind := (row.filter (·.head? == some b)).map List.tail
          if behind.all List.isEmpty then return else treePlan n behind
      Building.fork (all.length - 1 + filled.length)

/-- Several texts to choose from. -/
def textsPlan (d : Direction) (texts : List Text) : Plan := do
  let texts := texts.map fun text => d.row (bytesOf text)
  Building.grow 1 0
  treePlan ((texts.map List.length).foldl max 0) texts
  return .plain

/-! ## Expressions -/

/-- The texts of an expression that chooses between texts and does nothing else. -/
def texts? (r : Regex) : Option (List Text) :=
  r.alternatives.mapM fun r =>
    match r with
    | literal chars => some chars
    | _ => none

/-- An expression, given the parts of its alternatives. -/
def wholePlan (d : Direction) (r : Regex) (plans : List Plan) : Plan :=
  match texts? r with
  | some (a :: b :: rest) => textsPlan d (a :: b :: rest)
  | _ => Plan.oneOf plans

/-- The parts of the alternatives of an expression. -/
def plans (d : Direction) : Regex → List Plan
  | empty => [Plan.single]
  | literal chars =>
      let length := (bytesOf chars).length
      [do Building.grow length 0; return .plain]
  | oneOf chars => [setPlan d chars]
  | check _ => [Plan.single]
  | group _ body =>
      let body := wholePlan d body (plans d body)
      match d with
      | .forwards => [(Plan.single.andThen body).andThen Plan.single]
      | .backwards => [body]
  | seq a b =>
      let (first, second) := d.pair (wholePlan d a (plans d a)) (wholePlan d b (plans d b))
      [first.andThen second]
  | alt a b => wholePlan d a (plans d a) :: plans d b
  | rounds least most _ body =>
      let round := wholePlan d body (plans d body)
      match least, most with
      | 0, some 1 => [do
          Building.fork 2
          (round.andThen Plan.single)]
      | least, some most =>
          if least = most then [round.copies least]
          else [do
            Plan.leave (← round.copies least)
            Building.grow 1 0
            round.upTo (most - least)
            return .plain]
      | 0, none =>
          if body.takesSomething then [do
            Building.fork 1
            Plan.leave (← round)
            return .fork]
          else [do
            Plan.leave (← round)
            Building.fork 2
            Building.fork 2
            Building.grow 1 0
            return .plain]
      | least, none => [do
          Plan.leave (← round.copies least)
          Building.fork 1
          return .fork]

/-- How every match of an expression begins in the order of reading. -/
structure Lead where
  /-- It begins at the edge of the text that is read first. -/
  bound : Bool
  /-- It takes nothing at all. -/
  idle : Bool
deriving DecidableEq, Repr

namespace Lead

/-- One expression after another. -/
def andThen (a b : Lead) : Lead := ⟨a.bound || (a.idle && b.bound), a.idle && b.idle⟩

end Lead

/-- How every match of an expression begins. -/
def lead (d : Direction) : Regex → Lead
  | empty => ⟨false, true⟩
  | literal _ => ⟨false, false⟩
  | oneOf _ => ⟨false, false⟩
  | check condition => ⟨condition == d.edge, true⟩
  | group _ body => body.lead d
  | seq a b =>
      let (first, second) := d.pair (a.lead d) (b.lead d)
      first.andThen second
  | alt a b =>
      let a := a.lead d
      let b := b.lead d
      ⟨a.bound && b.bound, a.idle && b.idle⟩
  | rounds least _ _ body =>
      let body := body.lead d
      ⟨0 < least && body.bound, body.idle⟩

/-- The whole automaton: the way through the text up to a match, the match, which is remembered
forwards, and its end. -/
def automaton (d : Direction) (r : Regex) : Plan :=
  let body := wholePlan d r (plans d r)
  let remembered :=
    match d with
    | .forwards => (Plan.single.andThen body).andThen Plan.single
    | .backwards => body
  do
    if (r.lead d).bound then Building.grow 1 0
    else
      Building.fork 2
      Building.grow 2 Ledger.rangeSize
    remembered.andThen Plan.single

/-- So many texts are searched for without automata. -/
def manyTexts : Nat := 3000

/-- The expression is not too large. -/
def fits (r : Regex) : Bool :=
  (texts? r).any (manyTexts ≤ ·.length)
    || [Direction.forwards, .backwards].all fun d => ((automaton d r).run {}).isSome

end TagLayers.Regex
