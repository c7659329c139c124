import TagLayers.Regex.Symbol

/-!
# Reading regular expressions

Symbols are put together from left to right. For every group that is open a level keeps the
alternatives read so far and the parts of the current one; switches hold to the end of the
group in which they are set.

A text is refused when a bracket has no partner, a repetition has nothing to repeat, two groups
have the same name, or the notation is nested too deep. It is refused as well when it uses what this
reader leaves out: classes by Unicode property, such as `\p{L}` and `\pN`; the switches `x`, `u`
and `R`, among them a group that switches Unicode off; and the conditions for the start and the end
of a word, such as `\b{start}` and `\<`. Groups, repetitions, sets in brackets, alternatives and
rows of two parts or more each add one to the depth of what they hold.
-/

namespace TagLayers.Regex

/-- The switches in force. -/
structure Switches where
  /-- The case of letters does not count. -/
  fold : Bool := false
  /-- Start and end conditions hold at every line. -/
  multiline : Bool := false
  /-- The point takes newlines too. -/
  dotAll : Bool := false
  /-- Repetitions are lazy, and greedy with a question mark. -/
  swapGreed : Bool := false
deriving DecidableEq, Repr

namespace Switches

/-- The switches after one was set. -/
def set (s : Switches) : Switch → Switches
  | ('i', on) => { s with fold := on }
  | ('m', on) => { s with multiline := on }
  | ('s', on) => { s with dotAll := on }
  | ('U', on) => { s with swapGreed := on }
  | _ => s

/-- The characters that a point takes. -/
def point (s : Switches) : Unicode.Ranges :=
  Unicode.Ranges.complement (if s.dotAll then [] else .single '\n')

end Switches

/-- An expression as written. -/
structure Part where
  /-- The expression. -/
  regex : Regex
  /-- The depth of its notation. -/
  depth : Nat := 0

namespace Part

/-- The depth of something that holds parts, when more than one of them counts. -/
def depthOf (parts : List Part) : Nat :=
  let deepest := (parts.map depth).foldl max 0
  if parts.length < 2 then deepest else deepest + 1

/-- Parts one after the other. -/
def sequence (parts : List Part) : Part := ⟨Regex.sequence (parts.map regex), depthOf parts⟩

/-- Alternatives. -/
def choice (parts : List Part) : Part := ⟨Regex.choice (parts.map regex), depthOf parts⟩

end Part

/-- An open group. -/
structure Level where
  /-- The number under which the match of the group is remembered, if it is. -/
  number : Option Nat := none
  /-- The alternatives before the last bar, the last one first. -/
  alternatives : List Part := []
  /-- The parts of the current alternative, the last one first. -/
  parts : List Part := []
  /-- The last symbol can be repeated. -/
  repeatable : Bool := false
  /-- The switches in force. -/
  switches : Switches := {}

namespace Level

/-- The level with one more part. -/
def push (l : Level) (part : Part) : Level :=
  { l with parts := part :: l.parts, repeatable := true }

/-- The level with the current alternative closed. -/
def nextAlternative (l : Level) : Level :=
  { l with
    alternatives := .sequence l.parts.reverse :: l.alternatives
    parts := []
    repeatable := false }

/-- What stands in the whole group. -/
def content (l : Level) : Part := .choice l.nextAlternative.alternatives.reverse

/-- The group. -/
def close (l : Level) : Part :=
  let content := l.content
  ⟨(l.number.map fun n => group n content.regex).getD content.regex, content.depth + 1⟩

end Level

/-- A reader: the innermost open group, those around it, and the names given to groups. -/
structure ReaderState where
  /-- The innermost open group. -/
  level : Level := {}
  /-- The groups around it, from the innermost outwards. -/
  outer : List Level := []
  /-- The number of groups whose matches are remembered. -/
  groups : Nat := 0
  /-- The names of groups. -/
  names : List Text := []

namespace ReaderState

/-- Opens a group. -/
def enter (s : ReaderState) (number : Option Nat) (switches : Switches) : ReaderState :=
  { s with level := { number, switches }, outer := s.level :: s.outer }

/-- Opens a group whose match is remembered. Such groups are numbered from 1 on. -/
def enterRemembered (s : ReaderState) : ReaderState :=
  { s.enter (some (s.groups + 1)) s.level.switches with groups := s.groups + 1 }

/-- Adds one part. -/
def push (s : ReaderState) (part : Part) : ReaderState := { s with level := s.level.push part }

/-- Adds one symbol. -/
def add (s : ReaderState) (symbol : Symbol) : Option ReaderState :=
  let switches := s.level.switches
  match symbol with
  | .take chars depth => some (s.push ⟨ofSet chars, depth⟩)
  | .point => some (s.push ⟨ofSet switches.point, 0⟩)
  | .caret =>
      some (s.push ⟨Regex.check (if switches.multiline then .lineStart else .textStart), 0⟩)
  | .dollar => some (s.push ⟨Regex.check (if switches.multiline then .lineEnd else .textEnd), 0⟩)
  | .check condition => some (s.push ⟨Regex.check condition, 0⟩)
  | .opening .plain => some s.enterRemembered
  | .opening (.named name) =>
      if name ∈ s.names then none else some { s.enterRemembered with names := name :: s.names }
  | .opening (.switched values) => some (s.enter none (values.foldl Switches.set switches))
  | .closing =>
      match s.outer with
      | [] => none
      | around :: outer => some { s with level := around.push s.level.close, outer }
  | .switches values =>
      let level := s.level.push ⟨empty, 0⟩
      some { s with level :=
        { level with switches := values.foldl Switches.set switches, repeatable := false } }
  | .bar => some { s with level := s.level.nextAlternative }
  | .repeated least most greedy =>
      match s.level.parts with
      | part :: before =>
          if s.level.repeatable then
            let repeated := repetition least most (greedy != switches.swapGreed) part.regex
            some { s with level :=
              { s.level with parts := ⟨repeated, part.depth + 1⟩ :: before } }
          else none
      | [] => none

/-- Reads a text of at most `size` characters to its end. Every symbol takes at least one of
them. -/
def readOn : Nat → ReaderState → Text → Option ReaderState
  | _, s, [] => some s
  | 0, _, _ => none
  | size + 1, s, text => do
      let (symbol, after) ← Symbol.read s.level.switches.fold (size + 1) text
      readOn size (← s.add symbol) after

end ReaderState

/-- The greatest depth of a notation. -/
def maxDepth : Nat := 250

/-- Reads a regular expression. -/
def read? (text : Text) : Option Regex := do
  let s ← ReaderState.readOn text.length {} text
  let whole := s.level.content
  if s.outer.isEmpty && whole.depth ≤ maxDepth then return whole.regex else none

end TagLayers.Regex
