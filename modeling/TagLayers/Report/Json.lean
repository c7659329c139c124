import TagLayers.Diagnostic.Basic
import TagLayers.Report.MatchRecord
import TagLayers.Report.TokenRecord

/-!
# Reports as JSON

A document of numbers, strings, lists and records, written over several lines: each member
stands on a line of its own, two blanks further in than what holds it. Records keep the order
of their fields. A list without members is written as two brackets.
-/

namespace TagLayers.Report

/-- A document. -/
inductive Json where
  | number (value : Nat)
  | string (text : Text)
  | list (items : List Json)
  /-- A record with its fields in order. -/
  | record (fields : List (String × Json))

namespace Json

/-- A character of a string; controls, quotes and backslashes are escaped. -/
def escapedChar (c : Char) : Text :=
  match c with
  | '"' => ['\\', '"']
  | '\\' => ['\\', '\\']
  | '\x08' => ['\\', 'b']
  | '\x0c' => ['\\', 'f']
  | '\n' => ['\\', 'n']
  | '\r' => ['\\', 'r']
  | '\t' => ['\\', 't']
  | c =>
      if c.toNat < 0x20 then
        let digits := hexadecimal c.toNat
        '\\' :: 'u' :: (List.replicate (4 - digits.length) '0' ++ digits)
      else [c]

/-- A string between quotes. -/
def stringText (text : Text) : Text := '"' :: text.flatMap escapedChar ++ ['"']

/-- The start of a line at a depth. -/
def newLine (depth : Nat) : Text := '\n' :: List.replicate (2 * depth) ' '

/-- Members between brackets, each on a line of its own; without members only the brackets. -/
def bracketed (depth : Nat) (opener closer : Char) (members : List Text) : Text :=
  match members with
  | [] => [opener, closer]
  | members =>
      opener :: Text.joinWith [','] (members.map (newLine (depth + 1) ++ ·))
        ++ newLine depth ++ [closer]

mutual

/-- A document at a depth. -/
def render (depth : Nat) : Json → Text
  | number n => Text.decimal n
  | string text => stringText text
  | list items => bracketed depth '[' ']' (renderItems (depth + 1) items)
  | record fields => bracketed depth '\x7b' '\x7d' (renderFields (depth + 1) fields)

/-- The items of a list. -/
def renderItems (depth : Nat) : List Json → List Text
  | [] => []
  | item :: rest => render depth item :: renderItems depth rest

/-- The fields of a record. -/
def renderFields (depth : Nat) : List (String × Json) → List Text
  | [] => []
  | (name, value) :: rest =>
      (stringText name.toList ++ ": ".toList ++ render depth value) :: renderFields depth rest

end

end Json

/-- A span as a record. -/
def spanJson (s : Span) : Json := .record [("start", .number s.start), ("end", .number s.stop)]

/-- A token of a listing as a record. -/
def TokenRecord.json (r : TokenRecord) : Json :=
  .record
    [("line", .number r.location.line), ("column", .number r.location.column),
     ("start", .number r.span.start), ("end", .number r.span.stop), ("tag", .string r.tag),
     ("text", .string r.text)]

/-- A match of a listing as a record. -/
def MatchRecord.json (r : MatchRecord) : Json :=
  .record
    [("layer", .string r.layer.toList), ("name", .string r.name.toList), ("tag", .string r.tag),
     ("line", .number r.location.line), ("column", .number r.location.column),
     ("start", .number r.span.start), ("end", .number r.span.stop), ("text", .string r.text)]

/-- A diagnostic as a record. -/
def diagnosticJson (d : Diagnostic) : Json :=
  .record
    [("severity", .string d.severity.label.toList),
     ("code",
       .record
         [("category", .string d.code.category.label.toList), ("number", .number d.code.number)]),
     ("message", .string d.message.toList), ("span", spanJson d.span),
     ("notes", .list (d.notes.map fun n => .string n.toList)),
     ("help", .list (d.help.map fun h => .string h.toList))]

/-- The report on a parsed file. -/
def parseJson (file : String) (records : List MatchRecord) (diagnostics : List Diagnostic) :
    Json :=
  .record
    [("file", .string file.toList), ("matches", .list (records.map MatchRecord.json)),
     ("diagnostics", .list (diagnostics.map diagnosticJson))]

end TagLayers.Report
