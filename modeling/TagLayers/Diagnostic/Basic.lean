import TagLayers.Source.Span
import TagLayers.Text

/-!
# Diagnostics

A diagnostic is a message about a span of a text, with a code and a severity, and possibly
with notes and suggestions.
-/

namespace TagLayers

/-- How serious a diagnostic is. -/
inductive Severity where
  /-- Context for another report. -/
  | note
  /-- A problem that did not stop the scan. -/
  | warning
  /-- A problem that kept a result from being produced. -/
  | error
deriving DecidableEq, Repr, Inhabited

namespace Severity

/-- The name in headers and reports. -/
def label : Severity → String
  | note => "note"
  | warning => "warning"
  | error => "error"

/-- The severity is that of an error. -/
def isError (s : Severity) : Bool := s == error

end Severity

/-- The category of a code. -/
inductive CodeCategory where
  /-- Codes of errors. -/
  | error
  /-- Codes of warnings. -/
  | warning
deriving DecidableEq, Repr, Inhabited

namespace CodeCategory

/-- The letter in front of the number. -/
def letter : CodeCategory → Char
  | error => 'E'
  | warning => 'W'

/-- The name in reports. -/
def label : CodeCategory → String
  | error => "Error"
  | warning => "Warning"

/-- The severity that goes with the category. -/
def severity : CodeCategory → Severity
  | error => .error
  | warning => .warning

end CodeCategory

/-- The code of a diagnostic. -/
structure DiagnosticCode where
  category : CodeCategory
  /-- The number within the category. -/
  number : Nat
deriving DecidableEq, Repr, Inhabited

namespace DiagnosticCode

/-- A token tripped a guard. -/
def syntaxMismatch : DiagnosticCode := ⟨.warning, 101⟩

/-- The text ended while a region was open. -/
def unterminatedGroup : DiagnosticCode := ⟨.warning, 102⟩

/-- A file could not be read. -/
def unreadableInput : DiagnosticCode := ⟨.error, 101⟩

/-- The code as text: the letter and at least three digits. -/
def display (c : DiagnosticCode) : Text :=
  let digits := Text.decimal c.number
  c.category.letter :: (List.replicate (3 - digits.length) '0' ++ digits)

example : display ⟨.warning, 7⟩ = "W007".toList := by decide

example : display ⟨.error, 1000⟩ = "E1000".toList := by decide

end DiagnosticCode

/-- A message about a span of a text. -/
structure Diagnostic where
  /-- How serious it is. -/
  severity : Severity
  code : DiagnosticCode
  message : String
  span : Span
  /-- Explanations. -/
  notes : List String := []
  /-- Suggestions. -/
  help : List String := []
deriving DecidableEq, Repr, Inhabited

namespace Diagnostic

/-- A diagnostic whose severity follows from its code. -/
def ofCode (code : DiagnosticCode) (message : String) (span : Span) : Diagnostic :=
  ⟨code.category.severity, code, message, span, [], []⟩

/-- Adds an explanation. -/
def withNote (d : Diagnostic) (note : String) : Diagnostic := { d with notes := d.notes ++ [note] }

end Diagnostic

end TagLayers
