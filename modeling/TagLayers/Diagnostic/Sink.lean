import TagLayers.Diagnostic.Basic

/-!
# Sinks

A sink collects diagnostics in the order in which they are emitted. Taking them out sorts them
by their spans and empties the sink; diagnostics of the same span keep their order. The count
of errors is of all that were ever emitted.
-/

namespace TagLayers

/-- Collected diagnostics. -/
structure Sink where
  /-- What has been emitted and not taken out. -/
  held : List Diagnostic := []
  /-- The number of errors ever emitted. -/
  errors : Nat := 0
deriving DecidableEq, Repr, Inhabited

namespace Sink

/-- Adds a diagnostic. -/
def emit (sink : Sink) (d : Diagnostic) : Sink :=
  ⟨sink.held ++ [d], if d.severity.isError then sink.errors + 1 else sink.errors⟩

/-- Adds diagnostics in order. -/
def emitAll (sink : Sink) (ds : List Diagnostic) : Sink := ds.foldl emit sink

theorem emitAll_eq (sink : Sink) (ds : List Diagnostic) :
    sink.emitAll ds
      = ⟨sink.held ++ ds, sink.errors + (ds.filter (·.severity.isError)).length⟩ := by
  induction ds generalizing sink with
  | nil => simp [emitAll]
  | cons d ds ih =>
    have hstep : sink.emitAll (d :: ds) = (sink.emit d).emitAll ds := rfl
    rw [hstep, ih]
    by_cases h : d.severity.isError
    · simp [emit, h, Nat.add_assoc, Nat.add_comm]
    · simp [emit, h]

/-- Diagnostics sorted by start and end; those of the same span keep their order. -/
def sorted (ds : List Diagnostic) : List Diagnostic := ds.mergeSort fun a b => a.span.le b.span

/-- Takes everything out in sorted order. -/
def takeAll (sink : Sink) : Sink × List Diagnostic := ({ sink with held := [] }, sorted sink.held)

/-- An error has been emitted. -/
def hasErrors (sink : Sink) : Bool := 0 < sink.errors

end Sink

end TagLayers
