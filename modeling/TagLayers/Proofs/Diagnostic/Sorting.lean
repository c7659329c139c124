import TagLayers.Diagnostic.Sink
import TagLayers.Proofs.Sorting

/-!
# Sorted diagnostics

What is taken out of a sink is sorted by spans, and diagnostics of the same span stay in the order
in which they were emitted. So the spans of what is taken out tell nothing of the order in which it
was emitted, and where the diagnostics of each span were emitted in the same order, the same is
taken out.

Results:
1. `Sink.filter_sorted`: diagnostics of one span keep their order.
2. `Sink.map_span_sorted`: the same diagnostics in another order give the same spans.
3. `Sink.sorted_eq_sorted`: when the same is taken out.
-/

namespace TagLayers

namespace Span

theorem le_iff {a b : Span} :
    a.le b = true ↔ a.start < b.start ∨ (a.start = b.start ∧ a.stop ≤ b.stop) := by
  simp [le]

theorem keyOrder : KeyOrder Span.le where
  trans hab hbc := by
    rw [le_iff] at hab hbc ⊢
    omega
  total a b := by
    rw [Bool.or_eq_true, le_iff, le_iff]
    omega
  antisymm {a b} hab hba := by
    obtain ⟨start, stop⟩ := a
    obtain ⟨start', stop'⟩ := b
    rw [le_iff] at hab hba
    simp only at hab hba
    congr 1 <;> omega

end Span

namespace Sink

variable {ds es : List Diagnostic}

theorem filter_sorted (ds : List Diagnostic) (span : Span) :
    (sorted ds).filter (·.span == span) = ds.filter (·.span == span) :=
  Span.keyOrder.filter_mergeSort Diagnostic.span ds span

theorem map_span_sorted (h : ds.Perm es) :
    (sorted ds).map (·.span) = (sorted es).map (·.span) :=
  Span.keyOrder.map_mergeSort h

/-- The same is taken out where the diagnostics of each span come in the same order. -/
theorem sorted_eq_sorted (h : ∀ span, ds.filter (·.span == span) = es.filter (·.span == span)) :
    sorted ds = sorted es := by
  refine Span.keyOrder.eq_of_filter_eq (Span.keyOrder.along_mergeSort Diagnostic.span ds)
    (Span.keyOrder.along_mergeSort Diagnostic.span es) fun span => ?_
  show (sorted ds).filter _ = (sorted es).filter _
  rw [filter_sorted, filter_sorted, h span]

/-- The first diagnostic stays the first of its span. -/
theorem eq_of_sorted_eq {d e : Diagnostic} (hspan : d.span = e.span)
    (h : sorted (d :: ds) = sorted (e :: es)) : d = e := by
  have hfirst := congrArg (List.filter (·.span == e.span)) h
  rw [filter_sorted, filter_sorted, List.filter_cons, if_pos (beq_iff_eq.mpr hspan),
    List.filter_cons, if_pos (beq_self_eq_true e.span)] at hfirst
  exact (List.cons.inj hfirst).1

end Sink

end TagLayers
