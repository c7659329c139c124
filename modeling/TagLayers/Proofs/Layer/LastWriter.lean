import Mathlib.Data.List.Induction
import TagLayers.Proofs.Layer.Bisection

/-!
# The last writer

A perspective is a map from offsets to tags in which the last writer wins. A history is a row of
calls, each with a range and a label, in which a call that is refused changes nothing. After any
history from a fresh perspective, an offset has the label of the last call that was not refused
and whose range holds the offset.

Results:
1. `filled_after`: every history leaves the perspective filled.
2. `tagAt?_after`: the tag of an offset after a history.
3. `history_refines_lastWriter`: all of it together, with the calls that are refused and the
   search by place, which never leaves the row.
-/

namespace TagLayers

/-- A call that asks for a range to be tagged. -/
structure TagCall where
  start : Nat
  stop : Nat
  label : Tag
deriving DecidableEq, Repr

namespace TagCall

/-- The range is neither reversed nor does it end beyond a text of this length. -/
def fits (length : Nat) (c : TagCall) : Bool := c.start ≤ c.stop && c.stop ≤ length

def holds (offset : Nat) (c : TagCall) : Bool := c.start ≤ offset && offset < c.stop

end TagCall

/-- The last call of a history that fits into the text and whose range holds an offset. -/
def lastWriter? (length offset : Nat) (calls : List TagCall) : Option TagCall :=
  (calls.filter fun c => c.fits length && c.holds offset).getLast?

theorem lastWriter?_concat (length offset : Nat) (calls : List TagCall) (c : TagCall) :
    lastWriter? length offset (calls ++ [c])
      = if c.fits length && c.holds offset then some c else lastWriter? length offset calls := by
  rw [lastWriter?, List.filter_append]
  by_cases h : (c.fits length && c.holds offset) = true
  · rw [List.filter_cons_of_pos (by exact h), List.filter_nil, List.getLast?_concat, if_pos h]
  · rw [List.filter_cons_of_neg (by exact h), List.filter_nil, List.append_nil, if_neg h]
    rfl

namespace Perspective

/-- The perspective after a call; one that is refused changes nothing. -/
def call (p : Perspective) (c : TagCall) : Perspective :=
  match p.tag c.start c.stop c.label with
  | .ok q => q
  | .error _ => p

def after (p : Perspective) (calls : List TagCall) : Perspective := calls.foldl call p

theorem after_concat (p : Perspective) (calls : List TagCall) (c : TagCall) :
    p.after (calls ++ [c]) = (p.after calls).call c := by
  rw [after, List.foldl_append]
  rfl

/-- A call that does not fit changes nothing; any other succeeds. -/
theorem call_cases (p : Perspective) (c : TagCall) :
    (c.fits p.length = false ∧ p.call c = p)
      ∨ (c.fits p.length = true ∧ p.tag c.start c.stop c.label = .ok (p.call c)) := by
  rw [call]
  cases h : p.tag c.start c.stop c.label with
  | error e =>
    refine .inl ⟨?_, rfl⟩
    obtain ⟨hout, -⟩ := tag_eq_error_iff.mp h
    simp only [TagCall.fits, Bool.and_eq_false_iff, decide_eq_false_iff_not]
    omega
  | ok q =>
    obtain ⟨hle, hlen, -⟩ := tag_eq_ok h
    exact .inr ⟨by simp [TagCall.fits, hle, hlen], rfl⟩

theorem call_kept {p : Perspective} (hp : p.Filled) (c : TagCall) :
    (p.call c).length = p.length ∧ (p.call c).Filled := by
  rcases p.call_cases c with ⟨-, hc⟩ | ⟨-, hc⟩
  · exact ⟨congrArg length hc, hc.symm ▸ hp⟩
  · exact ⟨length_tag hc, fills_tag hp hc⟩

theorem after_kept {p : Perspective} (hp : p.Filled) (calls : List TagCall) :
    (p.after calls).length = p.length ∧ (p.after calls).Filled := by
  induction calls generalizing p with
  | nil => exact ⟨rfl, hp⟩
  | cons c rest ih =>
    obtain ⟨hlen, hfill⟩ := call_kept hp c
    obtain ⟨hlen', hfill'⟩ := ih hfill
    exact ⟨hlen'.trans hlen, hfill'⟩

theorem filled_after (length : Nat) (calls : List TagCall) :
    ((fresh length).after calls).Filled :=
  (after_kept (filled_fresh length) calls).2

theorem length_after (length : Nat) (calls : List TagCall) :
    ((fresh length).after calls).length = length :=
  (after_kept (filled_fresh length) calls).1

/-- After a call an offset has the label of the call, if it fits and holds the offset, and its
old tag otherwise. -/
theorem tagAt?_call {p : Perspective} (hp : p.Filled) (c : TagCall) (offset : Nat) :
    (p.call c).tagAt? offset
      = if c.fits p.length && c.holds offset then some c.label else p.tagAt? offset := by
  rcases p.call_cases c with ⟨hfit, hc⟩ | ⟨hfit, hc⟩
  · rw [hc, hfit, Bool.false_and, if_neg Bool.false_ne_true]
  · rw [tagAt?_tag hp hc, hfit, Bool.true_and]
    simp only [TagCall.holds, Bool.and_eq_true, decide_eq_true_eq]

/-- After a history an offset of the text has the label of its last writer, or the generic tag
when there is none; an offset beyond the text has no tag. -/
theorem tagAt?_after (length offset : Nat) (calls : List TagCall) :
    ((fresh length).after calls).tagAt? offset
      = if offset < length then
          some (((lastWriter? length offset calls).map (·.label)).getD Tag.generic)
        else none := by
  induction calls using List.reverseRecOn with
  | nil => exact tagAt?_fresh length offset
  | append_singleton calls c ih =>
    rw [after_concat, tagAt?_call (filled_after length calls), length_after, ih,
      lastWriter?_concat]
    by_cases h : (c.fits length && c.holds offset) = true
    · have hin : offset < length := by
        simp only [TagCall.fits, TagCall.holds, Bool.and_eq_true, decide_eq_true_eq] at h
        omega
      rw [if_pos h, if_pos h, if_pos hin]
      rfl
    · rw [if_neg h, if_neg h]

/-- A perspective refines a map in which the last writer wins. After any history of calls from a
fresh perspective: its intervals fill the text, and the check for it succeeds; a further call,
which never looks outside the row, is refused exactly when its range is reversed or ends beyond
the text, then names range and length and changes nothing, and otherwise succeeds; and each
offset has the label of its last writer, whether it is looked up along the row or by place. -/
theorem history_refines_lastWriter (length : Nat) (calls : List TagCall) :
    let p := (fresh length).after calls
    (p.length = length ∧ Interval.Fills length 0 p.intervals ∧ p.isComplete = true) ∧
    (∀ c : TagCall,
      p.tagByPlace? c.start c.stop c.label = some (p.tag c.start c.stop c.label) ∧
      (p.tag c.start c.stop c.label = .error (.outOfRange c.start c.stop length)
        ↔ c.stop < c.start ∨ length < c.stop) ∧
      (c.stop < c.start ∨ length < c.stop → p.call c = p) ∧
      (¬(c.stop < c.start ∨ length < c.stop) → p.tag c.start c.stop c.label = .ok (p.call c))) ∧
    ∀ offset : Nat,
      p.tagAt? offset
        = (if offset < length then
            some (((lastWriter? length offset calls).map (·.label)).getD Tag.generic)
          else none) ∧
      p.tagAtPlace offset = p.tagAt? offset := by
  intro p
  have hp : p.Filled := filled_after length calls
  have hlen : p.length = length := length_after length calls
  refine ⟨⟨hlen, hlen ▸ hp, hp.isComplete⟩, fun c => ⟨tagByPlace?_eq hp _ _ _, ?_, ?_, ?_⟩,
    fun offset => ⟨tagAt?_after length offset calls, tagAtPlace_eq hp offset⟩⟩
  · rw [tag_eq_error_iff, hlen]
    exact and_iff_left rfl
  · intro hout
    rcases p.call_cases c with ⟨-, hc⟩ | ⟨hfit, -⟩
    · exact hc
    · simp only [TagCall.fits, hlen, Bool.and_eq_true, decide_eq_true_eq] at hfit
      omega
  · intro hin
    rcases p.call_cases c with ⟨hfit, -⟩ | ⟨-, hc⟩
    · simp only [TagCall.fits, hlen, Bool.and_eq_false_iff, decide_eq_false_iff_not] at hfit
      omega
    · exact hc

example : ((fresh 10).after [⟨2, 6, Tag.of 1⟩, ⟨4, 12, Tag.of 2⟩, ⟨5, 8, Tag.of 3⟩]).intervals
    = [⟨⟨0, 2⟩, Tag.generic⟩, ⟨⟨2, 5⟩, Tag.of 1⟩, ⟨⟨5, 8⟩, Tag.of 3⟩, ⟨⟨8, 10⟩, Tag.generic⟩] := by
  decide

end Perspective

end TagLayers
