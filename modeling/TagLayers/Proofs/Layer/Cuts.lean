import TagLayers.Proofs.Layer.Coverage
import TagLayers.Layer.Token

/-!
# Cuts of a text

An offset is a boundary of a text when the text can be split into two there. A perspective fits a
source when it fills the source and all of its intervals end at boundaries; then the texts of its
tokens, one after the other, are the text of the source.

Results:
1. `isBoundary_iff`: boundaries as splits.
2. `Admits.exists_split`: a span between boundaries splits the text into three.
3. `Fits.tag`, `Fits.tagSpans`: tagging between boundaries succeeds, and the perspective still fits.
4. `Fits.join_tokens`: the tokens joined.
-/

namespace TagLayers

namespace Text

theorem isBoundary_iff {n : Nat} {text : Text} :
    text.isBoundary n = true ↔ ∃ a b : Text, a ++ b = text ∧ byteLen a = n := by
  induction text generalizing n with
  | nil =>
    cases n with
    | zero => exact ⟨fun _ => ⟨[], [], rfl, rfl⟩, fun _ => rfl⟩
    | succ n =>
      constructor
      · intro h
        cases h
      · rintro ⟨a, b, hab, hn⟩
        rw [(List.append_eq_nil_iff.mp hab).1] at hn
        cases hn
  | cons c rest ih =>
    cases n with
    | zero => exact ⟨fun _ => ⟨[], c :: rest, rfl, rfl⟩, fun _ => rfl⟩
    | succ n =>
      rw [isBoundary, Bool.and_eq_true, decide_eq_true_eq, ih]
      constructor
      · rintro ⟨hc, a, b, rfl, ha⟩
        refine ⟨c :: a, b, rfl, ?_⟩
        rw [byteLen, ha]
        omega
      · rintro ⟨a, b, hab, ha⟩
        cases a with
        | nil => cases ha
        | cons d a =>
          obtain ⟨rfl, rfl⟩ := List.cons.inj hab
          rw [byteLen] at ha
          exact ⟨by omega, a, b, rfl, by omega⟩

theorem isBoundary_byteLen (a b : Text) : (a ++ b).isBoundary a.byteLen = true :=
  isBoundary_iff.mpr ⟨a, b, rfl, rfl⟩

theorem isBoundary_zero (text : Text) : text.isBoundary 0 = true := by
  cases text <;> rfl

theorem le_of_isBoundary {n : Nat} {text : Text} (h : text.isBoundary n = true) :
    n ≤ text.byteLen := by
  obtain ⟨a, b, rfl, rfl⟩ := isBoundary_iff.mp h
  rw [byteLen_append]
  exact Nat.le_add_right _ _

theorem eq_nil_of_byteLen {text : Text} (h : text.byteLen = 0) : text = [] := by
  cases text with
  | nil => rfl
  | cons c rest =>
    have hc := c.utf8Size_pos
    rw [byteLen] at h
    omega

theorem dropBytes_byteLen_append (a b : Text) : (a ++ b).dropBytes a.byteLen = b := by
  induction a with
  | nil => exact dropBytes_zero b
  | cons c a ih =>
    rw [List.cons_append, byteLen, dropBytes, if_pos (Nat.le_add_right _ _),
      Nat.add_sub_cancel_left, ih]

theorem takeBytes_byteLen_append (a b : Text) : (a ++ b).takeBytes a.byteLen = a := by
  have hcut := takeBytes_append_dropBytes a.byteLen (a ++ b)
  rw [dropBytes_byteLen_append] at hcut
  exact List.append_cancel_right hcut

theorem slice_byteLen_append (a t b : Text) :
    (a ++ (t ++ b)).slice a.byteLen (a.byteLen + t.byteLen) = t := by
  rw [slice, dropBytes_byteLen_append, Nat.add_sub_cancel_left, takeBytes_byteLen_append]

end Text

namespace Source

/-- The ends of the span are boundaries of the text, in the right order. -/
structure Admits (source : Source) (s : Span) : Prop where
  order : s.start ≤ s.stop
  start : source.text.isBoundary s.start = true
  stop : source.text.isBoundary s.stop = true

theorem Admits.stop_le {source : Source} {s : Span} (h : source.Admits s) :
    s.stop ≤ source.length :=
  Text.le_of_isBoundary h.stop

/-- Text before the span, under it, and after it. -/
theorem Admits.exists_split {source : Source} {s : Span} (h : source.Admits s) :
    ∃ a t b : Text, a ++ (t ++ b) = source.text ∧ a.byteLen = s.start ∧
      a.byteLen + t.byteLen = s.stop := by
  obtain ⟨a, rest, ha, hstart⟩ := Text.isBoundary_iff.mp h.start
  obtain ⟨a', b, hb, hstop⟩ := Text.isBoundary_iff.mp h.stop
  have hlen := h.order
  rcases List.append_eq_append_iff.mp (ha.trans hb.symm) with ⟨t, rfl, rfl⟩ | ⟨t, rfl, rfl⟩
  · refine ⟨a, t, b, ha, hstart, ?_⟩
    rw [← hstop, Text.byteLen_append]
  · -- the second split comes first only if nothing is between the two
    rw [Text.byteLen_append] at hstart
    obtain rfl : t = [] := Text.eq_nil_of_byteLen (by omega)
    refine ⟨a', [], rest, by simpa using hb, ?_, ?_⟩ <;> simp only [Text.byteLen] at hstart ⊢ <;>
      omega

theorem Admits.snippet? {source : Source} {s : Span} (h : source.Admits s) :
    source.snippet? s = some (source.text.slice s.start s.stop) := by
  simp [Source.snippet?, Text.slice?, h.order, h.start, h.stop]

end Source

/-- The offset lies within the span. -/
def Span.holds (offset : Nat) (s : Span) : Bool := s.start ≤ offset && offset < s.stop

theorem Span.contains_iff {a b : Span} :
    a.contains b = true ↔ a.start ≤ b.start ∧ b.stop ≤ a.stop := by
  rw [contains, Bool.and_eq_true, decide_eq_true_eq, decide_eq_true_eq]

theorem Span.contains_self (a : Span) : a.contains a = true :=
  contains_iff.mpr ⟨Nat.le_refl _, Nat.le_refl _⟩

namespace Interval

/-- All intervals of a row start and stop at offsets with the property. -/
def EndsIn (P : Nat → Prop) (row : List Interval) : Prop :=
  ∀ iv ∈ row, P iv.span.start ∧ P iv.span.stop

theorem endsIn_divide {P : Nat → Prop} {offset : Nat} (hP : P offset) {row : List Interval}
    (h : EndsIn P row) : EndsIn P (divide offset row).1 ∧ EndsIn P (divide offset row).2 := by
  induction row with
  | nil => exact ⟨h, h⟩
  | cons iv rest ih =>
    obtain ⟨hiv, hrest⟩ := List.forall_mem_cons.mp h
    obtain ⟨ihb, iha⟩ := ih hrest
    rw [divide]
    split
    · exact ⟨List.forall_mem_cons.mpr ⟨hiv, ihb⟩, iha⟩
    · split
      · exact ⟨List.forall_mem_singleton.mpr ⟨hiv.1, hP⟩,
          List.forall_mem_cons.mpr ⟨⟨hP, hiv.2⟩, hrest⟩⟩
      · exact ⟨List.forall_mem_nil _, h⟩

end Interval

namespace Perspective

/-- Tagging makes no new ends but those of the range. -/
theorem endsIn_tag {P : Nat → Prop} {p q : Perspective} {start stop : Nat} {label : Tag}
    (hp : Interval.EndsIn P p.intervals) (hstart : P start) (hstop : P stop)
    (h : p.tag start stop label = .ok q) : Interval.EndsIn P q.intervals := by
  obtain ⟨-, -, -, ⟨-, rfl⟩ | ⟨-, hq⟩⟩ := tag_eq_ok h
  · exact hp
  · have hbefore := (Interval.endsIn_divide hstart hp).1
    have hafter := (Interval.endsIn_divide hstop hp).2
    rw [hq]
    intro iv hiv
    rcases List.mem_append.mp hiv with hiv | hiv
    · exact hbefore iv hiv
    · exact List.forall_mem_cons.mpr ⟨⟨hstart, hstop⟩, hafter⟩ iv hiv

/-- The perspective fills the source, and cuts it at boundaries only. -/
structure Fits (source : Source) (p : Perspective) : Prop where
  length : p.length = source.length
  filled : p.Filled
  ends : Interval.EndsIn (fun n => source.text.isBoundary n = true) p.intervals

namespace Fits

variable {source : Source} {p q : Perspective}

theorem fresh (source : Source) : Fits source (Perspective.fresh source.length) where
  length := rfl
  filled := filled_fresh source.length
  ends := by
    intro iv hiv
    rw [Perspective.fresh] at hiv
    split at hiv
    · cases hiv
    · obtain rfl := List.mem_singleton.mp hiv
      refine ⟨Text.isBoundary_zero _, ?_⟩
      have hend := Text.isBoundary_byteLen source.text []
      rwa [List.append_nil] at hend

theorem admits (hp : p.Fits source) {iv : Interval} (hiv : iv ∈ p.intervals) :
    source.Admits iv.span ∧ iv.span.start < iv.span.stop := by
  have hlt : iv.span.start < iv.span.stop := (hp.filled.mem hiv).2.1
  exact ⟨⟨Nat.le_of_lt hlt, (hp.ends iv hiv).1, (hp.ends iv hiv).2⟩, hlt⟩

/-- Between boundaries every range can be tagged. -/
theorem tag (hp : p.Fits source) {s : Span} (hs : source.Admits s) (label : Tag) :
    ∃ q, p.tag s.start s.stop label = .ok q ∧ q.Fits source ∧
      ∀ offset, q.tagAt? offset = if s.holds offset then some label else p.tagAt? offset := by
  cases h : p.tag s.start s.stop label with
  | error e =>
    obtain ⟨hout, -⟩ := tag_eq_error_iff.mp h
    have horder := hs.order
    have hstop := hs.stop_le
    rw [← hp.length] at hstop
    omega
  | ok q =>
    refine ⟨q, rfl, ⟨?_, ?_, ?_⟩, fun offset => ?_⟩
    · rw [length_tag h, hp.length]
    · exact fills_tag hp.filled h
    · exact endsIn_tag hp.ends hs.start hs.stop h
    · rw [tagAt?_tag hp.filled h]
      simp [Span.holds]

/-- Spans between boundaries can be tagged one after the other. -/
theorem tagSpans (hp : p.Fits source) {spans : List Span} (hs : ∀ s ∈ spans, source.Admits s)
    (label : Tag) :
    ∃ q, spans.foldlM (fun (p : Perspective) s => p.tag s.start s.stop label) p = .ok q ∧
      q.Fits source ∧ ∀ offset,
        q.tagAt? offset = if spans.any (·.holds offset) then some label else p.tagAt? offset := by
  induction spans generalizing p with
  | nil => exact ⟨p, rfl, hp, fun _ => rfl⟩
  | cons s rest ih =>
    obtain ⟨hfirst, hrest⟩ := List.forall_mem_cons.mp hs
    obtain ⟨q, hq, hqfits, hqtag⟩ := hp.tag hfirst label
    obtain ⟨r, hr, hrfits, hrtag⟩ := ih hqfits hrest
    refine ⟨r, ?_, hrfits, fun offset => ?_⟩
    · rw [List.foldlM_cons, hq]
      exact hr
    · rw [hrtag, hqtag, List.any_cons]
      cases s.holds offset <;> simp

/-- The texts of intervals that fill a stretch of the source, and then what is left of it. -/
theorem join_fills {pos stop : Nat} {row : List Interval} (hrow : Interval.Fills stop pos row)
    (hpos : source.text.isBoundary pos = true)
    (hends : Interval.EndsIn (fun n => source.text.isBoundary n = true) row) :
    (row.map (Token.ofInterval source.text)).flatMap (·.text) ++ source.text.dropBytes stop
      = source.text.dropBytes pos := by
  induction row generalizing pos with
  | nil =>
    obtain rfl : pos = stop := hrow
    rfl
  | cons iv rest ih =>
    obtain ⟨rfl, hlt, hrest⟩ := hrow
    obtain ⟨hiv, hends⟩ := List.forall_mem_cons.mp hends
    have hcut := Text.dropBytes_dropBytes hpos (iv.span.stop - iv.span.start)
    rw [Nat.add_sub_cancel' (Nat.le_of_lt hlt)] at hcut
    rw [List.map_cons, List.flatMap_cons, List.append_assoc, ih hrest hiv.2 hends, ← hcut]
    exact Text.takeBytes_append_dropBytes _ _

/-- The texts of the tokens, one after the other, are the source. -/
theorem join_tokens (hp : p.Fits source) :
    (p.intervals.map (Token.ofInterval source.text)).flatMap (·.text) = source.text := by
  have hjoin := join_fills hp.filled (Text.isBoundary_zero source.text) hp.ends
  have hend := Text.dropBytes_byteLen_append source.text []
  rw [List.append_nil] at hend
  rwa [hp.length, Source.length, hend, List.append_nil, Text.dropBytes_zero] at hjoin

/-- The walk through the text gives each interval its token. -/
theorem cut_eq (hp : p.Fits source) :
    Token.cut 0 source.text p.intervals = p.intervals.map (Token.ofInterval source.text) := by
  have hcut := Token.cut_eq_map hp.filled.isComplete (Text.isBoundary_zero source.text)
    fun iv hiv => ⟨(hp.admits hiv).1.order, (hp.ends iv hiv).2⟩
  rwa [Text.dropBytes_zero] at hcut

/-- A token has text. -/
theorem text_ne_nil (hp : p.Fits source) {iv : Interval} (hiv : iv ∈ p.intervals) :
    (Token.ofInterval source.text iv).text ≠ [] := by
  obtain ⟨hadmits, hlt⟩ := hp.admits hiv
  obtain ⟨a, t, b, htext, hstart, hstop⟩ := hadmits.exists_split
  have hslice := Text.slice_byteLen_append a t b
  rw [htext, hstop, hstart] at hslice
  rw [Token.ofInterval, hslice]
  rintro rfl
  rw [Text.byteLen] at hstop
  omega

end Fits

end Perspective

end TagLayers
