import Mathlib.Data.List.DropRight
import TagLayers.Proofs.Source.Lines
import TagLayers.Regex.Size

/-!
# Locations

Read byte by byte, a location counts the newlines before the offset and the bytes since the last of
them. So it grows with the offset, no two offsets of a text have the same one, and the offset can be
told from the start of its line and the column. An offset within a character has a location, too.

Results:
1. `newlineByte_notMem`, `count_bytesOf`: newlines among the bytes of a text.
2. `location_eq_bytes`: locations byte by byte.
3. `location_before_iff`: their order.
4. `exists_dropReturns`: what is left of a line without the carriage returns at its end.
5. `locations_resolve_offsets`: all of it together.
-/

namespace TagLayers

/-! ## Newlines among bytes -/

/-- The byte that stands for a newline. -/
def newlineByte : UInt8 := 10

/-- The number of bytes after the last newline. -/
def bytesSinceNewline (bytes : List UInt8) : Nat :=
  (bytes.reverse.takeWhile (· != newlineByte)).length

namespace Regex

theorem bytesOf_cons (c : Char) (rest : Text) :
    bytesOf (c :: rest) = String.utf8EncodeChar c ++ bytesOf rest :=
  List.flatMap_cons

theorem bytesOf_append (a b : Text) : bytesOf (a ++ b) = bytesOf a ++ bytesOf b :=
  List.flatMap_append

theorem length_bytesOf (text : Text) : (bytesOf text).length = text.byteLen := by
  induction text with
  | nil => rfl
  | cons c rest ih =>
    rw [bytesOf_cons, List.length_append, String.length_utf8EncodeChar, ih, Text.byteLen]

theorem ofNat_ne_newlineByte {n : Nat} (h : n % 256 ≠ 10) : newlineByte ≠ UInt8.ofNat n := by
  intro heq
  have hnat := congrArg UInt8.toNat heq
  rw [UInt8.toNat_ofNat'] at hnat
  exact h hnat.symm

/-- The bytes of a character of more than one byte are not those of ASCII. -/
theorem newlineByte_notMem {c : Char} (h : c ≠ '\n') : newlineByte ∉ String.utf8EncodeChar c := by
  have hval : c.val.toNat ≠ 10 := fun hc => h (Char.ext (UInt32.toNat_inj.mp hc))
  unfold String.utf8EncodeChar
  dsimp only
  split
  · exact fun hmem => ofNat_ne_newlineByte (by omega) (List.mem_singleton.mp hmem)
  · split
    · simp only [List.mem_cons, List.not_mem_nil, or_false, not_or]
      exact ⟨ofNat_ne_newlineByte (by omega), ofNat_ne_newlineByte (by omega)⟩
    · split
      · simp only [List.mem_cons, List.not_mem_nil, or_false, not_or]
        exact ⟨ofNat_ne_newlineByte (by omega), ofNat_ne_newlineByte (by omega),
          ofNat_ne_newlineByte (by omega)⟩
      · simp only [List.mem_cons, List.not_mem_nil, or_false, not_or]
        exact ⟨ofNat_ne_newlineByte (by omega), ofNat_ne_newlineByte (by omega),
          ofNat_ne_newlineByte (by omega), ofNat_ne_newlineByte (by omega)⟩

theorem newlineByte_notMem_bytesOf {text : Text} (h : '\n' ∉ text) :
    newlineByte ∉ bytesOf text := by
  intro hmem
  obtain ⟨c, hc, hbyte⟩ := List.mem_flatMap.mp hmem
  exact newlineByte_notMem (fun heq => h (heq ▸ hc)) hbyte

theorem count_bytesOf (text : Text) : (bytesOf text).count newlineByte = text.count '\n' := by
  induction text with
  | nil => rfl
  | cons c rest ih =>
    rw [bytesOf_cons, List.count_append, ih]
    by_cases hc : c = '\n'
    · subst hc
      rw [List.count_cons_self, Nat.add_comm]
      rfl
    · rw [List.count_eq_zero.mpr (newlineByte_notMem hc), List.count_cons_of_ne hc, Nat.zero_add]

end Regex

theorem bytesSinceNewline_append {more : List UInt8} (h : newlineByte ∉ more)
    (bytes : List UInt8) :
    bytesSinceNewline (bytes ++ more) = bytesSinceNewline bytes + more.length := by
  have hall : ∀ b ∈ more.reverse, (b != newlineByte) = true := by
    intro b hb
    refine bne_iff_ne.mpr fun heq => h ?_
    rw [← heq]
    exact List.mem_reverse.mp hb
  unfold bytesSinceNewline
  rw [List.reverse_append, List.takeWhile_append_of_pos hall, List.length_append,
    List.length_reverse, Nat.add_comm]

theorem Location.before_iff {a b : Location} :
    a.before b = true ↔ a.line < b.line ∨ (a.line = b.line ∧ a.column < b.column) := by
  simp [before]

/-! ## Locations byte by byte -/

namespace Source

variable {s : Source} {o offset : Nat} {before line after : Text}

/-- The bytes of the text. -/
def bytes (s : Source) : List UInt8 := Regex.bytesOf s.text

/-- The bytes before an offset are those before its line, and some of the line. -/
theorem LineAround.take_bytes (h : s.LineAround o before line after) :
    ∃ part, s.bytes.take o = Regex.bytesOf before ++ part ∧ newlineByte ∉ part ∧
      part.length = o - before.byteLen := by
  have hlen := Regex.length_bytesOf before
  have hline := Regex.length_bytesOf line
  have hstart := h.start_le
  have hstop := h.le_stop
  refine ⟨(Regex.bytesOf line).take (o - before.byteLen), ?_, ?_, ?_⟩
  · rw [bytes, ← h.text, Regex.bytesOf_append, Regex.bytesOf_append, List.take_append, hlen,
      List.take_of_length_le (by omega), List.take_append_of_le_length (by omega)]
  · intro hmem
    exact Regex.newlineByte_notMem_bytesOf h.plain (List.mem_of_mem_take hmem)
  · rw [List.length_take]
    omega

theorem LineAround.bytesSinceNewline_eq (h : s.LineAround o before line after) :
    bytesSinceNewline (Regex.bytesOf before) = 0 := by
  rcases List.eq_nil_or_concat' before with rfl | ⟨front, c, rfl⟩
  · rfl
  · obtain rfl : c = '\n' := h.opens c (by simp)
    have hend : Regex.bytesOf ['\n'] = [newlineByte] := rfl
    unfold bytesSinceNewline
    rw [Regex.bytesOf_append, hend, List.reverse_concat,
      List.takeWhile_cons_of_neg (by simp)]
    rfl

/-- A location counts the newlines before the offset, and the bytes since the last of them. -/
theorem location_eq_bytes (s : Source) (offset : Nat) :
    s.location offset
      = ⟨1 + (s.bytes.take (min offset s.length)).count newlineByte,
          1 + bytesSinceNewline (s.bytes.take (min offset s.length))⟩ := by
  obtain ⟨before, line, after, h⟩ := s.exists_lineAround (Nat.min_le_right offset s.length)
  obtain ⟨part, hpart, hplain, hlen⟩ := h.take_bytes
  rw [h.location_eq, hpart, List.count_append, Regex.count_bytesOf, List.count_eq_zero.mpr hplain,
    bytesSinceNewline_append hplain, h.bytesSinceNewline_eq, hlen, Nat.zero_add, Nat.add_zero]

theorem bytes_length (s : Source) : s.bytes.length = s.length := Regex.length_bytesOf s.text

theorem location_before_of_lt {a b : Nat} (h : min a s.length < min b s.length) :
    (s.location a).before (s.location b) = true := by
  have hmin : min b s.length = min a s.length + (min b s.length - min a s.length) := by omega
  rw [location_eq_bytes, location_eq_bytes, Location.before_iff, hmin, List.take_add,
    List.count_append]
  generalize hmore : (s.bytes.drop (min a s.length)).take (min b s.length - min a s.length) = more
  have hlen : 0 < more.length := by
    rw [← hmore, List.length_take, List.length_drop, bytes_length]
    omega
  -- a newline between the two offsets starts a later line, and without one the column grows
  by_cases hnewline : newlineByte ∈ more
  · have hcount := List.count_pos_iff.mpr hnewline
    exact .inl (by dsimp only; omega)
  · rw [List.count_eq_zero.mpr hnewline, bytesSinceNewline_append hnewline]
    exact .inr ⟨rfl, by dsimp only; omega⟩

/-- Locations are in the order of their offsets. -/
theorem location_before_iff (s : Source) (a b : Nat) :
    (s.location a).before (s.location b) = true ↔ min a s.length < min b s.length := by
  refine ⟨fun h => ?_, location_before_of_lt⟩
  by_contra hnot
  rcases Nat.eq_or_lt_of_le (Nat.le_of_not_lt hnot) with heq | hlt
  · rw [location_eq_bytes, location_eq_bytes, heq, Location.before_iff] at h
    omega
  · have hback := location_before_of_lt hlt
    rw [Location.before_iff] at h hback
    omega

/-- A line is what is left of it, and then carriage returns. -/
theorem exists_dropReturns (line : Text) :
    ∃ n, line = dropReturns line ++ List.replicate n '\r' ∧
      (dropReturns line).getLast? ≠ some '\r' := by
  have hsplit : dropReturns line ++ line.rtakeWhile (· == '\r') = line :=
    List.rdropWhile_append_rtakeWhile
  have hreturns : line.rtakeWhile (· == '\r')
      = List.replicate (line.rtakeWhile (· == '\r')).length '\r' := by
    refine List.eq_replicate_of_mem fun c hc => ?_
    have hreturn := List.mem_rtakeWhile_imp hc
    exact beq_iff_eq.mp hreturn
  refine ⟨_, by rw [← hreturns, hsplit], fun hlast => ?_⟩
  have hne : line.rdropWhile (· == '\r') ≠ [] := by
    intro hnil
    rw [show dropReturns line = [] from hnil] at hlast
    cases hlast
  refine List.rdropWhile_last_not (· == '\r') line hne ?_
  rw [show dropReturns line = line.rdropWhile (· == '\r') from rfl,
    List.getLast?_eq_some_getLast hne] at hlast
  rw [Option.some.inj hlast]
  rfl

/-- Offsets and locations correspond. Of an offset, or of the length of the text if the offset is
beyond it, the line is one more than the number of newlines before it, and the column is one more
than the number of bytes between the start of its line and the offset; so the start of the line and
the column tell the offset. The line lies between the newlines around the offset, and what is shown
of it is all but the carriage returns at its end. The search by place never fails and finds the same
location and the same line. Locations are in the order of the offsets. -/
theorem locations_resolve_offsets (s : Source) (offset : Nat) :
    let o := min offset s.length
    (s.location offset = ⟨1 + (s.bytes.take o).count newlineByte,
      1 + bytesSinceNewline (s.bytes.take o)⟩) ∧
    s.lineStart offset + (s.location offset).column - 1 = o ∧
    (∃ before line after, s.LineAround o before line after ∧
      s.lineStart offset = before.byteLen ∧
      s.location offset = ⟨1 + before.count '\n', 1 + (o - before.byteLen)⟩ ∧
      ∃ n, line = s.lineContaining offset ++ List.replicate n '\r' ∧
        (s.lineContaining offset).getLast? ≠ some '\r') ∧
    s.lines.locationByPlace? offset = some (s.location offset) ∧
    s.lineByPlace? offset = some (s.lineContaining offset) ∧
    ∀ other, (s.location offset).before (s.location other) = true ↔ o < min other s.length := by
  intro o
  obtain ⟨before, line, after, h⟩ := s.exists_lineAround (Nat.min_le_right offset s.length)
  refine ⟨s.location_eq_bytes offset, ?_,
    ⟨before, line, after, h, h.lineStart_eq, h.location_eq, ?_⟩,
    h.locationByPlace?_eq, h.lineByPlace?_eq, s.location_before_iff offset⟩
  · have hstart : before.byteLen ≤ o := h.start_le
    rw [h.lineStart_eq, h.location_eq]
    dsimp only
    omega
  · rw [h.lineContaining_eq]
    exact exists_dropReturns line

example : lineContaining ⟨"a.v", "é\r\r\nb".toList⟩ 1 = ['é'] := by decide

end Source

end TagLayers
