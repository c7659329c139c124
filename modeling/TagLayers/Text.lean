/-!
# Text measured in bytes

A text is a list of characters, and every offset, column and length counts the bytes of its
UTF-8 form. This module holds the length of a text, the cuts of a text at a byte offset, and
the test whether an offset lies between two characters.

Main statements:
1. `takeBytes_append_dropBytes`: a cut loses nothing.
2. `byteLen_append`: lengths add up.
3. `dropBytes_dropBytes`, `isBoundary_add`: an offset may be counted from a boundary before it.
-/

namespace TagLayers

/-- A text: its characters in reading order. -/
abbrev Text := List Char

namespace Text

/-- The number of bytes of the text in UTF-8. -/
def byteLen : Text → Nat
  | [] => 0
  | c :: rest => c.utf8Size + byteLen rest

/-- The longest start of the text that fits into `n` bytes. -/
def takeBytes : Nat → Text → Text
  | _, [] => []
  | n, c :: rest => if c.utf8Size ≤ n then c :: takeBytes (n - c.utf8Size) rest else []

/-- What follows the longest start that fits into `n` bytes. -/
def dropBytes : Nat → Text → Text
  | _, [] => []
  | n, c :: rest => if c.utf8Size ≤ n then dropBytes (n - c.utf8Size) rest else c :: rest

/-- The offset `n` lies between two characters, or at either end. -/
def isBoundary : Nat → Text → Bool
  | 0, _ => true
  | _ + 1, [] => false
  | n + 1, c :: rest => c.utf8Size ≤ n + 1 && isBoundary (n + 1 - c.utf8Size) rest

/-- The characters between two offsets. -/
def slice (start stop : Nat) (text : Text) : Text :=
  (text.dropBytes start).takeBytes (stop - start)

/-- The characters between two offsets, when both are boundaries in the right order. -/
def slice? (start stop : Nat) (text : Text) : Option Text :=
  if start ≤ stop && text.isBoundary start && text.isBoundary stop then
    some (text.slice start stop)
  else
    none

/-- The text without what is blank, by the given test, at its two ends. -/
def trimBy (blank : Char → Bool) (text : Text) : Text :=
  (((text.dropWhile blank).reverse).dropWhile blank).reverse

/-- Decimal digits of a number, without leading zeros. -/
def decimal (n : Nat) : Text := Nat.toDigits 10 n

/-- Texts joined with a separator between neighbours. -/
def joinWith (sep : Text) : List Text → Text
  | [] => []
  | [t] => t
  | t :: rest => t ++ sep ++ joinWith sep rest

/-! ## Hexadecimal numbers -/

/-- The value of a hexadecimal digit. -/
def hexValue? (c : Char) : Option Nat :=
  if c.isDigit then some (c.toNat - '0'.toNat)
  else if 'a' ≤ c && c ≤ 'f' then some (c.toNat - 'a'.toNat + 10)
  else if 'A' ≤ c && c ≤ 'F' then some (c.toNat - 'A'.toNat + 10)
  else none

/-- The number written by hexadecimal digits. -/
def hexNumber? : Text → Option Nat
  | [] => none
  | digits => digits.foldlM (fun n c => (hexValue? c).map (16 * n + ·)) 0

/-- The character with a code point, if there is one. -/
def ofCode? (n : Nat) : Option Char := if n.isValidChar then some (Char.ofNat n) else none

/-! ## Cuts and lengths -/

@[simp] theorem byteLen_append (a b : Text) : byteLen (a ++ b) = byteLen a + byteLen b := by
  induction a with
  | nil => simp [byteLen]
  | cons c rest ih => simp [byteLen, ih, Nat.add_assoc]

/-- Cutting a text at an offset loses nothing. -/
theorem takeBytes_append_dropBytes (n : Nat) (text : Text) :
    takeBytes n text ++ dropBytes n text = text := by
  induction text generalizing n with
  | nil => simp [takeBytes, dropBytes]
  | cons c rest ih =>
      by_cases h : c.utf8Size ≤ n
      · simp [takeBytes, dropBytes, h, ih]
      · simp [takeBytes, dropBytes, h]

/-- Cutting off nothing changes nothing. -/
@[simp] theorem dropBytes_zero (text : Text) : dropBytes 0 text = text := by
  cases text with
  | nil => rfl
  | cons c rest => simp [dropBytes, Nat.pos_iff_ne_zero.mp c.utf8Size_pos]

/-- Cutting twice is cutting once, where the first cut lies between characters. -/
theorem dropBytes_dropBytes {m : Nat} {text : Text} (h : isBoundary m text) (n : Nat) :
    dropBytes n (dropBytes m text) = dropBytes (m + n) text := by
  induction text generalizing m with
  | nil => cases m <;> simp [dropBytes]
  | cons c rest ih =>
      cases m with
      | zero => rw [dropBytes_zero, Nat.zero_add]
      | succ m =>
          rw [isBoundary, Bool.and_eq_true, decide_eq_true_eq] at h
          rw [dropBytes, dropBytes, if_pos h.1, if_pos (Nat.le_trans h.1 (Nat.le_add_right _ _)),
            ih h.2, Nat.sub_add_comm h.1]

/-- An offset that lies between characters, counted from one that does, lies between
characters. -/
theorem isBoundary_add {m n : Nat} {text : Text} (h : isBoundary m text)
    (hn : isBoundary n (dropBytes m text)) : isBoundary (m + n) text := by
  induction text generalizing m with
  | nil =>
      cases m with
      | zero => rwa [dropBytes_zero, ← Nat.zero_add n] at hn
      | succ m => simp [isBoundary] at h
  | cons c rest ih =>
      cases m with
      | zero => rwa [dropBytes_zero, ← Nat.zero_add n] at hn
      | succ m =>
          rw [isBoundary, Bool.and_eq_true, decide_eq_true_eq] at h
          rw [dropBytes, if_pos h.1] at hn
          have later := ih h.2 hn
          rw [← Nat.sub_add_comm h.1] at later
          rw [Nat.succ_add, isBoundary, Bool.and_eq_true, decide_eq_true_eq]
          refine ⟨by omega, ?_⟩
          rwa [Nat.succ_add] at later

end Text

end TagLayers
