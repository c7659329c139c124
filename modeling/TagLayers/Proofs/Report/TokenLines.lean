import TagLayers.Proofs.Tag.Display
import TagLayers.Report.TokenRecord

/-!
# Lines of a token listing

A token is listed on one line, whatever its text is. In the quoted text a backslash begins an
escape, and what follows says which: a letter of its own for some characters, and a number between
braces for the others that are not shown. So each character reads back from the start of what is
left, and the fields of a line from its two tabs.

Results:
1. `readChar?_quotedChar`, `quoted_inj`: quoted texts read back.
2. `notMem_quoted`: a quoted text stays on its line and within its field.
3. `TokenRecord.line_unambiguous`: the line of a token.
-/

namespace TagLayers

open Text (PrefixFree)

namespace Location

theorem notMem_display {c : Char} (l : Location) (hdigit : c.isDigit = false) (hcolon : c ≠ ':') :
    c ∉ l.display :=
  List.not_mem_append (Text.notMem_decimal l.line hdigit)
    (List.not_mem_cons_of_ne_of_not_mem hcolon (Text.notMem_decimal l.column hdigit))

theorem display_inj {l l' : Location} : l.display = l'.display ↔ l = l' := by
  obtain ⟨line, column⟩ := l
  obtain ⟨line', column'⟩ := l'
  rw [display, display, Text.append_cons_inj (Text.notMem_decimal line rfl)
    (Text.notMem_decimal line' rfl), Text.decimal_inj, Text.decimal_inj, Location.mk.injEq]

end Location

namespace Report

/-- The characters with an escape letter, and the letters. -/
def escapes : List (Char × Char) :=
  [('\x00', '0'), ('\t', 't'), ('\r', 'r'), ('\n', 'n'), ('"', '"'), ('\\', '\\')]

/-- Reads the first character of a quoted text, and what follows it. -/
def readChar? : Text → Option (Char × Text)
  | [] => none
  | '\\' :: 'u' :: _ :: rest =>
      let digits := rest.takeWhile (· != '\x7d')
      ((Text.hexNumber? digits).bind Text.ofCode?).map (·, rest.drop (digits.length + 1))
  | '\\' :: letter :: rest => (escapes.find? (·.2 == letter)).map fun escape => (escape.1, rest)
  | c :: rest => some (c, rest)

theorem mem_escapes {c letter : Char} (h : escapeLetter? c = some letter) :
    (c, letter) ∈ escapes := by
  unfold escapeLetter? at h
  split at h <;> cases h <;> decide

/-- The ways in which a character is quoted. -/
theorem quotedChar_cases (c : Char) :
    (∃ letter, (c, letter) ∈ escapes ∧ quotedChar c = ['\\', letter]) ∨
      escapeLetter? c = none ∧ quotedChar c = [c] ∨
      quotedChar c = '\\' :: 'u' :: '\x7b' :: hexadecimal c.toNat ++ ['\x7d'] := by
  rw [quotedChar]
  cases h : escapeLetter? c with
  | some letter => exact .inl ⟨letter, mem_escapes h, rfl⟩
  | none =>
    dsimp only
    split
    · exact .inr (.inl ⟨rfl, rfl⟩)
    · exact .inr (.inr rfl)

theorem readChar?_escape {c letter : Char} (h : (c, letter) ∈ escapes) (rest : Text) :
    readChar? ('\\' :: letter :: rest) = some (c, rest) := by
  simp only [escapes, List.mem_cons, Prod.mk.injEq, List.not_mem_nil, or_false] at h
  rcases h with ⟨rfl, rfl⟩ | ⟨rfl, rfl⟩ | ⟨rfl, rfl⟩ | ⟨rfl, rfl⟩ | ⟨rfl, rfl⟩ | ⟨rfl, rfl⟩ <;> rfl

theorem readChar?_plain {c : Char} (h : escapeLetter? c = none) (rest : Text) :
    readChar? (c :: rest) = some (c, rest) := by
  have hne : c ≠ '\\' := by
    rintro rfl
    cases h
  simp [readChar?, hne]

theorem readChar?_number (c : Char) (rest : Text) :
    readChar? ('\\' :: 'u' :: '\x7b' :: (hexadecimal c.toNat ++ '\x7d' :: rest))
      = some (c, rest) := by
  have hbrace : '\x7d' ∉ hexadecimal c.toNat := Text.notMem_hexDigits c.toNat rfl
  have hdigits : (hexadecimal c.toNat ++ '\x7d' :: rest).takeWhile (· != '\x7d')
      = hexadecimal c.toNat := by
    rw [List.takeWhile_append_of_pos fun d hd => bne_iff_ne.mpr (ne_of_mem_of_not_mem hd hbrace),
      List.takeWhile_cons_of_neg (by decide), List.append_nil]
  have hrest : (hexadecimal c.toNat ++ '\x7d' :: rest).drop ((hexadecimal c.toNat).length + 1)
      = rest := List.drop_length_add_append ..
  have hvalid : c.toNat.isValidChar := c.valid
  have hcode : Text.ofCode? c.toNat = some c := by
    rw [Text.ofCode?, if_pos hvalid, Char.ofNat_toNat]
  rw [readChar?, hdigits, hrest, hexadecimal, Text.hexNumber?_toDigits, Option.bind_some, hcode,
    Option.map_some]

theorem readChar?_quotedChar (c : Char) (rest : Text) :
    readChar? (quotedChar c ++ rest) = some (c, rest) := by
  obtain ⟨letter, hmem, h⟩ | ⟨hplain, h⟩ | h := quotedChar_cases c
  · rw [h]
    exact readChar?_escape hmem rest
  · rw [h]
    exact readChar?_plain hplain rest
  · rw [h, List.append_assoc]
    exact readChar?_number c rest

theorem quotedChar_prefixFree : PrefixFree quotedChar := fun c d s t h => by
  have hread := congrArg readChar? h
  rw [readChar?_quotedChar, readChar?_quotedChar] at hread
  exact Prod.mk.inj (Option.some.inj hread)

theorem quotedChar_ne_nil (c : Char) : quotedChar c ≠ [] := by
  obtain ⟨letter, -, h⟩ | ⟨-, h⟩ | h := quotedChar_cases c <;> rw [h] <;> exact List.cons_ne_nil _ _

theorem quoted_inj {a b : Text} : quoted a = quoted b ↔ a = b := by
  rw [quoted, quoted, List.append_cancel_right_eq, List.cons.injEq, and_iff_right rfl]
  exact quotedChar_prefixFree.flatMap_inj quotedChar_ne_nil

/-! ## What ends a line or a field -/

/-- The ends of lines, and what divides the fields of a line. -/
def breaks : Text := ['\n', '\r', '\t']

theorem mem_breaks {c : Char} : c ∈ breaks ↔ c = '\n' ∨ c = '\r' ∨ c = '\t' := by
  simp [breaks]

theorem notMem_place {c : Char} (hc : c ∈ breaks) (l : Location) : c ∉ l.display := by
  obtain rfl | rfl | rfl := mem_breaks.mp hc <;> exact l.notMem_display rfl (by decide)

theorem notMem_tag {c : Char} (hc : c ∈ breaks) (t : Tag) : c ∉ t.display := by
  obtain rfl | rfl | rfl := mem_breaks.mp hc <;>
    exact t.notMem_display rfl (by decide) (by decide)

theorem notMem_quotedChar {c : Char} (hc : c ∈ breaks) (d : Char) : c ∉ quotedChar d := by
  obtain ⟨letter, hmem, h⟩ | ⟨hplain, h⟩ | h := quotedChar_cases d
  · have hletters : ∀ escape ∈ escapes, ∀ c ∈ breaks, c ∉ ['\\', escape.2] := by
      simp [escapes, breaks]
    rw [h]
    exact hletters _ hmem c hc
  · rw [h, List.mem_singleton]
    rintro rfl
    obtain rfl | rfl | rfl := mem_breaks.mp hc <;> cases hplain
  · obtain ⟨hopen, hclose, hdigit⟩ :
        c ∉ ['\\', 'u', '\x7b'] ∧ c ∉ ['\x7d'] ∧ Text.hexValue? c = none := by
      obtain rfl | rfl | rfl := mem_breaks.mp hc <;> decide
    rw [h]
    exact List.not_mem_append
      (List.not_mem_append hopen (Text.notMem_hexDigits d.toNat hdigit)) hclose

/-- A quoted text stays on its line and within its field. -/
theorem notMem_quoted {c : Char} (hc : c ∈ breaks) (text : Text) : c ∉ quoted text := by
  have hquote : c ∉ ['"'] := by
    obtain rfl | rfl | rfl := mem_breaks.mp hc <;> decide
  have hinside : c ∉ text.flatMap quotedChar := fun hmem => by
    obtain ⟨d, -, hd⟩ := List.mem_flatMap.mp hmem
    exact notMem_quotedChar hc d hd
  exact List.not_mem_append (List.not_mem_append hquote hinside) hquote

namespace TokenRecord

theorem line_eq (r : TokenRecord) :
    r.line = r.location.display ++ '\t' :: (r.tag ++ '\t' :: quoted r.text) :=
  List.append_assoc ..

/-- A record has one line, with one tab before the tag and one behind it. Two records have the same
line only if they agree in all that is listed: the place, the displayed tag and the text. -/
theorem line_unambiguous (l l' : Location) (s s' : Span) (t t' : Tag) (x x' : Text) :
    let r : TokenRecord := ⟨l, s, t.display, x⟩
    let r' : TokenRecord := ⟨l', s', t'.display, x'⟩
    '\n' ∉ r.line ∧ '\r' ∉ r.line ∧ r.line.count '\t' = 2 ∧
      (r.line = r'.line ↔ r.location = r'.location ∧ r.tag = r'.tag ∧ r.text = r'.text) := by
  intro r r'
  have htab : '\t' ∈ breaks := by decide
  have hbreak {c : Char} (hc : c ∈ breaks) (hne : c ≠ '\t') : c ∉ r.line := by
    rw [line_eq]
    exact List.not_mem_append (notMem_place hc l) (List.not_mem_cons_of_ne_of_not_mem hne
      (List.not_mem_append (notMem_tag hc t)
        (List.not_mem_cons_of_ne_of_not_mem hne (notMem_quoted hc x))))
  refine ⟨hbreak (by decide) (by decide), hbreak (by decide) (by decide), ?_, ?_⟩
  · rw [line_eq, List.count_append, List.count_cons_self, List.count_append, List.count_cons_self,
      List.count_eq_zero.mpr (notMem_place htab l), List.count_eq_zero.mpr (notMem_tag htab t),
      List.count_eq_zero.mpr (notMem_quoted htab x)]
  · rw [line_eq, line_eq, Text.append_cons_inj (notMem_place htab l) (notMem_place htab l'),
      Text.append_cons_inj (notMem_tag htab t) (notMem_tag htab t'), Location.display_inj,
      quoted_inj]

end TokenRecord

end Report

end TagLayers
