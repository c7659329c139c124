import Mathlib.Data.List.Basic
import TagLayers.Text

/-!
# Fields

Texts that are written one after the other can be told apart again when a character stands between
them that none of them has, or when what is written for one value never begins what is written for
another.

Results:
1. `append_cons_inj`: a field and what follows its end.
2. `joinWith_inj`: fields between separators.
3. `PrefixFree.flatMap_inj`: fields with nothing between them.
4. `decimal_inj`, `hexNumber?_toDigits`: numbers.
-/

namespace TagLayers.Text

variable {c : Char}

/-! ## Fields between separators -/

/-- A field ends where a character stands for the first time that it does not have. -/
theorem append_cons_inj {a b s t : Text} (ha : c ∉ a) (hb : c ∉ b) :
    a ++ c :: s = b ++ c :: t ↔ a = b ∧ s = t := by
  constructor
  · intro h
    have hlength : a.length = b.length := by
      have hplace := congrArg (List.idxOf c) h
      rwa [List.idxOf_append_of_notMem ha, List.idxOf_append_of_notMem hb, List.idxOf_cons_self,
        List.idxOf_cons_self] at hplace
    obtain ⟨hfield, hrest⟩ := List.append_inj h hlength
    exact ⟨hfield, (List.cons.inj hrest).2⟩
  · rintro ⟨rfl, rfl⟩
    rfl

variable {sep : Text}

theorem joinWith_append_cons (start field : Text) (rest : List Text) :
    joinWith sep ((start ++ field) :: rest) = start ++ joinWith sep (field :: rest) := by
  cases rest with
  | nil => rfl
  | cons next rest => simp only [joinWith, List.append_assoc]

theorem notMem_joinWith {fields : List Text} (hsep : c ∉ sep) (h : ∀ f ∈ fields, c ∉ f) :
    c ∉ joinWith sep fields := by
  induction fields with
  | nil => exact List.not_mem_nil
  | cons field rest ih =>
    obtain ⟨hfield, hrest⟩ := List.forall_mem_cons.mp h
    cases rest with
    | nil => exact hfield
    | cons next rest =>
      exact List.not_mem_append (List.not_mem_append hfield hsep) (ih hrest)

/-- A cut at each separator gives the fields back; all but the first keep what the separator has
behind the character that is looked for. -/
theorem splitOn_joinWith (hsep : c ∉ sep) {field : Text} {rest : List Text}
    (h : ∀ f ∈ field :: rest, c ∉ f) :
    (joinWith (c :: sep) (field :: rest)).splitOn c = field :: rest.map (sep ++ ·) := by
  induction rest generalizing field with
  | nil => exact List.splitOn_eq_singleton (h field List.mem_cons_self)
  | cons next rest ih =>
    obtain ⟨hfield, hnext, hrest⟩ : c ∉ field ∧ c ∉ next ∧ ∀ f ∈ rest, c ∉ f := by
      simpa only [List.forall_mem_cons] using h
    have hlater : ∀ f ∈ (sep ++ next) :: rest, c ∉ f :=
      List.forall_mem_cons.mpr ⟨List.not_mem_append hsep hnext, hrest⟩
    have hjoin : joinWith (c :: sep) (field :: next :: rest)
        = field ++ c :: joinWith (c :: sep) ((sep ++ next) :: rest) := by
      rw [joinWith_append_cons]
      exact List.append_assoc ..
    rw [hjoin, List.splitOn_append_cons_self_of_not_mem hfield, ih hlater, List.map_cons]

/-- Fields that are joined can be told apart, if none of them is empty or has the character that the
separator begins with. -/
theorem joinWith_inj {fields fields' : List Text} (hsep : c ∉ sep)
    (h : ∀ f ∈ fields, f ≠ [] ∧ c ∉ f) (h' : ∀ f ∈ fields', f ≠ [] ∧ c ∉ f) :
    joinWith (c :: sep) fields = joinWith (c :: sep) fields' ↔ fields = fields' := by
  have hempty {field : Text} {rest : List Text} (hne : field ≠ []) :
      joinWith (c :: sep) (field :: rest) ≠ [] := by
    cases rest <;> simp [joinWith, hne]
  refine ⟨fun heq => ?_, fun heq => heq ▸ rfl⟩
  cases fields with
  | nil =>
    cases fields' with
    | nil => rfl
    | cons field' rest' => exact absurd heq.symm (hempty (h' field' List.mem_cons_self).1)
  | cons field rest =>
    cases fields' with
    | nil => exact absurd heq (hempty (h field List.mem_cons_self).1)
    | cons field' rest' =>
      have hsplit := congrArg (List.splitOn c) heq
      rw [splitOn_joinWith hsep fun f hf => (h f hf).2,
        splitOn_joinWith hsep fun f hf => (h' f hf).2] at hsplit
      obtain ⟨hfield, hrest⟩ := List.cons.inj hsplit
      have hcancel : Function.Injective (sep ++ ·) := fun _ _ => List.append_cancel_left
      rw [hfield, List.map_injective_iff.mpr hcancel hrest]

/-! ## Fields with nothing between them -/

/-- What is written for one value does not begin what is written for another, whatever follows. -/
def PrefixFree {α : Type} (write : α → Text) : Prop :=
  ∀ ⦃a b : α⦄ ⦃s t : Text⦄, write a ++ s = write b ++ t → a = b ∧ s = t

theorem PrefixFree.flatMap_inj {α : Type} {write : α → Text} {as bs : List α}
    (h : PrefixFree write) (hne : ∀ a, write a ≠ []) :
    as.flatMap write = bs.flatMap write ↔ as = bs := by
  refine ⟨fun heq => ?_, fun heq => heq ▸ rfl⟩
  induction as generalizing bs with
  | nil =>
    cases bs with
    | nil => rfl
    | cons b bs => exact absurd (List.append_eq_nil_iff.mp heq.symm).1 (hne b)
  | cons a as ih =>
    cases bs with
    | nil => exact absurd (List.append_eq_nil_iff.mp heq).1 (hne a)
    | cons b bs =>
      obtain ⟨rfl, hrest⟩ := h heq
      rw [ih hrest]

/-! ## Numbers -/

theorem decimal_inj {m n : Nat} : decimal m = decimal n ↔ m = n := by
  refine ⟨fun h => ?_, fun h => h ▸ rfl⟩
  calc
    m = Nat.ofDigitChars 10 (decimal m) 0 := Nat.ofDigitChars_ten_toDigits.symm
    _ = Nat.ofDigitChars 10 (decimal n) 0 := by rw [h]
    _ = n := Nat.ofDigitChars_ten_toDigits

theorem decimal_ne_nil (n : Nat) : decimal n ≠ [] := Nat.toDigits_ne_nil

theorem notMem_decimal (n : Nat) (hc : c.isDigit = false) : c ∉ decimal n := fun hmem => by
  rw [Nat.isDigit_of_mem_toDigits (by decide) (by decide) hmem] at hc
  cases hc

theorem decimal_ne_cons (n : Nat) (hc : c.isDigit = false) (rest : Text) :
    decimal n ≠ c :: rest :=
  fun h => notMem_decimal n hc (h ▸ List.mem_cons_self)

theorem hexValue?_digitChar {d : Nat} (h : d < 16) : hexValue? d.digitChar = some d := by
  revert d
  decide

/-- The digits of a number in base sixteen read back as the number. -/
theorem foldlM_hexValue? (n : Nat) :
    (Nat.toDigits 16 n).foldlM (fun n c => (hexValue? c).map (16 * n + ·)) 0 = some n := by
  induction n using Nat.strongRecOn with
  | ind n ih =>
    rw [Nat.toDigits_eq_if (by decide)]
    split
    · next hlt => simp [hexValue?_digitChar hlt]
    · next hge =>
      have hlast : hexValue? (n % 16).digitChar = some (n % 16) :=
        hexValue?_digitChar (Nat.mod_lt n (by decide))
      rw [List.foldlM_append, ih (n / 16) (by omega)]
      simp [hlast, Nat.div_add_mod]

theorem hexNumber?_toDigits (n : Nat) : hexNumber? (Nat.toDigits 16 n) = some n := by
  have hvalue := foldlM_hexValue? n
  cases h : Nat.toDigits 16 n with
  | nil => exact absurd h Nat.toDigits_ne_nil
  | cons c digits => rwa [h] at hvalue

theorem notMem_hexDigits (n : Nat) (hc : hexValue? c = none) : c ∉ Nat.toDigits 16 n := by
  induction n using Nat.strongRecOn with
  | ind n ih =>
    have hne {d : Nat} (hd : d < 16) : c ∉ [d.digitChar] := fun hmem => by
      rw [List.mem_singleton.mp hmem, hexValue?_digitChar hd] at hc
      cases hc
    rw [Nat.toDigits_eq_if (by decide)]
    split
    · next hlt => exact hne hlt
    · next hge =>
      exact List.not_mem_append (ih (n / 16) (by omega)) (hne (Nat.mod_lt n (by decide)))

end TagLayers.Text
