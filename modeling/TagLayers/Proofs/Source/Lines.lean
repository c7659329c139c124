import Mathlib.Data.List.Basic
import Mathlib.Data.List.TakeWhile
import TagLayers.Proofs.Layer.Cuts
import TagLayers.Source.Basic

/-!
# Lines

Around each offset of a text lies one line, between two newlines or between a newline and an end of
the text. The starts of the lines tell which one it is: the last of them that is not beyond the
offset. It can be found along the row of starts, or by halving the row; then each step that looks at
a place of the row, goes one place back, or cuts the text may fail, and none does.

Results:
1. `exists_lineAround`: the line around an offset.
2. `LineAround.location_eq`, `LineAround.lineContaining_eq`: its number and its text.
3. `search_eq`, `place?_eq`: the search by halving.
4. `LineAround.locationByPlace?_eq`, `LineAround.lineByPlace?_eq`: what is found by place.
-/

namespace TagLayers

/-- The line around an offset: it starts where the text starts or after a newline, stops where the
text stops or before a newline, and the offset lies within it or at one of its ends. -/
structure Source.LineAround (s : Source) (o : Nat) (before line after : Text) : Prop where
  text : before ++ (line ++ after) = s.text
  opens : ∀ c ∈ before.getLast?, c = '\n'
  plain : '\n' ∉ line
  closes : ∀ c ∈ after.head?, c = '\n'
  start_le : before.byteLen ≤ o
  le_stop : o ≤ before.byteLen + line.byteLen

namespace Lines

theorem startsAfter_append (pos : Nat) (a b : Text) :
    startsAfter pos (a ++ b) = startsAfter pos a ++ startsAfter (pos + a.byteLen) b := by
  induction a generalizing pos with
  | nil => rfl
  | cons c rest ih =>
    rw [List.cons_append, startsAfter, startsAfter, ih, Text.byteLen, Nat.add_assoc]
    split <;> rfl

theorem startsAfter_eq_nil {text : Text} (h : '\n' ∉ text) (pos : Nat) :
    startsAfter pos text = [] := by
  induction text generalizing pos with
  | nil => rfl
  | cons c rest ih =>
    obtain ⟨hc, hrest⟩ := List.ne_and_not_mem_of_not_mem_cons h
    rw [startsAfter, if_neg (Ne.symm hc), ih hrest]

theorem length_startsAfter (pos : Nat) (text : Text) :
    (startsAfter pos text).length = text.count '\n' := by
  induction text generalizing pos with
  | nil => rfl
  | cons c rest ih =>
    rw [startsAfter]
    split
    · next hc => rw [List.length_cons, ih, hc, List.count_cons_self]
    · next hc => rw [ih, List.count_cons_of_ne hc]

theorem mem_startsAfter {pos start : Nat} {text : Text} (h : start ∈ startsAfter pos text) :
    pos < start ∧ start ≤ pos + text.byteLen := by
  induction text generalizing pos with
  | nil => cases h
  | cons c rest ih =>
    have hc := c.utf8Size_pos
    rw [startsAfter] at h
    rw [Text.byteLen]
    split at h
    · rcases List.mem_cons.mp h with rfl | h
      · omega
      · obtain ⟨hlow, hhigh⟩ := ih h
        omega
    · obtain ⟨hlow, hhigh⟩ := ih h
      omega

/-- Among the starts of lines up to the start of one of them, that one is the last. -/
theorem exists_reached {before : Text} (h : ∀ c ∈ before.getLast?, c = '\n') :
    ∃ reached, 0 :: startsAfter 0 before = reached ++ [before.byteLen] ∧
      reached.length = before.count '\n' ∧ ∀ start ∈ reached, start < before.byteLen := by
  rcases List.eq_nil_or_concat' before with rfl | ⟨front, c, rfl⟩
  · exact ⟨[], rfl, rfl, List.forall_mem_nil _⟩
  · obtain rfl : c = '\n' := h c (by simp)
    refine ⟨0 :: startsAfter 0 front, ?_, ?_, ?_⟩
    · rw [startsAfter_append, Text.byteLen_append, Nat.zero_add]
      rfl
    · rw [List.length_cons, length_startsAfter, List.count_append]
      rfl
    · intro start hstart
      rw [Text.byteLen_append]
      have hsize : 0 < Text.byteLen ['\n'] := by decide
      rcases List.mem_cons.mp hstart with rfl | hstart
      · omega
      · have hle := (mem_startsAfter hstart).2
        omega

/-- A walk along a row ends at the last start that is not beyond the offset. -/
theorem follow_eq {offset last : Nat} {reached later : List Nat}
    (hreached : ∀ start ∈ reached, start < last) (hlast : last ≤ offset)
    (hlater : ∀ start ∈ later, offset < start) (line start : Nat) :
    follow offset line start (reached ++ last :: later) = (line + reached.length + 1, last) := by
  induction reached generalizing line start with
  | nil =>
    rw [List.nil_append, follow, if_pos hlast]
    cases later with
    | nil => rfl
    | cons next rest =>
      rw [follow, if_neg (Nat.not_le.mpr (hlater next List.mem_cons_self))]
      rfl
  | cons first rest ih =>
    obtain ⟨hfirst, hrest⟩ := List.forall_mem_cons.mp hreached
    rw [List.cons_append, follow, if_pos (by omega), ih hrest, List.length_cons]
    congr 1
    omega

/-! ## Search by halving -/

/-- Searches the places from `lo` up to `hi` for an offset. If it is not there, the outcome is the
place at which it would have to be put in. -/
def search (offset : Nat) (starts : List Nat) (lo hi : Nat) : Except Nat Nat :=
  if lo < hi then
    match starts[(lo + hi) / 2]? with
    | some start =>
        if start = offset then .ok ((lo + hi) / 2)
        else if start < offset then search offset starts ((lo + hi) / 2 + 1) hi
        else search offset starts lo ((lo + hi) / 2)
    | none => .error lo
  else .error lo
termination_by hi - lo

/-- The place of the last start that is not beyond an offset. There is none when the offset would
have to be put in front of all starts. -/
def place? (offset : Nat) (starts : List Nat) : Option Nat :=
  match search offset starts 0 starts.length with
  | .ok place => some place
  | .error place => if 0 < place then some (place - 1) else none

/-- The location of an offset, found by place. There is none when a place lies outside the row, or
when the line starts beyond the offset. -/
def locationByPlace? (l : Lines) (offset : Nat) : Option Location := do
  let place ← place? (min offset l.length) l.starts
  let start ← l.starts[place]?
  guard (start ≤ min offset l.length)
  return ⟨place + 1, min offset l.length - start + 1⟩

/-- In a row that is divided by an offset, the search ends on either side of the border. -/
theorem search_eq {offset last : Nat} {reached later : List Nat}
    (hreached : ∀ start ∈ reached, start < last) (hlast : last ≤ offset)
    (hlater : ∀ start ∈ later, offset < start) {lo hi : Nat} (hlo : lo ≤ reached.length + 1)
    (hhi : reached.length + 1 ≤ hi) (hlen : hi ≤ (reached ++ last :: later).length) :
    search offset (reached ++ last :: later) lo hi = .ok reached.length ∨
      search offset (reached ++ last :: later) lo hi = .error (reached.length + 1) := by
  induction hn : hi - lo using Nat.strongRecOn generalizing lo hi with
  | ind n ih =>
    rw [search]
    by_cases h : lo < hi
    · have hmid : (lo + hi) / 2 < (reached ++ last :: later).length := by omega
      rw [if_pos h, List.getElem?_eq_getElem hmid]
      dsimp only
      -- the middle lies before the last start that is reached, at it, or beyond it
      rcases Nat.lt_trichotomy ((lo + hi) / 2) reached.length with hm | hm | hm
      · have hstart : (reached ++ last :: later)[(lo + hi) / 2] < last := by
          rw [List.getElem_append_left hm]
          exact hreached _ (List.getElem_mem _)
        rw [if_neg (by omega), if_pos (by omega)]
        exact ih _ (by omega) (by omega) hhi hlen rfl
      · have hstart : (reached ++ last :: later)[(lo + hi) / 2] = last := by
          simp [hm]
        rw [hstart]
        by_cases heq : last = offset
        · rw [if_pos heq, hm]
          exact .inl rfl
        · rw [if_neg heq, if_pos (by omega)]
          exact ih _ (by omega) (by omega) hhi hlen rfl
      · have hstart : offset < (reached ++ last :: later)[(lo + hi) / 2] := by
          refine hlater _ ?_
          rw [List.getElem_append_right (Nat.le_of_lt hm), List.getElem_cons]
          rw [dif_neg (by omega)]
          exact List.getElem_mem _
        rw [if_neg (by omega), if_neg (by omega)]
        exact ih _ (by omega) hlo (by omega) (by omega) rfl
    · rw [if_neg h]
      exact .inr (congrArg Except.error (by omega))

theorem place?_eq {offset last : Nat} {reached later : List Nat}
    (hreached : ∀ start ∈ reached, start < last) (hlast : last ≤ offset)
    (hlater : ∀ start ∈ later, offset < start) :
    place? offset (reached ++ last :: later) = some reached.length := by
  have hlen : reached.length + 1 ≤ (reached ++ last :: later).length := by simp
  unfold place?
  rcases search_eq hreached hlast hlater (Nat.zero_le _) hlen (Nat.le_refl _) with h | h
  · rw [h]
  · rw [h]
    exact if_pos (Nat.succ_pos _)

end Lines

namespace Source

/-- Where the line at a place stops: before the newline in front of the next line, or where the text
stops. -/
def lineStop? (s : Source) (place : Nat) : Option Nat :=
  match s.lines.starts[place + 1]? with
  | some next => if 0 < next then some (next - 1) else none
  | none => some s.length

/-- The line of an offset, found by place. There is none when a place lies outside the row, or when
the line cannot be cut out of the text. -/
def lineByPlace? (s : Source) (offset : Nat) : Option Text := do
  let location ← s.lines.locationByPlace? offset
  guard (0 < location.line)
  let start ← s.lines.starts[location.line - 1]?
  let stop ← s.lineStop? (location.line - 1)
  let line ← s.text.slice? start stop
  return dropReturns line

variable {s : Source} {o offset : Nat} {before line after : Text}

/-- Around each offset of a text lies a line. -/
theorem exists_lineAround (s : Source) {o : Nat} (ho : o ≤ s.length) :
    ∃ before line after, s.LineAround o before line after := by
  obtain ⟨name, text⟩ := s
  replace ho : o ≤ text.byteLen := ho
  induction text generalizing o with
  | nil =>
    exact ⟨[], [], [], rfl, by simp, List.not_mem_nil, by simp, Nat.zero_le _, ho⟩
  | cons c rest ih =>
    rw [Text.byteLen] at ho
    by_cases hc : c.utf8Size ≤ o
    · obtain ⟨before, line, after, htext, hopens, hplain, hcloses, hstart, hstop⟩ :=
        ih (o := o - c.utf8Size) (by omega)
      by_cases hfirst : before = [] ∧ c ≠ '\n'
      · -- the line of the rest starts with the rest, and the character belongs to it
        obtain ⟨rfl, hne⟩ := hfirst
        refine ⟨[], c :: line, after, congrArg (c :: ·) htext, by simp, ?_, hcloses,
          Nat.zero_le _, ?_⟩
        · exact List.not_mem_cons_of_ne_of_not_mem (Ne.symm hne) hplain
        · simp only [Text.byteLen] at hstop ⊢
          omega
      · refine ⟨c :: before, line, after, congrArg (c :: ·) htext, ?_, hplain, hcloses, ?_, ?_⟩
        · intro d hd
          cases before with
          | nil =>
            rw [List.getLast?_singleton, Option.mem_some_iff] at hd
            rw [← hd]
            exact Decidable.not_not.mp fun hne => hfirst ⟨rfl, hne⟩
          | cons e before =>
            rw [List.getLast?_cons_cons] at hd
            exact hopens d hd
        · rw [Text.byteLen]
          omega
        · rw [Text.byteLen]
          omega
    · refine ⟨[], (c :: rest).takeWhile (· != '\n'), (c :: rest).dropWhile (· != '\n'),
        List.takeWhile_append_dropWhile, by simp, ?_, ?_, Nat.zero_le _, ?_⟩
      · intro hmem
        simpa using List.mem_takeWhile_imp hmem
      · intro d hd
        have hnot := List.head?_dropWhile_not (· != '\n') (c :: rest)
        rw [Option.mem_def.mp hd] at hnot
        simpa using hnot
      · by_cases hne : c = '\n'
        · have hsize : c.utf8Size = 1 := by
            rw [hne]
            rfl
          omega
        · have hfirst : (c != '\n') = true := bne_iff_ne.mpr hne
          rw [List.takeWhile_cons, if_pos hfirst, Text.byteLen, Text.byteLen]
          omega

namespace LineAround

/-- The starts of the lines before the one around the offset, its own, and those after it. -/
theorem starts_eq (h : s.LineAround o before line after) :
    ∃ reached, s.lines.starts = reached ++ before.byteLen ::
        Lines.startsAfter (before.byteLen + line.byteLen) after ∧
      reached.length = before.count '\n' ∧ (∀ start ∈ reached, start < before.byteLen) ∧
      ∀ start ∈ Lines.startsAfter (before.byteLen + line.byteLen) after, o < start := by
  obtain ⟨reached, hreached, hcount, hlt⟩ := Lines.exists_reached h.opens
  refine ⟨reached, ?_, hcount, hlt, fun start hstart => ?_⟩
  · show 0 :: Lines.startsAfter 0 s.text = _
    rw [← h.text, Lines.startsAfter_append, Lines.startsAfter_append,
      Lines.startsAfter_eq_nil h.plain, List.nil_append, ← List.cons_append, hreached,
      Nat.zero_add, List.append_assoc, List.singleton_append]
  · exact Nat.lt_of_le_of_lt h.le_stop (Lines.mem_startsAfter hstart).1

theorem getElem?_starts (h : s.LineAround o before line after) :
    s.lines.starts[before.count '\n']? = some before.byteLen := by
  obtain ⟨reached, hstarts, hcount, -⟩ := h.starts_eq
  rw [hstarts, ← hcount, List.getElem?_append_right (Nat.le_refl _), Nat.sub_self]
  rfl

theorem lineAt_eq (h : s.LineAround (min offset s.length) before line after) :
    s.lines.lineAt offset = (before.count '\n' + 1, before.byteLen) := by
  obtain ⟨reached, hstarts, hcount, hlt, hlater⟩ := h.starts_eq
  unfold Lines.lineAt
  rw [hstarts, show s.lines.length = s.length from rfl, Lines.follow_eq hlt h.start_le hlater,
    hcount, Nat.zero_add]

theorem lineStart_eq (h : s.LineAround (min offset s.length) before line after) :
    s.lineStart offset = before.byteLen := by
  rw [lineStart, h.lineAt_eq]

theorem location_eq (h : s.LineAround (min offset s.length) before line after) :
    s.location offset = ⟨1 + before.count '\n', 1 + (min offset s.length - before.byteLen)⟩ := by
  unfold location Lines.location
  rw [h.lineAt_eq, Nat.add_comm 1, Nat.add_comm 1]
  rfl

theorem lineContaining_eq (h : s.LineAround (min offset s.length) before line after) :
    s.lineContaining offset = dropReturns line := by
  have hline : (line ++ after).takeWhile (· != '\n') = line := by
    have hall : ∀ c ∈ line, (c != '\n') = true := fun c hc =>
      bne_iff_ne.mpr fun heq => h.plain (heq ▸ hc)
    rw [List.takeWhile_append_of_pos hall]
    cases hafter : after with
    | nil => rw [List.takeWhile_nil, List.append_nil]
    | cons c rest =>
      have hc : c = '\n' := h.closes c (by rw [hafter]; rfl)
      rw [List.takeWhile_cons_of_neg (by simp [hc]), List.append_nil]
  rw [lineContaining, h.lineStart_eq, ← h.text, Text.dropBytes_byteLen_append, hline]

theorem locationByPlace?_eq (h : s.LineAround (min offset s.length) before line after) :
    s.lines.locationByPlace? offset = some (s.location offset) := by
  obtain ⟨reached, hstarts, hcount, hlt, hlater⟩ := h.starts_eq
  have hguard : (guard (before.byteLen ≤ min offset s.length) : Option Unit) = some () :=
    if_pos h.start_le
  have hplace : Lines.place? (min offset s.length) s.lines.starts = some (before.count '\n') := by
    rw [hstarts, Lines.place?_eq hlt h.start_le hlater, hcount]
  rw [h.location_eq, Nat.add_comm 1, Nat.add_comm 1]
  refine Option.bind_eq_some_iff.mpr ⟨_, hplace, ?_⟩
  refine Option.bind_eq_some_iff.mpr ⟨_, h.getElem?_starts, ?_⟩
  exact Option.bind_eq_some_iff.mpr ⟨_, hguard, rfl⟩

/-- The next line starts behind a newline, and where there is none the text stops. -/
theorem lineStop?_eq (h : s.LineAround o before line after) :
    s.lineStop? (before.count '\n') = some (before.byteLen + line.byteLen) := by
  obtain ⟨reached, hstarts, hcount, -⟩ := h.starts_eq
  have hnext : s.lines.starts[before.count '\n' + 1]?
      = (Lines.startsAfter (before.byteLen + line.byteLen) after)[0]? := by
    rw [hstarts, ← hcount, List.getElem?_append_right (Nat.le_succ _), Nat.succ_sub (Nat.le_refl _),
      Nat.sub_self]
    rfl
  unfold lineStop?
  rw [hnext]
  cases hafter : after with
  | nil =>
    show some s.length = _
    rw [length, ← h.text, hafter, List.append_nil, Text.byteLen_append]
  | cons c rest =>
    have hc : c = '\n' := h.closes c (by rw [hafter]; rfl)
    rw [hc]
    rfl

theorem slice?_eq (h : s.LineAround o before line after) :
    s.text.slice? before.byteLen (before.byteLen + line.byteLen) = some line := by
  have hadmits : s.Admits ⟨before.byteLen, before.byteLen + line.byteLen⟩ := by
    refine ⟨Nat.le_add_right _ _, ?_, ?_⟩
    · rw [← h.text]
      exact Text.isBoundary_byteLen _ _
    · rw [← h.text, ← Text.byteLen_append, ← List.append_assoc]
      exact Text.isBoundary_byteLen _ _
  refine hadmits.snippet?.trans ?_
  rw [← h.text, Text.slice_byteLen_append]

theorem lineByPlace?_eq (h : s.LineAround (min offset s.length) before line after) :
    s.lineByPlace? offset = some (s.lineContaining offset) := by
  have hguard : (guard (0 < before.count '\n' + 1) : Option Unit) = some () :=
    if_pos (Nat.succ_pos _)
  rw [lineByPlace?, h.locationByPlace?_eq, h.location_eq, h.lineContaining_eq, Nat.add_comm 1]
  refine Option.bind_eq_some_iff.mpr ⟨_, rfl, ?_⟩
  refine Option.bind_eq_some_iff.mpr ⟨_, hguard, ?_⟩
  refine Option.bind_eq_some_iff.mpr ⟨_, h.getElem?_starts, ?_⟩
  refine Option.bind_eq_some_iff.mpr ⟨_, h.lineStop?_eq, ?_⟩
  exact Option.bind_eq_some_iff.mpr ⟨_, h.slice?_eq, rfl⟩

end LineAround

end Source

end TagLayers
