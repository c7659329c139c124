import TagLayers.Proofs.Lexicon.Layouts

/-!
# One machine for comments and strings

A machine that reads a text once, from left to right, finds both its comments and its strings.
What it does is told by a relation that divides the text into plain characters, strings and
comments, each as long as it goes (`Reads`): every text can be divided in this way, and the machine
finds the strings and comments of the division.

Results:
1. `commentAt?_eq_some`: where comments start, and how long they are.
2. `exists_reads`: every text can be read.
3. `StringTail.lexFrom_eq`, `lexFrom_comment`: the machine within a string and within a comment.
4. `Reads.lexFrom_eq`: the machine finds what is read.
-/

namespace TagLayers

/-- The stretches of marks that start at an offset. -/
def Mark.stretches (pos : Nat) : List Mark → List Interval
  | [] => []
  | .plain c :: rest => stretches (pos + c.utf8Size) rest
  | .tagged label t :: rest => ⟨⟨pos, pos + t.byteLen⟩, label⟩ :: stretches (pos + t.byteLen) rest

/-! ## The machine -/

/-- Where the machine stands. In a comment or a string it keeps the offset at which that has
started. -/
inductive LexState where
  | outside
  | line (start : Nat)
  | block (closer : Text) (start : Nat)
  | string (start : Nat)
  | escaped (start : Nat)

/-- At the end of a line comment the machine leaves the comment before it reads on. -/
def LexState.rank : LexState → Nat
  | outside => 0
  | _ => 1

namespace Lexicon

/-- The comment that starts at an offset with the text that follows, and the mark that opens it.
The mark of a line comment comes first. -/
def opening? (lex : Lexicon) (pos : Nat) (text : Text) : Option (LexState × Text) :=
  ((lex.lineComment.filter fun mark => mark.toList.isPrefixOf text).map fun mark =>
    (.line pos, mark.toList)).or
  ((lex.blockComment.filter fun marks => marks.1.toList.isPrefixOf text).map fun marks =>
    (.block marks.2.toList pos, marks.1.toList))

/-- The comments and strings that the machine finds in a text, which starts at the offset `pos`. -/
def lexFrom (lex : Lexicon) (s : LexState) (pos : Nat) (text : Text) : List Interval :=
  match s, text with
  | .outside, [] => []
  | .line start, [] | .block _ start, [] => [⟨⟨start, pos⟩, Tag.ofCategory .comment⟩]
  | .string start, [] | .escaped start, [] => [⟨⟨start, pos⟩, Tag.ofCategory .string⟩]
  | .outside, c :: rest =>
      if c = lex.quote then lexFrom lex (.string pos) (pos + c.utf8Size) rest
      else
        match lex.opening? pos (c :: rest) with
        | some (s, mark) => lexFrom lex s (pos + mark.byteLen) (rest.drop (mark.length - 1))
        | none => lexFrom lex .outside (pos + c.utf8Size) rest
  | .line start, c :: rest =>
      if c = '\n' then
        ⟨⟨start, pos⟩, Tag.ofCategory .comment⟩ :: lexFrom lex .outside pos (c :: rest)
      else lexFrom lex (.line start) (pos + c.utf8Size) rest
  | .block closer start, c :: rest =>
      if closer.isPrefixOf (c :: rest) then
        ⟨⟨start, pos + closer.byteLen⟩, Tag.ofCategory .comment⟩
          :: lexFrom lex .outside (pos + closer.byteLen) (rest.drop (closer.length - 1))
      else lexFrom lex (.block closer start) (pos + c.utf8Size) rest
  | .string start, c :: rest =>
      if c = lex.escape then lexFrom lex (.escaped start) (pos + c.utf8Size) rest
      else if c = lex.quote then
        ⟨⟨start, pos + c.utf8Size⟩, Tag.ofCategory .string⟩
          :: lexFrom lex .outside (pos + c.utf8Size) rest
      else lexFrom lex (.string start) (pos + c.utf8Size) rest
  | .escaped start, c :: rest => lexFrom lex (.string start) (pos + c.utf8Size) rest
termination_by (text.length, s.rank)
decreasing_by
  all_goals first
    | exact Prod.Lex.right _ Nat.one_pos
    | exact Prod.Lex.left _ _ (by simp only [List.length_cons, List.length_drop]; omega)

/-- The comments and strings of a text. -/
def lexemes (lex : Lexicon) (text : Text) : List Interval := lex.lexFrom .outside 0 text

/-! ## Readings -/

/-- The rest of a string from somewhere in it on, and the text after it. A string ends with a quote
that is not escaped, or with the text. The flag says whether the next character is escaped. -/
inductive StringTail (lex : Lexicon) : Bool → Text → Text → Prop
  | unended (b : Bool) : StringTail lex b [] []
  | ended {rest : Text} : lex.quote ≠ lex.escape → StringTail lex false [lex.quote] rest
  | escape {body rest : Text} : StringTail lex true body rest →
      StringTail lex false (lex.escape :: body) rest
  | escaped {c : Char} {body rest : Text} : StringTail lex false body rest →
      StringTail lex true (c :: body) rest
  | inside {c : Char} {body rest : Text} : c ≠ lex.escape → c ≠ lex.quote →
      StringTail lex false body rest → StringTail lex false (c :: body) rest

/-- A text as plain characters, strings and comments, each as long as it goes. -/
inductive Reads (lex : Lexicon) : Text → List Mark → Prop
  | nil : Reads lex [] []
  | plain {c : Char} {rest : Text} {marks : List Mark} : c ≠ lex.quote →
      lex.commentAt? (c :: rest) = none → Reads lex rest marks →
      Reads lex (c :: rest) (.plain c :: marks)
  | string {body rest : Text} {marks : List Mark} : lex.StringTail false body rest →
      Reads lex rest marks →
      Reads lex (lex.quote :: (body ++ rest))
        (.tagged (Tag.ofCategory .string) (lex.quote :: body) :: marks)
  | comment {c : Char} {body rest : Text} {marks : List Mark} : c ≠ lex.quote →
      lex.commentAt? (c :: (body ++ rest)) = some (body.length + 1) → Reads lex rest marks →
      Reads lex (c :: (body ++ rest)) (.tagged (Tag.ofCategory .comment) (c :: body) :: marks)

/-- No mark of a comment is empty. -/
structure Marked (lex : Lexicon) : Prop where
  line : ∀ mark, lex.lineComment = some mark → mark.toList ≠ []
  block : ∀ opener closer, lex.blockComment = some (opener, closer) →
    opener.toList ≠ [] ∧ closer.toList ≠ []

variable {lex : Lexicon} {text : Text} {marks : List Mark}

theorem exists_stringTail (lex : Lexicon) (b : Bool) (text : Text) :
    ∃ body rest, text = body ++ rest ∧ lex.StringTail b body rest := by
  induction text generalizing b with
  | nil => exact ⟨[], [], rfl, .unended b⟩
  | cons c tail ih =>
    cases b with
    | true =>
      obtain ⟨body, rest, rfl, hbody⟩ := ih false
      exact ⟨c :: body, rest, rfl, .escaped hbody⟩
    | false =>
      by_cases hescape : c = lex.escape
      · subst hescape
        obtain ⟨body, rest, rfl, hbody⟩ := ih true
        exact ⟨lex.escape :: body, rest, rfl, .escape hbody⟩
      · by_cases hquote : c = lex.quote
        · subst hquote
          exact ⟨[lex.quote], tail, rfl, .ended hescape⟩
        · obtain ⟨body, rest, rfl, hbody⟩ := ih false
          exact ⟨c :: body, rest, rfl, .inside hescape hquote hbody⟩

theorem lengthThrough_le (mark text : Text) : lengthThrough mark text ≤ text.length := by
  induction text with
  | nil => exact Nat.le_refl 0
  | cons c rest ih =>
    rw [lengthThrough]
    split
    · next h => exact (List.isPrefixOf_iff_prefix.mp h).length_le
    · rw [List.length_cons]
      omega

theorem filter_lineComment_eq_none
    (h : (lex.lineComment.bind fun mark => lineCommentAt? mark.toList text) = none) :
    (lex.lineComment.filter fun mark => mark.toList.isPrefixOf text) = none := by
  rw [Option.filter_eq_none_iff]
  intro mark hmark hprefix
  rw [hmark, Option.bind_some, lineCommentAt?, if_pos hprefix] at h
  cases h

/-- A comment that starts here, by the mark that opens it. -/
theorem commentAt?_eq_some {n : Nat} (h : lex.commentAt? text = some n) :
    (∃ mark tail, lex.lineComment = some mark ∧ text = mark.toList ++ tail ∧
      n = mark.toList.length + lineLength tail) ∨
    (lex.lineComment.filter fun mark => mark.toList.isPrefixOf text) = none ∧
      ∃ opener closer tail, lex.blockComment = some (opener, closer) ∧
        text = opener.toList ++ tail ∧
        n = opener.toList.length + lengthThrough closer.toList tail := by
  unfold commentAt? at h
  cases hline : lex.lineComment.bind fun mark => lineCommentAt? mark.toList text with
  | some m =>
    rw [hline, Option.some_or] at h
    obtain rfl := Option.some.inj h
    obtain ⟨mark, hmark, hat⟩ := Option.bind_eq_some_iff.mp hline
    unfold lineCommentAt? at hat
    split at hat
    · next hprefix =>
      obtain ⟨tail, rfl⟩ := List.isPrefixOf_iff_prefix.mp hprefix
      rw [List.drop_left] at hat
      exact .inl ⟨mark, tail, hmark, rfl, (Option.some.inj hat).symm⟩
    · cases hat
  | none =>
    rw [hline, Option.none_or] at h
    obtain ⟨⟨opener, closer⟩, hmarks, hat⟩ := Option.bind_eq_some_iff.mp h
    unfold blockCommentAt? at hat
    split at hat
    · next hprefix =>
      obtain ⟨tail, rfl⟩ := List.isPrefixOf_iff_prefix.mp hprefix
      rw [List.drop_left] at hat
      exact .inr ⟨filter_lineComment_eq_none hline, opener, closer, tail, hmarks, rfl,
        (Option.some.inj hat).symm⟩
    · cases hat

/-- A comment is not empty and lies within the text. -/
theorem commentAt?_bounds (hm : lex.Marked) {n : Nat} (h : lex.commentAt? text = some n) :
    0 < n ∧ n ≤ text.length := by
  rcases commentAt?_eq_some h with
    ⟨mark, tail, hmark, rfl, rfl⟩ | ⟨-, opener, closer, tail, hmarks, rfl, rfl⟩
  · have hpos := List.length_pos_iff.mpr (hm.line mark hmark)
    have hle : lineLength tail ≤ tail.length := (List.takeWhile_sublist _).length_le
    rw [List.length_append]
    omega
  · have hpos := List.length_pos_iff.mpr (hm.block opener closer hmarks).1
    have hle := lengthThrough_le closer.toList tail
    rw [List.length_append]
    omega

theorem exists_reads (hm : lex.Marked) (text : Text) : ∃ marks, lex.Reads text marks := by
  induction hlen : text.length using Nat.strongRecOn generalizing text with
  | _ n ih =>
    cases text with
    | nil => exact ⟨[], .nil⟩
    | cons c rest =>
      have shorter (tail : Text) (h : tail.length ≤ rest.length) :
          ∃ marks, lex.Reads tail marks :=
        ih tail.length (by rw [← hlen, List.length_cons]; omega) tail rfl
      by_cases hc : c = lex.quote
      · subst hc
        obtain ⟨body, tail, rfl, hbody⟩ := lex.exists_stringTail false rest
        obtain ⟨marks, hmarks⟩ := shorter tail (by simp)
        exact ⟨_, .string hbody hmarks⟩
      · cases hat : lex.commentAt? (c :: rest) with
        | none =>
          obtain ⟨marks, hmarks⟩ := shorter rest (Nat.le_refl _)
          exact ⟨_, .plain hc hat hmarks⟩
        | some m =>
          obtain ⟨hpos, hle⟩ := commentAt?_bounds hm hat
          rw [List.length_cons] at hle
          obtain ⟨marks, hmarks⟩ := shorter (rest.drop (m - 1)) (by simp)
          have hlen : m = (rest.take (m - 1)).length + 1 := by
            rw [List.length_take]
            omega
          rw [← List.take_append_drop (m - 1) rest] at hat ⊢
          exact ⟨_, .comment hc (hat.trans (congrArg some hlen)) hmarks⟩

/-! ## The machine reads a text -/

section Machine

/-- From inside a string the machine reads to the end of it. -/
theorem StringTail.lexFrom_eq {b : Bool} {body rest : Text} (h : lex.StringTail b body rest)
    (start pos : Nat) :
    lex.lexFrom (if b then .escaped start else .string start) pos (body ++ rest)
      = ⟨⟨start, pos + Text.byteLen body⟩, Tag.ofCategory .string⟩
        :: lex.lexFrom .outside (pos + Text.byteLen body) rest := by
  induction h generalizing pos with
  | unended b => cases b <;> simp [lexFrom, Text.byteLen]
  | ended hne =>
    rw [if_neg Bool.false_ne_true, List.singleton_append, lexFrom, if_neg hne, if_pos rfl]
    rfl
  | escape _ ih =>
    rw [if_neg Bool.false_ne_true, List.cons_append, lexFrom, if_pos rfl, Text.byteLen,
      ← Nat.add_assoc]
    exact ih _
  | escaped _ ih =>
    rw [if_pos rfl, List.cons_append, lexFrom, Text.byteLen, ← Nat.add_assoc]
    exact ih _
  | inside hescape hquote _ ih =>
    rw [if_neg Bool.false_ne_true, List.cons_append, lexFrom, if_neg hescape, if_neg hquote,
      Text.byteLen, ← Nat.add_assoc]
    exact ih _

theorem lexFrom_line {body rest : Text} (h : lineLength (body ++ rest) = body.length)
    (start pos : Nat) :
    lex.lexFrom (.line start) pos (body ++ rest)
      = ⟨⟨start, pos + Text.byteLen body⟩, Tag.ofCategory .comment⟩
        :: lex.lexFrom .outside (pos + Text.byteLen body) rest := by
  induction body generalizing pos with
  | nil =>
    cases rest with
    | nil => simp [lexFrom, Text.byteLen]
    | cons c rest =>
      have hc : c = '\n' := Decidable.byContradiction fun hne => by simp [lineLength, hne] at h
      conv => lhs; rw [List.nil_append, lexFrom, if_pos hc]
      rfl
  | cons c body ih =>
    have hc : c ≠ '\n' := by
      rintro rfl
      simp [lineLength] at h
    rw [Text.byteLen, ← Nat.add_assoc, List.cons_append, lexFrom, if_neg hc]
    refine ih ?_ _
    simpa [lineLength, hc] using h

theorem lexFrom_block {closer body rest : Text} (hne : closer ≠ [])
    (h : lengthThrough closer (body ++ rest) = body.length) (start pos : Nat) :
    lex.lexFrom (.block closer start) pos (body ++ rest)
      = ⟨⟨start, pos + Text.byteLen body⟩, Tag.ofCategory .comment⟩
        :: lex.lexFrom .outside (pos + Text.byteLen body) rest := by
  have hlen := List.length_pos_iff.mpr hne
  induction body generalizing pos with
  | nil =>
    cases rest with
    | nil => simp [lexFrom, Text.byteLen]
    | cons c rest =>
      rw [List.nil_append, lengthThrough, List.length_nil] at h
      split at h <;> omega
  | cons c body ih =>
    rw [List.cons_append, lengthThrough] at h
    rw [List.cons_append, lexFrom]
    split at h
    · next hprefix =>
      -- the closer is all that is left of the comment
      obtain ⟨tail, htail⟩ := List.isPrefixOf_iff_prefix.mp hprefix
      obtain ⟨rfl, -⟩ := List.append_inj htail h
      rw [if_pos hprefix, List.length_cons, Nat.add_sub_cancel, List.drop_left]
    · next hprefix =>
      rw [if_neg hprefix, Text.byteLen, ← Nat.add_assoc]
      refine ih ?_ _
      rw [List.length_cons] at h
      omega

theorem opening?_eq_none (h : lex.commentAt? text = none) (pos : Nat) :
    lex.opening? pos text = none := by
  unfold commentAt? at h
  obtain ⟨hline, hblock⟩ := Option.or_eq_none_iff.mp h
  have hsecond : (lex.blockComment.filter fun marks => marks.1.toList.isPrefixOf text) = none := by
    rw [Option.filter_eq_none_iff]
    intro marks hmarks hprefix
    rw [hmarks, Option.bind_some, blockCommentAt?, if_pos hprefix] at hblock
    cases hblock
  rw [opening?, filter_lineComment_eq_none hline, hsecond]
  rfl

/-- The machine reads the mark that opens a comment. -/
theorem lexFrom_opening {s : LexState} {mark tail : Text} (hne : mark ≠ [])
    (hquote : (mark ++ tail).head? ≠ some lex.quote) {pos : Nat}
    (h : lex.opening? pos (mark ++ tail) = some (s, mark)) :
    lex.lexFrom .outside pos (mark ++ tail) = lex.lexFrom s (pos + mark.byteLen) tail := by
  cases mark with
  | nil => exact absurd rfl hne
  | cons c mark =>
    have hc : c ≠ lex.quote := fun hc => hquote (congrArg some hc)
    rw [List.cons_append] at h ⊢
    rw [lexFrom, if_neg hc, h]
    dsimp only
    rw [List.length_cons, Nat.add_sub_cancel, List.drop_left]

/-- A text that goes on after a mark, divided at a later place. -/
theorem exists_inner {whole rest mark tail : Text} (h : whole ++ rest = mark ++ tail) {n : Nat}
    (hlen : whole.length = mark.length + n) :
    ∃ inner, whole = mark ++ inner ∧ tail = inner ++ rest ∧ n = inner.length := by
  rcases List.append_eq_append_iff.mp h with ⟨inner, rfl, rfl⟩ | ⟨inner, rfl, rfl⟩
  · rw [List.length_append] at hlen
    obtain rfl : inner = [] := List.length_eq_zero_iff.mp (by omega)
    exact ⟨[], by simp, rfl, by simp at hlen; omega⟩
  · refine ⟨inner, rfl, rfl, ?_⟩
    rw [List.length_append] at hlen
    omega

theorem lexFrom_comment (hm : lex.Marked) (whole : Text) {rest : Text}
    (hquote : (whole ++ rest).head? ≠ some lex.quote)
    (h : lex.commentAt? (whole ++ rest) = some whole.length) (pos : Nat) :
    lex.lexFrom .outside pos (whole ++ rest)
      = ⟨⟨pos, pos + whole.byteLen⟩, Tag.ofCategory .comment⟩
        :: lex.lexFrom .outside (pos + whole.byteLen) rest := by
  rcases commentAt?_eq_some h with
    ⟨mark, tail, hmark, htext, hlen⟩ | ⟨hline, opener, closer, tail, hmarks, htext, hlen⟩
  · obtain ⟨inner, rfl, rfl, hinner⟩ := exists_inner htext hlen
    have hopening : lex.opening? pos (mark.toList ++ (inner ++ rest))
        = some (.line pos, mark.toList) := by
      rw [opening?, hmark, Option.filter_some,
        if_pos (List.isPrefixOf_iff_prefix.mpr (List.prefix_append _ _))]
      rfl
    rw [htext] at hquote ⊢
    rw [lexFrom_opening (hm.line mark hmark) hquote hopening, lexFrom_line hinner,
      Text.byteLen_append, Nat.add_assoc]
  · obtain ⟨inner, rfl, rfl, hinner⟩ := exists_inner htext hlen
    have hopening : lex.opening? pos (opener.toList ++ (inner ++ rest))
        = some (.block closer.toList pos, opener.toList) := by
      rw [htext] at hline
      rw [opening?, hline, hmarks, Option.filter_some,
        if_pos (List.isPrefixOf_iff_prefix.mpr (List.prefix_append _ _))]
      rfl
    obtain ⟨hopener, hcloser⟩ := hm.block opener closer hmarks
    rw [htext] at hquote ⊢
    rw [lexFrom_opening hopener hquote hopening, lexFrom_block hcloser hinner,
      Text.byteLen_append, Nat.add_assoc]

/-- The machine finds the comments and strings of a reading. -/
theorem Reads.lexFrom_eq (hm : lex.Marked) (h : lex.Reads text marks) (pos : Nat) :
    lex.lexFrom .outside pos text = Mark.stretches pos marks := by
  induction h generalizing pos with
  | nil => rw [lexFrom, Mark.stretches]
  | plain hc hat _ ih =>
    rw [lexFrom, if_neg hc, opening?_eq_none hat, Mark.stretches]
    exact ih _
  | string hbody _ ih =>
    rw [lexFrom, if_pos rfl, Mark.stretches, Text.byteLen, ← Nat.add_assoc, ← ih]
    exact hbody.lexFrom_eq pos _
  | @comment c body rest marks hc hat _ ih =>
    rw [Mark.stretches, ← ih]
    exact lexFrom_comment hm (c :: body) (fun h => hc (Option.some.inj h)) hat pos

end Machine

end Lexicon

end TagLayers
