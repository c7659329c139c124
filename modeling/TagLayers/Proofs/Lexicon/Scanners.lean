import TagLayers.Proofs.Lexicon.TwoPasses

/-!
# Scanners

Comments, directives and strings are found by loops over the offsets of a text. A loop goes on where
the stretch that it has taken ends. So it ends as long as no stretch is empty, and an empty mark,
which no valid lexicon has, can keep it at one offset forever. Nor does it come to an offset within
a character, or past the end of the text.

Results:
1. `Scanner.loop_eq`: a loop that takes no empty stretch ends, with the ranges of the search.
2. `Scanner.loop_of_empty`, `loop_of_emptyMark`: a loop that takes an empty stretch does not end.
3. `advances_of_mem_scanners`: the scanners of a valid lexicon take no empty stretch.
4. `tokenize_ends`: tokenizations, and the scanners on any text.
-/

namespace TagLayers

/-- A search by a loop. -/
structure Scanner where
  /-- What the loop knows of the text before an offset. -/
  State : Type
  start : State
  /-- How many characters to take at an offset, if any. -/
  find : State → Text → Option Nat
  pass : State → Char → State
  jump : State → Text → State

namespace Scanner

/-- The search without offsets. -/
def pieces (scanner : Scanner) (text : Text) : List Piece :=
  Piece.search scanner.find scanner.pass scanner.jump scanner.start text

/-- The ranges that the loop finds from an offset on, when it ends within some rounds and slices the
text at boundaries only. -/
def loopFrom (scanner : Scanner) (text : Text) : Nat → scanner.State → Nat → Option (List Span)
  | 0, _, _ => none
  | rounds + 1, s, pos =>
      match text.slice? pos text.byteLen with
      | none => none
      | some [] => some []
      | some (c :: rest) =>
          match scanner.find s (c :: rest) with
          | none => loopFrom scanner text rounds (scanner.pass s c) (pos + c.utf8Size)
          | some n =>
              if rest.length + 1 < n then none
              else
                let t : Text := (c :: rest).take n
                (loopFrom scanner text rounds (scanner.jump s t) (pos + t.byteLen)).map
                  (⟨pos, pos + t.byteLen⟩ :: ·)

/-- The loop over a whole text. -/
def loop (scanner : Scanner) (text : Text) (rounds : Nat) : Option (List Span) :=
  scanner.loopFrom text rounds scanner.start 0

/-- No stretch is empty or goes past the end of the text. -/
def Advances (scanner : Scanner) : Prop :=
  ∀ s text n, scanner.find s text = some n → 0 < n ∧ n ≤ text.length

end Scanner

theorem Text.slice?_byteLen_append (before rest : Text) :
    (before ++ rest).slice? before.byteLen (before ++ rest).byteLen = some rest := by
  have hslice := Text.slice_byteLen_append before rest []
  have hend := Text.isBoundary_byteLen (before ++ rest) []
  rw [List.append_nil] at hslice hend
  rw [← Text.byteLen_append] at hslice
  unfold Text.slice?
  rw [if_pos, hslice]
  rw [Text.isBoundary_byteLen, hend, Text.byteLen_append]
  simp

namespace Scanner

variable {scanner : Scanner} {text : Text} {rounds : Nat}

theorem loopFrom_eq (h : scanner.Advances) (s : scanner.State) {before rest : Text}
    (htext : before ++ rest = text) (hrounds : rest.length < rounds) :
    scanner.loopFrom text rounds s before.byteLen = some (Piece.ranges before.byteLen
      (Piece.search scanner.find scanner.pass scanner.jump s rest)) := by
  induction rounds generalizing s before rest with
  | zero => exact absurd hrounds (Nat.not_lt_zero _)
  | succ rounds ih =>
    have later (s : scanner.State) {t tail : Text} (hsplit : rest = t ++ tail) (ht : t ≠ []) :
        scanner.loopFrom text rounds s (before.byteLen + t.byteLen)
          = some (Piece.ranges (before.byteLen + t.byteLen)
            (Piece.search scanner.find scanner.pass scanner.jump s tail)) := by
      have hpos := List.length_pos_iff.mpr ht
      rw [hsplit, List.length_append] at hrounds
      rw [hsplit, ← List.append_assoc] at htext
      rw [← Text.byteLen_append]
      exact ih s htext (by omega)
    subst htext
    rw [loopFrom, Text.slice?_byteLen_append]
    cases rest with
    | nil =>
      rw [Piece.search]
      rfl
    | cons c rest =>
      dsimp only
      cases hfind : scanner.find s (c :: rest) with
      | none =>
        rw [Piece.search_plain hfind]
        exact later (scanner.pass s c) (t := [c]) rfl (List.cons_ne_nil c [])
      | some n =>
        obtain ⟨hpos, hle⟩ := h s _ n hfind
        obtain ⟨m, rfl⟩ := Nat.exists_eq_add_one.mpr hpos
        obtain ⟨body, tail, rfl, rfl⟩ : ∃ body tail, rest = body ++ tail ∧ body.length = m :=
          ⟨_, _, (List.take_append_drop m rest).symm,
            List.length_take_of_le (Nat.le_of_succ_le_succ hle)⟩
        have htake : (c :: (body ++ tail)).take (body.length + 1) = c :: body :=
          congrArg (c :: ·) List.take_left
        have hguard : ¬(body ++ tail).length + 1 < body.length + 1 := Nat.not_lt.mpr hle
        dsimp only
        rw [if_neg hguard, Piece.search_found hfind, htake,
          later (scanner.jump s (c :: body)) rfl (List.cons_ne_nil c body)]
        rfl

/-- A loop that takes no empty stretch ends with the ranges of the search. -/
theorem loop_eq (h : scanner.Advances) (hrounds : text.length < rounds) :
    scanner.loop text rounds = some (Piece.ranges 0 (scanner.pieces text)) :=
  loopFrom_eq h scanner.start (List.nil_append text) hrounds

/-- A loop that takes an empty stretch, and forgets that it did, does not end. -/
theorem loop_of_empty {c : Char} {rest : Text}
    (hfind : scanner.find scanner.start (c :: rest) = some 0)
    (hjump : scanner.jump scanner.start [] = scanner.start) (rounds : Nat) :
    scanner.loop (c :: rest) rounds = none := by
  unfold loop
  induction rounds with
  | zero => rfl
  | succ rounds ih =>
    have hslice : Text.slice? 0 (Text.byteLen (c :: rest)) (c :: rest) = some (c :: rest) :=
      Text.slice?_byteLen_append [] (c :: rest)
    rw [loopFrom, hslice]
    dsimp only
    rw [hfind]
    dsimp only
    rw [if_neg (Nat.not_lt_zero _), List.take_zero, hjump]
    exact congrArg _ ih

end Scanner

/-! ## The scanners of a tokenizer -/

namespace Lexicon

variable {lex : Lexicon} {text : Text}

/-- The scanner for stretches that start outside of strings. -/
def outsideScanner (lex : Lexicon) (find : Text → Option Nat) : Scanner where
  State := StringState
  start := .outside
  find s rest := if s = .outside ∧ rest.head? ≠ some lex.quote then find rest else none
  pass := StringState.next lex.quote lex.escape
  jump s _ := s

def stringScanner (lex : Lexicon) : Scanner where
  State := Unit
  start := ()
  find _ rest := lex.stringAt? rest
  pass s _ := s
  jump s _ := s

theorem advances_outsideScanner {find : Text → Option Nat}
    (h : ∀ text n, find text = some n → 0 < n ∧ n ≤ text.length) :
    (lex.outsideScanner find).Advances := by
  intro s text n hfind
  unfold outsideScanner at hfind
  dsimp only at hfind
  split at hfind
  · exact h text n hfind
  · cases hfind

theorem lineCommentAt?_bounds {mark : Text} (hmark : mark ≠ []) {n : Nat}
    (h : lineCommentAt? mark text = some n) : 0 < n ∧ n ≤ text.length := by
  unfold lineCommentAt? at h
  split at h
  · next hprefix =>
    obtain rfl := Option.some.inj h
    obtain ⟨tail, rfl⟩ := List.isPrefixOf_iff_prefix.mp hprefix
    have hpos := List.length_pos_iff.mpr hmark
    have hline : lineLength tail ≤ tail.length := (List.takeWhile_sublist _).length_le
    rw [List.drop_left, List.length_append]
    omega
  · cases h

theorem directiveAt?_bounds {mark : Text} (hmark : mark ≠ []) {n : Nat}
    (h : directiveAt? mark text = some n) : 0 < n ∧ n ≤ text.length := by
  unfold directiveAt? at h
  split at h
  · cases h
  · exact lineCommentAt?_bounds hmark h

theorem stringLength_le (quote escape : Char) (b : Bool) (text : Text) :
    stringLength quote escape b text ≤ text.length := by
  induction text generalizing b with
  | nil => cases b <;> exact Nat.le_refl 0
  | cons c rest ih =>
    rw [List.length_cons, Nat.add_comm]
    cases b with
    | true => exact Nat.add_le_add_left (ih false) 1
    | false =>
      unfold stringLength
      split
      · exact Nat.add_le_add_left (ih true) 1
      · split
        · exact Nat.le_add_right 1 _
        · exact Nat.add_le_add_left (ih false) 1

theorem advances_stringScanner (lex : Lexicon) : lex.stringScanner.Advances := by
  intro s text n hfind
  change lex.stringAt? text = some n at hfind
  unfold stringAt? at hfind
  split at hfind
  · cases hfind
  · next c rest =>
    split at hfind
    · obtain rfl := Option.some.inj hfind
      have hle := stringLength_le lex.quote lex.escape false rest
      rw [List.length_cons]
      omega
    · cases hfind

/-- A directive with an empty mark keeps the loop at the start of an empty line. -/
theorem loop_of_emptyMark (hquote : lex.quote ≠ '\n') (rest : Text) (rounds : Nat) :
    (lex.outsideScanner (directiveAt? [])).loop ('\n' :: rest) rounds = none := by
  refine Scanner.loop_of_empty ?_ rfl rounds
  have hhead : ('\n' :: rest).head? ≠ some lex.quote := fun h => hquote (Option.some.inj h).symm
  exact if_pos ⟨rfl, hhead⟩

example : (({} : Lexicon).outsideScanner (directiveAt? [])).loop "\nx".toList 5 = none := by decide

/-! ## Marks of a valid lexicon -/

theorem ne_nil_of_checkTable {part : LexiconPart} {seen : List TagValue}
    {table : List (String × TagValue)} (h : checkTable part seen table = .ok ()) :
    ∀ entry ∈ table, entry.1.toList ≠ [] := by
  induction table generalizing seen with
  | nil => exact List.forall_mem_nil _
  | cons entry rest ih =>
    obtain ⟨mark, id⟩ := entry
    unfold checkTable at h
    split at h
    · cases h
    · next hmark =>
      split at h
      · cases h
      · refine List.forall_mem_cons.mpr ⟨?_, ih h⟩
        rw [String.isEmpty_iff] at hmark
        exact mt String.toList_eq_nil_iff.mp hmark

theorem tables_of_validate (h : lex.validate = .ok ()) :
    checkTable .keywords [] lex.keywords = .ok () ∧
      checkTable .reserved [] (lex.reserved.map fun r : Reserved => (r.symbol, r.id)) = .ok () ∧
      checkTable .directives [] lex.directives = .ok () := by
  suffices htables : (do
      checkTable .keywords [] lex.keywords
      checkTable .reserved [] (lex.reserved.map fun r : Reserved => (r.symbol, r.id))
      checkTable .directives [] lex.directives) = .ok () by
    obtain ⟨_, hkeywords, hlater⟩ := bind_eq_ok.mp htables
    obtain ⟨_, hreserved, hdirectives⟩ := bind_eq_ok.mp hlater
    exact ⟨hkeywords, hreserved, hdirectives⟩
  unfold validate at h
  by_cases hline : lex.lineComment = some ""
  · rw [if_pos hline] at h
    cases h
  · rw [if_neg hline] at h
    cases hblock : lex.blockComment with
    | none =>
      rw [hblock] at h
      exact h
    | some marks =>
      rw [hblock] at h
      dsimp only at h
      split at h
      · cases h
      · exact h

theorem ne_nil_of_validate (h : lex.validate = .ok ()) :
    ∀ d ∈ lex.directives, d.1.toList ≠ [] :=
  ne_nil_of_checkTable (tables_of_validate h).2.2

/-- The scanners of comments, directives and strings. -/
def scanners (lex : Lexicon) : List Scanner :=
  lex.outsideScanner lex.commentAt?
    :: (Tokenizer.longestFirst Prod.fst lex.directives).map
      (fun d => lex.outsideScanner (directiveAt? d.1.toList))
    ++ [lex.stringScanner]

theorem advances_of_mem_scanners (h : lex.validate = .ok ()) :
    ∀ scanner ∈ lex.scanners, scanner.Advances := by
  have hmarked := marked_of_validate h
  intro scanner hscanner
  rcases List.mem_append.mp hscanner with hscanner | hscanner
  · rcases List.mem_cons.mp hscanner with rfl | hscanner
    · exact advances_outsideScanner fun _ _ hat => commentAt?_bounds hmarked hat
    · obtain ⟨d, hd, rfl⟩ := List.mem_map.mp hscanner
      rw [Tokenizer.longestFirst, List.mem_mergeSort] at hd
      exact advances_outsideScanner fun _ _ hat =>
        directiveAt?_bounds (ne_nil_of_validate h d hd) hat
  · obtain rfl := List.mem_singleton.mp hscanner
    exact lex.advances_stringScanner

end Lexicon

namespace Tokenizer

/-- The first three passes of the tokenizer of a lexicon search as its scanners do. -/
theorem pieces_scanners {lex : Lexicon} {engine : Engine} {t : Tokenizer}
    (h : ofLexicon lex engine = .ok t) :
    lex.scanners.map Scanner.pieces
      = (t.passes.take 3).flatMap fun pass => pass.rules.map (·.find) := by
  obtain ⟨-, rfl, hlongest⟩ := ofLexicon_eq_ok h
  unfold passes Lexicon.scanners
  rw [← hlongest]
  simp only [List.take, List.flatMap_cons, List.flatMap_nil, List.map_cons, List.map_nil,
    List.map_append, List.map_map]
  rfl

/-- A tokenization writes its perspectives and no other. -/
theorem isSome_get?_tokenize {t : Tokenizer} {source : Source} {text : TaggedText}
    (h : t.tokenize source = .ok text) (name : String) :
    (text.perspectives.get? name).isSome ↔ name ∈ perspectiveNames := by
  obtain ⟨text', htext', -, -, hall⟩ := t.tokenize_ok source
  cases h.symm.trans htext'
  refine ⟨fun hsome => Decidable.byContradiction fun hname => ?_, hall name⟩
  have htop : name ≠ TaggedText.top := fun heq => hname (heq ▸ List.mem_cons_self)
  have hnot : name ∉ t.passes.map (·.target) := fun hmem => hname (List.mem_cons_of_mem _ hmem)
  rw [get?_runPasses h hnot, TaggedText.ofSource, NameTable.get?_insert, if_neg htop] at hsome
  cases hsome

/-- Tokenizations never fail, whatever finds the symbols: all perspectives are there, each complete
and with the text of the source in its tokens. A lexicon of which some engine makes a tokenizer is
valid, and its scanners are the searches of the first three passes. The scanners of a valid lexicon
end on every text, and find stretches that are not empty, one after the other, within the text and
between characters. -/
theorem tokenize_ends :
    (∀ (t : Tokenizer) (source : Source), ∃ text, t.tokenize source = .ok text ∧
      (∀ name, (text.perspectives.get? name).isSome ↔ name ∈ perspectiveNames) ∧
      ∀ name p, text.perspectives.get? name = some p → p.isComplete = true ∧
        p.length = source.length ∧
        ∃ tokens, text.tokens name = .ok tokens ∧ tokens.flatMap (·.text) = source.text) ∧
    (∀ lex engine t, ofLexicon lex engine = .ok t → lex.validate = .ok () ∧
      lex.scanners.map Scanner.pieces
        = (t.passes.take 3).flatMap fun pass => pass.rules.map (·.find)) ∧
    ∀ lex : Lexicon, lex.validate = .ok () → ∀ scanner ∈ lex.scanners, ∀ text : Text, ∃ spans,
      (∀ rounds, text.length < rounds → scanner.loop text rounds = some spans) ∧
      spans = Piece.ranges 0 (scanner.pieces text) ∧
      Span.inOrder text.byteLen 0 spans = true ∧
      ∀ s ∈ spans, text.isBoundary s.start = true ∧ text.isBoundary s.stop = true := by
  refine ⟨fun t source => ?_, fun lex engine t h => ⟨(ofLexicon_eq_ok h).1, pieces_scanners h⟩,
    fun lex hvalid scanner hscanner text => ?_⟩
  · obtain ⟨text, htext, hsound, rfl, -⟩ := t.tokenize_ok source
    refine ⟨text, htext, isSome_get?_tokenize htext, fun name p hp => ?_⟩
    have hfits := hsound name p hp
    exact ⟨hfits.filled.isComplete, hfits.length, _, TaggedText.tokens_eq hp hfits,
      hfits.join_tokens⟩
  · have hadvances := Lexicon.advances_of_mem_scanners hvalid scanner hscanner
    have hjoin : Piece.join (scanner.pieces text) = text := Piece.join_search _ _ _ _ text
    refine ⟨_, fun rounds hrounds => Scanner.loop_eq hadvances hrounds, rfl, ?_, fun s hs => ?_⟩
    · have hend : 0 + (Piece.join (scanner.pieces text)).byteLen = text.byteLen := by
        rw [hjoin, Nat.zero_add]
      have hnone : Span.inOrder text.byteLen text.byteLen [] = true := rfl
      have hordered := Interval.inOrder_ranges (Nat.le_refl 0) hend (Nat.le_refl _) hnone
      rwa [List.append_nil] at hordered
    · obtain ⟨a, u, b, htext, -, hstart, hstop⟩ := Piece.exists_of_mem_ranges hs
      rw [hjoin] at htext
      rw [Nat.zero_add] at hstart
      refine ⟨?_, ?_⟩
      · rw [← htext, ← hstart]
        exact Text.isBoundary_byteLen a (u ++ b)
      · rw [← htext, ← hstop, ← hstart, ← Text.byteLen_append, ← List.append_assoc]
        exact Text.isBoundary_byteLen (a ++ u) b

/-- A lexicon whose directives have a mark of two bytes, with a symbol that is found by an
expression that the standard engine does not take. -/
def letterLexicon : Lexicon :=
  { directives := [("é", 1)], reserved := [⟨"letters", 1, some "\\p\x7bL\x7d+"⟩] }

example : (Engine.standard "\\p\x7bL\x7d+".toList).isNone = true := by decide +kernel

/-- An engine for runs of letters. -/
def letterEngine : Engine := fun pattern =>
  if pattern = "\\p\x7bL\x7d+".toList then
    some ⟨Piece.search (fun (_ : Unit) rest => some (rest.takeWhile Unicode.isAlphabetic).length)
      (fun s _ => s) (fun s _ => s) (), Piece.join_search _ _ _ _⟩
  else none

theorem tokenize_ends_letterLexicon :
    ∃ t, ofLexicon letterLexicon letterEngine = .ok t ∧
      (∃ text, t.tokenize ⟨"letters", "\"é\"é x\né".toList⟩ = .ok text ∧
        (text.perspectives.get? "reserved").isSome) ∧
      letterLexicon.validate = .ok () ∧ ∃ scanner ∈ letterLexicon.scanners,
        ∀ rounds, 8 < rounds →
          scanner.loop "\"é\"é x\né".toList rounds = some [⟨4, 8⟩, ⟨9, 11⟩] := by
  obtain ⟨htokenize, htokenizer, hscanners⟩ := tokenize_ends
  have hletters : letterLexicon.validate = .ok () := rfl
  obtain ⟨t, ht, -⟩ := ofLexicon_ok letterEngine hletters (by decide) rfl
  obtain ⟨hvalid, -⟩ := htokenizer _ _ t ht
  obtain ⟨text, htext, hnames, -⟩ := htokenize t ⟨"letters", "\"é\"é x\né".toList⟩
  refine ⟨t, ht, ⟨text, htext, (hnames _).mpr (by decide)⟩, hvalid, ?_⟩
  have hscanner : letterLexicon.outsideScanner (Lexicon.directiveAt? ['é'])
      ∈ letterLexicon.scanners := by
    rw [Lexicon.scanners, letterLexicon, longestFirst, List.mergeSort_singleton]
    exact .tail _ (.head _)
  obtain ⟨spans, hloop, hspans, -⟩ := hscanners _ hvalid _ hscanner "\"é\"é x\né".toList
  refine ⟨_, hscanner, fun rounds hrounds => (hloop rounds hrounds).trans ?_⟩
  rw [hspans]
  cbv

end Tokenizer

end TagLayers
