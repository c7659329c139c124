import TagLayers.Proofs.Pattern.Calls
import TagLayers.Proofs.Pattern.Simulation
import TagLayers.Proofs.Pattern.Words

/-!
# Matches are words

While an automaton is fed, the tokens of its attempt are the beginning of a word of its pattern:
with whatever completes the pattern from the cursor on, they are a word. The tokens of an attempt
are the last ones that were fed, without a gap, so a match is a run of the stream, but for the
tokens that collecting entries have left out.

Results:
1. `StepRule.writing`: every rule of a step keeps the tokens of the attempt the beginning of a word.
2. `writing_feed`, `writing_finish`: so do feeding a token and ending the stream.
3. `matches_are_words`: each match that comes of a stream is a word of the pattern.
-/

namespace TagLayers

/-- The token does not trip the guard of its entry, or hits it, or is a closer at an entry for
regions. -/
def Letter.Clean (pairs : PairTable) (l : Letter) : Prop :=
  l.entry.guardHolds l.token = true → l.entry.hits l.token = true ∨
    (l.entry.mode = .complete ∧
      ∃ closer, pairs.closer? l.entry.target = some closer ∧ l.token.tag.meets closer = true)

/-- The indices of the letters that are kept. -/
def keptIndices (word : List Letter) : List Nat := (word.filter (·.kept)).map (·.index)

/-- A match is spelled by a word: the word is one of the pattern and a run of the tokens fed, its
kept letters are the match, and no letter after the first trips a guard. -/
structure Spells (pairs : PairTable) (p : Pattern) (fed : List (Token × Nat)) (run : List Nat)
    (word : List Letter) : Prop where
  isWord : word ∈ p.words pairs
  kept : keptIndices word = run
  stretch : word.map Letter.fed <:+: fed
  clean : ∀ l ∈ word.tail, l.Clean pairs

theorem Spells.append {pairs : PairTable} {p : Pattern} {fed : List (Token × Nat)} {run : List Nat}
    {word : List Letter} (h : Spells pairs p fed run word) (more : List (Token × Nat)) :
    Spells pairs p (fed ++ more) run word :=
  { h with stretch := h.stretch.trans (List.prefix_append fed more).isInfix }

namespace Automaton

/-- The automaton has been fed the tokens `fed`; `words` spell its completed matches and `word` is
what its attempt has of a word so far. -/
structure Writing (pairs : PairTable) (fed : List (Token × Nat)) (words : List (List Letter))
    (word : List Letter) (a : Automaton) : Prop where
  done : List.Forall₂ (Spells pairs a.pattern fed) a.completed.toList words
  order : ((words.flatten ++ word).map Letter.fed).Sublist fed
  /-- The letters of the attempt are the last tokens fed. -/
  stretch : word.map Letter.fed <:+ fed
  kept : keptIndices word = a.attempt.buffer.toList
  clean : ∀ l ∈ word.tail, l.Clean pairs
  idle : a.attempt.started = false → word = []
  region : ∀ region, a.attempt.region = some region → ∃ e, a.attempt.cursor.current? = some e ∧
    e.mode = .complete ∧ pairs.closer? e.target = some region.closer
  /-- What completes the pattern from the cursor on completes the word. -/
  rest : ∀ w ∈ a.attempt.cursor.words pairs a.attempt.region, word ++ w ∈ a.pattern.words pairs

variable {pairs : PairTable} {fed : List (Token × Nat)} {words : List (List Letter)}
  {word : List Letter} {a : Automaton}

theorem writing_reset (pairs : PairTable) (a : Automaton) : Writing pairs [] [] [] a.reset where
  done := .nil
  order := List.Sublist.refl _
  stretch := List.suffix_refl _
  kept := rfl
  clean := fun _ h => nomatch h
  idle := fun _ => rfl
  region := fun _ h => nomatch h
  rest := fun _ hw => Cursor.words_start pairs a.pattern hw

/-- An automaton whose attempt is new may be fed tokens that it does not use. -/
theorem Writing.unused (h : Writing pairs fed words word a) (more : List (Token × Nat)) :
    Writing pairs (fed ++ more) words [] a.restart where
  done := h.done.imp fun _ _ hs => hs.append more
  order := by
    have hwords : ((words.flatten ++ []).map Letter.fed).Sublist
        ((words.flatten ++ word).map Letter.fed) :=
      ((List.Sublist.refl _).append (List.nil_sublist _)).map _
    exact hwords.trans (h.order.trans (List.sublist_append_left fed more))
  stretch := List.nil_suffix
  kept := rfl
  clean := fun _ hl => nomatch hl
  idle := fun _ => rfl
  region := fun _ hr => nomatch hr
  rest := fun _ hw => Cursor.words_start pairs a.pattern hw

/-- A word that is complete spells the match that is stored, if there is one. -/
theorem Writing.complete (h : Writing pairs fed words word a) (hw : word ∈ a.pattern.words pairs)
    (more : List (Token × Nat)) :
    ∃ words', Writing pairs (fed ++ more) words' [] a.complete := by
  have hunused := h.unused more
  by_cases hb : a.attempt.buffer = #[]
  · have hsame : a.complete.completed = a.completed := by simp [Automaton.complete, hb]
    refine ⟨words, { hunused with done := ?_ }⟩
    rw [hsame]
    exact hunused.done
  · have hspells : Spells pairs a.pattern (fed ++ more) a.attempt.buffer.toList word :=
      Spells.append ⟨hw, h.kept, h.stretch.isInfix, h.clean⟩ more
    refine ⟨words ++ [word], { hunused with done := ?_, order := ?_ }⟩
    · have hlast : a.complete.completed.toList
          = a.completed.toList ++ [a.attempt.buffer.toList] := by simp [Automaton.complete, hb]
      rw [hlast]
      exact List.rel_append hunused.done (.cons hspells .nil)
    · have horder := h.order.trans (List.sublist_append_left fed more)
      simpa using horder

/-- An attempt past the last entry is a word. -/
theorem Writing.isWord (h : Writing pairs fed words word a)
    (hp : a.attempt.cursor.isPast = true) : word ∈ a.pattern.words pairs := by
  have hnil : [] ∈ a.attempt.cursor.words pairs a.attempt.region := by
    rw [Cursor.words_of_past hp]
    exact Language.nil_mem_one
  have hword := h.rest [] hnil
  rwa [List.append_nil] at hword

/-- What the automaton has been fed after a move: the token, once it is done with. -/
def fedAfter (fed : List (Token × Nat)) (token : Token) (i : Nat) : Move → List (Token × Nat)
  | .next => fed ++ [(token, i)]
  | .again | .mismatch _ => fed

/-- After a move there are words for the matches and the attempt. -/
def Follows (pairs : PairTable) (fed : List (Token × Nat)) (token : Token) (i : Nat)
    (x : Automaton × Move) : Prop :=
  ∃ words word, Writing pairs (fedAfter fed token i x.2) words word x.1

theorem follows_restart (h : Writing pairs fed words word a) (token : Token) (i : Nat) :
    Follows pairs fed token i (a.restart, .next) :=
  ⟨words, [], h.unused _⟩

/-- The cursor moves on without the token. -/
theorem follows_moveTo (h : Writing pairs fed words word a) (hr : a.attempt.region = none)
    {cursor : Cursor} (hle : cursor.words pairs none ≤ a.attempt.cursor.words pairs none)
    (token : Token) (i : Nat) : Follows pairs fed token i (a.moveTo cursor false) := by
  have hr' : ({ a.attempt with cursor } : Attempt).region = none := hr
  have hmoved : Writing pairs fed words word { a with attempt := { a.attempt with cursor } } :=
    { h with
      region := fun _ hreg => nomatch hr'.symm.trans hreg
      rest := fun w hw => by
        rw [hr'] at hw
        exact h.rest w (by rw [hr]; exact hle hw) }
  rcases a.moveTo_cases cursor false with ⟨hp, hm⟩ | ⟨-, hm⟩ <;> rw [hm]
  · obtain ⟨words', hw⟩ := hmoved.complete (hmoved.isWord hp) [(token, i)]
    exact ⟨words', [], hw⟩
  · exact ⟨words, word, hmoved⟩

theorem follows_miss (h : Writing pairs fed words word a) (hr : a.attempt.region = none)
    (token : Token) (i : Nat) : Follows pairs fed token i a.miss := by
  rcases a.miss_cases with ⟨cursor, hskip, hm⟩ | ⟨-, hm⟩ <;> rw [hm]
  · exact follows_moveTo h hr (Cursor.words_skip hskip none) token i
  · exact follows_restart h token i

/-- An automaton whose attempt goes on with one more letter. -/
theorem Writing.write (h : Writing pairs fed words word a) {b : Automaton} {l : Letter}
    (hsame : b.pattern = a.pattern ∧ b.completed = a.completed)
    (hclean : a.attempt.started = true → l.Clean pairs)
    (hbuffer : b.attempt.buffer.toList = a.attempt.buffer.toList ++ keptIndices [l])
    (hstarted : b.attempt.started = true)
    (hregion : ∀ region, b.attempt.region = some region → ∃ e,
      b.attempt.cursor.current? = some e ∧ e.mode = .complete ∧
        pairs.closer? e.target = some region.closer)
    (hrest : ∀ w ∈ b.attempt.cursor.words pairs b.attempt.region,
      l :: w ∈ a.attempt.cursor.words pairs a.attempt.region) :
    Writing pairs (fed ++ [l.fed]) words (word ++ [l]) b where
  done := by
    rw [hsame.1, hsame.2]
    exact h.done.imp fun _ _ hs => hs.append _
  order := by
    rw [← List.append_assoc, List.map_append]
    exact h.order.append (List.Sublist.refl _)
  stretch := by
    obtain ⟨before, hbefore⟩ := h.stretch
    exact ⟨before, by rw [List.map_append, ← List.append_assoc, hbefore]; rfl⟩
  kept := by
    rw [hbuffer, ← h.kept]
    simp [keptIndices]
  clean := by
    intro m hm
    cases word with
    | nil => cases hm
    | cons first later =>
      rcases List.mem_append.mp hm with hm | hm
      · exact h.clean m hm
      · rw [List.mem_singleton.mp hm]
        refine hclean ?_
        by_contra hidle
        exact nomatch h.idle (Bool.eq_false_of_not_eq_true hidle)
  idle := fun hidle => nomatch hstarted.symm.trans hidle
  region := hregion
  rest := fun w hw => by
    rw [hsame.1, List.append_assoc]
    exact h.rest (l :: w) (hrest w hw)

/-- The entry is done with after the last letter. -/
theorem follows_advance (token : Token) (i : Nat)
    (h : Writing pairs (fed ++ [(token, i)]) words word
      { a with attempt := { a.attempt with cursor := a.attempt.cursor.advance } }) :
    Follows pairs fed token i (a.advance true) := by
  rw [advance]
  rcases a.moveTo_cases a.attempt.cursor.advance true with ⟨hp, hm⟩ | ⟨-, hm⟩ <;> rw [hm]
  · obtain ⟨words', hw⟩ := h.complete (h.isWord hp) []
    rw [List.append_nil] at hw
    exact ⟨words', [], hw⟩
  · exact ⟨words, word, h⟩

/-- A token that is used and does not trip its guard is a clean letter. -/
theorem clean_of_not_trips (h : Writing pairs fed words word a) (hs : a.Sound) {e : TagEntry}
    {token : Token} (hc : a.attempt.cursor.current? = some e) (ht : a.trips e token = false)
    (hm : e.isOptional = true → e.hits token = true) (i : Nat) (kept : Bool)
    (hstarted : a.attempt.started = true) : Letter.Clean pairs ⟨token, i, e, kept⟩ := by
  intro hguard
  by_contra hno
  obtain ⟨hhit, hclose⟩ := not_or.mp hno
  rw [Bool.not_eq_true] at hhit
  have hopt : e.isOptional = false := by
    rw [← Bool.not_eq_true]
    exact fun ho => Bool.false_ne_true (hhit.symm.trans (hm ho))
  have hnot : a.closes token = false := by
    cases hin : a.attempt.inside with
    | false => exact closes_of_outside hin token
    | true =>
      obtain ⟨region, hr⟩ := hs.exists_region hin
      obtain ⟨e', he', hmode, hcl⟩ := h.region region hr
      cases hc.symm.trans he'
      rw [closes_of_region hr, ← Bool.not_eq_true]
      exact fun hmeets => hclose ⟨hmode, region.closer, hcl, hmeets⟩
  rw [trips, hstarted, hopt, hhit, hnot, hguard] at ht
  cases ht

/-- Every rule of a step keeps the tokens of the attempt the beginning of a word. -/
theorem StepRule.writing {e : TagEntry} {i : Nat} {token : Token} {x : Automaton × Move}
    (h : StepRule a e i token pairs x) (hs : a.Sound) (hc : a.attempt.cursor.current? = some e)
    (hw : Writing pairs fed words word a) : Follows pairs fed token i x := by
  have hnone (hm : e.mode ≠ .complete) : a.attempt.region = none := hs.region_eq_none hc hm
  have hpush : (a.attempt.buffer.push i).toList
      = a.attempt.buffer.toList ++ keptIndices [⟨token, i, e, true⟩] := by
    simp [keptIndices]
  have hcurrent : a.attempt.cursor.consume.current? = some e := by
    rw [Cursor.current?_consume, hc]
  cases h with
  | trip =>
    have hnew := hw.unused []
    rw [List.append_nil] at hnew
    exact ⟨words, [], hnew⟩
  | pass _ hm =>
    exact follows_moveTo hw (hnone (by rw [hm]; decide)) (Cursor.words_pass hc hm) token i
  | take ht hm hit =>
    have hr := hnone (by rcases hm with hm | hm | hm <;> rw [hm] <;> decide)
    refine follows_advance token i (hw.write (l := ⟨token, i, e, true⟩) ⟨rfl, rfl⟩
      (clean_of_not_trips hw hs hc ht (fun _ => hit) i true) hpush rfl
      (fun region hreg => absurd (hreg.symm.trans hr) (Option.some_ne_none region))
      fun w hrest => ?_)
    exact Cursor.cons_words_advance hc
      (hr.symm ▸ TagEntry.singleton_mem_rest ⟨rfl, rfl⟩ hit hm) (hr ▸ hrest)
  | gather ht hm hit =>
    have hr := hnone (by rcases hm with hm | hm <;> rw [hm] <;> decide)
    have hopt : e.isOptional = true → e.hits token = true := by
      rcases hm with hm | hm <;> simp [TagEntry.isOptional, hm]
    refine ⟨words, _, hw.write (l := ⟨token, i, e, true⟩) ⟨rfl, rfl⟩
      (clean_of_not_trips hw hs hc ht hopt i true) hpush rfl
      (fun region hreg => absurd (hreg.symm.trans hr) (Option.some_ne_none region))
      fun w hrest => ?_⟩
    refine Cursor.cons_words hc (fun v hv => ?_) hrest
    rw [show (a.consume i).attempt.region = none from hr] at hv
    rw [hr]
    exact TagEntry.cons_mem_rest_of_collecting (e := e) ⟨rfl, rfl⟩ hit hm hv
  | drop ht hm hit =>
    have hr := hnone (by rw [hm]; decide)
    refine follows_advance token i (hw.write (l := ⟨token, i, e, false⟩) ⟨rfl, rfl⟩
      (clean_of_not_trips hw hs hc ht (fun _ => hit) i false) (List.append_nil _).symm rfl
      (fun region hreg => absurd (hreg.symm.trans hr) (Option.some_ne_none region))
      fun w hrest => ?_)
    have hword : e.Word pairs ([] ++ [⟨token, i, e, false⟩]) :=
      .collectDrop hm (List.forall_mem_nil _) ⟨rfl, rfl⟩ hit
    exact Cursor.cons_words_advance hc (hr.symm ▸ hword) (hr ▸ hrest)
  | miss _ hm =>
    refine follows_miss hw ?_ token i
    rcases hm with hm | ⟨-, hr⟩
    · exact hnone (by rw [hm]; decide)
    · exact Attempt.region_of_outside hr
  | @enter closer ht hm hr hit hcl =>
    refine ⟨words, _, hw.write (l := ⟨token, i, e, true⟩) ⟨rfl, rfl⟩
      (clean_of_not_trips hw hs hc ht (fun _ => hit) i true) hpush rfl ?_ fun w hrest => ?_⟩
    · intro region hreg
      cases hreg
      exact ⟨e, hcurrent, hm, hcl⟩
    · refine Cursor.cons_words hc (fun v hv => ?_) hrest
      rw [Attempt.region_of_outside hr]
      exact .region hm hcl hit (List.forall_mem_cons.mpr ⟨⟨rfl, rfl⟩, hv.1⟩) hv.2
  | inside ht hm hopen =>
    obtain ⟨region, hr⟩ := hs.exists_region hopen
    obtain ⟨hd, -⟩ := hs.region hr
    have hcl : pairs.closer? e.target = some region.closer := by
      obtain ⟨e', he', -, hcl⟩ := hw.region region hr
      cases hc.symm.trans he'
      exact hcl
    have hclean := clean_of_not_trips hw hs hc ht (by simp [TagEntry.isOptional, hm]) i true
    rcases a.takeInside_cases e i token pairs with ⟨h0, hin⟩ | ⟨h0, hin⟩ <;>
      rw [hin] <;> rw [depthAfter_eq hr] at h0
    · refine follows_advance token i (hw.write (l := ⟨token, i, e, true⟩) ⟨rfl, rfl⟩ hclean hpush
        rfl (fun region hreg => absurd hreg.symm (Option.some_ne_none region)) fun w hrest => ?_)
      refine Cursor.cons_words_advance hc ?_ hrest
      rw [hr]
      exact TagEntry.cons_mem_rest hd ⟨rfl, rfl⟩ (List.forall_mem_nil _)
        (h0 ▸ TagEntry.closes_nil pairs e region.closer)
    · have hdeeper := region_setDepth (a := a.consume i) hr (a.depthAfter e token pairs)
      refine ⟨words, _, hw.write (l := ⟨token, i, e, true⟩) ⟨rfl, rfl⟩ hclean hpush rfl ?_
        fun w hrest => ?_⟩
      · intro region' hreg
        cases hdeeper.symm.trans hreg
        exact ⟨e, hcurrent, hm, hcl⟩
      · refine Cursor.cons_words hc (fun v hv => ?_) hrest
        rw [hdeeper] at hv
        rw [hr]
        exact TagEntry.cons_mem_rest hd ⟨rfl, rfl⟩ hv.1 (depthAfter_eq hr e token pairs ▸ hv.2)

/-! ## Streams -/

/-- There are words for the completed matches and for the attempt. -/
def Spelled (pairs : PairTable) (fed : List (Token × Nat)) (a : Automaton) : Prop :=
  a.Sound ∧ ∃ words word, Writing pairs fed words word a

variable {b : Automaton} {i : Nat} {token : Token}

theorem spelled_step (h : Spelled pairs fed a) {move : Move}
    (hstep : a.step i token pairs = .ok (b, move)) :
    Spelled pairs (fedAfter fed token i move) b := by
  obtain ⟨hs, words, word, hw⟩ := h
  refine ⟨sound_step hs hstep, ?_⟩
  rcases step_rule hstep with ⟨hc, rfl, rfl⟩ | ⟨e, hc, hr⟩
  · -- with no entry under the cursor the attempt is a new one, and stays so
    have hnew : b.restart = b := by rw [restart, ← hs.idle (Cursor.isPast_of_current?_none hc)]
    exact ⟨words, [], hnew ▸ hw.unused [(token, i)]⟩
  · exact hr.writing hs hc hw

theorem spelled_run (h : Spelled pairs fed a) {result : Option Tag}
    (hrun : a.run i token pairs = (b, .ok result)) :
    Spelled pairs (if result.isSome then fed else fed ++ [(token, i)]) b := by
  fun_induction run a i token pairs with
  | case1 a e hstep => cases hrun
  | case2 a c hstep =>
    cases hrun
    exact spelled_step h hstep
  | case3 a c tag hstep =>
    cases hrun
    exact spelled_step h hstep
  | case4 a c hstep ih => exact ih (spelled_step h hstep) hrun

/-- An attempt that ends at a mismatch is followed by a new one. -/
theorem restart_run {tag : Tag} (hrun : a.run i token pairs = (b, .ok (some tag))) :
    b.restart = b := by
  fun_induction run a i token pairs with
  | case1 a e hstep => cases hrun
  | case2 a c hstep => cases hrun
  | case3 a c tag hstep =>
    cases hrun
    obtain ⟨-, -, -, rfl, -⟩ := step_mismatch hstep
    rfl
  | case4 a c hstep ih => exact ih hrun

theorem spelled_feed (h : Spelled pairs fed a) {result : Option Mismatch}
    (hfeed : a.feed i token pairs = (b, .ok result)) : Spelled pairs (fed ++ [(token, i)]) b := by
  rw [feed] at hfeed
  split at hfeed <;> rename_i c _ hrun
  · cases hfeed
  · cases hfeed
    exact spelled_run h hrun
  · have hc : Spelled pairs fed c := spelled_run h hrun
    split at hfeed <;> rename_i d result hrun'
    · cases hfeed
    · cases hfeed
      cases result with
      | none => exact spelled_run hc hrun'
      | some tag =>
        obtain ⟨hs, words, word, hw⟩ := spelled_run hc hrun'
        exact ⟨hs, words, [], restart_run hrun' ▸ hw.unused [(token, i)]⟩

theorem spelled_feedStream (h : Spelled pairs fed a) (i : Nat) (tokens : List Token)
    (hok : ∀ r ∈ (a.feedStream pairs i tokens).2, ∃ m, r = .ok m) :
    Spelled pairs (fed ++ tokens.zipIdx i) (a.feedStream pairs i tokens).1 := by
  induction tokens generalizing a fed i with
  | nil =>
    rw [List.zipIdx_nil, List.append_nil]
    exact h
  | cons token rest ih =>
    obtain ⟨hfirst, hrest⟩ := List.forall_mem_cons.mp hok
    obtain ⟨m, hm⟩ := hfirst
    have hnext := ih (spelled_feed h (Prod.ext rfl hm)) (i + 1) hrest
    rwa [List.append_assoc] at hnext

/-- At the end of the stream the attempt is a word, or it is dropped. -/
theorem spelled_finish (h : Spelled pairs fed a) : Spelled pairs fed a.finish.1 := by
  obtain ⟨hs, words, word, hw⟩ := h
  refine ⟨sound_finish a, ?_⟩
  have hdropped : ∃ words word, Writing pairs fed words word a.restart := by
    have hnew := hw.unused []
    rw [List.append_nil] at hnew
    exact ⟨words, [], hnew⟩
  rw [finish]
  split
  · exact hdropped
  · next hr =>
    split
    · next hdone =>
      obtain ⟨hstarted, hrest⟩ := Bool.and_eq_true_iff.mp hdone
      have hnil : [] ∈ a.attempt.cursor.words pairs a.attempt.region := by
        rw [Attempt.region_of_outside (Bool.eq_false_iff.mpr hr)]
        exact Cursor.nil_mem_words hs.nested hrest
      have hword := hw.rest [] hnil
      rw [List.append_nil] at hword
      obtain ⟨words', hw'⟩ := hw.complete hword []
      rw [List.append_nil] at hw'
      exact ⟨words', [], hw'⟩
    · exact hdropped

/-- Each match is spelled by a word of the pattern: a word that is a run of the stream, with no
letter after the first that trips a guard. Words of later matches are later in the stream. -/
theorem matches_are_words (name : String) (tag : Tag) (p : Pattern) (pairs : PairTable)
    (tokens : List Token)
    (hok : ∀ r ∈ ((new name tag p).feedStream pairs 0 tokens).2, ∃ m, r = .ok m) :
    ∃ words, List.Forall₂ (Spells pairs p tokens.zipIdx)
        ((new name tag p).feedStream pairs 0 tokens).1.finish.1.completed.toList words ∧
      (words.flatten.map Letter.fed).Sublist tokens.zipIdx := by
  have hnew : Spelled pairs [] (new name tag p) :=
    ⟨sound_new name tag p, [], [], writing_reset pairs (new name tag p)⟩
  obtain ⟨-, words, word, hw⟩ := spelled_finish (spelled_feedStream hnew 0 tokens hok)
  have hp : ((new name tag p).feedStream pairs 0 tokens).1.finish.1.pattern = p :=
    ((sameMachine_feedStream pairs _ 0 tokens).trans (sameMachine_finish _)).2.2
  refine ⟨words, ?_, ?_⟩
  · have hdone := hw.done
    rwa [hp] at hdone
  · have hsub : (words.flatten.map Letter.fed).Sublist ((words.flatten ++ word).map Letter.fed) :=
      (List.sublist_append_left _ _).map _
    exact hsub.trans hw.order

/-- A group with a guarded entry that collects, after which a token is left out, and an entry for
regions at the end. -/
def guardedPattern : Pattern :=
  (((Pattern.nil.must (Tag.of 1)).maybe
    ((Pattern.nil.collect (Tag.of 2)).guarded fun t => t.tag.meets (Tag.of 7))).collectDrop
      (Tag.of 3)).complete (Tag.of 4)

def guardedPairs : PairTable := ⟨[(Tag.of 4, Tag.of 5)]⟩

/-- A match of `guardedPattern`, an attempt that a guard ends, and another match. -/
def guardedTokens : List Token :=
  [1, 8, 2, 3, 4, 4, 5, 5, 1, 8, 7, 1, 2, 3, 4, 5].map fun value =>
    { tag := Tag.of value, text := [], span := {} }

theorem matches_are_words_guardedPattern :
    ((new "guarded" Tag.generic guardedPattern).feedStream guardedPairs 0
        guardedTokens).1.finish.1.completed.toList = [[0, 1, 2, 4, 5, 6, 7], [11, 12, 14, 15]] ∧
      ∃ words, List.Forall₂ (Spells guardedPairs guardedPattern guardedTokens.zipIdx)
          ((new "guarded" Tag.generic guardedPattern).feedStream guardedPairs 0
            guardedTokens).1.finish.1.completed.toList words ∧
        (words.flatten.map Letter.fed).Sublist guardedTokens.zipIdx := by
  have hresults : ((new "guarded" Tag.generic guardedPattern).feedStream guardedPairs 0
      guardedTokens).2.map Except.toOption
        = (List.replicate 16 (some none)).set 10 (some (some ⟨"guarded", 10, Tag.of 2⟩)) := by
    decide +kernel
  refine ⟨by decide +kernel, matches_are_words "guarded" Tag.generic guardedPattern guardedPairs
    guardedTokens fun r hr => ?_⟩
  have hsome : r.toOption.isSome = true := by
    have hall : ∀ x ∈ (List.replicate 16 (some none)).set 10
        (some (some (⟨"guarded", 10, Tag.of 2⟩ : Mismatch))), x.isSome = true := by decide
    exact hall _ (hresults ▸ List.mem_map_of_mem hr)
  cases r with
  | error e => cases hsome
  | ok m => exact ⟨m, rfl⟩

end Automaton

end TagLayers
