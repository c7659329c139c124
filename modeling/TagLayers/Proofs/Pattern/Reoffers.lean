import TagLayers.Proofs.Pattern.Offers

/-!
# Tokens that are offered again

A token that trips a guard ends the attempt and is offered to a new one. Feeding is a loop of steps
that could report one mismatch after the other. It does not: until it takes a token or leaves one
out an attempt has not started, and then the token is done with. So the new attempt trips no guard,
and what is left behind is the automaton without its old attempt, fed the token.

Results:
1. `step_again`: what a step that offers the token again leaves alone.
2. `not_mismatch_of_idle`: an attempt that has not started trips no guard.
3. `run_mismatch`: what a run up to a mismatch leaves behind.
4. `loop_iff_feed`: feeding as a loop.
5. `mismatch_reoffers_once`: mismatches.
-/

namespace TagLayers

namespace Automaton

variable {pairs : PairTable} {i : Nat} {token : Token} {a b s : Automaton}

/-- Feeding as a loop of steps. A mismatch is noted in place of one noted before, and the token is
offered on, until it is done with or a step fails. -/
inductive Loop (pairs : PairTable) (i : Nat) (token : Token) :
    Automaton → Option Mismatch → Automaton × Except PatternError (Option Mismatch) → Prop
  | fail {a : Automaton} {noted : Option Mismatch} {fault : PatternError} :
      a.step i token pairs = .error fault → Loop pairs i token a noted (a, .error fault)
  | next {a b : Automaton} {noted : Option Mismatch} :
      a.step i token pairs = .ok (b, .next) → Loop pairs i token a noted (b, .ok noted)
  | again {a b : Automaton} {noted : Option Mismatch}
      {x : Automaton × Except PatternError (Option Mismatch)} :
      a.step i token pairs = .ok (b, .again) → Loop pairs i token b noted x →
      Loop pairs i token a noted x
  | mismatch {a b : Automaton} {noted : Option Mismatch} {tag : Tag}
      {x : Automaton × Except PatternError (Option Mismatch)} :
      a.step i token pairs = .ok (b, .mismatch tag) →
      Loop pairs i token b (some ⟨a.name, i, tag⟩) x → Loop pairs i token a noted x

/-! ## Steps that offer the token again -/

/-- Offering the token again moves the cursor and changes nothing else. -/
theorem step_again (h : a.step i token pairs = .ok (b, .again)) :
    ∃ cursor, b = { a with attempt := { a.attempt with cursor } } := by
  have moved {a : Automaton} {cursor : Cursor} {used : Bool}
      (hm : a.moveTo cursor used = (b, .again)) :
      b = { a with attempt := { a.attempt with cursor } } := by
    rcases a.moveTo_cases cursor used with ⟨-, hcases⟩ | ⟨-, hcases⟩ <;> rw [hcases] at hm
    · cases hm
    · exact (Prod.mk.inj hm).1.symm
  rcases step_rule h with ⟨-, -, hmove⟩ | ⟨e, -, hr⟩
  · cases hmove
  · generalize hx : (b, Move.again) = x at hr
    cases hr with
    | trip | gather | enter => cases hx
    | pass => exact ⟨_, moved hx.symm⟩
    | take | drop => exact absurd hx.symm moveTo_used
    | miss =>
      rcases a.miss_cases with ⟨cursor, -, hm⟩ | ⟨-, hm⟩ <;> rw [hm] at hx
      · exact ⟨cursor, moved hx.symm⟩
      · cases hx
    | inside => exact absurd hx.symm takeInside_again

theorem restart_of_again (h : a.step i token pairs = .ok (b, .again)) : b.restart = a.restart := by
  obtain ⟨cursor, rfl⟩ := step_again h
  rfl

theorem started_of_again (h : a.step i token pairs = .ok (b, .again)) :
    b.attempt.started = a.attempt.started := by
  obtain ⟨cursor, rfl⟩ := step_again h
  rfl

/-! ## Guards -/

/-- An attempt that has not started trips no guard, however often the token is offered again. -/
theorem not_mismatch_of_idle (h : a.attempt.started = false) (tag : Tag) :
    (a.run i token pairs).2 ≠ .ok (some tag) := by
  fun_induction run a i token pairs with
  | case1 a fault hstep => rintro ⟨⟩
  | case2 a b hstep => rintro ⟨⟩
  | case3 a b tag' hstep =>
    obtain ⟨e, -, htrips, -⟩ := step_mismatch hstep
    rw [trips, h] at htrips
    cases htrips
  | case4 a b hstep ih => exact ih ((started_of_again hstep).trans h)

/-- A run up to a mismatch drops the attempt, and does nothing else. The mismatch is the guard of an
entry that the token has been offered to. -/
theorem run_mismatch (hs : Offered pairs i token a s) {tag : Tag}
    (h : s.run i token pairs = (b, .ok (some tag))) :
    b = s.restart ∧ ∃ t e, Offered pairs i token a t ∧ t.attempt.cursor.current? = some e ∧
      t.trips e token = true ∧ tag = t.expected e := by
  fun_induction run s i token pairs with
  | case1 s fault hstep => cases h
  | case2 s c hstep => cases h
  | case3 s c tag' hstep =>
    cases h
    obtain ⟨e, hc, htrips, rfl, rfl⟩ := step_mismatch hstep
    exact ⟨rfl, s, e, hs, hc, htrips, rfl⟩
  | case4 s c hstep ih =>
    rw [← restart_of_again hstep]
    exact ih (hs.again hstep) h

/-- Where a token is done with and no guard is tripped, each state on the way comes to the same. -/
theorem Offered.run_of_none (hs : Offered pairs i token a s)
    (h : a.run i token pairs = (b, .ok none)) : s.run i token pairs = (b, .ok none) := by
  induction hs with
  | first => exact h
  | again _ hstep ih => rwa [run_of_again hstep] at ih
  | anew _ hstep ih =>
    rw [run_of_mismatch hstep] at ih
    cases ih

/-! ## Feeding -/

/-- The loop goes on as its next step says. -/
theorem loop_iff_step {noted : Option Mismatch}
    {x : Automaton × Except PatternError (Option Mismatch)} :
    Loop pairs i token a noted x ↔ match a.step i token pairs with
      | .error fault => x = (a, .error fault)
      | .ok (b, .next) => x = (b, .ok noted)
      | .ok (b, .again) => Loop pairs i token b noted x
      | .ok (b, .mismatch tag) => Loop pairs i token b (some ⟨a.name, i, tag⟩) x := by
  constructor
  · intro h
    cases h with
    | fail hstep | next hstep => rw [hstep]
    | again hstep hloop | mismatch hstep hloop =>
      rw [hstep]
      exact hloop
  · intro h
    split at h
    · next hstep => exact h ▸ .fail hstep
    · next hstep => exact h ▸ .next hstep
    · next hstep => exact .again hstep h
    · next hstep => exact .mismatch hstep h

/-- The loop goes on as a run says. -/
theorem loop_iff_run {noted : Option Mismatch}
    {x : Automaton × Except PatternError (Option Mismatch)} :
    Loop pairs i token a noted x ↔ match a.run i token pairs with
      | (b, .error fault) => x = (b, .error fault)
      | (b, .ok none) => x = (b, .ok noted)
      | (b, .ok (some tag)) => Loop pairs i token b (some ⟨a.name, i, tag⟩) x := by
  fun_induction run a i token pairs with
  | case1 a fault hstep => rw [loop_iff_step, hstep]
  | case2 a b hstep => rw [loop_iff_step, hstep]
  | case3 a b tag hstep => rw [loop_iff_step, hstep]
  | case4 a b hstep ih =>
    rw [loop_iff_step, hstep, ← (sameMachine_step hstep).1]
    exact ih

/-- Feeding is the loop: a second mismatch never comes. -/
theorem loop_iff_feed {x : Automaton × Except PatternError (Option Mismatch)} :
    Loop pairs i token a none x ↔ x = a.feed i token pairs := by
  rw [loop_iff_run, feed]
  rcases hrun : a.run i token pairs with ⟨b, fault | _ | tag⟩
  · exact Iff.rfl
  · exact Iff.rfl
  · obtain ⟨rfl, -⟩ := run_mismatch .first hrun
    have hidle : ∀ tag, (a.restart.run i token pairs).2 ≠ .ok (some tag) :=
      not_mismatch_of_idle rfl
    dsimp only
    rw [loop_iff_run]
    rcases hrun' : a.restart.run i token pairs with ⟨c, fault | _ | tag'⟩
    · exact Iff.rfl
    · exact Iff.rfl
    · exact absurd (congrArg Prod.snd hrun') (hidle tag')

/-- What a feed that reports a mismatch does. -/
theorem feed_of_mismatch {m : Mismatch} (h : a.feed i token pairs = (b, .ok (some m))) :
    a.restart.feed i token pairs = (b, .ok none) ∧ ∃ s e, Offered pairs i token a s ∧
      s.attempt.cursor.current? = some e ∧ s.trips e token = true ∧
      m = ⟨a.name, i, s.expected e⟩ := by
  rw [feed] at h
  split at h
  · cases h
  · cases h
  · next c tag hrun =>
    obtain ⟨rfl, s, e, hs, hc, htrips, rfl⟩ := run_mismatch .first hrun
    have hidle : ∀ tag, (a.restart.run i token pairs).2 ≠ .ok (some tag) :=
      not_mismatch_of_idle rfl
    split at h
    · cases h
    · next d result hrun' =>
      cases h
      refine ⟨feed_of_run ?_, s, e, hs, hc, htrips, rfl⟩
      cases result with
      | none => exact hrun'
      | some tag => exact absurd (congrArg Prod.snd hrun') (hidle tag)

/-- Without an attempt that has started there is nothing to abort. -/
theorem feed_of_idle (h : a.attempt.started = false) (b : Automaton) (m : Mismatch) :
    a.feed i token pairs ≠ (b, .ok (some m)) := by
  intro hfeed
  rw [feed] at hfeed
  split at hfeed
  · cases hfeed
  · cases hfeed
  · next c tag hrun => exact not_mismatch_of_idle h tag (congrArg Prod.snd hrun)

/-- Where a feed reports no mismatch, no state on the way trips a guard. -/
theorem trips_eq_false_of_feed (h : a.feed i token pairs = (b, .ok none))
    (hs : Offered pairs i token a s) {e : TagEntry} (hc : s.attempt.cursor.current? = some e) :
    s.trips e token = false := by
  have hrun : a.run i token pairs = (b, .ok none) := by
    rw [feed] at h
    split at h
    · cases h
    · next hrun =>
      cases h
      exact hrun
    · split at h <;> cases h
  refine Bool.eq_false_iff.mpr fun htrips => ?_
  have hstep : s.step i token pairs = .ok (s.restart, .mismatch (s.expected e)) := by
    simp only [step, hc, htrips, if_true]
  have hsame := hs.run_of_none hrun
  rw [run_of_mismatch hstep] at hsame
  cases hsame

/-- A mismatch offers the token to a new attempt, and once. Feeding is the loop of steps, in which a
mismatch may be followed by another. When it reports one, the automaton without its attempt, fed the
same token, comes to the same state and reports none; the mismatch names the automaton and the index
of the token, and an entry that the token has been offered to, whose guard it trips. An attempt that
has not started never ends at a mismatch. When none is reported, no guard holds at any entry where
the attempt has met the token after its start, in a mode that is not optional, without a hit and
without closing a region. -/
theorem mismatch_reoffers_once (pairs : PairTable) (i : Nat) (token : Token) (a : Automaton) :
    (∀ x, Loop pairs i token a none x ↔ x = a.feed i token pairs) ∧
    (∀ b m, a.feed i token pairs = (b, .ok (some m)) →
      a.restart.feed i token pairs = (b, .ok none) ∧ m.pattern = a.name ∧ m.token = i ∧
        ∃ s e, Offered pairs i token a s ∧ s.attempt.cursor.current? = some e ∧
          s.trips e token = true ∧ m.expected = s.expected e) ∧
    (a.attempt.started = false → ∀ b m, a.feed i token pairs ≠ (b, .ok (some m))) ∧
    ∀ b, a.feed i token pairs = (b, .ok none) →
      ∀ s e, Offered pairs i token a s → s.attempt.cursor.current? = some e →
        s.attempt.started = true → e.mode ≠ .optional → e.hits token = false →
        s.closes token = false → e.guardHolds token = false := by
  refine ⟨fun x => loop_iff_feed, fun b m hfeed => ?_, feed_of_idle, ?_⟩
  · obtain ⟨hagain, s, e, hs, hc, htrips, rfl⟩ := feed_of_mismatch hfeed
    exact ⟨hagain, rfl, rfl, s, e, hs, hc, htrips, rfl⟩
  · intro b hfeed s e hs hc hstarted hmode hmiss hopen
    have htrips := trips_eq_false_of_feed hfeed hs hc
    have hneeded : e.isOptional = false := by simpa [TagEntry.isOptional] using hmode
    simpa [trips, hstarted, hneeded, hmiss, hopen] using htrips

/-- An optional entry before each of the two that are needed, and a guard on the last one. -/
def pairPattern : Pattern :=
  ((((Pattern.nil.can (Tag.of 3)).must (Tag.of 1)).can (Tag.of 4)).must (Tag.of 2)).guarded
    fun token => token.tag.meets (Tag.of 1)

def firstOfPair : Token := { tag := Tag.of 1, text := [], span := {} }

/-- The first token of a pair has come, and is to come again. -/
def halfPair : Automaton := ((new "pair" Tag.generic pairPattern).feed 0 firstOfPair {}).1

theorem mismatch_reoffers_once_halfPair :
    (halfPair.feed 1 firstOfPair {}).2 = .ok (some ⟨"pair", 1, Tag.of 2⟩) ∧
      halfPair.restart.feed 1 firstOfPair {} = ((halfPair.feed 1 firstOfPair {}).1, .ok none) ∧
      (halfPair.feed 1 firstOfPair {}).1.attempt.buffer = #[1] ∧
      ∀ b m, (new "pair" Tag.generic pairPattern).feed 0 firstOfPair {} ≠ (b, .ok (some m)) := by
  have hresult : (halfPair.feed 1 firstOfPair {}).2.toOption
      = some (some ⟨"pair", 1, Tag.of 2⟩) := by
    decide +kernel
  have hbuffer : (halfPair.feed 1 firstOfPair {}).1.attempt.buffer = #[1] := by decide +kernel
  rcases hfeed : halfPair.feed 1 firstOfPair {} with ⟨b, fault | m⟩ <;>
    rw [hfeed] at hresult hbuffer
  · cases hresult
  · cases hresult
    obtain ⟨-, hmismatch, -⟩ := mismatch_reoffers_once {} 1 firstOfPair halfPair
    obtain ⟨-, -, hidle, -⟩ := mismatch_reoffers_once {} 0 firstOfPair (new "pair" _ pairPattern)
    exact ⟨rfl, (hmismatch b _ hfeed).1, hbuffer, hidle rfl⟩

end Automaton

end TagLayers
