import TagLayers.Proofs.Pattern.Regions

/-!
# Offers

While a token is fed it is offered to one entry after the other, and once more to a new attempt if
it trips a guard. Each token in a match has been taken by an entry that it was offered to.

Where a pattern begins with an entry that needs a hit, an attempt that is not new has taken a token,
and a new one is done with a token at once, hit or miss. So a token that trips the guard of an entry
which collects ends the one attempt that it was offered to: it is reported once, and no token that
the attempt had taken is in a match.

Results:
1. `mem_used_feed`, `exists_takes`: each token in a match has been taken by an entry.
2. `begun_step`, `begun_after`: attempts have taken a token, or are new.
3. `Offered.run_eq`: a token is offered to one attempt that is not new.
4. `collects_of_takes`, `feed_of_trips`: what a guard keeps out, and what it does.
5. `StopsAt.notMem_used`: what an attempt that a guard has ended had taken is in no match.
-/

namespace TagLayers

/-- The pattern begins with an entry that needs a hit. -/
def Pattern.Demanding (p : Pattern) : Prop :=
  ∃ first rest, p = .item first rest ∧ first.mode = .mandatory

namespace Automaton

/-- The states in which a token that is fed to `a` is offered to an entry. -/
inductive Offered (pairs : PairTable) (i : Nat) (token : Token) (a : Automaton) : Automaton → Prop
  | first : Offered pairs i token a a
  | again {b c : Automaton} : Offered pairs i token a b → b.step i token pairs = .ok (c, .again) →
      Offered pairs i token a c
  | anew {b c : Automaton} {tag : Tag} : Offered pairs i token a b →
      b.step i token pairs = .ok (c, .mismatch tag) → Offered pairs i token a c

/-- Fed to `a`, the token is offered to the entry, which takes it. -/
def Takes (pairs : PairTable) (i : Nat) (token : Token) (a : Automaton) (e : TagEntry) : Prop :=
  ∃ b c, Offered pairs i token a b ∧ b.attempt.cursor.current? = some e ∧
    b.step i token pairs = .ok (c, .next) ∧ c.used = b.used ++ [i]

/-- In a stream of tokens the one at index `n` is taken by the entry. -/
def TakenBy (pairs : PairTable) (start : Automaton) (tokens : List Token) (n : Nat)
    (e : TagEntry) : Prop :=
  ∃ token, tokens[n]? = some token ∧ Takes pairs n token (start.after pairs (tokens.take n)) e

variable {pairs : PairTable} {i j : Nat} {token : Token} {a b c : Automaton} {e : TagEntry}

theorem Offered.sameMachine (h : Offered pairs i token a b) : a.SameMachine b := by
  induction h with
  | first => exact ⟨rfl, rfl, rfl⟩
  | again _ hstep ih => exact ih.trans (sameMachine_step hstep)
  | anew _ hstep ih => exact ih.trans (sameMachine_step hstep)

theorem Offered.sound (h : Offered pairs i token a b) (hs : a.Sound) : b.Sound := by
  induction h with
  | first => exact hs
  | again _ hstep ih => exact sound_step ih hstep
  | anew _ hstep ih => exact sound_step ih hstep

/-! ## Tokens that have been taken -/

/-- What an automaton has used once a token is done with was used before, or is the token, which an
entry has taken. -/
theorem mem_used_run (hb : Offered pairs i token a b) (h : j ∈ (b.run i token pairs).1.used) :
    j ∈ b.used ∨ (j = i ∧ ∃ e, Takes pairs i token a e) := by
  fun_induction run b i token pairs with
  | case1 b fault hstep => exact .inl h
  | case2 b c hstep =>
    rcases step_rule hstep with ⟨-, rfl, -⟩ | ⟨e, hc, hr⟩
    · exact .inl h
    · rcases hr.used with hsub | ⟨-, hused⟩
      · exact .inl (hsub.subset h)
      · rw [show c.used = b.used ++ [i] from hused] at h
        rcases List.mem_append.mp h with h | h
        · exact .inl h
        · exact .inr ⟨List.mem_singleton.mp h, e, b, c, hb, hc, hstep, hused⟩
  | case3 b c tag hstep =>
    rcases used_step hstep with hsub | ⟨hmove, -⟩
    · exact .inl (hsub.subset h)
    · cases hmove
  | case4 b c hstep ih =>
    rcases used_step hstep with hsub | ⟨hmove, -⟩
    · exact (ih (hb.again hstep) h).imp_left fun hj => hsub.subset hj
    · cases hmove

/-- A run that ends at a mismatch leaves the token to be offered to a new attempt. -/
theorem offered_of_run (hb : Offered pairs i token a b) {tag : Tag}
    (h : b.run i token pairs = (c, .ok (some tag))) : Offered pairs i token a c := by
  fun_induction run b i token pairs with
  | case1 b fault hstep => cases h
  | case2 b d hstep => cases h
  | case3 b d tag' hstep =>
    cases h
    exact hb.anew hstep
  | case4 b d hstep ih => exact ih (hb.again hstep) h

theorem mem_used_feed (h : j ∈ (a.feed i token pairs).1.used) :
    j ∈ a.used ∨ (j = i ∧ ∃ e, Takes pairs i token a e) := by
  have first (h : j ∈ (a.run i token pairs).1.used) :
      j ∈ a.used ∨ (j = i ∧ ∃ e, Takes pairs i token a e) := mem_used_run .first h
  have hsub := (used_run a i token pairs).2
  rw [feed] at h
  split at h <;> rename_i b _ hrun <;> rw [hrun] at first hsub
  · exact first h
  · exact first h
  · have hb : Offered pairs i token a b := offered_of_run .first hrun
    have second (h : j ∈ (b.run i token pairs).1.used) :
        j ∈ a.used ∨ (j = i ∧ ∃ e, Takes pairs i token a e) :=
      (mem_used_run hb h).imp_left fun hj => (hsub (by simp)).subset hj
    split at h <;> rename_i hrun' <;> rw [hrun'] at second <;> exact second h

section Streams

variable {start : Automaton} {tokens front back : List Token} {n : Nat}

/-- The tokens used are some of those that have been fed. -/
theorem used_after (hstart : start.used = []) (tokens : List Token) :
    (start.after pairs tokens).used.Sublist (List.range tokens.length) := by
  induction tokens using List.reverseRecOn with
  | nil =>
    show start.used.Sublist _
    rw [hstart]
    exact List.nil_sublist _
  | append_singleton tokens token ih =>
    rw [after_concat, List.length_append, List.length_singleton, List.range_succ]
    exact (used_feed _ _ token pairs).trans (ih.append (List.Sublist.refl _))

/-- Later tokens bring no earlier one back. -/
theorem mem_used_after (h : j ∈ (start.after pairs (front ++ back)).used) :
    j ∈ (start.after pairs front).used ∨ front.length ≤ j := by
  induction back using List.reverseRecOn with
  | nil =>
    rw [List.append_nil] at h
    exact .inl h
  | append_singleton back token ih =>
    rw [← List.append_assoc, after_concat] at h
    rcases List.mem_append.mp ((used_feed _ _ token pairs).subset h) with h | h
    · exact ih h
    · rw [List.mem_singleton.mp h, List.length_append]
      exact .inr (Nat.le_add_right _ _)

/-- Each token that has been used was taken by an entry. -/
theorem exists_takes (hstart : start.used = []) (h : n ∈ (start.after pairs tokens).used) :
    ∃ e, TakenBy pairs start tokens n e := by
  induction tokens using List.reverseRecOn with
  | nil =>
    replace h : n ∈ start.used := h
    rw [hstart] at h
    cases h
  | append_singleton tokens token ih =>
    rw [after_concat] at h
    rcases mem_used_feed h with h | ⟨rfl, e, htakes⟩
    · obtain ⟨e, t, ht, htakes⟩ := ih h
      obtain ⟨hlt, -⟩ := List.getElem?_eq_some_iff.mp ht
      refine ⟨e, t, ?_, ?_⟩
      · rw [List.getElem?_append_left hlt, ht]
      · rwa [List.take_append_of_le_length (Nat.le_of_lt hlt)]
    · refine ⟨e, token, List.getElem?_concat_length, ?_⟩
      rwa [List.take_left]

end Streams

/-! ## Patterns that begin with a token -/

/-- The attempt is a new one, or it has taken a token. -/
def Begun (a : Automaton) : Prop :=
  a.attempt = { cursor := Cursor.start a.pattern } ∨
    (a.attempt.started = true ∧ a.attempt.buffer ≠ #[])

theorem begun_moveTo (h : a.attempt.started = true ∧ a.attempt.buffer ≠ #[]) (cursor : Cursor)
    (used : Bool) : (a.moveTo cursor used).1.Begun := by
  rcases a.moveTo_cases cursor used with ⟨-, hm⟩ | ⟨-, hm⟩ <;> rw [hm]
  · exact .inl rfl
  · exact .inr h

theorem begun_consume (a : Automaton) (i : Nat) :
    (a.consume i).attempt.started = true ∧ (a.consume i).attempt.buffer ≠ #[] :=
  ⟨rfl, Array.push_ne_empty⟩

/-- A new attempt stands at the entry that needs a hit, and is done with the token. -/
theorem StepRule.of_new {x : Automaton × Move} (h : StepRule a e i token pairs x)
    (hp : a.pattern.Demanding) (hnew : a.attempt = { cursor := Cursor.start a.pattern })
    (hc : a.attempt.cursor.current? = some e) : x.2 = .next ∧ x.1.Begun := by
  obtain ⟨first, rest, hpattern, hmode⟩ := hp
  have hskip : a.attempt.cursor.skip? = none := by rw [hnew, hpattern]; rfl
  have hm : e.mode = .mandatory := by
    rw [hnew, hpattern] at hc
    obtain rfl : first = e := Option.some.inj hc
    exact hmode
  cases h with
  | trip ht =>
    rw [trips, hnew] at ht
    cases ht
  | pass _ hm' => cases hm.symm.trans hm'
  | take => exact ⟨moveTo_true_snd _ _, begun_moveTo (begun_consume a i) _ _⟩
  | gather _ hm' => rcases hm' with hm' | hm' <;> cases hm.symm.trans hm'
  | drop _ hm' => cases hm.symm.trans hm'
  | miss =>
    rcases a.miss_cases with ⟨cursor, hsome, -⟩ | ⟨-, hmiss⟩
    · cases hskip.symm.trans hsome
    · rw [hmiss]
      exact ⟨rfl, .inl rfl⟩
  | enter _ hm' => cases hm.symm.trans hm'
  | inside _ hm' => cases hm.symm.trans hm'

/-- An attempt that has taken a token keeps it, or is over. -/
theorem StepRule.of_begun {x : Automaton × Move} (h : StepRule a e i token pairs x)
    (hbegun : a.attempt.started = true ∧ a.attempt.buffer ≠ #[]) : x.1.Begun := by
  cases h with
  | trip => exact .inl rfl
  | pass => exact begun_moveTo hbegun _ _
  | take => exact begun_moveTo (begun_consume a i) _ _
  | gather => exact .inr (begun_consume a i)
  | drop => exact begun_moveTo (a := a.leaveOut) ⟨rfl, hbegun.2⟩ _ _
  | miss =>
    rcases a.miss_cases with ⟨cursor, -, hmiss⟩ | ⟨-, hmiss⟩ <;> rw [hmiss]
    · exact begun_moveTo hbegun _ _
    · exact .inl rfl
  | enter => exact .inr (begun_consume a i)
  | inside =>
    rcases a.takeInside_cases e i token pairs with ⟨-, hin⟩ | ⟨-, hin⟩ <;> rw [hin]
    · exact begun_moveTo (a := ((a.consume i).setDepth 0).leaveRegion) (begun_consume a i) _ _
    · exact .inr (begun_consume a i)

theorem begun_step (hp : a.pattern.Demanding) (h : a.Begun) {move : Move}
    (hstep : a.step i token pairs = .ok (b, move)) : b.Begun := by
  rcases step_rule hstep with ⟨-, rfl, -⟩ | ⟨e, hc, hr⟩
  · exact h
  · rcases h with hnew | hbegun
    · exact (hr.of_new hp hnew hc).2
    · exact hr.of_begun hbegun

theorem Offered.demanding (h : Offered pairs i token a b) (hp : a.pattern.Demanding) :
    b.pattern.Demanding := by
  rw [h.sameMachine.2.2]
  exact hp

theorem Offered.begun (h : Offered pairs i token a b) (hp : a.pattern.Demanding) (ha : a.Begun) :
    b.Begun := by
  induction h with
  | first => exact ha
  | again hb hstep ih => exact begun_step (hb.demanding hp) ih hstep
  | anew hb hstep ih => exact begun_step (hb.demanding hp) ih hstep

/-- A new attempt is done with a token after one step, which does not fail. -/
theorem run_of_new (hp : a.pattern.Demanding)
    (hnew : a.attempt = { cursor := Cursor.start a.pattern }) (i : Nat) (token : Token)
    (pairs : PairTable) : ∃ b, a.step i token pairs = .ok (b, .next) ∧
      a.run i token pairs = (b, .ok none) ∧ b.Begun := by
  have hcurrent : ∃ first, a.attempt.cursor.current? = some first ∧ first.mode = .mandatory := by
    obtain ⟨first, rest, hpattern, hmode⟩ := hp
    exact ⟨first, by rw [hnew, hpattern]; rfl, hmode⟩
  cases hstep : a.step i token pairs with
  | error fault =>
    obtain ⟨first, hc, hmode⟩ := hcurrent
    obtain ⟨e, hc', -, hm, -⟩ := step_error_iff.mp hstep
    cases hc.symm.trans hc'
    cases hmode.symm.trans hm
  | ok x =>
    obtain ⟨b, move⟩ := x
    rcases step_rule hstep with ⟨hc, -, -⟩ | ⟨e, hc, hr⟩
    · obtain ⟨first, hc', -⟩ := hcurrent
      cases hc.symm.trans hc'
    · obtain ⟨hmove, hbegun⟩ := hr.of_new hp hnew hc
      obtain rfl : move = .next := hmove
      exact ⟨b, rfl, run_of_next hstep, hbegun⟩

/-- The token is offered to one attempt that is not new, and then at most to a new one. -/
theorem Offered.run_eq (h : Offered pairs i token a b) (hp : a.pattern.Demanding) :
    b.attempt = { cursor := Cursor.start b.pattern } ∨
      (a.run i token pairs = b.run i token pairs ∧ b.used.Sublist a.used) := by
  induction h with
  | first => exact .inr ⟨rfl, List.Sublist.refl _⟩
  | @again b c hb hstep ih =>
    rcases ih with hnew | ⟨hrun, hused⟩
    · obtain ⟨d, hnext, -⟩ := run_of_new (hb.demanding hp) hnew i token pairs
      cases hstep.symm.trans hnext
    · rcases used_step hstep with hsub | ⟨hmove, -⟩
      · exact .inr ⟨hrun.trans (run_of_again hstep), hsub.trans hused⟩
      · cases hmove
  | anew _ hstep =>
    obtain ⟨-, -, -, rfl, -⟩ := step_mismatch hstep
    exact .inl rfl

theorem begun_feed (hp : a.pattern.Demanding) (h : a.Begun) (i : Nat) (token : Token)
    (pairs : PairTable) : (a.feed i token pairs).1.Begun := by
  have step {a b : Automaton} {move : Move} (h : a.pattern.Demanding ∧ a.Begun)
      (hstep : a.step i token pairs = .ok (b, move)) : b.pattern.Demanding ∧ b.Begun := by
    refine ⟨?_, begun_step h.1 h.2 hstep⟩
    rw [(sameMachine_step hstep).2.2]
    exact h.1
  exact (feed_keeps (P := fun a => a.pattern.Demanding ∧ a.Begun) step ⟨hp, h⟩).2

theorem pattern_after (pairs : PairTable) (start : Automaton) (tokens : List Token) :
    (start.after pairs tokens).pattern = start.pattern :=
  (sameMachine_feedStream pairs start 0 tokens).2.2

theorem begun_after (hp : a.pattern.Demanding) (h : a.Begun) (tokens : List Token) :
    (a.after pairs tokens).Begun := by
  induction tokens using List.reverseRecOn with
  | nil => exact h
  | append_singleton tokens token ih =>
    rw [after_concat]
    exact begun_feed (by rw [pattern_after]; exact hp) ih _ token pairs

/-! ## Guards of entries that collect -/

/-- At an entry that does not need a hit the attempt is not new. -/
theorem Begun.of_current (h : b.Begun) (hp : b.pattern.Demanding)
    (hc : b.attempt.cursor.current? = some e) (hm : e.mode ≠ .mandatory) :
    b.attempt.started = true ∧ b.attempt.buffer ≠ #[] := by
  rcases h with hnew | hbegun
  · obtain ⟨first, rest, hpattern, hmode⟩ := hp
    rw [hnew, hpattern] at hc
    obtain rfl : first = e := Option.some.inj hc
    exact absurd hmode hm
  · exact hbegun

/-- The token `token` trips the guard of the entry `e`, which collects, when it is offered to it in
the state `b`. -/
structure TripsCollect (token : Token) (b : Automaton) (e : TagEntry) : Prop where
  current : b.attempt.cursor.current? = some e
  mode : e.mode = .collect
  misses : e.hits token = false
  guard : e.guardHolds token = true

/-- A token that trips the guard of an entry that collects ends an attempt that has taken tokens. -/
theorem TripsCollect.step (h : TripsCollect token b e) (hp : b.pattern.Demanding) (hb : b.Begun)
    (hs : b.Sound) (i : Nat) (pairs : PairTable) :
    b.attempt.buffer ≠ #[] ∧ b.step i token pairs = .ok (b.restart, .mismatch e.target) := by
  obtain ⟨hstarted, hbuffer⟩ := hb.of_current hp h.current (by rw [h.mode]; decide)
  have hout : b.attempt.inside = false := hs.outside h.current (by rw [h.mode]; decide)
  refine ⟨hbuffer, ?_⟩
  rw [Automaton.step, h.current]
  simp [trips, closes_of_outside hout, expected_of_outside hout, hstarted, TagEntry.isOptional,
    h.mode, h.misses, h.guard]

/-- What an entry with a guard that collects has taken hits it, or does not trip the guard. -/
theorem collects_of_takes (h : Takes pairs i token a e) (hp : a.pattern.Demanding) (ha : a.Begun)
    (hs : a.Sound) (hm : e.mode = .collect) :
    e.hits token = true ∨ e.guardHolds token = false := by
  obtain ⟨b, c, hb, hc, hstep, -⟩ := h
  by_contra hno
  obtain ⟨hmiss, hguard⟩ := not_or.mp hno
  rw [Bool.not_eq_true] at hmiss
  rw [Bool.not_eq_false] at hguard
  have htrips : TripsCollect token b e := ⟨hc, hm, hmiss, hguard⟩
  obtain ⟨-, hmismatch⟩ := htrips.step (hb.demanding hp) (hb.begun hp ha) (hb.sound hs) i pairs
  cases hstep.symm.trans hmismatch

/-- The token is reported once, and the attempt that it was offered to is gone. -/
theorem feed_of_trips (hb : Offered pairs i token a b) (hp : a.pattern.Demanding) (ha : a.Begun)
    (hs : a.Sound) (h : TripsCollect token b e) :
    b.attempt.buffer ≠ #[] ∧ (a.feed i token pairs).2 = .ok (some ⟨a.name, i, e.target⟩) ∧
      (a.feed i token pairs).1.used.Sublist (b.completed.toList.flatten ++ [i]) ∧
      b.used.Sublist a.used := by
  obtain ⟨hbuffer, hstep⟩ := h.step (hb.demanding hp) (hb.begun hp ha) (hb.sound hs) i pairs
  have hnotNew : b.attempt ≠ { cursor := Cursor.start b.pattern } := fun hnew =>
    hbuffer (by rw [hnew])
  obtain ⟨hrun, hused⟩ := (hb.run_eq hp).resolve_left hnotNew
  obtain ⟨c, -, hagain, -⟩ := run_of_new (a := b.restart) (hb.demanding hp) rfl i token pairs
  have hsecond := (used_run b.restart i token pairs).1
  rw [hagain] at hsecond
  have hfeed : a.feed i token pairs = (c, .ok (some ⟨a.name, i, e.target⟩)) := by
    rw [feed, hrun, run_of_mismatch hstep]
    dsimp only
    rw [hagain]
  have hrestart : b.restart.used = b.completed.toList.flatten := List.append_nil _
  rw [hrestart] at hsecond
  rw [hfeed]
  exact ⟨hbuffer, rfl, hsecond, hused⟩

section Streams

variable {tokens : List Token} {n : Nat}

/-- Fed the tokens, the automaton offers the one at index `n` to an entry that collects, whose guard
it trips, in the state `b`. -/
structure StopsAt (pairs : PairTable) (start : Automaton) (tokens : List Token) (n : Nat)
    (token : Token) (b : Automaton) (e : TagEntry) : Prop where
  get : tokens[n]? = some token
  offered : Offered pairs n token (start.after pairs (tokens.take n)) b
  trips : TripsCollect token b e

theorem StopsAt.feed (h : StopsAt pairs a.reset tokens n token b e) (hp : a.pattern.Demanding) :
    b.attempt.buffer ≠ #[] ∧
      ((a.reset.after pairs (tokens.take n)).feed n token pairs).2
        = .ok (some ⟨a.name, n, e.target⟩) ∧
      (a.reset.after pairs (tokens.take (n + 1))).used.Sublist
        (b.completed.toList.flatten ++ [n]) ∧
      b.used.Sublist (List.range n) := by
  obtain ⟨hlt, rfl⟩ := List.getElem?_eq_some_iff.mp h.get
  have hlen : (tokens.take n).length = n := List.length_take_of_le (Nat.le_of_lt hlt)
  have hdemanding : a.reset.pattern.Demanding := hp
  have hbegun : a.reset.Begun := .inl rfl
  obtain ⟨hbuffer, hfeed, hafter, hused⟩ := feed_of_trips h.offered
    (by rw [pattern_after]; exact hp) (begun_after hdemanding hbegun _)
    (sound_after pairs a.sound_reset _) h.trips
  have hname : (a.reset.after pairs (tokens.take n)).name = a.name :=
    (sameMachine_feedStream pairs a.reset 0 _).1
  have hbefore : (a.reset.after pairs (tokens.take n)).used.Sublist
      (List.range (tokens.take n).length) := used_after rfl _
  rw [hlen] at hbefore
  refine ⟨hbuffer, by rw [hfeed, hname], ?_, hused.trans hbefore⟩
  rw [List.take_succ_eq_append_getElem hlt, after_concat, hlen]
  exact hafter

/-- The tokens that the attempt had taken are not used in the end. -/
theorem StopsAt.notMem_used (h : StopsAt pairs a.reset tokens n token b e)
    (hp : a.pattern.Demanding) (hj : j ∈ b.attempt.buffer) :
    j ∉ (a.reset.after pairs tokens).finish.1.used := by
  obtain ⟨-, -, hafter, hused⟩ := h.feed hp
  have hmem : j ∈ b.attempt.buffer.toList := hj.val
  have hlt : j < n := List.mem_range.mp (hused.subset (List.mem_append_right _ hmem))
  -- what the attempt has taken has not been taken before, so it goes when the attempt goes
  have hgone : j ∉ (a.reset.after pairs (tokens.take (n + 1))).used := by
    intro hback
    rcases List.mem_append.mp (hafter.subset hback) with hback | hback
    · have hnodup : b.used.Nodup := hused.nodup List.nodup_range
      exact List.disjoint_of_nodup_append hnodup hback hmem
    · rw [List.mem_singleton.mp hback] at hlt
      exact Nat.lt_irrefl _ hlt
  intro hend
  have hlast := (used_finish _).subset hend
  rw [← List.take_append_drop (n + 1) tokens] at hlast
  obtain ⟨hltn, -⟩ := List.getElem?_eq_some_iff.mp h.get
  rcases mem_used_after hlast with hlast | hlast
  · exact hgone hlast
  · rw [List.length_take_of_le hltn] at hlast
    omega

end Streams

end Automaton

end TagLayers
