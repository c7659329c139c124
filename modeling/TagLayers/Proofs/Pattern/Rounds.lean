import Mathlib.Data.List.Chain
import TagLayers.Proofs.Pattern.Reoffers
import TagLayers.Proofs.Pattern.Traversal

/-!
# Rounds

The loop in which a token is fed has no counter. Each round takes one step, and the loop goes on
when the token is offered again. Without a mismatch the cursor then rests further on in the walk. A
mismatch takes it back to the first entry, but the attempt that begins there has not started, and
trips no guard. So the cursor goes through the walk at most once, or through a part of it, and then
at most once from its first item on.

Results:
1. `Rounds.eq`, `exists_rounds`: the rounds of a loop, which ends as feeding does.
2. `Rounds.length_le`: how many there are.
3. `Reachable.steered`: the cursor is where its own loops, which end, have moved it.
4. `Rounds.isChain`: where it moves from round to round.
5. `feed_ends_within`: all of it for every automaton that calls lead to.
-/

namespace TagLayers

namespace Cursor

/-- Both cursors rest on items of the walk, which comes to each path once, and the item of the
second one comes after that of the first. -/
def Forward (p : Pattern) (c d : Cursor) : Prop :=
  ∃ x y, c.item? = some x ∧ d.item? = some y ∧ [x, y].Sublist p.walk

theorem Of.forward {p : Pattern} {c d : Cursor} (hc : c.Of p) (hd : d.Of p)
    (hlt : d.ahead.length < c.ahead.length) (hon : d.isPast = false) : c.Forward p d := by
  rw [← map_items, ← map_items, List.length_map, List.length_map] at hlt
  obtain ⟨e, he⟩ := exists_current hon
  have hsuffix : d.items <:+ c.items :=
    List.suffix_of_suffix_length_le hd.items_suffix hc.items_suffix (Nat.le_of_lt hlt)
  have hy : (d.path, e) ∈ d.items := path_mem_items he
  have hitems := hc.items_suffix.sublist
  rw [Forward, item?_eq c, item?, he]
  cases h : c.items with
  | nil =>
    rw [h] at hlt
    cases hlt
  | cons x rest =>
    rw [h] at hsuffix hlt hitems
    rcases List.suffix_cons_iff.mp hsuffix with heq | hrest
    · exact absurd hlt (heq ▸ Nat.lt_irrefl _)
    · have hpair := (List.singleton_sublist.mpr (hrest.subset hy)).cons_cons x
      exact ⟨x, (d.path, e), rfl, rfl, hpair.trans hitems⟩

end Cursor

namespace Automaton

/-- A round of the loop in which a token is fed. -/
structure Round where
  /-- The state in which the token is offered to an entry. -/
  state : Automaton
  /-- What comes of it, unless the step fails. -/
  move? : Option Move

/-- A guard ends the attempt in the round. -/
def Round.isMismatch (r : Round) : Bool :=
  match r.move? with
  | some (.mismatch _) => true
  | _ => false

/-- The cursor moves forward from the one round to the other. -/
def Round.Forward (p : Pattern) (r s : Round) : Prop :=
  r.state.attempt.cursor.Forward p s.state.attempt.cursor

/-- The rounds of the loop in which a token is fed, up to where it returns or fails, and what it
comes to. -/
inductive Rounds (pairs : PairTable) (i : Nat) (token : Token) : Automaton → Option Mismatch →
    List Round → Automaton × Except PatternError (Option Mismatch) → Prop
  | fail {a : Automaton} {noted : Option Mismatch} {fault : PatternError} :
      a.step i token pairs = .error fault →
      Rounds pairs i token a noted [⟨a, none⟩] (a, .error fault)
  | next {a b : Automaton} {noted : Option Mismatch} :
      a.step i token pairs = .ok (b, .next) →
      Rounds pairs i token a noted [⟨a, some .next⟩] (b, .ok noted)
  | again {a b : Automaton} {noted : Option Mismatch} {rounds : List Round}
      {x : Automaton × Except PatternError (Option Mismatch)} :
      a.step i token pairs = .ok (b, .again) → Rounds pairs i token b noted rounds x →
      Rounds pairs i token a noted (⟨a, some .again⟩ :: rounds) x
  | mismatch {a b : Automaton} {noted : Option Mismatch} {tag : Tag} {rounds : List Round}
      {x : Automaton × Except PatternError (Option Mismatch)} :
      a.step i token pairs = .ok (b, .mismatch tag) →
      Rounds pairs i token b (some ⟨a.name, i, tag⟩) rounds x →
      Rounds pairs i token a noted (⟨a, some (.mismatch tag)⟩ :: rounds) x

variable {pairs : PairTable} {i : Nat} {token : Token} {a b : Automaton} {move : Move}
  {noted : Option Mismatch} {rounds : List Round}
  {x : Automaton × Except PatternError (Option Mismatch)}

/-! ## The rounds of a loop -/

theorem Rounds.loop (h : Rounds pairs i token a noted rounds x) : Loop pairs i token a noted x := by
  induction h with
  | fail hstep => exact .fail hstep
  | next hstep => exact .next hstep
  | again hstep _ ih => exact .again hstep ih
  | mismatch hstep _ ih => exact .mismatch hstep ih

theorem Loop.exists_rounds (h : Loop pairs i token a noted x) :
    ∃ rounds, Rounds pairs i token a noted rounds x := by
  induction h with
  | fail hstep => exact ⟨_, .fail hstep⟩
  | next hstep => exact ⟨_, .next hstep⟩
  | again hstep _ ih =>
    obtain ⟨rounds, h⟩ := ih
    exact ⟨_, .again hstep h⟩
  | mismatch hstep _ ih =>
    obtain ⟨rounds, h⟩ := ih
    exact ⟨_, .mismatch hstep h⟩

theorem Rounds.eq {noted' : Option Mismatch} {rounds' : List Round}
    {x' : Automaton × Except PatternError (Option Mismatch)}
    (h : Rounds pairs i token a noted rounds x) (h' : Rounds pairs i token a noted' rounds' x') :
    rounds' = rounds := by
  induction h generalizing noted' rounds' with
  | fail hstep =>
    cases h' with
    | fail => rfl
    | next hstep' | again hstep' | mismatch hstep' => cases hstep.symm.trans hstep'
  | next hstep =>
    cases h' with
    | next => rfl
    | fail hstep' | again hstep' | mismatch hstep' => cases hstep.symm.trans hstep'
  | again hstep _ ih =>
    cases h' with
    | again hstep' h' =>
      cases hstep.symm.trans hstep'
      rw [ih h']
    | fail hstep' | next hstep' | mismatch hstep' => cases hstep.symm.trans hstep'
  | mismatch hstep _ ih =>
    cases h' with
    | mismatch hstep' h' =>
      cases hstep.symm.trans hstep'
      rw [ih h']
    | fail hstep' | next hstep' | again hstep' => cases hstep.symm.trans hstep'

/-- The loop has rounds, no others, and ends as feeding does. -/
theorem exists_rounds (pairs : PairTable) (i : Nat) (token : Token) (a : Automaton) :
    ∃ rounds, ∀ rounds' x, Rounds pairs i token a none rounds' x ↔
      rounds' = rounds ∧ x = a.feed i token pairs := by
  obtain ⟨rounds, h⟩ := (loop_iff_feed.mpr rfl : Loop pairs i token a none _).exists_rounds
  refine ⟨rounds, fun rounds' x => ⟨fun h' => ⟨h.eq h', loop_iff_feed.mp h'.loop⟩, ?_⟩⟩
  rintro ⟨rfl, rfl⟩
  exact h

theorem Rounds.exists_head (h : Rounds pairs i token a noted rounds x) :
    ∃ move? rest, rounds = ⟨a, move?⟩ :: rest := by
  cases h <;> exact ⟨_, _, rfl⟩

/-! ## How many rounds there are -/

theorem idle_of_mismatch {tag : Tag} (h : a.step i token pairs = .ok (b, .mismatch tag)) :
    b.attempt.started = false ∧ a.attempt.started = true := by
  obtain ⟨e, -, htrips, rfl, -⟩ := step_mismatch h
  refine ⟨rfl, ?_⟩
  cases hstarted : a.attempt.started with
  | true => rfl
  | false =>
    rw [trips, hstarted] at htrips
    cases htrips

/-- An attempt that has not started goes through the entries ahead at most once. -/
theorem Rounds.length_le_of_idle (h : Rounds pairs i token a noted rounds x)
    (hidle : a.attempt.started = false) :
    rounds.length ≤ a.attempt.cursor.ahead.length + 1 := by
  induction h with
  | fail | next => exact Nat.le_add_left 1 _
  | again hstep _ ih =>
    have hrest := ih ((started_of_again hstep).trans hidle)
    have hlt := step_again_lt hstep
    rw [List.length_cons]
    omega
  | mismatch hstep =>
    rw [(idle_of_mismatch hstep).2] at hidle
    cases hidle

/-- Any attempt does that, and a new one may then go through the pattern. -/
theorem Rounds.length_le (h : Rounds pairs i token a noted rounds x) :
    rounds.length ≤ a.attempt.cursor.ahead.length + a.pattern.entries.length + 1 := by
  induction h with
  | fail | next => exact Nat.le_add_left 1 _
  | again hstep _ ih =>
    have hlt := step_again_lt hstep
    rw [(sameMachine_step hstep).2.2] at ih
    rw [List.length_cons]
    omega
  | mismatch hstep h =>
    obtain ⟨e, hc, -, rfl, -⟩ := step_mismatch hstep
    have hrest := h.length_le_of_idle rfl
    have hahead := List.length_pos_of_mem (Cursor.mem_ahead_of_current hc)
    rw [restart, Cursor.ahead_start] at hrest
    rw [List.length_cons]
    omega

/-! ## Mismatches -/

theorem Rounds.no_mismatch_of_idle (h : Rounds pairs i token a noted rounds x)
    (hidle : a.attempt.started = false) : ∀ r ∈ rounds, r.isMismatch = false := by
  induction h with
  | fail | next => exact List.forall_mem_singleton.mpr rfl
  | again hstep _ ih =>
    exact List.forall_mem_cons.mpr ⟨rfl, ih ((started_of_again hstep).trans hidle)⟩
  | mismatch hstep =>
    rw [(idle_of_mismatch hstep).2] at hidle
    cases hidle

theorem Rounds.countP_le (h : Rounds pairs i token a noted rounds x) :
    rounds.countP Round.isMismatch ≤ 1 := by
  induction h with
  | fail | next => exact Nat.zero_le 1
  | again _ _ ih => rwa [List.countP_cons_of_neg Bool.false_ne_true]
  | mismatch hstep h =>
    have hnone := h.no_mismatch_of_idle (idle_of_mismatch hstep).1
    rw [List.countP_cons_of_pos rfl, List.countP_eq_zero.mpr fun r hr => by simp [hnone r hr]]

/-- What comes after a mismatch are the rounds of a new attempt. -/
theorem Rounds.after_mismatch (h : Rounds pairs i token a noted rounds x)
    {before after : List Round} {r : Round} (hsplit : rounds = before ++ r :: after)
    (hr : r.isMismatch = true) : ∃ noted', Rounds pairs i token r.state.restart noted' after x := by
  induction h generalizing before with
  | fail | next =>
    rcases List.cons_eq_append_iff.mp hsplit with ⟨-, hcons⟩ | ⟨before, -, hnil⟩
    · cases hcons
      cases hr
    · cases before <;> cases hnil
  | again _ _ ih =>
    rcases List.cons_eq_append_iff.mp hsplit with ⟨-, hcons⟩ | ⟨before, -, hrest⟩
    · cases hcons
      cases hr
    · exact ih hrest
  | mismatch hstep h ih =>
    rcases List.cons_eq_append_iff.mp hsplit with ⟨-, hcons⟩ | ⟨before, -, hrest⟩
    · cases hcons
      obtain ⟨e, -, -, rfl, -⟩ := step_mismatch hstep
      exact ⟨_, h⟩
    · exact ih hrest

/-! ## Where the cursor moves -/

/-- The cursor is where a sequence of moves has brought it. -/
def Steered (a : Automaton) : Prop := ∃ moves, a.attempt.cursor = Cursor.moved a.pattern moves

theorem Steered.of (h : a.Steered) : a.attempt.cursor.Of a.pattern := by
  obtain ⟨moves, hmoves⟩ := h
  rw [hmoves]
  exact Cursor.of_moved a.pattern moves

theorem steered_restart (a : Automaton) : a.restart.Steered := ⟨[], rfl⟩

theorem steered_moveTo (h : a.Steered) (m : Cursor.Move) {cursor : Cursor}
    (hm : cursor = a.attempt.cursor.move a.pattern m) (used : Bool) :
    (a.moveTo cursor used).1.Steered := by
  obtain ⟨moves, hmoves⟩ := h
  rcases a.moveTo_cases cursor used with ⟨-, hcases⟩ | ⟨-, hcases⟩ <;> rw [hcases]
  · exact steered_restart _
  · refine ⟨moves ++ [m], ?_⟩
    rw [Cursor.moved_concat, ← hmoves]
    exact hm

theorem steered_advance (h : a.Steered) (used : Bool) : (a.advance used).1.Steered :=
  steered_moveTo h .advance rfl used

theorem steered_miss (h : a.Steered) : a.miss.1.Steered := by
  rcases a.miss_cases with ⟨cursor, hskip, hm⟩ | ⟨-, hm⟩ <;> rw [hm]
  · exact steered_moveTo h .skip (by rw [Cursor.move, hskip, Option.getD_some]) false
  · exact steered_restart a

/-- An attempt that takes the token, or leaves it out, marks the groups around it. -/
theorem steered_begun (h : a.Steered) {t : Attempt} (hc : t.cursor = a.attempt.cursor.consume) :
    Steered { a with attempt := t } := by
  obtain ⟨moves, hmoves⟩ := h
  refine ⟨moves ++ [.consume], ?_⟩
  rw [Cursor.moved_concat, ← hmoves]
  exact hc

theorem StepRule.steered {e : TagEntry} {x : Automaton × Move} (h : StepRule a e i token pairs x)
    (ha : a.Steered) : x.1.Steered := by
  have taken : (a.consume i).Steered := steered_begun ha rfl
  cases h with
  | trip => exact steered_restart a
  | pass => exact steered_advance ha false
  | take => exact steered_advance taken true
  | gather => exact taken
  | drop => exact steered_advance (a := a.leaveOut) (steered_begun ha rfl) true
  | miss => exact steered_miss ha
  | enter => exact steered_begun ha rfl
  | inside =>
    rcases a.takeInside_cases e i token pairs with ⟨-, hin⟩ | ⟨-, hin⟩ <;> rw [hin]
    · exact steered_advance (a := ((a.consume i).setDepth 0).leaveRegion)
        (steered_begun ha rfl) true
    · exact steered_begun ha rfl

theorem steered_step (ha : a.Steered) (h : a.step i token pairs = .ok (b, move)) : b.Steered := by
  rcases step_rule h with ⟨-, rfl, -⟩ | ⟨e, -, hr⟩
  · exact ha
  · exact hr.steered ha

theorem Reachable.steered (h : Reachable a) : a.Steered := by
  induction h with
  | new => exact ⟨[], rfl⟩
  | feed _ _ _ _ ih => exact feed_keeps steered_step ih
  | @finish a => rcases a.finish_cases with hf | hf <;> rw [hf] <;> exact steered_restart a
  | reset => exact ⟨[], rfl⟩
  | takeCompleted _ ih => exact ih

/-- Offered again, the token meets an entry further on in the walk. -/
theorem forward_of_again (hs : a.Sound) (ha : a.Steered)
    (h : a.step i token pairs = .ok (b, .again)) :
    a.attempt.cursor.Forward a.pattern b.attempt.cursor := by
  have hlt := step_again_lt h
  have hpattern := (sameMachine_step h).2.2
  have hb : b.attempt.cursor.Of a.pattern := hpattern ▸ (steered_step ha h).of
  refine ha.of.forward hb hlt (Bool.eq_false_iff.mpr fun hpast => ?_)
  -- past the last entry there is none in the pattern, and none was ahead
  have hnone : b.attempt.cursor.current? = none := by
    obtain ⟨place, hplace⟩ := Cursor.exists_past hpast
    rw [hplace]
    rfl
  have hentries : a.pattern.entries = [] :=
    hpattern ▸ Attempt.Sound.entries_eq_nil (sound_step hs h) hnone
  have hahead := hs.ahead.length_le
  rw [hentries] at hahead
  exact absurd hlt (by rw [Nat.le_zero.mp hahead]; exact Nat.not_lt_zero _)

/-- From round to round the cursor moves forward, unless a guard ends the attempt. -/
theorem Rounds.isChain (h : Rounds pairs i token a noted rounds x) (hs : a.Sound)
    (ha : a.Steered) :
    rounds.IsChain fun r s => r.isMismatch = false → r.Forward a.pattern s := by
  induction h with
  | fail | next => exact .singleton _
  | again hstep h ih =>
    obtain ⟨move?, rest, rfl⟩ := h.exists_head
    have hrest := ih (sound_step hs hstep) (steered_step ha hstep)
    rw [(sameMachine_step hstep).2.2] at hrest
    exact .cons_cons (fun _ => forward_of_again hs ha hstep) hrest
  | mismatch hstep h ih =>
    obtain ⟨move?, rest, rfl⟩ := h.exists_head
    have hrest := ih (sound_step hs hstep) (steered_step ha hstep)
    rw [(sameMachine_step hstep).2.2] at hrest
    exact .cons_cons (fun hr => nomatch hr) hrest

theorem Rounds.steered (h : Rounds pairs i token a noted rounds x) (ha : a.Steered) :
    ∀ r ∈ rounds, r.state.Steered ∧ r.state.pattern = a.pattern := by
  induction h with
  | fail | next => exact List.forall_mem_singleton.mpr ⟨ha, rfl⟩
  | again hstep _ ih | mismatch hstep _ ih =>
    have hrest := ih (steered_step ha hstep)
    rw [(sameMachine_step hstep).2.2] at hrest
    exact List.forall_mem_cons.mpr ⟨⟨ha, rfl⟩, hrest⟩

/-- A new attempt moves forward in every round. -/
theorem Rounds.isChain_of_idle (h : Rounds pairs i token a noted rounds x) (hs : a.Sound)
    (ha : a.Steered) (hidle : a.attempt.started = false) :
    rounds.IsChain (Round.Forward a.pattern) :=
  (h.isChain hs ha).imp_of_mem_imp fun r _ hr _ hforward =>
    hforward (h.no_mismatch_of_idle hidle r hr)

/-- Feeding a token ends, and the pattern bounds how many steps it takes. Whatever calls have led to
the automaton, the loop has one sequence of rounds, and comes to what feeding does. For `n` items of
the walk there are at most `2 * n + 1` rounds. In the round after one that offers the token again,
the cursor rests further on in the walk. At most one round is a mismatch, and in those after it the
cursor goes forward through the walk once. In each round the cursor is where a sequence of moves has
brought it, and its own loops end, whatever moves come next. -/
theorem feed_ends_within (h : Reachable a) (pairs : PairTable) (i : Nat) (token : Token) :
    ∃ rounds,
      (∀ rounds' x, Rounds pairs i token a none rounds' x ↔
        rounds' = rounds ∧ x = a.feed i token pairs) ∧
      rounds.length ≤ 2 * a.pattern.walk.length + 1 ∧
      (rounds.IsChain fun r s => r.move? = some .again → r.Forward a.pattern s) ∧
      rounds.countP Round.isMismatch ≤ 1 ∧
      (∀ before r after, rounds = before ++ r :: after → r.isMismatch = true →
        after.IsChain (Round.Forward a.pattern)) ∧
      ∀ r ∈ rounds, ∃ moves, r.state.attempt.cursor = Cursor.moved a.pattern moves ∧
        ∀ more trail, Cursor.Runs a.pattern (moves ++ more) trail ↔
          trail = (Cursor.moved a.pattern (moves ++ more)).trail := by
  obtain ⟨rounds, hrounds⟩ := exists_rounds pairs i token a
  have hr : Rounds pairs i token a none rounds _ := (hrounds _ _).mpr ⟨rfl, rfl⟩
  refine ⟨rounds, hrounds, ?_, ?_, hr.countP_le, ?_, ?_⟩
  · have hahead := h.sound.ahead.length_le
    have hlength := hr.length_le
    rw [Pattern.entries_eq_walk, List.length_map] at hahead hlength
    omega
  · refine (hr.isChain h.sound h.steered).imp fun r s hforward hagain => hforward ?_
    rw [Round.isMismatch, hagain]
  · rintro before r after hsplit hmismatch
    obtain ⟨noted, hafter⟩ := hr.after_mismatch hsplit hmismatch
    have hmem : r ∈ rounds := hsplit ▸ List.mem_append_right before List.mem_cons_self
    rw [← (hr.steered h.steered r hmem).2]
    exact hafter.isChain_of_idle (sound_restart _) (steered_restart _) rfl
  · intro r hmem
    obtain ⟨⟨moves, hmoves⟩, hpattern⟩ := hr.steered h.steered r hmem
    exact ⟨moves, hpattern ▸ hmoves, fun more trail => Cursor.runs_iff⟩

/-- An optional entry and an optional group, and a group inside of a group, each before an entry
that is needed. The last entry has a guard. -/
def groupedPattern : Pattern :=
  (Pattern.nil.can (Tag.of 3) |>.maybe (Pattern.nil.must (Tag.of 4)) |>.must (Tag.of 1)
    |>.maybe (Pattern.nil.nest (Pattern.nil.must (Tag.of 5))) |>.must (Tag.of 2)).guarded
      fun token => token.tag.meets (Tag.of 1)

/-- The first entry that is needed has taken a token. -/
def halfGrouped : Automaton :=
  ((new "grouped" Tag.generic groupedPattern).feed 0 firstOfPair {}).1

theorem halfGrouped_eq :
    halfGrouped = { new "grouped" Tag.generic groupedPattern with
      attempt := { cursor := Cursor.moved groupedPattern [.advance, .advance, .consume, .advance]
                   buffer := #[0], started := true } } := by
  have hrun : (new "grouped" Tag.generic groupedPattern).run 0 firstOfPair {} = (_, .ok none) :=
    (run_of_again rfl).trans ((run_of_again rfl).trans (run_of_next rfl))
  rw [halfGrouped, feed_of_run hrun]
  rfl

/-- The cursor skips a group with the group inside of it, and the next entry has its guard tripped.
Then it goes from the first entry to the one that takes the token. -/
theorem exists_rounds_halfGrouped :
    ∃ skip trip rest x, Rounds {} 1 firstOfPair halfGrouped none (skip :: trip :: rest) x ∧
      trip.isMismatch = true ∧
      (skip :: trip :: rest).map (·.state.attempt.cursor.path) =
        [[3, 0, 0], [4], [0], [1, 0], [2]] := by
  rw [halfGrouped_eq]
  exact ⟨_, _, _, _, .again rfl (.mismatch rfl (.again rfl (.again rfl (.next rfl)))), rfl, rfl⟩

theorem feed_ends_within_halfGrouped :
    Reachable halfGrouped ∧ ∃ skip trip rest,
      Rounds {} 1 firstOfPair halfGrouped none (skip :: trip :: rest)
        (halfGrouped.feed 1 firstOfPair {}) ∧
      (skip :: trip :: rest).map (·.state.attempt.cursor.path) =
        [[3, 0, 0], [4], [0], [1, 0], [2]] ∧
      (skip :: trip :: rest).length ≤ 2 * halfGrouped.pattern.walk.length + 1 ∧
      rest.IsChain (Round.Forward halfGrouped.pattern) := by
  have hreachable : Reachable halfGrouped := .feed 0 _ {} (.new _ _ _)
  obtain ⟨rounds, hrounds, hlength, -, -, hafter, -⟩ :=
    feed_ends_within hreachable {} 1 firstOfPair
  obtain ⟨skip, trip, rest, x, hlisted, htrip, hpaths⟩ := exists_rounds_halfGrouped
  obtain ⟨rfl, rfl⟩ := (hrounds _ _).mp hlisted
  exact ⟨hreachable, skip, trip, rest, hlisted, hpaths, hlength, hafter [skip] trip rest rfl htrip⟩

end Automaton

end TagLayers
