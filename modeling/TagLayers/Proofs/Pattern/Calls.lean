import TagLayers.Proofs.Pattern.Steps
import TagLayers.Proofs.Pattern.Walk
import TagLayers.Proofs.Success

/-!
# Sequences of calls

What holds of an automaton between two calls, whatever the calls before: tokens are fed, the
stream is ended, the automaton is reset, and its matches are taken out.

The tokens that an automaton uses are those of its completed matches and then those of its
attempt. A step gives tokens up, or takes the one that it was offered and is done with it. So the
tokens used are always some of those fed, in the order in which they were fed.

Results:
1. `StepRule.used`, `used_feed`: what a step and a call do to the tokens used.
2. `StepRule.tidy`, `StepRule.settled`: the opener of an open region has been taken, and when a
   token is done with the attempt has started or is a new one.
3. `calls_invariant`: all of it for every sequence of calls that succeeds.
-/

namespace TagLayers

namespace Automaton

/-! ## The tokens used -/

/-- The indices of the tokens in completed matches, and then of those in the attempt. -/
def used (a : Automaton) : List Nat := a.completed.toList.flatten ++ a.attempt.buffer.toList

theorem used_consume (a : Automaton) (i : Nat) : (a.consume i).used = a.used ++ [i] := by
  simp [used, consume]

theorem used_restart (a : Automaton) : a.restart.used.Sublist a.used := by
  simp [used, restart]

/-- A completed attempt becomes the last match, and no token is lost. -/
theorem used_complete (a : Automaton) : a.complete.used = a.used := by
  by_cases h : a.attempt.buffer = #[]
  · simp [used, complete, restart, h]
  · simp [used, complete, restart, h]

theorem used_moveTo (a : Automaton) (cursor : Cursor) (again : Bool) :
    (a.moveTo cursor again).1.used = a.used := by
  rcases a.moveTo_cases cursor again with ⟨-, h⟩ | ⟨-, h⟩ <;> rw [h]
  · exact used_complete _
  · rfl

/-- A miss skips a group or drops the attempt. -/
theorem miss_cases (a : Automaton) :
    (∃ cursor, a.attempt.cursor.skip? = some cursor ∧ a.miss = a.moveTo cursor false) ∨
      (a.attempt.cursor.skip? = none ∧ a.miss = (a.restart, .next)) := by
  rw [miss]
  cases h : a.attempt.cursor.skip? with
  | some cursor => exact .inl ⟨cursor, rfl, rfl⟩
  | none => exact .inr ⟨rfl, rfl⟩

theorem used_miss (a : Automaton) : a.miss.1.used.Sublist a.used := by
  rcases a.miss_cases with ⟨cursor, -, h⟩ | ⟨-, h⟩ <;> rw [h]
  · exact used_moveTo a cursor false ▸ List.Sublist.refl _
  · exact used_restart a

theorem moveTo_true_snd (a : Automaton) (cursor : Cursor) : (a.moveTo cursor true).2 = .next := by
  rcases a.moveTo_cases cursor true with ⟨-, h⟩ | ⟨-, h⟩ <;> rw [h]
  rfl

/-- A step gives tokens up, or takes the token that is offered and is done with it. -/
theorem StepRule.used {a : Automaton} {entry : TagEntry} {i : Nat} {token : Token}
    {pairs : PairTable} {x : Automaton × Move} (h : StepRule a entry i token pairs x) :
    x.1.used.Sublist a.used ∨ (x.2 = .next ∧ x.1.used = a.used ++ [i]) := by
  cases h with
  | trip => exact .inl (used_restart a)
  | pass => exact .inl (used_moveTo a _ _ ▸ List.Sublist.refl _)
  | take =>
    refine .inr ⟨moveTo_true_snd _ _, ?_⟩
    rw [advance, used_moveTo, used_consume]
  | gather => exact .inr ⟨rfl, used_consume a i⟩
  | drop =>
    refine .inl ?_
    rw [advance, used_moveTo]
    exact List.Sublist.refl _
  | miss => exact .inl (used_miss a)
  | enter => exact .inr ⟨rfl, used_consume a i⟩
  | inside =>
    rcases a.takeInside_cases entry i token pairs with ⟨-, ht⟩ | ⟨-, ht⟩ <;> rw [ht]
    · refine .inr ⟨moveTo_true_snd _ _, ?_⟩
      rw [advance, used_moveTo]
      exact used_consume a i
    · exact .inr ⟨rfl, used_consume a i⟩

theorem used_step {a b : Automaton} {move : Move} {i : Nat} {token : Token} {pairs : PairTable}
    (h : a.step i token pairs = .ok (b, move)) :
    b.used.Sublist a.used ∨ (move = .next ∧ b.used = a.used ++ [i]) := by
  rcases step_rule h with ⟨-, rfl, -⟩ | ⟨entry, -, hr⟩
  · exact .inl (List.Sublist.refl _)
  · exact hr.used

/-- Whatever comes of a token, it is used once at most, and after a mismatch not at all. -/
theorem used_run (a : Automaton) (i : Nat) (token : Token) (pairs : PairTable) :
    (a.run i token pairs).1.used.Sublist (a.used ++ [i]) ∧
      ((a.run i token pairs).2 ≠ .ok none → (a.run i token pairs).1.used.Sublist a.used) := by
  have weaken {l : List Nat} (h : l.Sublist a.used) : l.Sublist (a.used ++ [i]) :=
    h.trans (List.sublist_append_left _ _)
  fun_induction run a i token pairs with
  | case1 a e h => exact ⟨weaken (List.Sublist.refl _), fun _ => List.Sublist.refl _⟩
  | case2 a b h =>
    refine ⟨?_, fun hne => absurd rfl hne⟩
    rcases used_step h with hs | ⟨-, hs⟩
    · exact weaken hs
    · exact hs ▸ List.Sublist.refl _
  | case3 a b tag h =>
    rcases used_step h with hs | ⟨hm, -⟩
    · exact ⟨weaken hs, fun _ => hs⟩
    · cases hm
  | case4 a b h ih =>
    rcases used_step h with hs | ⟨hm, -⟩
    · obtain ⟨h1, h2⟩ := ih fun {l} hl => hl.trans (List.sublist_append_left _ _)
      exact ⟨h1.trans (hs.append (List.Sublist.refl _)), fun hne => (h2 hne).trans hs⟩
    · cases hm

theorem used_feed (a : Automaton) (i : Nat) (token : Token) (pairs : PairTable) :
    (a.feed i token pairs).1.used.Sublist (a.used ++ [i]) := by
  obtain ⟨hfirst, hrest⟩ := used_run a i token pairs
  rw [feed]
  split <;> rename_i b _ hrun <;> rw [hrun] at hfirst hrest
  · exact hfirst
  · exact hfirst
  · -- the token that tripped a guard has not been used, and is offered once more
    have hb : b.used.Sublist a.used := hrest (by simp)
    have hsecond := (used_run b i token pairs).1.trans (hb.append (List.Sublist.refl [i]))
    split <;> rename_i c _ hrun' <;> rw [hrun'] at hsecond <;> exact hsecond

theorem used_finish (a : Automaton) : a.finish.1.used.Sublist a.used := by
  rcases a.finish_cases with h | h <;> rw [h]
  · exact used_restart a
  · exact used_complete a ▸ List.Sublist.refl _

/-! ## Openers and matches -/

/-- What holds between any two steps, beside the soundness of the attempt. Of the opener nothing is
said once its region is over. -/
structure Tidy (a : Automaton) : Prop where
  /-- The items ahead are an end of the walk. -/
  items : a.attempt.cursor.items <:+ a.pattern.walk
  opener : a.attempt.inside = true → a.opener ∈ a.attempt.buffer.toList
  completed : ∀ run ∈ a.completed.toList, run ≠ []

theorem tidy_reset (a : Automaton) : a.reset.Tidy where
  items := Cursor.items_start a.pattern ▸ List.suffix_refl _
  opener := fun h => nomatch h
  completed := fun _ h => nomatch h

theorem tidy_new (name : String) (tag : Tag) (p : Pattern) : (new name tag p).Tidy :=
  tidy_reset (new name tag p)

theorem tidy_restart {a : Automaton} (h : a.Tidy) : a.restart.Tidy :=
  { tidy_reset a with completed := h.completed }

theorem tidy_complete {a : Automaton} (h : a.Tidy) : a.complete.Tidy := by
  refine ⟨(tidy_restart h).items, (fun hin => nomatch hin), fun run hrun => ?_⟩
  by_cases hb : a.attempt.buffer = #[]
  · exact h.completed run (by simpa [complete, hb] using hrun)
  · simp only [complete, Array.isEmpty_iff, hb, if_false, Array.toList_push, List.mem_append,
      List.mem_singleton] at hrun
    rcases hrun with hrun | rfl
    · exact h.completed run hrun
    · simpa using hb

theorem tidy_moveTo {a : Automaton} (h : a.Tidy) {cursor : Cursor}
    (hc : cursor.items <:+ a.attempt.cursor.items) (again : Bool) :
    (a.moveTo cursor again).1.Tidy := by
  have hmoved : Tidy { a with attempt := { a.attempt with cursor } } :=
    ⟨hc.trans h.items, h.opener, h.completed⟩
  rcases a.moveTo_cases cursor again with ⟨-, hm⟩ | ⟨-, hm⟩ <;> rw [hm]
  · exact tidy_complete hmoved
  · exact hmoved

theorem tidy_advance {a : Automaton} (h : a.Tidy) (again : Bool) : (a.advance again).1.Tidy :=
  tidy_moveTo h (by rw [Cursor.items_advance]; exact List.tail_suffix _) again

theorem tidy_miss {a : Automaton} (h : a.Tidy) : a.miss.1.Tidy := by
  rcases a.miss_cases with ⟨cursor, hskip, hm⟩ | ⟨-, hm⟩ <;> rw [hm]
  · exact tidy_moveTo h (Cursor.items_skip_suffix hskip) false
  · exact tidy_restart h

/-- An automaton whose attempt has taken the token, or goes on after one that is left out, is tidy
with any region whose opener has been taken. -/
theorem tidy_begun {a b : Automaton} (h : a.Tidy) (hp : b.pattern = a.pattern)
    (hdone : b.completed = a.completed) (hc : b.attempt.cursor = a.attempt.cursor.consume)
    (ho : b.attempt.inside = true → b.opener ∈ b.attempt.buffer.toList) : b.Tidy where
  items := by
    rw [hc, hp, Cursor.items_consume]
    exact h.items
  opener := ho
  completed := hdone ▸ h.completed

theorem StepRule.tidy {a : Automaton} {entry : TagEntry} {i : Nat} {token : Token}
    {pairs : PairTable} {x : Automaton × Move} (h : StepRule a entry i token pairs x)
    (ht : a.Tidy) : x.1.Tidy := by
  have hpush : a.attempt.inside = true → a.opener ∈ (a.attempt.buffer.push i).toList := by
    intro hin
    rw [Array.toList_push]
    exact List.mem_append_left _ (ht.opener hin)
  have taken : (a.consume i).Tidy := tidy_begun ht rfl rfl rfl hpush
  cases h with
  | trip => exact tidy_restart ht
  | pass => exact tidy_advance ht false
  | take => exact tidy_advance taken true
  | gather => exact taken
  | drop =>
    have left : a.leaveOut.Tidy := tidy_begun ht rfl rfl rfl ht.opener
    exact tidy_advance left true
  | miss => exact tidy_miss ht
  | enter =>
    refine tidy_begun ht rfl rfl rfl fun _ => ?_
    simp [consume, enterRegion]
  | inside =>
    rcases a.takeInside_cases entry i token pairs with ⟨-, hin⟩ | ⟨-, hin⟩ <;> rw [hin]
    · have closed : ((a.consume i).setDepth 0).leaveRegion.Tidy := by
        refine tidy_begun ht rfl rfl rfl fun hopen => ?_
        cases hopen
      exact tidy_advance closed true
    · exact tidy_begun ht rfl rfl rfl hpush

theorem tidy_step {a b : Automaton} {move : Move} {i : Nat} {token : Token} {pairs : PairTable}
    (ht : a.Tidy) (h : a.step i token pairs = .ok (b, move)) : b.Tidy := by
  rcases step_rule h with ⟨-, rfl, -⟩ | ⟨entry, -, hr⟩
  · exact ht
  · exact hr.tidy ht

theorem tidy_feed {a : Automaton} (ht : a.Tidy) (i : Nat) (token : Token) (pairs : PairTable) :
    (a.feed i token pairs).1.Tidy :=
  feed_keeps tidy_step ht

theorem tidy_finish {a : Automaton} (ht : a.Tidy) : a.finish.1.Tidy := by
  rcases a.finish_cases with h | h <;> rw [h]
  · exact tidy_restart ht
  · exact tidy_complete ht

/-! ## Tokens that are done with -/

/-- The attempt has started, or is a new one. -/
def Settled (a : Automaton) : Prop :=
  a.attempt.started = true ∨ a.attempt = { cursor := Cursor.start a.pattern }

theorem settled_restart (a : Automaton) : a.restart.Settled := .inr rfl

/-- A cursor that moves on while the token is offered again may leave an attempt that has not
started in the middle of the pattern; all other moves do not. -/
theorem settled_moveTo {a : Automaton} {cursor : Cursor} {again : Bool}
    (h : again = false ∨ a.attempt.started = true) (hn : (a.moveTo cursor again).2 = .next) :
    (a.moveTo cursor again).1.Settled := by
  rcases a.moveTo_cases cursor again with ⟨-, hm⟩ | ⟨-, hm⟩ <;> rw [hm] at hn ⊢
  · exact .inr rfl
  · rcases h with rfl | h
    · cases hn
    · exact .inl h

theorem StepRule.settled {a : Automaton} {entry : TagEntry} {i : Nat} {token : Token}
    {pairs : PairTable} {x : Automaton × Move} (h : StepRule a entry i token pairs x)
    (hn : x.2 = .next) : x.1.Settled := by
  cases h with
  | trip => cases hn
  | pass => exact settled_moveTo (.inl rfl) hn
  | take => exact settled_moveTo (.inr rfl) hn
  | drop => exact settled_moveTo (.inr rfl) hn
  | gather => exact .inl rfl
  | enter => exact .inl rfl
  | miss =>
    rcases a.miss_cases with ⟨cursor, -, hm⟩ | ⟨-, hm⟩ <;> rw [hm] at hn ⊢
    · exact settled_moveTo (.inl rfl) hn
    · exact settled_restart a
  | inside =>
    rcases a.takeInside_cases entry i token pairs with ⟨-, hin⟩ | ⟨-, hin⟩ <;> rw [hin] at hn ⊢
    · exact settled_moveTo (.inr rfl) hn
    · exact .inl rfl

theorem settled_step {a b : Automaton} {i : Nat} {token : Token} {pairs : PairTable}
    (hs : a.Sound) (h : a.step i token pairs = .ok (b, .next)) : b.Settled := by
  rcases step_rule h with ⟨hc, rfl, -⟩ | ⟨entry, -, hr⟩
  · exact .inr (hs.idle (Cursor.isPast_of_current?_none hc))
  · exact hr.settled rfl

theorem settled_run {a : Automaton} (hs : a.Sound) {i : Nat} {token : Token} {pairs : PairTable}
    {result : Option Tag} (h : (a.run i token pairs).2 = .ok result) :
    (a.run i token pairs).1.Settled := by
  fun_induction run a i token pairs with
  | case1 a e hstep => cases h
  | case2 a b hstep => exact settled_step hs hstep
  | case3 a b tag hstep =>
    obtain ⟨entry, -, -, rfl, -⟩ := step_mismatch hstep
    exact settled_restart a
  | case4 a b hstep ih => exact ih (sound_step hs hstep) h

theorem settled_feed {a b : Automaton} (hs : a.Sound) {i : Nat} {token : Token}
    {pairs : PairTable} {result : Option Mismatch} (h : a.feed i token pairs = (b, .ok result)) :
    b.Settled := by
  rw [feed] at h
  split at h <;> rename_i c _ hrun
  · cases h
  · cases h
    have hfirst : (a.run i token pairs).1.Settled := settled_run hs (by rw [hrun])
    rwa [hrun] at hfirst
  · have hc : c.Sound := by
      have hsound := sound_run hs i token pairs
      rwa [hrun] at hsound
    split at h <;> rename_i d _ hrun'
    · cases h
    · cases h
      have hsecond : (c.run i token pairs).1.Settled := settled_run hc (by rw [hrun'])
      rwa [hrun'] at hsecond

theorem settled_finish (a : Automaton) : a.finish.1.Settled := by
  rcases a.finish_cases with h | h <;> rw [h] <;> exact .inr rfl

/-! ## Calls -/

/-- A call to an automaton. -/
inductive Call where
  | feed (i : Nat) (token : Token) (pairs : PairTable)
  | finish
  | reset
  | takeCompleted

/-- The index of the token that a call feeds. -/
def Call.index? : Call → Option Nat
  | feed i _ _ => some i
  | finish | reset | takeCompleted => none

/-- The automaton after a call, unless the call fails. -/
def call (a : Automaton) : Call → Except PatternError Automaton
  | .feed i token pairs =>
      match a.feed i token pairs with
      | (b, .ok _) => .ok b
      | (_, .error e) => .error e
  | .finish => .ok a.finish.1
  | .reset => .ok a.reset
  | .takeCompleted => .ok a.takeCompleted.1

/-- The automaton after calls that all succeed. -/
def calls (a : Automaton) (cs : List Call) : Except PatternError Automaton := cs.foldlM call a

/-- What holds between two calls, after the tokens of the indices `fed`. -/
structure Between (p : Pattern) (fed : List Nat) (a : Automaton) : Prop where
  pattern : a.pattern = p
  sound : a.Sound
  tidy : a.Tidy
  settled : a.Settled
  used : a.used.Sublist fed

theorem between_new (name : String) (tag : Tag) (p : Pattern) : Between p [] (new name tag p) where
  pattern := rfl
  sound := Attempt.Sound.fresh p
  tidy := tidy_new name tag p
  settled := .inr rfl
  used := List.Sublist.refl _

theorem Between.feed {p : Pattern} {fed : List Nat} {a b : Automaton} (h : Between p fed a)
    {i : Nat} {token : Token} {pairs : PairTable} {result : Option Mismatch}
    (hfeed : a.feed i token pairs = (b, .ok result)) : Between p (fed ++ [i]) b where
  pattern := by
    have hsame := (sameMachine_feed a i token pairs).2.2
    rw [hfeed] at hsame
    exact hsame.trans h.pattern
  sound := by
    have hsound := sound_feed h.sound i token pairs
    rwa [hfeed] at hsound
  tidy := by
    have htidy := tidy_feed h.tidy i token pairs
    rwa [hfeed] at htidy
  settled := settled_feed h.sound hfeed
  used := by
    have hused := used_feed a i token pairs
    rw [hfeed] at hused
    exact hused.trans (h.used.append (List.Sublist.refl _))

theorem Between.finish {p : Pattern} {fed : List Nat} {a : Automaton} (h : Between p fed a) :
    Between p fed a.finish.1 where
  pattern := (sameMachine_finish a).2.2.trans h.pattern
  sound := sound_finish a
  tidy := tidy_finish h.tidy
  settled := settled_finish a
  used := (used_finish a).trans h.used

theorem Between.call {p : Pattern} {fed : List Nat} {a b : Automaton} (h : Between p fed a)
    {c : Call} (hc : a.call c = .ok b) : Between p (fed ++ c.index?.toList) b := by
  cases c with
  | feed i token pairs =>
    rw [Automaton.call] at hc
    split at hc
    · next hfeed =>
      cases hc
      exact h.feed hfeed
    · cases hc
  | finish =>
    cases hc
    rw [Call.index?, Option.toList_none, List.append_nil]
    exact h.finish
  | reset =>
    cases hc
    exact
      { pattern := h.pattern
        sound := sound_reset a
        tidy := tidy_reset a
        settled := .inr rfl
        used := List.nil_sublist _ }
  | takeCompleted =>
    cases hc
    rw [Call.index?, Option.toList_none, List.append_nil]
    exact
      { pattern := h.pattern
        sound := h.sound
        tidy := { h.tidy with completed := fun _ hrun => nomatch hrun }
        settled := h.settled
        used := (List.sublist_append_right _ _).trans h.used }

theorem Between.calls {p : Pattern} {fed : List Nat} {a b : Automaton} (h : Between p fed a)
    {cs : List Call} (hcs : a.calls cs = .ok b) :
    Between p (fed ++ cs.filterMap Call.index?) b := by
  induction cs generalizing a fed with
  | nil =>
    cases hcs
    rw [List.filterMap_nil, List.append_nil]
    exact h
  | cons c rest ih =>
    rw [Automaton.calls, List.foldlM_cons] at hcs
    obtain ⟨b', hc, hlater⟩ := bind_eq_ok.mp hcs
    have hrest := ih (h.call hc) hlater
    rw [List.append_assoc] at hrest
    cases hi : c.index? <;> simpa [List.filterMap_cons, hi] using hrest

/-- Between any two calls to an automaton, when tokens are fed with increasing indices and no call
fails: the attempt has not started and is a new one, or it has started and its cursor rests on an
entry of the walk; a region is open exactly when a closer is noted, and exactly when the depth is
positive, and then the cursor rests on an entry for regions and the token noted as the opener has
been taken; no completed match is empty; and the completed matches, one after the other, and then
the tokens taken by the attempt are in increasing order and have been fed. -/
theorem calls_invariant (name : String) (tag : Tag) (p : Pattern) {cs : List Call}
    (hincreasing : (cs.filterMap Call.index?).Pairwise (· < ·)) {a : Automaton}
    (h : (new name tag p).calls cs = .ok a) :
    ((a.attempt.started = false ∧ a.attempt.buffer = #[] ∧ a.attempt.cursor = Cursor.start p) ∨
      (a.attempt.started = true ∧
        ∃ e, a.attempt.cursor.current? = some e ∧ (a.attempt.cursor.path, e) ∈ p.walk)) ∧
    (a.attempt.inside = true ↔ ∃ closer, a.attempt.closer = some closer) ∧
    (a.attempt.inside = true ↔ 0 < a.attempt.depth) ∧
    (a.attempt.inside = true →
      (∃ e, a.attempt.cursor.current? = some e ∧ e.mode = .complete) ∧
        a.opener ∈ a.attempt.buffer) ∧
    (∀ run ∈ a.completed, run ≠ []) ∧
    (a.completed.toList.flatten ++ a.attempt.buffer.toList).Pairwise (· < ·) ∧
    ∀ i ∈ a.completed.toList.flatten ++ a.attempt.buffer.toList,
      i ∈ cs.filterMap Call.index? := by
  obtain ⟨rfl, hsound, htidy, hsettled, hused⟩ := (between_new name tag p).calls h
  rw [List.nil_append] at hused
  refine ⟨?_, ?_, hsound.agrees.depth, fun hin => ⟨hsound.entry hin, ?_⟩, fun run hrun => ?_,
    hincreasing.sublist hused, fun i hi => hused.subset hi⟩
  · rcases hsettled with hstarted | hfresh
    · obtain ⟨e, he⟩ := Cursor.exists_current (hsound.isPast_eq_false hstarted)
      exact .inr ⟨hstarted, e, he, htidy.items.subset (Cursor.path_mem_items he)⟩
    · rw [hfresh]
      exact .inl ⟨rfl, rfl, rfl⟩
  · rw [hsound.agrees.closer, Option.isSome_iff_exists]
  · exact Array.mem_def.mpr (htidy.opener hin)
  · exact htidy.completed run (Array.mem_def.mp hrun)

/-- An entry, and one for regions. -/
def regionPattern : Pattern := (Pattern.nil.must (Tag.of 1)).complete (Tag.of 2)

def regionPairs : PairTable := ⟨[(Tag.of 2, Tag.of 3)]⟩

/-- Feeds a token with the given index and value. -/
def feedOf (i : Nat) (value : TagValue) : Call :=
  .feed i { tag := Tag.of value, text := [], span := {} } regionPairs

/-- A match is completed and taken out, and two regions are open in the next attempt. -/
def regionCalls : List Call :=
  [feedOf 0 1, feedOf 2 2, feedOf 3 3, .takeCompleted, feedOf 5 1, feedOf 6 2, feedOf 9 2]

theorem calls_invariant_regionCalls :
    (regionCalls.filterMap Call.index?).Pairwise (· < ·) ∧
      ∃ a, (new "region" Tag.generic regionPattern).calls regionCalls = .ok a ∧
        a.attempt.depth = 2 ∧ a.attempt.inside = true ∧ a.opener ∈ a.attempt.buffer ∧
        (∃ closer, a.attempt.closer = some closer) ∧
        (∃ e, a.attempt.cursor.current? = some e ∧
          (a.attempt.cursor.path, e) ∈ regionPattern.walk) ∧
        (a.completed.toList.flatten ++ a.attempt.buffer.toList).Pairwise (· < ·) := by
  have hincreasing : (regionCalls.filterMap Call.index?).Pairwise (· < ·) := by decide
  have hrun : ((new "region" Tag.generic regionPattern).calls regionCalls).toOption.map
      (fun a => (a.attempt.depth, a.attempt.started)) = some (2, true) := by
    decide +kernel
  cases h : (new "region" Tag.generic regionPattern).calls regionCalls with
  | error e =>
    rw [h] at hrun
    cases hrun
  | ok a =>
    rw [h] at hrun
    obtain ⟨hdepth, hstarted⟩ := Prod.mk.inj (Option.some.inj hrun)
    obtain ⟨hattempt, hcloser, hpositive, hregion, -, hsorted, -⟩ :=
      calls_invariant "region" Tag.generic regionPattern hincreasing h
    have hin : a.attempt.inside = true := hpositive.mpr (by rw [hdepth]; decide)
    refine ⟨hincreasing, a, rfl, hdepth, hin, (hregion hin).2, hcloser.mp hin, ?_, hsorted⟩
    rcases hattempt with ⟨hidle, -⟩ | ⟨-, hon⟩
    · rw [hstarted] at hidle
      cases hidle
    · exact hon

end Automaton

end TagLayers
