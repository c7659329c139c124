import Mathlib.Data.List.Induction
import TagLayers.Proofs.Pattern.Calls
import TagLayers.Proofs.Pattern.Simulation
import TagLayers.Proofs.Pattern.Words

/-!
# Balanced regions

An entry for balanced regions counts. It stands at one after the token that opens the region, goes
up at each token that opens another one within it and down at each token that closes one, and the
region is over when the count comes to zero.

The count is defined on the tokens alone, with no subtraction that stops at zero: `balance` is an
integer. That the depth of an automaton is this integer says that the depth never ran below zero.

Results:
1. `balance_concat`: one token inside a region moves the depth as it moves the count.
2. `feed_outside`, `feed_opens`, `feed_inside`: what a token does where no region is open, and where
   one is.
3. `Within.holds`: the state inside a region, by induction on the tokens that follow its opener.
4. `region_balance`: when an automaton is inside a region, how deep, what the next token does
   there, and what the end of the stream reports.
-/

namespace TagLayers

/-! ## Counting -/

/-- How many regions are open after the tokens that follow an opener. -/
def TagEntry.balance (pairs : PairTable) (e : TagEntry) (closer : Tag) (tokens : List Token) :
    Int :=
  1 + e.openers pairs closer tokens - closers closer tokens

namespace TagEntry

variable {pairs : PairTable} {e : TagEntry}

theorem balance_nil (pairs : PairTable) (e : TagEntry) (closer : Tag) :
    e.balance pairs closer [] = 1 := by
  simp [balance, openers, closers]

theorem balance_concat {region : Region} (hd : 0 < region.depth) {tokens : List Token}
    (h : (region.depth : Int) = e.balance pairs region.closer tokens) (token : Token) :
    (region.depthAfter e token pairs : Int)
      = e.balance pairs region.closer (tokens ++ [token]) := by
  have hone := depth_after pairs e hd token []
  have hopen : e.openers pairs region.closer (tokens ++ [token])
      = e.openers pairs region.closer tokens + e.openers pairs region.closer [token] := by
    rw [openers, List.countP_append, openers, openers]
  have hclose : closers region.closer (tokens ++ [token])
      = closers region.closer tokens + closers region.closer [token] := by
    rw [closers, List.countP_append, closers, closers]
  have hnil : e.openers pairs region.closer [] = 0 := rfl
  rw [balance] at h ⊢
  rw [hopen, hclose]
  omega

end TagEntry

namespace Automaton

/-- The automaton after a stream of tokens. -/
def after (pairs : PairTable) (start : Automaton) (tokens : List Token) : Automaton :=
  (start.feedStream pairs 0 tokens).1

theorem feedStream_append (pairs : PairTable) (a : Automaton) (i : Nat) (front back : List Token) :
    a.feedStream pairs i (front ++ back)
      = (((a.feedStream pairs i front).1.feedStream pairs (i + front.length) back).1,
          (a.feedStream pairs i front).2
            ++ ((a.feedStream pairs i front).1.feedStream pairs (i + front.length) back).2) := by
  induction front generalizing a i with
  | nil => rfl
  | cons head rest ih =>
    have hi : i + (head :: rest).length = i + 1 + rest.length := by
      rw [List.length_cons]
      omega
    rw [hi, List.cons_append]
    exact congrArg (fun x => (x.1, _ :: x.2)) (ih _ (i + 1))

theorem after_concat (pairs : PairTable) (start : Automaton) (tokens : List Token)
    (token : Token) :
    start.after pairs (tokens ++ [token])
      = ((start.after pairs tokens).feed tokens.length token pairs).1 := by
  rw [after, feedStream_append, Nat.zero_add]
  rfl

theorem sound_after (pairs : PairTable) {start : Automaton} (hs : start.Sound)
    (tokens : List Token) : (start.after pairs tokens).Sound := by
  induction tokens using List.reverseRecOn with
  | nil => exact hs
  | append_singleton tokens token ih =>
    rw [after_concat]
    exact sound_feed ih _ token pairs

/-! ## One token -/

/-- The token at index `i` has just opened a region at the entry `e`. -/
structure JustOpened (pairs : PairTable) (a : Automaton) (i : Nat) (token : Token) (e : TagEntry)
    (closer : Tag) : Prop where
  region : a.attempt.region = some ⟨closer, 1⟩
  opener : a.opener = i
  current : a.attempt.cursor.current? = some e
  started : a.attempt.started = true
  mode : e.mode = .complete
  closer : pairs.closer? e.target = some closer
  hits : e.hits token = true

variable {pairs : PairTable} {a : Automaton} {i : Nat} {token : Token}

theorem outside_moveTo (ho : a.attempt.inside = false) (cursor : Cursor) (used : Bool) :
    (a.moveTo cursor used).1.attempt.inside = false := by
  rcases a.moveTo_cases cursor used with ⟨-, h⟩ | ⟨-, h⟩ <;> rw [h]
  · rfl
  · exact ho

theorem outside_miss (ho : a.attempt.inside = false) : a.miss.1.attempt.inside = false := by
  rcases a.miss_cases with ⟨cursor, -, h⟩ | ⟨-, h⟩ <;> rw [h]
  · exact outside_moveTo ho cursor false
  · rfl

/-- Where no region is open, a step opens one and is done with the token, or none is open still. -/
theorem StepRule.opens {e : TagEntry} {x : Automaton × Move} (h : StepRule a e i token pairs x)
    (hc : a.attempt.cursor.current? = some e) (ho : a.attempt.inside = false) :
    x.1.attempt.inside = false ∨
      (x.2 = .next ∧ ∃ closer, JustOpened pairs x.1 i token e closer) := by
  cases h with
  | trip => exact .inl rfl
  | pass => exact .inl (outside_moveTo ho _ _)
  | take => exact .inl (outside_moveTo (a := a.consume i) ho _ _)
  | gather => exact .inl ho
  | drop => exact .inl (outside_moveTo (a := a.leaveOut) ho _ _)
  | miss => exact .inl (outside_miss ho)
  | @enter closer _ hm _ hit hcl =>
    refine .inr ⟨rfl, closer, rfl, rfl, ?_, rfl, hm, hcl, hit⟩
    exact (Cursor.current?_consume _).trans hc
  | inside _ _ hin => cases ho.symm.trans hin

theorem run_outside (ho : a.attempt.inside = false) (i : Nat) (token : Token)
    (pairs : PairTable) :
    (a.run i token pairs).1.attempt.inside = false ∨
      ((a.run i token pairs).2 = .ok none ∧
        ∃ e closer, JustOpened pairs (a.run i token pairs).1 i token e closer) := by
  have opens {a b : Automaton} {move : Move} (ho : a.attempt.inside = false)
      (h : a.step i token pairs = .ok (b, move)) :
      b.attempt.inside = false ∨
        (move = .next ∧ ∃ e closer, JustOpened pairs b i token e closer) := by
    rcases step_rule h with ⟨-, rfl, -⟩ | ⟨e, hc, hrule⟩
    · exact .inl ho
    · exact (hrule.opens hc ho).imp_right fun hopen => ⟨hopen.1, e, hopen.2⟩
  fun_induction run a i token pairs with
  | case1 a err h => exact .inl ho
  | case2 a b h => exact (opens ho h).imp_right fun hopen => ⟨rfl, hopen.2⟩
  | case3 a b tag h => exact .inl ((opens ho h).resolve_right fun hopen => by cases hopen.1)
  | case4 a b h ih => exact ih ((opens ho h).resolve_right fun hopen => by cases hopen.1)

/-- Where no region is open, a token opens one, or none is open still. -/
theorem feed_outside (ho : a.attempt.inside = false) (i : Nat) (token : Token)
    (pairs : PairTable) :
    (a.feed i token pairs).1.attempt.inside = false ∨
      ∃ e closer, JustOpened pairs (a.feed i token pairs).1 i token e closer := by
  have first := run_outside ho i token pairs
  rw [feed]
  split <;> rename_i b _ hrun <;> rw [hrun] at first
  · exact first.imp_right And.right
  · exact first.imp_right And.right
  · have hb : b.attempt.inside = false := first.resolve_right fun hopen => by cases hopen.1
    have second := run_outside hb i token pairs
    split <;> rename_i hrun' <;> rw [hrun'] at second <;> exact second.imp_right And.right

/-- A token that hits an entry for regions, where none is open, opens one. -/
theorem feed_opens {e : TagEntry} {closer : Tag} (hc : a.attempt.cursor.current? = some e)
    (hm : e.mode = .complete) (ho : a.attempt.inside = false) (hit : e.hits token = true)
    (hcl : pairs.closer? e.target = some closer) (i : Nat) :
    (a.feed i token pairs).2 = .ok none ∧
      JustOpened pairs (a.feed i token pairs).1 i token e closer := by
  have ht : a.trips e token = false := by simp [trips, hit]
  have hstep : a.step i token pairs = .ok ((a.enterRegion closer i).consume i, .next) := by
    simp [step, hc, ht, offer, hm, ho, hit, openRegion, hcl]
  rw [feed_of_run (run_of_next hstep)]
  exact ⟨rfl, rfl, rfl, (Cursor.current?_consume _).trans hc, rfl, hm, hcl, hit⟩

/-- A token that trips the guard ends the attempt, and may open a region in the next one. -/
theorem feed_trips {e : TagEntry} (hc : a.attempt.cursor.current? = some e)
    (ht : a.trips e token = true) (i : Nat) (pairs : PairTable) :
    (a.feed i token pairs).2 ≠ .ok none ∧
      ((a.feed i token pairs).1.attempt.inside = false ∨
        ((∃ m, (a.feed i token pairs).2 = .ok (some m)) ∧
          ∃ e closer, JustOpened pairs (a.feed i token pairs).1 i token e closer)) := by
  have hstep : a.step i token pairs = .ok (a.restart, .mismatch (a.expected e)) := by
    simp only [step, hc, ht, if_true]
  have second := run_outside (a := a.restart) rfl i token pairs
  rw [feed, run_of_mismatch hstep]
  dsimp only
  split <;> rename_i c _ hrun <;> rw [hrun] at second
  · refine ⟨fun h => ?_, .inl (second.resolve_right fun hopen => by cases hopen.1)⟩
    cases h
  · refine ⟨fun h => ?_, second.imp_right fun hopen => ⟨⟨_, rfl⟩, hopen.2⟩⟩
    cases h

/-- A token inside a region that trips no guard is taken into it. -/
theorem feed_inside {e : TagEntry} (hc : a.attempt.cursor.current? = some e)
    (hm : e.mode = .complete) (hin : a.attempt.inside = true) (ht : a.trips e token = false)
    (i : Nat) (pairs : PairTable) :
    a.feed i token pairs = ((a.takeInside e i token pairs).1, .ok none) := by
  have hnext : (a.takeInside e i token pairs).2 = .next := by
    rcases a.takeInside_cases e i token pairs with ⟨-, h⟩ | ⟨-, h⟩ <;> rw [h]
    exact moveTo_true_snd _ _
  refine feed_of_run (run_of_next ?_)
  rw [step, hc]
  simp only [ht, Bool.false_eq_true, if_false, offer, hm, hin, if_true]
  rw [← hnext]

/-- Inside a region a guard is asked about the tokens that neither hit nor close. -/
theorem trips_inside {e : TagEntry} {region : Region} (hs : a.attempt.started = true)
    (hm : e.mode = .complete) (hr : a.attempt.region = some region) (token : Token) :
    a.trips e token = false ↔ token.tag.meets region.closer = true ∨ e.hits token = true ∨
      e.guardHolds token = false := by
  simp only [trips, hs, TagEntry.isOptional, hm, closes_of_region hr]
  cases token.tag.meets region.closer <;> cases e.hits token <;> cases e.guardHolds token <;>
    simp

/-! ## A region and the tokens in it -/

/-- In a stream that starts with `earlier`, the token `opener` opens a region at the entry `e`:
no region was open before it, or it has ended the attempt with the one that was. -/
structure Opens (pairs : PairTable) (start : Automaton) (earlier : List Token) (opener : Token)
    (e : TagEntry) (closer : Tag) : Prop where
  outside : (start.after pairs earlier).isInside = false ∨
    ∃ m, ((start.after pairs earlier).feed earlier.length opener pairs).2 = .ok (some m)
  inside : (start.after pairs (earlier ++ [opener])).isInside = true
  current : (start.after pairs (earlier ++ [opener])).attempt.cursor.current? = some e
  closer : pairs.closer? e.target = some closer
  hits : e.hits opener = true

/-- The tokens `later` go to the region that `opener` has opened: no guard has ended the attempt,
and the count was positive all along. -/
structure Within (pairs : PairTable) (start : Automaton) (earlier : List Token) (opener : Token)
    (later : List Token) (e : TagEntry) (closer : Tag) : Prop where
  opens : Opens pairs start earlier opener e closer
  unbroken : ∀ r ∈ ((start.after pairs (earlier ++ [opener])).feedStream pairs
    (earlier.length + 1) later).2, r = .ok none
  positive : ∀ front, front <+: later → 1 ≤ e.balance pairs closer front

/-- The entry under the cursor of `a` has taken the token at index `i` and is done with. What comes
next is the next entry, or a new attempt where that was the last one. -/
def TakesLast (a : Automaton) (i : Nat) (b : Automaton) : Prop :=
  b.isInside = false ∧
    ((a.attempt.cursor.consume.advance.isPast = true ∧
        b.attempt = { cursor := Cursor.start a.pattern } ∧
        b.completed = a.completed.push (a.attempt.buffer.push i).toList) ∨
      (a.attempt.cursor.consume.advance.isPast = false ∧
        b.attempt.cursor = a.attempt.cursor.consume.advance ∧
        b.attempt.buffer = a.attempt.buffer.push i ∧ b.completed = a.completed))

theorem takesLast_of_depth_zero {e : TagEntry} (h : a.depthAfter e token pairs = 0) :
    TakesLast a i (a.takeInside e i token pairs).1 := by
  rcases a.takeInside_cases e i token pairs with ⟨-, ht⟩ | ⟨hd, -⟩
  · rw [ht, advance]
    rcases ((a.consume i).setDepth 0).leaveRegion.moveTo_cases
        ((a.consume i).setDepth 0).leaveRegion.attempt.cursor.advance true
      with ⟨hp, hm⟩ | ⟨hp, hm⟩ <;> rw [hm]
    · refine ⟨rfl, .inl ⟨hp, rfl, ?_⟩⟩
      simp [complete, leaveRegion, setDepth, consume]
    · exact ⟨rfl, .inr ⟨hp, rfl, rfl, rfl⟩⟩
  · omega

/-- The state of an automaton inside a region that the token at index `o` has opened. -/
structure Holds (pairs : PairTable) (a : Automaton) (o : Nat) (later : List Token) (e : TagEntry)
    (closer : Tag) : Prop where
  region : a.attempt.region = some ⟨closer, a.attempt.depth⟩
  opener : a.opener = o
  positive : 0 < a.attempt.depth
  /-- The depth is the count. -/
  depth : (a.attempt.depth : Int) = e.balance pairs closer later
  current : a.attempt.cursor.current? = some e
  started : a.attempt.started = true
  mode : e.mode = .complete

variable {e : TagEntry} {closer : Tag} {o : Nat} {later : List Token}

theorem JustOpened.holds (h : JustOpened pairs a o token e closer) :
    Holds pairs a o [] e closer := by
  obtain ⟨-, -, hd⟩ := Attempt.region_eq_some_iff.mp h.region
  exact
    { region := hd ▸ h.region
      opener := h.opener
      positive := by rw [hd]; exact Nat.one_pos
      depth := by rw [hd, e.balance_nil pairs closer]; rfl
      current := h.current
      started := h.started
      mode := h.mode }

theorem Holds.inside (h : Holds pairs a o later e closer) : a.attempt.inside = true :=
  (Attempt.region_eq_some_iff.mp h.region).1

theorem Holds.trips_iff (h : Holds pairs a o later e closer) (token : Token) :
    a.trips e token = false ↔
      token.tag.meets closer = true ∨ e.hits token = true ∨ e.guardHolds token = false :=
  trips_inside h.started h.mode h.region token

/-- Inside a region the automaton takes the token exactly if no guard trips. -/
theorem Holds.feed_eq_none_iff (h : Holds pairs a o later e closer) (i : Nat) (token : Token) :
    (a.feed i token pairs).2 = .ok none ↔ a.trips e token = false := by
  cases ht : a.trips e token with
  | false => simp [feed_inside h.current h.mode h.inside ht i pairs]
  | true => simp [(feed_trips h.current ht i pairs).1]

/-- One token inside a region: at count zero the entry is done with, and else the region is open
still, deeper or less deep by what the token counts. -/
theorem Holds.feed (h : Holds pairs a o later e closer) {i : Nat} {token : Token}
    (hok : (a.feed i token pairs).2 = .ok none) :
    (e.balance pairs closer (later ++ [token]) = 0 ∧ TakesLast a i (a.feed i token pairs).1) ∨
      (1 ≤ e.balance pairs closer (later ++ [token]) ∧
        Holds pairs (a.feed i token pairs).1 o (later ++ [token]) e closer) := by
  have ht := (h.feed_eq_none_iff i token).mp hok
  have hb : (a.depthAfter e token pairs : Int) = e.balance pairs closer (later ++ [token]) := by
    rw [depthAfter_eq h.region]
    exact e.balance_concat h.positive h.depth token
  rw [feed_inside h.current h.mode h.inside ht, ← hb]
  rcases a.takeInside_cases e i token pairs with ⟨hzero, -⟩ | ⟨hmore, htake⟩
  · exact .inl ⟨by rw [hzero]; rfl, takesLast_of_depth_zero hzero⟩
  · refine .inr ⟨by omega, ?_⟩
    rw [htake]
    exact
      { region := region_setDepth (a := a.consume i) h.region _
        opener := h.opener
        positive := hmore
        depth := hb
        current := (Cursor.current?_consume _).trans h.current
        started := rfl
        mode := h.mode }

/-- A token fed where no region is open, or one that ends the attempt with the region, leaves none
open or has opened one. -/
theorem outside_or_justOpened (hs : a.Sound)
    (h : a.isInside = false ∨ ∃ m, (a.feed i token pairs).2 = .ok (some m)) :
    (a.feed i token pairs).1.attempt.inside = false ∨
      ∃ e closer, JustOpened pairs (a.feed i token pairs).1 i token e closer := by
  cases hin : a.attempt.inside with
  | false => exact feed_outside hin i token pairs
  | true =>
    obtain ⟨e, hc, hm⟩ := hs.entry hin
    cases ht : a.trips e token with
    | true => exact (feed_trips hc ht i pairs).2.imp_right And.right
    | false =>
      rcases h with h | ⟨m, h⟩
      · cases hin.symm.trans h
      · rw [feed_inside hc hm hin ht] at h
        cases h

/-! ## Streams -/

section Streams

variable {name : String} {tag : Tag} {p : Pattern} {earlier tokens : List Token} {opener : Token}

theorem Opens.holds (h : Opens pairs (new name tag p) earlier opener e closer) :
    Holds pairs ((new name tag p).after pairs (earlier ++ [opener])) earlier.length [] e
      closer := by
  have hin := h.inside
  have hc := h.current
  rw [after_concat] at hin hc ⊢
  rcases outside_or_justOpened (sound_after pairs (sound_new name tag p) earlier) h.outside
    with hout | ⟨e', closer', hopen⟩
  · cases hout.symm.trans hin
  · cases hopen.current.symm.trans hc
    cases hopen.closer.symm.trans h.closer
    exact hopen.holds

theorem after_opener (pairs : PairTable) (start : Automaton) (earlier : List Token)
    (opener : Token) (later : List Token) :
    start.after pairs (earlier ++ opener :: later)
      = ((start.after pairs (earlier ++ [opener])).feedStream pairs (earlier.length + 1)
          later).1 := by
  rw [List.append_cons, after, feedStream_append, List.length_append, Nat.zero_add]
  rfl

/-- What the token after `later` gives is the last of what they give together. -/
theorem unbroken_concat {start : Automaton} :
    (∀ r ∈ ((start.after pairs (earlier ++ [opener])).feedStream pairs (earlier.length + 1)
        (later ++ [token])).2, r = .ok none) ↔
      (∀ r ∈ ((start.after pairs (earlier ++ [opener])).feedStream pairs (earlier.length + 1)
        later).2, r = .ok none) ∧
      ((start.after pairs (earlier ++ opener :: later)).feed (earlier ++ opener :: later).length
        token pairs).2 = .ok none := by
  have hlen : (earlier ++ opener :: later).length = earlier.length + 1 + later.length := by
    simp only [List.length_append, List.length_cons]
    omega
  rw [feedStream_append, ← after_opener, hlen]
  simp [feedStream, or_imp, forall_and]

/-- Inside a region, by induction on the tokens that follow its opener. -/
theorem Within.holds (h : Within pairs (new name tag p) earlier opener later e closer) :
    Holds pairs ((new name tag p).after pairs (earlier ++ opener :: later)) earlier.length later e
      closer := by
  induction later using List.reverseRecOn with
  | nil => exact h.opens.holds
  | append_singleton later token ih =>
    obtain ⟨hunbroken, hok⟩ := unbroken_concat.mp h.unbroken
    have before := ih ⟨h.opens, hunbroken, fun front hf =>
      h.positive front (hf.trans (List.prefix_append _ _))⟩
    rw [← List.cons_append, ← List.append_assoc, after_concat]
    rcases before.feed hok with ⟨hzero, -⟩ | ⟨-, hmore⟩
    · have hpos := h.positive _ (List.prefix_refl _)
      omega
    · exact hmore

/-- A region that is open was opened by some token, and the tokens after it have kept it open. -/
theorem exists_within (h : ((new name tag p).after pairs tokens).isInside = true) :
    ∃ earlier opener later e closer, tokens = earlier ++ opener :: later ∧
      Within pairs (new name tag p) earlier opener later e closer := by
  induction tokens using List.reverseRecOn with
  | nil => cases h
  | append_singleton tokens token ih =>
    have hin := h
    rw [after_concat] at hin
    by_cases hbreak : ((new name tag p).after pairs tokens).isInside = false ∨
        ∃ m, (((new name tag p).after pairs tokens).feed tokens.length token pairs).2
          = .ok (some m)
    · -- the last token has opened the region
      rcases outside_or_justOpened (sound_after pairs (sound_new name tag p) tokens) hbreak
        with hout | ⟨e, closer, hopen⟩
      · cases hout.symm.trans hin
      · refine ⟨tokens, token, [], e, closer, rfl, ⟨hbreak, h, ?_, hopen.closer, hopen.hits⟩,
          List.forall_mem_nil _, fun front hf => ?_⟩
        · rw [after_concat]
          exact hopen.current
        · rw [List.prefix_nil.mp hf, TagEntry.balance_nil]
    · -- the last token was taken into the region that was open before it
      rw [not_or, Bool.not_eq_false] at hbreak
      obtain ⟨earlier, opener, later, e, closer, rfl, hw⟩ := ih hbreak.1
      have before := hw.holds
      have hok : (((new name tag p).after pairs (earlier ++ opener :: later)).feed
          (earlier ++ opener :: later).length token pairs).2 = .ok none := by
        rw [before.feed_eq_none_iff]
        cases ht : ((new name tag p).after pairs (earlier ++ opener :: later)).trips e token with
        | false => rfl
        | true =>
          rcases (feed_trips before.current ht _ pairs).2 with hout | ⟨hm, -⟩
          · cases hout.symm.trans hin
          · exact absurd hm hbreak.2
      rcases before.feed hok with ⟨-, hlast⟩ | ⟨hpos, -⟩
      · cases hlast.1.symm.trans hin
      · refine ⟨earlier, opener, later ++ [token], e, closer, by simp, hw.opens,
          unbroken_concat.mpr ⟨hw.unbroken, hok⟩, fun front hf => ?_⟩
        rcases List.prefix_concat_iff.mp hf with rfl | hf
        · exact hpos
        · exact hw.positive front hf

/-- The end of a stream reports a region that is open. -/
theorem finish_eq_some_iff {u : Unterminated} :
    a.finish.2 = some u ↔ a.attempt.inside = true ∧
      u = ⟨a.name, a.opener, a.attempt.closer.getD {}⟩ := by
  unfold finish
  cases a.attempt.inside with
  | true => simp [eq_comm]
  | false =>
    rw [if_neg Bool.false_ne_true]
    split <;> simp

/-- The count of a region is the depth of the automaton. After any stream an automaton is inside a
region exactly if some token has opened one, no guard has ended the attempt since, and the count
has been positive after each token. Then the depth is the count, the next token is taken exactly if
it trips no guard, and the entry is done with when the count comes to zero and at no other token.
The end of the stream reports just such a region, with the token that opened it and its closer. -/
theorem region_balance (pairs : PairTable) (name : String) (tag : Tag) (p : Pattern)
    (tokens : List Token) :
    let start := new name tag p
    let a := start.after pairs tokens
    (a.isInside = true ↔ ∃ earlier opener later e closer,
      tokens = earlier ++ opener :: later ∧ Within pairs start earlier opener later e closer) ∧
    (∀ earlier opener later e closer, tokens = earlier ++ opener :: later →
      Within pairs start earlier opener later e closer →
      (a.depth : Int) = e.balance pairs closer later ∧
      a.attempt.cursor.current? = some e ∧
      ∀ token, let (b, result) := a.feed tokens.length token pairs
        (result = .ok none ↔ token.tag.meets closer = true ∨ e.hits token = true ∨
          e.guardHolds token = false) ∧
        (result = .ok none →
          (e.balance pairs closer (later ++ [token]) = 0 → TakesLast a tokens.length b) ∧
          (e.balance pairs closer (later ++ [token]) ≠ 0 →
            b.isInside = true ∧ b.attempt.cursor.current? = some e))) ∧
    ∀ u, a.finish.2 = some u ↔ ∃ earlier opener later e closer,
      tokens = earlier ++ opener :: later ∧ Within pairs start earlier opener later e closer ∧
        u = ⟨name, earlier.length, closer⟩ := by
  intro start a
  have hname : a.name = name := (sameMachine_feedStream pairs start 0 tokens).1
  have inside_of (earlier opener later e closer) (ht : tokens = earlier ++ opener :: later)
      (hw : Within pairs start earlier opener later e closer) :
      Holds pairs a earlier.length later e closer := by
    subst ht
    exact hw.holds
  -- what the end of the stream reports of such a region
  have report_of {earlier opener later e closer} (ht : tokens = earlier ++ opener :: later)
      (hw : Within pairs start earlier opener later e closer) :
      (⟨a.name, a.opener, a.attempt.closer.getD {}⟩ : Unterminated)
        = ⟨name, earlier.length, closer⟩ := by
    have holds := inside_of _ _ _ _ _ ht hw
    obtain ⟨-, hcl, -⟩ := Attempt.region_eq_some_iff.mp holds.region
    rw [hname, holds.opener, hcl]
    rfl
  refine ⟨⟨exists_within, ?_⟩, ?_, fun u => ⟨fun hu => ?_, ?_⟩⟩
  · rintro ⟨earlier, opener, later, e, closer, ht, hw⟩
    exact (inside_of _ _ _ _ _ ht hw).inside
  · intro earlier opener later e closer ht hw
    have holds := inside_of _ _ _ _ _ ht hw
    refine ⟨holds.depth, holds.current, fun token => ?_⟩
    refine ⟨(holds.feed_eq_none_iff _ token).trans (holds.trips_iff token), fun hok => ?_⟩
    rcases holds.feed hok with ⟨hzero, hlast⟩ | ⟨hpos, hmore⟩
    · exact ⟨fun _ => hlast, fun hne => absurd hzero hne⟩
    · exact ⟨fun hzero => by omega, fun _ => ⟨hmore.inside, hmore.current⟩⟩
  · obtain ⟨hin, rfl⟩ := finish_eq_some_iff.mp hu
    obtain ⟨earlier, opener, later, e, closer, ht, hw⟩ := exists_within hin
    exact ⟨earlier, opener, later, e, closer, ht, hw, report_of ht hw⟩
  · rintro ⟨earlier, opener, later, e, closer, ht, hw, rfl⟩
    exact finish_eq_some_iff.mpr ⟨(inside_of _ _ _ _ _ ht hw).inside, (report_of ht hw).symm⟩

/-- Two openers that share a closer. -/
def sharedPairs : PairTable := ⟨[(Tag.of 4, Tag.of 5), (Tag.of 6, Tag.of 5)]⟩

/-- The second token opens a region. The third and the last one open regions within it, and the
fifth closes the first of these. -/
def sharedTokens : List Token :=
  [1, 4, 6, 9, 5, 4].map fun value => { tag := Tag.of value, text := [], span := {} }

theorem region_balance_sharedTokens :
    let start := new "nested" Tag.generic nestedPattern
    ∃ earlier opener later e closer, sharedTokens = earlier ++ opener :: later ∧
      Within sharedPairs start earlier opener later e closer ∧ earlier.length = 1 ∧
      closer = Tag.of 5 ∧ e.balance sharedPairs closer later = 2 ∧
      (start.after sharedPairs sharedTokens).isInside = true := by
  intro start
  obtain ⟨hinside, hdeep, hreport⟩ :=
    region_balance sharedPairs "nested" Tag.generic nestedPattern sharedTokens
  have hfinish : (start.after sharedPairs sharedTokens).finish.2
      = some ⟨"nested", 1, Tag.of 5⟩ := by
    decide +kernel
  have hdepth : (start.after sharedPairs sharedTokens).depth = 2 := by decide +kernel
  obtain ⟨earlier, opener, later, e, closer, ht, hw, hu⟩ := (hreport _).mp hfinish
  obtain ⟨-, hlength, hcloser⟩ := Unterminated.mk.inj hu
  obtain ⟨hcount, -⟩ := hdeep earlier opener later e closer ht hw
  refine ⟨earlier, opener, later, e, closer, ht, hw, hlength.symm, hcloser.symm, ?_, ?_⟩
  · rw [← hcount]
    exact congrArg Int.ofNat hdepth
  · exact hinside.mpr ⟨earlier, opener, later, e, closer, ht, hw⟩

end Streams

end Automaton

end TagLayers
