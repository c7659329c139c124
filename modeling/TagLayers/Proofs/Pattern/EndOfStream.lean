import TagLayers.Proofs.Pattern.Simulation

/-!
# The end of a stream and a token that misses

An attempt can be brought to its end in two ways without taking a token: the stream ends, or a
token comes that hits no entry. Both ask whether the rest of the pattern can be passed. The rest
of a group can be passed when each of its entries is optional or a group that can be passed, and
a group that may be absent and has taken no token can be given up as a whole, with the groups in
it.

They differ in two ways. The token may come to a collecting entry on its way, which takes it. And
the end of the stream asks every group around the cursor on its own: a group that can neither be
passed nor be given up is in the way, even if it lies in one that can be given up.

Results:
1. `Verdict.leave_missing`: the recursive matcher on a token that hits no entry.
2. `Cursor.restOptional_iff`: what the end of the stream asks.
3. `finish_and_feed_missing`: what becomes of an attempt at the end of the stream, and at a token
   that misses.
-/

namespace TagLayers

def TagEntry.Collects (e : TagEntry) : Prop := e.mode = .collect ∨ e.mode = .collectDrop

namespace Pattern

/-- The part can be passed without a token. -/
inductive Skippable : Pattern → Prop
  | nil : Skippable nil
  | item {e : TagEntry} {rest : Pattern} : e.mode = .optional → Skippable rest →
      Skippable (item e rest)
  /-- A group that may be absent is passed over, whatever it contains. -/
  | absent {body rest : Pattern} : Skippable rest → Skippable (group true body rest)
  | through {o : Bool} {body rest : Pattern} : Skippable body → Skippable rest →
      Skippable (group o body rest)

/-- On its way through the part a token that hits no entry comes to a collecting one. -/
inductive Collects : Pattern → Prop
  | here {e : TagEntry} {rest : Pattern} : e.Collects → Collects (item e rest)
  | next {e : TagEntry} {rest : Pattern} : e.mode = .optional → Collects rest →
      Collects (item e rest)
  | body {o : Bool} {body rest : Pattern} : Collects body → Collects (group o body rest)
  | past {o : Bool} {body rest : Pattern} : o = true ∨ body.Skippable → Collects rest →
      Collects (group o body rest)

theorem skippable_item {e : TagEntry} {rest : Pattern} :
    (item e rest).Skippable ↔ e.mode = .optional ∧ rest.Skippable := by
  constructor
  · intro h
    cases h with
    | item hm hr => exact ⟨hm, hr⟩
  · rintro ⟨hm, hr⟩
    exact .item hm hr

theorem skippable_group {o : Bool} {body rest : Pattern} :
    (group o body rest).Skippable ↔ (o = true ∨ body.Skippable) ∧ rest.Skippable := by
  constructor
  · intro h
    cases h with
    | absent hr => exact ⟨.inl rfl, hr⟩
    | through hb hr => exact ⟨.inr hb, hr⟩
  · rintro ⟨rfl | hb, hr⟩
    · exact .absent hr
    · exact .through hb hr

theorem collects_item {e : TagEntry} {rest : Pattern} :
    (item e rest).Collects ↔ e.Collects ∨ e.mode = .optional ∧ rest.Collects := by
  constructor
  · intro h
    cases h with
    | here hc => exact .inl hc
    | next hm hr => exact .inr ⟨hm, hr⟩
  · rintro (hc | ⟨hm, hr⟩)
    · exact .here hc
    · exact .next hm hr

theorem collects_group {o : Bool} {body rest : Pattern} :
    (group o body rest).Collects
      ↔ body.Collects ∨ (o = true ∨ body.Skippable) ∧ rest.Collects := by
  constructor
  · intro h
    cases h with
    | body hb => exact .inl hb
    | past hp hr => exact .inr ⟨hp, hr⟩
  · rintro (hb | ⟨hp, hr⟩)
    · exact .body hb
    · exact .past hp hr

theorem not_collects_nil : ¬nil.Collects := by
  intro h
  cases h

theorem skippable_iff (p : Pattern) : p.Skippable ↔ p.allOptional = true := by
  induction p with
  | nil => exact ⟨fun _ => rfl, fun _ => .nil⟩
  | item e rest ih => simp [skippable_item, ih, allOptional, TagEntry.isOptional]
  | group o body rest ihb ihr => simp [skippable_group, ihb, ihr, allOptional]

end Pattern

/-! ## A token that misses, in a part -/

/-- The verdict on a token that is the last one and hits no entry: it comes to a collecting entry,
or is refused to the end, or fails at once. -/
def Verdict.Misses (r : Reading) (skips collects : Prop) : Verdict → Prop
  | passed r' => skips ∧ ¬collects ∧ r'.refuse = r.refuse
  | failed index after => ¬skips ∧ ¬collects ∧ index = r.next ∧ after = []
  | waiting => collects

theorem Verdict.Misses.congr {r r' : Reading} {s s' c c' : Prop} {v : Verdict}
    (h : v.Misses r s c) (hr : r.refuse = r'.refuse) (hs : s ↔ s') (hc : c ↔ c') :
    v.Misses r' s' c' := by
  have hn : r.refuse.next = r'.refuse.next := by rw [hr]
  cases v with
  | passed r'' => exact ⟨hs.mp h.1, fun hc' => h.2.1 (hc.mpr hc'), h.2.2.trans hr⟩
  | failed index after =>
    exact ⟨fun hs' => h.1 (hs.mpr hs'), fun hc' => h.2.1 (hc.mpr hc'), h.2.2.1.trans hn, h.2.2.2⟩
  | waiting => exact hc.mp h

theorem TagEntry.read_collecting {pairs : PairTable} {e : TagEntry} {r : Reading} {token : Token}
    (hu : r.unread = [token]) (hm : e.Collects) (hit : e.hits token = false) :
    e.read pairs r = .waiting := by
  rcases hm with hm | hm <;> simp [read, hu, hm, hit, collectFrom]

namespace Pattern

/-- A token that hits no entry of a part is refused to its end, fails, or is collected. -/
theorem read_missing {pairs : PairTable} {p : Pattern} {r : Reading} {token : Token}
    (hu : r.unread = [token]) (hmiss : ∀ e ∈ p.entries, e.hits token = false) :
    (p.read pairs r).Misses r p.Skippable p.Collects := by
  induction p generalizing r with
  | nil => exact ⟨.nil, not_collects_nil, rfl⟩
  | item e rest ih =>
    have hit : e.hits token = false := hmiss e List.mem_cons_self
    have hrest := ih (r := r.refuse) hu fun e' he' => hmiss e' (List.mem_cons_of_mem _ he')
    rw [skippable_item, collects_item, TagEntry.Collects, read]
    cases hm : e.mode with
    | optional =>
      rw [TagEntry.read_optional hu hm hit]
      exact hrest.congr rfl (by simp) (by simp)
    | mandatory =>
      rw [TagEntry.read_miss hu (.inl hm) hit]
      exact ⟨by simp, by simp, rfl, rfl⟩
    | complete =>
      rw [TagEntry.read_miss hu (.inr hm) hit]
      exact ⟨by simp, by simp, rfl, rfl⟩
    | collect =>
      rw [TagEntry.read_collecting hu (.inl hm) hit]
      exact Or.inl (Or.inl rfl)
    | collectDrop =>
      rw [TagEntry.read_collecting hu (.inr hm) hit]
      exact Or.inl (Or.inr rfl)
  | group o body rest ihb ihr =>
    have hbody := ihb hu fun e he => hmiss e (List.mem_append_left _ he)
    have hrest (r' : Reading) (hr' : r'.refuse = r.refuse) :
        (rest.read pairs r').Misses r rest.Skippable rest.Collects := by
      have hu' : r'.refuse.unread = [token] := by rw [hr']; exact hu
      have hmiss' : ∀ e ∈ rest.entries, e.hits token = false :=
        fun e he => hmiss e (List.mem_append_right _ he)
      exact (ihr (r := r') hu' hmiss').congr hr' Iff.rfl Iff.rfl
    rw [skippable_group, collects_group, read]
    cases hv : body.read pairs r with
    | passed r' =>
      rw [hv] at hbody
      obtain ⟨hs, hc, hr'⟩ := hbody
      exact (hrest r' hr').congr rfl (by simp [hs]) (by simp [hs, hc])
    | failed index after =>
      rw [hv] at hbody
      obtain ⟨hs, hc, rfl, rfl⟩ := hbody
      cases o with
      | true =>
        have hpass : (true && r.next == r.next) = true := by simp
        simp only [hpass, if_true]
        exact (hrest r.refuse rfl).congr rfl (by simp) (by simp [hc])
      | false => exact ⟨by simp [hs], by simp [hs, hc], rfl, rfl⟩
    | waiting =>
      rw [hv] at hbody
      exact Or.inl hbody

end Pattern

/-! ## A token that misses, at a cursor -/

namespace Cursor

def frames : Cursor → List Frame
  | on e here outer => ⟨here.place, .item e here.rest⟩ :: outer
  | past _ => []

/-- A group around the position may be given up, with the groups in it; `rest` is around it. -/
inductive GivesUp : List Frame → List Frame → Prop
  | here {f g : Frame} {outer : List Frame} : f.place.passable = true →
      GivesUp (f :: g :: outer) (g :: outer)
  | around {f : Frame} {frames rest : List Frame} : GivesUp frames rest →
      GivesUp (f :: frames) rest

/-- Without a token the position can be moved outwards until `goal` holds of it. -/
inductive Reaches (goal : List Frame → Prop) : List Frame → Prop
  | here {frames : List Frame} : goal frames → Reaches goal frames
  | leave {f g : Frame} {outer : List Frame} : f.rest.Skippable → Reaches goal (g :: outer) →
      Reaches goal (f :: g :: outer)
  | skip {frames rest : List Frame} : GivesUp frames rest → Reaches goal rest →
      Reaches goal frames

/-- Only the whole pattern is around, and what is left of it can be passed. -/
def AtEnd (frames : List Frame) : Prop := ∃ f, frames = [f] ∧ f.rest.Skippable

/-- The rest of the group comes to a collecting entry. -/
def AtCollecting (frames : List Frame) : Prop := ∃ f outer, frames = f :: outer ∧ f.rest.Collects

/-- The rest of the pattern can be passed without a token. -/
def Ends (c : Cursor) : Prop := Reaches AtEnd c.frames

/-- On its way to the end a token that hits no entry comes to a collecting one. -/
def Absorbs (c : Cursor) : Prop := Reaches AtCollecting c.frames

variable {goal : List Frame → Prop} {f g : Frame} {outer : List Frame}

/-- Where the rest of the group can be passed, or the group given up, all that counts is around. -/
theorem reaches_cons (hout : f.rest.Skippable ∨ f.place.passable = true)
    (hgoal : ¬goal (f :: g :: outer)) :
    Reaches goal (f :: g :: outer) ↔ Reaches goal (g :: outer) := by
  constructor
  · intro h
    cases h with
    | here h => exact absurd h hgoal
    | leave _ h => exact h
    | skip hup h =>
      cases hup with
      | here _ => exact h
      | around hup => exact .skip hup h
  · intro h
    rcases hout with hs | hp
    · exact .leave hs h
    · exact .skip (.here hp) h

theorem not_givesUp_root {rest : List Frame} : ¬GivesUp [f] rest := by
  intro h
  cases h with
  | around h => cases h

/-- A group that has taken a token cannot be given up, nor can the groups around it. -/
theorem not_givesUp {rest : List Frame} (hn : Nested f.place outer)
    (hc : f.place.consumed = true) : ¬GivesUp (f :: outer) rest := by
  induction outer generalizing f with
  | nil => exact not_givesUp_root
  | cons g outer ih =>
    intro h
    cases h with
    | here hp => simp [Place.passable, hc] at hp
    | around h => exact ih hn.2 (hn.1 hc) h

/-- The token has failed in the innermost group. What is left is to give up a group around it. -/
def Fails (goal : List Frame → Prop) (frames : List Frame) : Prop :=
  ∃ rest, GivesUp frames rest ∧ Reaches goal rest

theorem not_fails_root : ¬Fails goal [f] := by
  rintro ⟨rest, hup, -⟩
  exact not_givesUp_root hup

theorem not_fails (hn : Nested f.place outer) (hc : f.place.consumed = true) :
    ¬Fails goal (f :: outer) := by
  rintro ⟨rest, hup, -⟩
  exact not_givesUp hn hc hup

theorem fails_of_passable (hp : f.place.passable = true) :
    Fails goal (f :: g :: outer) ↔ Reaches goal (g :: outer) := by
  constructor
  · rintro ⟨rest, hup, h⟩
    cases hup with
    | here _ => exact h
    | around hup => exact .skip hup h
  · intro h
    exact ⟨_, .here hp, h⟩

theorem fails_of_not_passable (hp : f.place.passable ≠ true) :
    Fails goal (f :: g :: outer) ↔ Fails goal (g :: outer) := by
  constructor
  · rintro ⟨rest, hup, h⟩
    cases hup with
    | here hp' => exact absurd hp' hp
    | around hup => exact ⟨rest, hup, h⟩
  · rintro ⟨rest, hup, h⟩
    exact ⟨rest, .around hup, h⟩

theorem reaches_of_not_skippable (hs : ¬f.rest.Skippable) (hgoal : ¬goal (f :: outer)) :
    Reaches goal (f :: outer) ↔ Fails goal (f :: outer) := by
  constructor
  · intro h
    cases h with
    | here h => exact absurd h hgoal
    | leave hs' _ => exact absurd hs' hs
    | skip hup h => exact ⟨_, hup, h⟩
  · rintro ⟨rest, hup, h⟩
    exact .skip hup h

theorem not_atEnd : ¬AtEnd (f :: g :: outer) := by
  rintro ⟨f', h, -⟩
  cases h

theorem not_atCollecting (h : ¬f.rest.Collects) : ¬AtCollecting (f :: outer) := by
  rintro ⟨f', outer', heq, hc⟩
  cases heq
  exact h hc

theorem reaches_root : Reaches goal [f] ↔ goal [f] := by
  constructor
  · intro h
    cases h with
    | here h => exact h
    | skip hup _ => exact absurd hup not_givesUp_root
  · exact .here

end Cursor

namespace Verdict

open Cursor

variable {pairs : PairTable} {r : Reading} {token : Token}

/-- A token that hits no entry leaves the groups around the way it leaves a part: it comes to a
collecting entry, or is refused to the end of the pattern, or ends the attempt. The second half
is about a part that has already failed at the token. -/
theorem leave_missing (hu : r.unread = [token]) {here : Place} {outer : List Frame}
    (hn : Nested here outer) (hmiss : ∀ f ∈ outer, ∀ e ∈ f.rest.entries, e.hits token = false)
    (part : Pattern) :
    (∀ v : Verdict, v.Misses r part.Skippable part.Collects →
      (v.leave pairs r here outer).Misses r (Reaches AtEnd (⟨here, part⟩ :: outer))
        (Reaches AtCollecting (⟨here, part⟩ :: outer))) ∧
    ((failed r.next []).leave pairs r here outer).Misses r (Fails AtEnd (⟨here, part⟩ :: outer))
      (Fails AtCollecting (⟨here, part⟩ :: outer)) := by
  induction outer generalizing here part with
  | nil =>
    refine ⟨fun v hv => hv.congr rfl ?_ ?_, not_fails_root, not_fails_root, rfl, rfl⟩
    · rw [reaches_root, AtEnd]
      simp
    · rw [reaches_root, AtCollecting]
      simp
  | cons g outer ih =>
    obtain ⟨ihv, ihf⟩ := ih hn.2 (fun f hf => hmiss f (List.mem_cons_of_mem _ hf)) g.rest
    have around (r' : Reading) (hr' : r'.refuse = r.refuse) :
        ((g.rest.read pairs r').leave pairs r g.place outer).Misses r (Reaches AtEnd (g :: outer))
          (Reaches AtCollecting (g :: outer)) := by
      have hu' : r'.refuse.unread = [token] := by rw [hr']; exact hu
      exact ihv _ ((Pattern.read_missing (r := r') hu' (hmiss g List.mem_cons_self)).congr hr'
        Iff.rfl Iff.rfl)
    -- a group with a token taken ends the attempt; of the others the first passable one is given up
    have hfail : ((failed r.next []).leave pairs r here (g :: outer)).Misses r
        (Fails AtEnd (⟨here, part⟩ :: g :: outer))
        (Fails AtCollecting (⟨here, part⟩ :: g :: outer)) := by
      simp only [leave, bne_self_eq_false, Bool.or_false]
      cases hc : here.consumed with
      | true => exact ⟨not_fails hn hc, not_fails hn hc, rfl, rfl⟩
      | false =>
        cases ho : here.optional with
        | true =>
          have hp : here.passable = true := by simp [Place.passable, hc, ho]
          exact (around r.refuse rfl).congr rfl (fails_of_passable hp).symm
            (fails_of_passable hp).symm
        | false =>
          have hp : here.passable ≠ true := by simp [Place.passable, ho]
          exact ihf.congr rfl (fails_of_not_passable hp).symm (fails_of_not_passable hp).symm
    refine ⟨fun v hv => ?_, hfail⟩
    cases v with
    | passed r' =>
      obtain ⟨hs, hc, hr'⟩ := hv
      exact (around r' hr').congr rfl (reaches_cons (.inl hs) not_atEnd).symm
        (reaches_cons (.inl hs) (not_atCollecting hc)).symm
    | failed index after =>
      obtain ⟨hs, hc, rfl, rfl⟩ := hv
      exact hfail.congr rfl (reaches_of_not_skippable hs not_atEnd).symm
        (reaches_of_not_skippable hs (not_atCollecting hc)).symm
    | waiting => exact .here ⟨_, _, rfl, hv⟩

end Verdict

/-- What the recursive matcher makes of a token that hits no entry ahead of the cursor. -/
theorem Cursor.read_missing (pairs : PairTable) {c : Cursor} {r : Reading} {token : Token}
    (hu : r.unread = [token]) (hn : c.WellNested) (hc : c.isPast = false)
    (hmiss : ∀ e ∈ c.ahead, e.hits token = false) :
    (c.read pairs none r).Misses r c.Ends c.Absorbs := by
  cases c with
  | past place => cases hc
  | on e here outer =>
    have hpart : ∀ e' ∈ (Pattern.item e here.rest).entries, e'.hits token = false :=
      fun e' he' => hmiss e' (List.mem_append_left _ he')
    have houter : ∀ f ∈ outer, ∀ e' ∈ f.rest.entries, e'.hits token = false :=
      fun f hf e' he' => hmiss e' (List.mem_append_right _ (List.mem_flatMap.mpr ⟨f, hf, he'⟩))
    exact (Verdict.leave_missing hu hn houter (.item e here.rest)).1 _
      (Pattern.read_missing hu hpart)

/-! ## The end of a stream -/

namespace Cursor

/-- A group in one that may be given up may be given up itself, or its rest can be passed. -/
def Unblocked (c : Cursor) : Prop :=
  c.frames.Pairwise fun inner outer =>
    outer.place.passable = true → inner.place.passable = true ∨ inner.rest.Skippable

theorem exists_passable {frames rest : List Frame} (h : GivesUp frames rest) :
    ∃ f ∈ frames, f.place.passable = true := by
  induction h with
  | here hp => exact ⟨_, List.mem_cons_self, hp⟩
  | around _ ih =>
    obtain ⟨f, hf, hp⟩ := ih
    exact ⟨f, List.mem_cons_of_mem _ hf, hp⟩

theorem all_iff_reaches {f : Frame} {outer : List Frame} (hn : Nested f.place outer)
    (hb : (f :: outer).Pairwise fun inner outer =>
      outer.place.passable = true → inner.place.passable = true ∨ inner.rest.Skippable) :
    (∀ g ∈ f :: outer, g.place.passable = true ∨ g.rest.Skippable)
      ↔ Reaches AtEnd (f :: outer) := by
  induction outer generalizing f with
  | nil =>
    have hp : f.place.passable ≠ true := by
      simp [Place.passable, show f.place.optional = false from hn]
    rw [reaches_root, AtEnd]
    simp [hp]
  | cons g outer ih =>
    rw [List.forall_mem_cons, ih hn.2 (List.pairwise_cons.mp hb).2]
    constructor
    · rintro ⟨hp | hs, h⟩
      · exact .skip (.here hp) h
      · exact .leave hs h
    · intro h
      cases h with
      | here h => exact absurd h not_atEnd
      | leave hs h => exact ⟨.inr hs, h⟩
      | skip hup h =>
        cases hup with
        | here hp => exact ⟨.inl hp, h⟩
        | around hup =>
          -- the group given up is around `f`, which therefore is not in the way
          obtain ⟨f', hf', hp'⟩ := exists_passable hup
          exact ⟨(List.pairwise_cons.mp hb).1 f' hf' hp', .skip hup h⟩

/-- The rest counts as optional if it can be passed and no group is in the way. -/
theorem restOptional_iff {c : Cursor} (hn : c.WellNested) (hc : c.isPast = false) :
    c.restOptional = true ↔ c.Ends ∧ c.Unblocked := by
  cases c with
  | past place => cases hc
  | on e here outer =>
    have hall : (on e here outer).restOptional = true ↔
        ∀ f ∈ (on e here outer).frames, f.place.passable = true ∨ f.rest.Skippable := by
      simp [restOptional, frames, Pattern.skippable_iff, Pattern.allOptional]
    have hreach := all_iff_reaches (f := ⟨here.place, .item e here.rest⟩) hn
    rw [hall]
    constructor
    · intro h
      have hb : (on e here outer).Unblocked :=
        List.pairwise_of_forall_mem_list fun f hf _ _ _ => h f hf
      exact ⟨(hreach hb).mp h, hb⟩
    · rintro ⟨hends, hb⟩
      exact (hreach hb).mpr hends

end Cursor

namespace Automaton

/-- At the end of a stream an attempt is complete if the rest of the pattern can be passed and no
group is in the way, and is dropped otherwise. -/
theorem finish_eq {a : Automaton} (hs : a.Sound) (hstart : a.attempt.started = true)
    (ho : a.attempt.inside = false) :
    (a.attempt.cursor.Ends ∧ a.attempt.cursor.Unblocked → a.finish = (a.complete, none)) ∧
      (¬(a.attempt.cursor.Ends ∧ a.attempt.cursor.Unblocked) → a.finish = (a.restart, none)) := by
  have hiff := Cursor.restOptional_iff hs.nested (hs.isPast_eq_false hstart)
  rw [← hiff, finish, ho, hstart, Bool.true_and, if_neg Bool.false_ne_true]
  exact ⟨fun h => if_pos h, fun h => if_neg h⟩

/-! ## Feeding a token that misses -/

/-- What feeding the token at `i` makes of an attempt when the matcher comes to the verdict. -/
def Decides (pairs : PairTable) (a : Automaton) (i : Nat) (token : Token) : Verdict → Prop
  | .passed _ => a.run i token pairs = (a.complete, .ok none)
  | .failed _ _ => a.run i token pairs = (a.restart, .ok none)
  | .waiting => ∃ cursor e, cursor.current? = some e ∧ e.Collects ∧
      a.run i token pairs
        = ({ a with attempt := { a.attempt with cursor } }.consume i, .ok none)

variable {pairs : PairTable} {a : Automaton} {i : Nat} {token : Token}

/-- Without guards and outside regions a token that misses is handled by the mode alone. -/
theorem step_missing (pairs : PairTable) (i : Nat) {e : TagEntry}
    (hc : a.attempt.cursor.current? = some e) (hg : e.guard = none)
    (hit : e.hits token = false) (ho : a.attempt.inside = false) :
    a.step i token pairs
      = .ok (match e.mode with
          | .optional => a.advance false
          | .mandatory | .complete => a.miss
          | .collect | .collectDrop => (a.consume i, .next)) := by
  have ht : a.trips e token = false := by simp [trips, TagEntry.guardHolds, hg]
  simp only [step, hc, ht, offer, hit, ho]
  cases e.mode <;> rfl

theorem decides_moveTo {cursor : Cursor} {v : Verdict}
    (hstep : a.step i token pairs = .ok (a.moveTo cursor false))
    (hpast : cursor.isPast = true → ∃ r, v = .passed r)
    (hmore : cursor.isPast = false →
      Decides pairs { a with attempt := { a.attempt with cursor } } i token v) :
    Decides pairs a i token v := by
  rcases a.moveTo_cases cursor false with ⟨hp, hm⟩ | ⟨hp, hm⟩ <;> rw [hm] at hstep
  · obtain ⟨r, rfl⟩ := hpast hp
    exact run_of_next hstep
  · have h := hmore hp
    rw [Decides.eq_def] at h ⊢
    rw [run_of_again hstep]
    exact h

/-- The token is offered to one entry after the other, as the matcher offers it. -/
theorem decides_run (pairs : PairTable) (i : Nat) (hs : a.Sound)
    (hg : ∀ e ∈ a.pattern.entries, e.guard = none)
    (hmiss : ∀ e ∈ a.pattern.entries, e.hits token = false) (ho : a.attempt.inside = false)
    (hc : a.attempt.cursor.isPast = false) (refused : Bool) :
    Decides pairs a i token (a.attempt.cursor.read pairs none (a.reading refused i [token])) := by
  induction hn : a.attempt.cursor.ahead.length using Nat.strongRecOn generalizing a refused with
  | ind n ih =>
    subst hn
    obtain ⟨e, he⟩ := Cursor.exists_current hc
    have hit := hmiss e (hs.current_mem he)
    have hstep := step_missing pairs i he (hg e (hs.current_mem he)) hit ho
    have hu : (a.reading refused i [token]).unread = [token] := rfl
    -- the cursor moves on and the token is offered again, unless the pattern has ended
    have moved {d : Cursor} (hd : a.step i token pairs = .ok (a.moveTo d false))
        (hsuffix : d.ahead <:+ a.pattern.entries) (hnested : d.WellNested)
        (hlt : d.ahead.length < a.attempt.cursor.ahead.length) :
        Decides pairs a i token (d.read pairs none (a.reading true i [token])) := by
      refine decides_moveTo hd ?_ ?_
      · intro hp
        cases d with
        | on e' here outer => cases hp
        | past place => exact ⟨_, rfl⟩
      · intro hp
        have hsound : Sound { a with attempt := { a.attempt with cursor := d } } :=
          { ahead := hsuffix
            nested := hnested
            agrees := ⟨hs.agrees.closer, hs.agrees.depth⟩
            entry := fun hin => nomatch ho.symm.trans hin
            idle := fun hpast => nomatch hp.symm.trans hpast }
        exact ih d.ahead.length hlt hsound hg hmiss ho hp true rfl
    have missed (hm : e.mode = .mandatory ∨ e.mode = .complete)
        (hd : a.step i token pairs = .ok a.miss) :
        Decides pairs a i token
          (a.attempt.cursor.read pairs none (a.reading refused i [token])) := by
      rw [Cursor.read_miss he (TagEntry.read_miss hu hm hit)]
      rw [miss] at hd
      cases hskip : a.attempt.cursor.skip? with
      | some d =>
        rw [hskip] at hd
        exact moved hd ((Cursor.ahead_skip_suffix hskip).trans hs.ahead)
          (Cursor.wellNested_skip hs.nested hskip) (Cursor.ahead_skip_lt hskip)
      | none =>
        rw [hskip] at hd
        exact run_of_next hd
    have collected (hm : e.Collects) (hd : a.step i token pairs = .ok (a.consume i, .next)) :
        Decides pairs a i token
          (a.attempt.cursor.read pairs none (a.reading refused i [token])) := by
      have hwait : e.resume pairs none (a.reading refused i [token]) = .waiting :=
        TagEntry.read_collecting hu hm hit
      rw [Cursor.read_waiting he hwait]
      exact ⟨a.attempt.cursor, e, he, hm, run_of_next hd⟩
    cases hm : e.mode <;> rw [hm] at hstep
    case optional =>
      rw [Cursor.read_pass he (TagEntry.read_optional hu hm hit)]
      have hlt : a.attempt.cursor.advance.ahead.length < a.attempt.cursor.ahead.length := by
        obtain ⟨here, outer, hcur⟩ := Cursor.exists_on he
        rw [hcur]
        exact Cursor.ahead_advance_lt
      exact moved hstep ((Cursor.ahead_advance_suffix _).trans hs.ahead)
        (Cursor.wellNested_advance hs.nested) hlt
    case mandatory => exact missed (.inl hm) hstep
    case complete => exact missed (.inr hm) hstep
    case collect => exact collected (.inl hm) hstep
    case collectDrop => exact collected (.inr hm) hstep

/-- Without guards and outside regions, a token that hits no entry is taken by a collecting entry
on its way, or else completes the attempt if the rest of the pattern can be passed, and drops it
if not. -/
theorem feed_missing (pairs : PairTable) (i : Nat) (hs : a.Sound)
    (hg : ∀ e ∈ a.pattern.entries, e.guard = none)
    (hmiss : ∀ e ∈ a.pattern.entries, e.hits token = false) (ho : a.attempt.inside = false)
    (hc : a.attempt.cursor.isPast = false) :
    (a.attempt.cursor.Absorbs → ∃ cursor e, cursor.current? = some e ∧ e.Collects ∧
      a.feed i token pairs
        = ({ a with attempt := { a.attempt with cursor } }.consume i, .ok none)) ∧
    (¬a.attempt.cursor.Absorbs →
      (a.attempt.cursor.Ends → a.feed i token pairs = (a.complete, .ok none)) ∧
      (¬a.attempt.cursor.Ends → a.feed i token pairs = (a.restart, .ok none))) := by
  have hu : (a.reading false i [token]).unread = [token] := rfl
  have hv := Cursor.read_missing pairs hu hs.nested hc fun e he => hmiss e (hs.ahead.subset he)
  have hd := decides_run pairs i hs hg hmiss ho hc false
  cases h : a.attempt.cursor.read pairs none (a.reading false i [token]) <;> rw [h] at hv hd
  case passed r =>
    obtain ⟨hends, habsorbs, -⟩ := hv
    exact ⟨fun ha => absurd ha habsorbs,
      fun _ => ⟨fun _ => feed_of_run hd, fun he => absurd hends he⟩⟩
  case failed index after =>
    obtain ⟨hends, habsorbs, -⟩ := hv
    exact ⟨fun ha => absurd ha habsorbs,
      fun _ => ⟨fun he => absurd he hends, fun _ => feed_of_run hd⟩⟩
  case waiting =>
    obtain ⟨cursor, e, he, hm, hrun⟩ := hd
    exact ⟨fun _ => ⟨cursor, e, he, hm, feed_of_run hrun⟩, fun ha => absurd hv ha⟩

/-- An attempt that has started, at the end of the stream and at a token that misses, outside
regions and without guards. The token is taken by a collecting entry on its way, or else completes
the attempt if the rest of the pattern can be passed, and drops it if not. So does the end of the
stream, but for one case: it drops the attempt, though the rest can be passed, where a group is in
the way. -/
theorem finish_and_feed_missing (ha : Reachable a) (hg : ∀ e ∈ a.pattern.entries, e.guard = none)
    (hstart : a.attempt.started = true) (ho : a.attempt.inside = false) :
    ((a.attempt.cursor.Ends → a.attempt.cursor.Unblocked → a.finish = (a.complete, none)) ∧
      (a.attempt.cursor.Ends → ¬a.attempt.cursor.Unblocked → a.finish = (a.restart, none)) ∧
      (¬a.attempt.cursor.Ends → a.finish = (a.restart, none))) ∧
    ∀ (i : Nat) (token : Token) (pairs : PairTable),
      (∀ e ∈ a.pattern.entries, e.hits token = false) →
      (a.attempt.cursor.Absorbs → ∃ cursor e, cursor.current? = some e ∧ e.Collects ∧
        a.feed i token pairs
          = ({ a with attempt := { a.attempt with cursor } }.consume i, .ok none)) ∧
      (¬a.attempt.cursor.Absorbs →
        (a.attempt.cursor.Ends → a.feed i token pairs = (a.complete, .ok none)) ∧
        (¬a.attempt.cursor.Ends → a.feed i token pairs = (a.restart, .ok none)) ∧
        ((a.attempt.cursor.Ends → a.attempt.cursor.Unblocked) →
          (a.feed i token pairs).1 = a.finish.1)) := by
  have hs := ha.sound
  obtain ⟨hdone, hdropped⟩ := finish_eq hs hstart ho
  refine ⟨⟨fun hends hb => hdone ⟨hends, hb⟩, fun _ hb => hdropped fun h => hb h.2,
    fun hends => hdropped fun h => hends h.1⟩, fun i token pairs hmiss => ?_⟩
  obtain ⟨htaken, hdecided⟩ := feed_missing pairs i hs hg hmiss ho (hs.isPast_eq_false hstart)
  refine ⟨htaken, fun habsorbs => ?_⟩
  obtain ⟨hcomplete, hdrop⟩ := hdecided habsorbs
  refine ⟨hcomplete, hdrop, fun hb => ?_⟩
  by_cases hends : a.attempt.cursor.Ends
  · rw [hcomplete hends, hdone ⟨hends, hb hends⟩]
  · rw [hdrop hends, hdropped fun h => hends h.1]

/-- An automaton after a token for the first entry. -/
def begun (p : Pattern) : Automaton :=
  ((new "begun" Tag.generic p).feed 0 { tag := Tag.of 1, text := [], span := {} } {}).1

theorem reachable_begun (p : Pattern) : Reachable (begun p) := .feed 0 _ {} (.new _ _ _)

/-- A token that hits none of the entries. -/
def missed : Token := { tag := Tag.of 9, text := [], span := {} }

/-- An entry, an optional entry and a group that may be absent. -/
def optionalTail (body : Pattern) : Pattern :=
  ((Pattern.nil.must (Tag.of 1)).can (Tag.of 2)).maybe body

theorem begun_optionalTail (body : Pattern) :
    begun (optionalTail body)
      = { new "begun" Tag.generic (optionalTail body) with
          attempt :=
            { cursor := .on ⟨Tag.of 2, .optional, none⟩
                ⟨{ index := 1, consumed := true }, .group true body .nil⟩ []
              buffer := #[0]
              started := true } } := by
  have hrun : (new "begun" Tag.generic (optionalTail body)).run 0
      { tag := Tag.of 1, text := [], span := {} } {} = (_, .ok none) := run_of_next rfl
  rw [begun, feed_of_run hrun]
  rfl

theorem missed_optionalTail {body : Pattern}
    (h : ∀ e ∈ body.entries, e.guard = none ∧ e.hits missed = false) :
    ∀ e ∈ (begun (optionalTail body)).pattern.entries, e.guard = none ∧ e.hits missed = false := by
  have hentries : (begun (optionalTail body)).pattern.entries
      = ⟨Tag.of 1, .mandatory, none⟩ :: ⟨Tag.of 2, .optional, none⟩ :: body.entries := by
    rw [begun_optionalTail]
    exact congrArg (_ :: _ :: ·) (List.append_nil _)
  rw [hentries, List.forall_mem_cons, List.forall_mem_cons]
  exact ⟨⟨rfl, by decide⟩, ⟨rfl, by decide⟩, h⟩

/-- The group has an optional and a mandatory entry, and is passed over by both. -/
def begunGroup : Automaton := begun (optionalTail ((Pattern.nil.can (Tag.of 3)).must (Tag.of 4)))

theorem finish_and_feed_missing_begunGroup :
    begunGroup.finish = (begunGroup.complete, none) ∧
      begunGroup.feed 1 missed {} = (begunGroup.complete, .ok none) := by
  have hall : ∀ e ∈ begunGroup.pattern.entries, e.guard = none ∧ e.hits missed = false :=
    missed_optionalTail (List.forall_mem_cons.mpr ⟨⟨rfl, by decide⟩,
      List.forall_mem_singleton.mpr ⟨rfl, by decide⟩⟩)
  have hends : begunGroup.attempt.cursor.Ends := by
    rw [begunGroup, begun_optionalTail]
    exact .here ⟨_, rfl, .item rfl (.absent .nil)⟩
  have hb : begunGroup.attempt.cursor.Unblocked := by
    rw [begunGroup, begun_optionalTail]
    exact List.pairwise_singleton _ _
  have habsorbs : ¬begunGroup.attempt.cursor.Absorbs := by
    rw [begunGroup, begun_optionalTail, Cursor.Absorbs, Cursor.frames, Cursor.reaches_root]
    refine Cursor.not_atCollecting ?_
    show ¬(Pattern.item _ (.group true (.item _ (.item _ .nil)) .nil)).Collects
    simp [Pattern.collects_item, Pattern.collects_group, Pattern.not_collects_nil,
      TagEntry.Collects]
  obtain ⟨hfinish, hfeed⟩ := finish_and_feed_missing (reachable_begun _)
    (fun e he => (hall e he).1) (by rw [begun_optionalTail]) (by rw [begun_optionalTail])
  exact ⟨hfinish.1 hends hb,
    ((hfeed 1 missed {} fun e he => (hall e he).2).2 habsorbs).1 hends⟩

/-- An entry, and a group that may be absent with a group in it that may not. -/
def nestedTail : Pattern :=
  (Pattern.nil.must (Tag.of 1)).maybe (Pattern.nil.nest (Pattern.nil.must (Tag.of 2)))

theorem begun_nestedTail :
    begun nestedTail
      = { new "begun" Tag.generic nestedTail with
          attempt :=
            { cursor := .on ⟨Tag.of 2, .mandatory, none⟩ ⟨{}, .nil⟩
                [⟨{ optional := true }, .nil⟩, ⟨{ index := 1, consumed := true }, .nil⟩]
              buffer := #[0]
              started := true } } := by
  have hrun : (new "begun" Tag.generic nestedTail).run 0
      { tag := Tag.of 1, text := [], span := {} } {} = (_, .ok none) := run_of_next rfl
  rw [begun, feed_of_run hrun]
  rfl

/-- The inner group is in the way: the rest can be passed, and the end of the stream drops an
attempt that a token which misses completes. -/
theorem finish_drops_begun_nestedTail :
    (begun nestedTail).attempt.cursor.Ends ∧ ¬(begun nestedTail).attempt.cursor.Unblocked ∧
      (begun nestedTail).finish.1.completed = #[] ∧
      ((begun nestedTail).feed 1 missed {}).1.completed = #[[0]] := by
  rw [begun_nestedTail]
  refine ⟨.skip (.around (.here rfl)) (.here ⟨_, rfl, .nil⟩), fun hb => ?_, rfl, by cbv⟩
  rcases List.rel_of_pairwise_cons hb List.mem_cons_self rfl with hp | hs
  · cases hp
  · cases hs with
    | item hm => cases hm

/-- A collecting entry in a group that may be absent takes the token that misses. -/
example :
    ((begun (optionalTail (Pattern.nil.collect (Tag.of 3)))).feed 1 missed {}).1.attempt.buffer
      = #[0, 1] := by
  rw [begun_optionalTail]
  cbv

end Automaton

end TagLayers
