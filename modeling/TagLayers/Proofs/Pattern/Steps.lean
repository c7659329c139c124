import TagLayers.Pattern.Automaton

/-!
# The rules of a step

What one step of an automaton can do, as a list of rules, and what every step keeps.

Whether a region is open, how deep it is and what closes it are noted one by one. The attempt of
an automaton is sound when these notes agree with each other: a region is open exactly if it has a
closer, and exactly if its depth is positive. Beside this the entries ahead of its cursor are an end
of the pattern's walk, a group that has taken a token lies in groups that have taken it too, an open
region belongs to an entry for balanced regions, and a cursor past the last entry is that of an
attempt that has done nothing.

Results:
1. `depthAfter_eq`: what an automaton does with its notes, told by the open region.
2. `step_rule`, `step_error_iff`: the rules of a step, and when a step fails.
3. `feed_keeps`: feeding a token keeps what each step keeps.
4. `sound_step`: each step keeps the attempt sound.
5. `Reachable.sound`: so does every sequence of calls, those that fail included.
-/

namespace TagLayers

/-! ## Open regions -/

/-- A balanced region. -/
structure Region where
  /-- The tag that closes the region. -/
  closer : Tag
  /-- How many openers wait for their closer; the first one counts. -/
  depth : Nat

/-- The depth of a region after a token: a closer lowers it; a token that hits the entry, or
opens a region with the same closer, raises it. -/
def Region.depthAfter (region : Region) (entry : TagEntry) (token : Token) (pairs : PairTable) :
    Nat :=
  if token.tag.meets region.closer then region.depth - 1
  else if entry.hits token || pairs.closer? token.tag == some region.closer then region.depth + 1
  else region.depth

namespace Attempt

/-- The region that is open, as an attempt has noted it. -/
def region (t : Attempt) : Option Region :=
  if t.inside then t.closer.map (⟨·, t.depth⟩) else none

theorem region_of_outside {t : Attempt} (h : t.inside = false) : t.region = none := by
  rw [region, h]
  rfl

theorem region_eq_some_iff {t : Attempt} {region : Region} :
    t.region = some region ↔
      t.inside = true ∧ t.closer = some region.closer ∧ t.depth = region.depth := by
  unfold Attempt.region
  constructor
  · intro h
    split at h
    · next hin =>
      obtain ⟨closer, hcl, rfl⟩ := Option.map_eq_some_iff.mp h
      exact ⟨hin, hcl, rfl⟩
    · cases h
  · rintro ⟨hin, hcl, hd⟩
    rw [if_pos hin, hcl, hd]
    rfl

end Attempt

namespace Automaton

variable {a : Automaton} {region : Region}

theorem closes_of_region (hr : a.attempt.region = some region) (token : Token) :
    a.closes token = token.tag.meets region.closer := by
  obtain ⟨hin, hcl, -⟩ := Attempt.region_eq_some_iff.mp hr
  rw [closes, hin, hcl]
  rfl

theorem closes_of_outside (h : a.attempt.inside = false) (token : Token) :
    a.closes token = false := by
  rw [closes, h]
  rfl

theorem expected_of_outside (h : a.attempt.inside = false) (entry : TagEntry) :
    a.expected entry = entry.target := by
  rw [expected, h]
  cases a.attempt.closer <;> rfl

theorem region_setDepth (hr : a.attempt.region = some region) (depth : Nat) :
    (a.setDepth depth).attempt.region = some ⟨region.closer, depth⟩ := by
  obtain ⟨hin, hcl, -⟩ := Attempt.region_eq_some_iff.mp hr
  exact Attempt.region_eq_some_iff.mpr ⟨hin, hcl, rfl⟩

/-- Counting with the notes is counting with the region. -/
theorem depthAfter_eq (hr : a.attempt.region = some region) (entry : TagEntry) (token : Token)
    (pairs : PairTable) :
    a.depthAfter entry token pairs = region.depthAfter entry token pairs := by
  obtain ⟨-, hcl, hd⟩ := Attempt.region_eq_some_iff.mp hr
  have hnests : a.nests entry token pairs
      = (entry.hits token || pairs.closer? token.tag == some region.closer) := by
    rw [nests, hcl]
    cases pairs.closer? token.tag with
    | none => rfl
    | some closer => exact congrArg _ (BEq.comm (a := some region.closer) (b := some closer))
  rw [depthAfter, closes_of_region hr, hnests, hd]
  rfl

end Automaton

namespace Cursor

/-- From the group at `here` outwards: where a group has taken a token the group around it has
taken it too, and the whole pattern is not optional. -/
def Nested : Place → List Frame → Prop
  | here, [] => here.optional = false
  | here, g :: outer => (here.consumed = true → g.place.consumed = true) ∧ Nested g.place outer

def WellNested : Cursor → Prop
  | on _ here outer => Nested here.place outer
  | past _ => True

theorem nested_next {place : Place} {outer : List Frame} :
    Nested place.next outer ↔ Nested place outer := by
  cases outer <;> exact Iff.rfl

theorem wellNested_enter {place : Place} {outer : List Frame} {part : Pattern} {c : Cursor}
    (hn : Nested place outer) (h : enter place outer part = some c) : c.WellNested := by
  induction part generalizing place outer c with
  | nil => simp [enter] at h
  | item e rest =>
    simp only [enter, Option.some.injEq] at h
    subst h
    exact hn
  | group o body rest ihb ihr =>
    simp only [enter] at h
    split at h
    · next hb =>
      -- a group that is entered has taken nothing, so it asks nothing of the groups around it
      obtain rfl := Option.some.inj h
      exact ihb (show Nested _ (_ :: _) from ⟨fun hc => absurd hc Bool.false_ne_true, hn⟩) hb
    · exact ihr (nested_next.mpr hn) h

theorem wellNested_settle {place : Place} {outer : List Frame} (hn : Nested place outer)
    (part : Pattern) : (settle place part outer).WellNested := by
  induction outer generalizing place part with
  | nil =>
    cases h : enter place [] part with
    | none => simp [settle, h, WellNested]
    | some c => simpa [settle, h] using wellNested_enter hn h
  | cons g outer ih =>
    cases h : enter place (g :: outer) part with
    | none => simpa [settle, h] using ih (nested_next.mpr hn.2) g.rest
    | some c => simpa [settle, h] using wellNested_enter hn h

theorem wellNested_start (p : Pattern) : (start p).WellNested :=
  wellNested_settle (show Nested {} [] from rfl) p

theorem wellNested_advance {c : Cursor} (h : c.WellNested) : c.advance.WellNested := by
  cases c with
  | on e here outer => exact wellNested_settle (nested_next.mpr h) here.rest
  | past place => trivial

theorem nested_consume {here : Place} {outer : List Frame} (h : Nested here outer) :
    Nested here.consume (outer.map fun f => { f with place := f.place.consume }) := by
  induction outer generalizing here with
  | nil => exact h
  | cons g outer ih => exact ⟨fun _ => rfl, ih h.2⟩

theorem wellNested_consume {c : Cursor} (h : c.WellNested) : c.consume.WellNested := by
  cases c with
  | on e here outer => exact nested_consume h
  | past place => trivial

theorem wellNested_skipFrom {here : Place} {outer : List Frame} {c : Cursor}
    (hn : Nested here outer) (h : skipFrom here outer = some c) : c.WellNested := by
  induction outer generalizing here with
  | nil => simp [skipFrom] at h
  | cons g outer ih =>
    simp only [skipFrom] at h
    split at h
    · cases h
    · split at h
      · obtain rfl := Option.some.inj h
        exact wellNested_settle (nested_next.mpr hn.2) g.rest
      · exact ih hn.2 h

theorem wellNested_skip {c d : Cursor} (hn : c.WellNested) (h : c.skip? = some d) :
    d.WellNested := by
  cases c with
  | on e here outer => exact wellNested_skipFrom hn h
  | past place => cases h

/-- After a skip the entries of the groups around are ahead, or an end of them. -/
theorem ahead_skipFrom_suffix {here : Place} {outer : List Frame} {c : Cursor}
    (h : skipFrom here outer = some c) : c.ahead <:+ outer.flatMap (·.rest.entries) := by
  induction outer generalizing here with
  | nil => simp [skipFrom] at h
  | cons g outer ih =>
    simp only [skipFrom] at h
    split at h
    · cases h
    · split at h
      · obtain rfl := Option.some.inj h
        exact ahead_settle g.place.next g.rest outer ▸ List.suffix_refl _
      · exact (ih h).trans (List.suffix_append _ _)

theorem ahead_skip_suffix {c d : Cursor} (h : c.skip? = some d) : d.ahead <:+ c.ahead := by
  cases c with
  | on e here outer => exact (ahead_skipFrom_suffix h).trans (List.suffix_append _ _)
  | past place => cases h

theorem ahead_advance_suffix (c : Cursor) : c.advance.ahead <:+ c.ahead := by
  rw [ahead_advance]
  exact List.tail_suffix _

theorem exists_on {c : Cursor} {e : TagEntry} (h : c.current? = some e) :
    ∃ here outer, c = on e here outer := by
  cases c with
  | on e' here outer =>
    obtain rfl := Option.some.inj h
    exact ⟨here, outer, rfl⟩
  | past place => cases h

theorem exists_current {c : Cursor} (h : c.isPast = false) : ∃ e, c.current? = some e := by
  cases c with
  | on e here outer => exact ⟨e, rfl⟩
  | past place => cases h

theorem exists_past {c : Cursor} (h : c.isPast = true) : ∃ place, c = past place := by
  cases c with
  | on e here outer => cases h
  | past place => exact ⟨place, rfl⟩

theorem isPast_of_current?_none {c : Cursor} (h : c.current? = none) : c.isPast = true := by
  cases c with
  | on e here outer => cases h
  | past place => rfl

theorem mem_ahead_of_current {c : Cursor} {e : TagEntry} (h : c.current? = some e) :
    e ∈ c.ahead := by
  obtain ⟨here, outer, rfl⟩ := exists_on h
  exact List.mem_cons_self

theorem current?_consume (c : Cursor) : c.consume.current? = c.current? := by
  cases c <;> rfl

end Cursor

namespace Automaton

/-! ## Rules -/

/-- What a step can do with a token at the entry under the cursor. -/
inductive StepRule (a : Automaton) (entry : TagEntry) (i : Nat) (token : Token)
    (pairs : PairTable) : Automaton × Move → Prop
  /-- The token trips the guard and ends the attempt. -/
  | trip : a.trips entry token = true →
      StepRule a entry i token pairs (a.restart, .mismatch (a.expected entry))
  /-- An optional entry is passed over. -/
  | pass : a.trips entry token = false → entry.mode = .optional → entry.hits token = false →
      StepRule a entry i token pairs (a.advance false)
  /-- A hit is taken, and the entry is done with. -/
  | take : a.trips entry token = false →
      entry.mode = .optional ∨ entry.mode = .mandatory ∨ entry.mode = .collect →
      entry.hits token = true → StepRule a entry i token pairs ((a.consume i).advance true)
  /-- A collecting entry takes a token that does not hit, and goes on. -/
  | gather : a.trips entry token = false → entry.mode = .collect ∨ entry.mode = .collectDrop →
      entry.hits token = false → StepRule a entry i token pairs (a.consume i, .next)
  /-- The hit that ends a collecting entry is left out of the match. -/
  | drop : a.trips entry token = false → entry.mode = .collectDrop → entry.hits token = true →
      StepRule a entry i token pairs (a.leaveOut.advance true)
  /-- A token misses an entry that needs a hit. -/
  | miss : a.trips entry token = false →
      entry.mode = .mandatory ∨ entry.mode = .complete ∧ a.attempt.inside = false →
      entry.hits token = false → StepRule a entry i token pairs a.miss
  /-- A hit opens a region. -/
  | enter {closer : Tag} : a.trips entry token = false → entry.mode = .complete →
      a.attempt.inside = false → entry.hits token = true →
      pairs.closer? entry.target = some closer →
      StepRule a entry i token pairs ((a.enterRegion closer i).consume i, .next)
  /-- An open region takes every token. -/
  | inside : a.trips entry token = false → entry.mode = .complete → a.attempt.inside = true →
      StepRule a entry i token pairs (a.takeInside entry i token pairs)

/-- A step that succeeds follows one of the rules; past the last entry it does nothing. -/
theorem step_rule {a b : Automaton} {move : Move} {i : Nat} {token : Token} {pairs : PairTable}
    (h : a.step i token pairs = .ok (b, move)) :
    (a.attempt.cursor.current? = none ∧ b = a ∧ move = .next) ∨
      ∃ entry, a.attempt.cursor.current? = some entry ∧
        StepRule a entry i token pairs (b, move) := by
  unfold step at h
  split at h
  · next hc =>
    cases h
    exact .inl ⟨hc, rfl, rfl⟩
  · next entry hc =>
    refine .inr ⟨entry, hc, ?_⟩
    split at h
    · next ht =>
      cases h
      exact .trip ht
    · next ht =>
      rw [Bool.not_eq_true] at ht
      -- one rule for each mode and each outcome of the test
      rw [offer] at h
      cases hm : entry.mode <;> cases hit : entry.hits token <;>
        simp only [hm, hit, Bool.false_eq_true, if_false, if_true, Except.ok.injEq] at h
      case optional.false => exact h ▸ .pass ht hm hit
      case optional.true => exact h ▸ .take ht (.inl hm) hit
      case mandatory.false => exact h ▸ .miss ht (.inl hm) hit
      case mandatory.true => exact h ▸ .take ht (.inr (.inl hm)) hit
      case collect.false => exact h ▸ .gather ht (.inl hm) hit
      case collect.true => exact h ▸ .take ht (.inr (.inr hm)) hit
      case collectDrop.false => exact h ▸ .gather ht (.inr hm) hit
      case collectDrop.true => exact h ▸ .drop ht hm hit
      case complete.false =>
        split at h
        · next hin => exact Except.ok.inj h ▸ .inside ht hm hin
        · next hin =>
          exact Except.ok.inj h ▸ .miss ht (.inr ⟨hm, Bool.eq_false_iff.mpr hin⟩) hit
      case complete.true =>
        split at h
        · next hin => exact Except.ok.inj h ▸ .inside ht hm hin
        · next hin =>
          rw [openRegion] at h
          split at h
          · cases h
          · next closer hcl =>
            exact Except.ok.inj h ▸ .enter ht hm (Bool.eq_false_iff.mpr hin) hit hcl

/-- A step fails exactly when a hit would open a region whose opener has no closer. -/
theorem step_error_iff {a : Automaton} {e : PatternError} {i : Nat} {token : Token}
    {pairs : PairTable} :
    a.step i token pairs = .error e ↔
      ∃ entry, a.attempt.cursor.current? = some entry ∧ a.trips entry token = false ∧
        entry.mode = .complete ∧ a.attempt.inside = false ∧ entry.hits token = true ∧
        pairs.closer? entry.target = none ∧ e = .undefinedCloser a.name entry.target := by
  unfold step
  split
  · next hc => simp [hc]
  · next entry hc =>
    simp only [hc, Option.some.injEq, exists_eq_left']
    split
    · next ht => simp [ht]
    · next ht =>
      rw [Bool.not_eq_true] at ht
      rw [offer]
      cases hm : entry.mode
      case complete =>
        cases hin : a.attempt.inside with
        | true => simp
        | false =>
          cases hit : entry.hits token with
          | false => simp
          | true =>
            cases hcl : pairs.closer? entry.target with
            | none => simp [openRegion, hcl, ht, eq_comm]
            | some closer => simp [openRegion, hcl]
      all_goals simp

/-- Steps past the last entry complete the attempt; all others rest on an entry. -/
theorem moveTo_cases (a : Automaton) (cursor : Cursor) (used : Bool) :
    (cursor.isPast = true ∧
      a.moveTo cursor used = ({ a with attempt := { a.attempt with cursor } }.complete, .next)) ∨
    (cursor.isPast = false ∧
      a.moveTo cursor used
        = ({ a with attempt := { a.attempt with cursor } }, if used then .next else .again)) := by
  cases h : cursor.isPast with
  | true => exact .inl ⟨rfl, by simp [moveTo, h]⟩
  | false => exact .inr ⟨rfl, by simp [moveTo, h]⟩

/-- A token inside a region closes it, or goes on with the depth that the token leaves. -/
theorem takeInside_cases (a : Automaton) (entry : TagEntry) (i : Nat) (token : Token)
    (pairs : PairTable) :
    (a.depthAfter entry token pairs = 0 ∧
      a.takeInside entry i token pairs
        = ((a.consume i).setDepth 0).leaveRegion.advance true) ∨
    (0 < a.depthAfter entry token pairs ∧
      a.takeInside entry i token pairs
        = ((a.consume i).setDepth (a.depthAfter entry token pairs), .next)) := by
  rw [takeInside]
  split
  · next h => exact .inl ⟨h, rfl⟩
  · next h => exact .inr ⟨Nat.pos_of_ne_zero h, rfl⟩

theorem moveTo_ne_mismatch {a b : Automaton} {cursor : Cursor} {used : Bool} {tag : Tag} :
    a.moveTo cursor used ≠ (b, .mismatch tag) := by
  intro h
  rcases a.moveTo_cases cursor used with ⟨-, hm⟩ | ⟨-, hm⟩ <;> rw [hm] at h
  · cases h
  · cases used <;> cases h

/-- A mismatch is a token that trips the guard of the entry under the cursor. -/
theorem step_mismatch {a b : Automaton} {tag : Tag} {i : Nat} {token : Token} {pairs : PairTable}
    (h : a.step i token pairs = .ok (b, .mismatch tag)) :
    ∃ entry, a.attempt.cursor.current? = some entry ∧ a.trips entry token = true ∧
      b = a.restart ∧ tag = a.expected entry := by
  rcases step_rule h with ⟨-, -, hmove⟩ | ⟨entry, hc, hr⟩
  · cases hmove
  · refine ⟨entry, hc, ?_⟩
    generalize hx : (b, Move.mismatch tag) = x at hr
    cases hr with
    | trip ht =>
      cases hx
      exact ⟨ht, rfl, rfl⟩
    | pass | take | drop => exact absurd hx.symm moveTo_ne_mismatch
    | gather | enter => cases hx
    | miss =>
      rw [miss] at hx
      split at hx
      · exact absurd hx.symm moveTo_ne_mismatch
      · cases hx
    | inside =>
      rcases a.takeInside_cases entry i token pairs with ⟨-, ht⟩ | ⟨-, ht⟩ <;> rw [ht] at hx
      · exact absurd hx.symm moveTo_ne_mismatch
      · cases hx

/-! ## From steps to calls -/

section Keeps

variable {P : Automaton → Prop} {a : Automaton} {i : Nat} {token : Token} {pairs : PairTable}

/-- A run keeps what each step keeps. -/
theorem run_keeps (hstep : ∀ {a b : Automaton} {move : Move}, P a →
    a.step i token pairs = .ok (b, move) → P b) (h : P a) : P (a.run i token pairs).1 := by
  fun_induction run a i token pairs with
  | case1 a fault hs => exact h
  | case2 a b hs => exact hstep h hs
  | case3 a b tag hs => exact hstep h hs
  | case4 a b hs ih => exact ih (hstep h hs)

/-- So does feeding a token, which is one run or two. -/
theorem feed_keeps (hstep : ∀ {a b : Automaton} {move : Move}, P a →
    a.step i token pairs = .ok (b, move) → P b) (h : P a) : P (a.feed i token pairs).1 := by
  have first := run_keeps hstep h
  rw [feed]
  split <;> rename_i b _ hrun <;> rw [hrun] at first
  · exact first
  · exact first
  · have second := run_keeps hstep first
    split <;> rename_i c _ hrun' <;> rw [hrun'] at second <;> exact second

end Keeps

/-- The end of the stream drops the attempt or completes it. -/
theorem finish_cases (a : Automaton) : a.finish.1 = a.restart ∨ a.finish.1 = a.complete := by
  rw [finish]
  split
  · exact .inl rfl
  · split
    · exact .inr rfl
    · exact .inl rfl

/-! ## What a step leaves alone -/

/-- `a` and `b` have the same name, tag and pattern. -/
def SameMachine (a b : Automaton) : Prop :=
  b.name = a.name ∧ b.tag = a.tag ∧ b.pattern = a.pattern

theorem SameMachine.trans {a b c : Automaton} (hab : a.SameMachine b) (hbc : b.SameMachine c) :
    a.SameMachine c :=
  ⟨hbc.1.trans hab.1, hbc.2.1.trans hab.2.1, hbc.2.2.trans hab.2.2⟩

theorem sameMachine_moveTo (a : Automaton) (cursor : Cursor) (used : Bool) :
    a.SameMachine (a.moveTo cursor used).1 := by
  rcases a.moveTo_cases cursor used with ⟨-, h⟩ | ⟨-, h⟩ <;> rw [h] <;> exact ⟨rfl, rfl, rfl⟩

theorem sameMachine_miss (a : Automaton) : a.SameMachine a.miss.1 := by
  rw [miss]
  split
  · exact sameMachine_moveTo a _ _
  · exact ⟨rfl, rfl, rfl⟩

theorem sameMachine_takeInside (a : Automaton) (entry : TagEntry) (i : Nat) (token : Token)
    (pairs : PairTable) : a.SameMachine (a.takeInside entry i token pairs).1 := by
  rcases a.takeInside_cases entry i token pairs with ⟨-, h⟩ | ⟨-, h⟩ <;> rw [h]
  · exact sameMachine_moveTo ((a.consume i).setDepth 0).leaveRegion _ _
  · exact ⟨rfl, rfl, rfl⟩

theorem StepRule.sameMachine {a : Automaton} {entry : TagEntry} {i : Nat} {token : Token}
    {pairs : PairTable} {x : Automaton × Move} (h : StepRule a entry i token pairs x) :
    a.SameMachine x.1 := by
  cases h with
  | trip | gather | enter => exact ⟨rfl, rfl, rfl⟩
  | pass => exact sameMachine_moveTo a _ _
  | take => exact sameMachine_moveTo (a.consume i) _ _
  | drop => exact sameMachine_moveTo a.leaveOut _ _
  | miss => exact sameMachine_miss a
  | inside => exact sameMachine_takeInside a _ _ _ _

theorem sameMachine_step {a b : Automaton} {move : Move} {i : Nat} {token : Token}
    {pairs : PairTable} (h : a.step i token pairs = .ok (b, move)) : a.SameMachine b := by
  rcases step_rule h with ⟨-, rfl, -⟩ | ⟨entry, -, hr⟩
  · exact ⟨rfl, rfl, rfl⟩
  · exact hr.sameMachine

theorem sameMachine_run (a : Automaton) (i : Nat) (token : Token) (pairs : PairTable) :
    a.SameMachine (a.run i token pairs).1 :=
  run_keeps (fun hab hstep => hab.trans (sameMachine_step hstep)) ⟨rfl, rfl, rfl⟩

theorem sameMachine_feed (a : Automaton) (i : Nat) (token : Token) (pairs : PairTable) :
    a.SameMachine (a.feed i token pairs).1 :=
  feed_keeps (fun hab hstep => hab.trans (sameMachine_step hstep)) ⟨rfl, rfl, rfl⟩

theorem sameMachine_finish (a : Automaton) : a.SameMachine a.finish.1 := by
  rcases a.finish_cases with h | h <;> rw [h] <;> exact ⟨rfl, rfl, rfl⟩

theorem run_of_error {a : Automaton} {i : Nat} {token : Token} {pairs : PairTable}
    {fault : PatternError} (h : a.step i token pairs = .error fault) :
    a.run i token pairs = (a, .error fault) := by
  rw [run]
  split <;> rename_i hstep <;> rw [h] at hstep <;> cases hstep
  rfl

theorem run_of_next {a b : Automaton} {i : Nat} {token : Token} {pairs : PairTable}
    (h : a.step i token pairs = .ok (b, .next)) : a.run i token pairs = (b, .ok none) := by
  rw [run]
  split <;> rename_i hstep <;> rw [h] at hstep <;> cases hstep
  rfl

theorem run_of_again {a b : Automaton} {i : Nat} {token : Token} {pairs : PairTable}
    (h : a.step i token pairs = .ok (b, .again)) :
    a.run i token pairs = b.run i token pairs := by
  rw [run]
  split <;> rename_i hstep <;> rw [h] at hstep <;> cases hstep
  rfl

theorem run_of_mismatch {a b : Automaton} {i : Nat} {token : Token} {pairs : PairTable} {tag : Tag}
    (h : a.step i token pairs = .ok (b, .mismatch tag)) :
    a.run i token pairs = (b, .ok (some tag)) := by
  rw [run]
  split <;> rename_i hstep <;> rw [h] at hstep <;> cases hstep
  rfl

theorem feed_of_run {a b : Automaton} {i : Nat} {token : Token} {pairs : PairTable}
    (h : a.run i token pairs = (b, .ok none)) : a.feed i token pairs = (b, .ok none) := by
  rw [feed, h]

/-- A mismatch names the automaton and the token. -/
theorem feed_mismatch {a b : Automaton} {i : Nat} {token : Token} {pairs : PairTable}
    {m : Mismatch} (h : a.feed i token pairs = (b, .ok (some m))) :
    m.pattern = a.name ∧ m.token = i := by
  rw [feed] at h
  split at h
  · cases h
  · cases h
  · split at h
    · cases h
    · cases h
      exact ⟨rfl, rfl⟩

end Automaton

/-! ## Sound attempts -/

/-- The notes about a region agree: it is open exactly if it waits for a closer, and exactly if its
depth is positive. -/
structure Attempt.Agrees (t : Attempt) : Prop where
  closer : t.inside = t.closer.isSome
  depth : t.inside = true ↔ 0 < t.depth

/-- What holds of the attempt of an automaton for the pattern `p` between any two steps. -/
structure Attempt.Sound (p : Pattern) (t : Attempt) : Prop where
  /-- The entries ahead are an end of the walk. -/
  ahead : t.cursor.ahead <:+ p.entries
  nested : t.cursor.WellNested
  agrees : t.Agrees
  /-- The entry of an open region is one for regions. -/
  entry : t.inside = true → ∃ e, t.cursor.current? = some e ∧ e.mode = .complete
  /-- An attempt past the last entry has not begun. -/
  idle : t.cursor.isPast = true → t = { cursor := Cursor.start p }

namespace Attempt.Sound

theorem fresh (p : Pattern) : Sound p { cursor := Cursor.start p } where
  ahead := Cursor.ahead_start p ▸ List.suffix_refl _
  nested := Cursor.wellNested_start p
  agrees := ⟨rfl, by simp⟩
  entry := fun h => by cases h
  idle := fun _ => rfl

theorem current_mem {p : Pattern} {t : Attempt} (hs : Sound p t) {e : TagEntry}
    (h : t.cursor.current? = some e) : e ∈ p.entries :=
  hs.ahead.subset (Cursor.mem_ahead_of_current h)

theorem exists_region {p : Pattern} {t : Attempt} (hs : Sound p t) (h : t.inside = true) :
    ∃ region, t.region = some region := by
  obtain ⟨closer, hcl⟩ := Option.isSome_iff_exists.mp (hs.agrees.closer ▸ h)
  exact ⟨⟨closer, t.depth⟩, region_eq_some_iff.mpr ⟨h, hcl, rfl⟩⟩

/-- An open region waits for a closer, and its entry is one for regions. -/
theorem region {p : Pattern} {t : Attempt} (hs : Sound p t) {region : Region}
    (hr : t.region = some region) :
    0 < region.depth ∧ ∃ e, t.cursor.current? = some e ∧ e.mode = .complete := by
  obtain ⟨hin, -, hd⟩ := region_eq_some_iff.mp hr
  exact ⟨hd ▸ hs.agrees.depth.mp hin, hs.entry hin⟩

/-- At an entry of another mode no region is open. -/
theorem outside {p : Pattern} {t : Attempt} (hs : Sound p t) {e : TagEntry}
    (h : t.cursor.current? = some e) (hm : e.mode ≠ .complete) : t.inside = false := by
  refine Bool.eq_false_iff.mpr fun hin => ?_
  obtain ⟨e', he', hm'⟩ := hs.entry hin
  cases h.symm.trans he'
  exact hm hm'

theorem region_eq_none {p : Pattern} {t : Attempt} (hs : Sound p t) {e : TagEntry}
    (h : t.cursor.current? = some e) (hm : e.mode ≠ .complete) : t.region = none :=
  region_of_outside (hs.outside h hm)

/-- With no entry under the cursor there is none in the pattern. -/
theorem entries_eq_nil {p : Pattern} {t : Attempt} (hs : Sound p t)
    (h : t.cursor.current? = none) : p.entries = [] := by
  have hpast : t.cursor.isPast = true := Cursor.isPast_of_current?_none h
  have hcur : t.cursor = Cursor.start p := by rw [hs.idle hpast]
  obtain ⟨place, hplace⟩ := Cursor.exists_past hpast
  rw [← Cursor.ahead_start, ← hcur, hplace]
  rfl

theorem isPast_eq_false {p : Pattern} {t : Attempt} (hs : Sound p t) (h : t.started = true) :
    t.cursor.isPast = false := by
  cases hc : t.cursor.isPast with
  | false => rfl
  | true =>
    rw [hs.idle hc] at h
    cases h

end Attempt.Sound

namespace Automaton

def Sound (a : Automaton) : Prop := a.attempt.Sound a.pattern

theorem sound_new (name : String) (tag : Tag) (p : Pattern) : (new name tag p).Sound :=
  Attempt.Sound.fresh p

theorem sound_restart (a : Automaton) : a.restart.Sound := Attempt.Sound.fresh a.pattern

theorem sound_reset (a : Automaton) : a.reset.Sound := Attempt.Sound.fresh a.pattern

theorem sound_moveTo {a : Automaton} {cursor : Cursor} (used : Bool)
    (hc : cursor.ahead <:+ a.pattern.entries) (hn : cursor.WellNested) (ha : a.attempt.Agrees)
    (ho : a.attempt.inside = false) : (a.moveTo cursor used).1.Sound := by
  rcases a.moveTo_cases cursor used with ⟨-, h⟩ | ⟨hp, h⟩ <;> rw [h]
  · exact Attempt.Sound.fresh a.pattern
  · exact
      { ahead := hc
        nested := hn
        agrees := ⟨ha.closer, ha.depth⟩
        entry := fun hin => nomatch ho.symm.trans hin
        idle := fun hpast => nomatch hp.symm.trans hpast }

theorem sound_advance {a : Automaton} (used : Bool) (hs : a.Sound)
    (ho : a.attempt.inside = false) : (a.advance used).1.Sound :=
  sound_moveTo used ((Cursor.ahead_advance_suffix _).trans hs.ahead)
    (Cursor.wellNested_advance hs.nested) hs.agrees ho

theorem sound_miss {a : Automaton} (hs : a.Sound) (ho : a.attempt.inside = false) :
    a.miss.1.Sound := by
  rw [miss]
  split
  · next c hc =>
    exact sound_moveTo false ((Cursor.ahead_skip_suffix hc).trans hs.ahead)
      (Cursor.wellNested_skip hs.nested hc) hs.agrees ho
  · exact sound_restart a

/-- Taking a token keeps an attempt on its entry sound, with whatever region the entry allows. -/
theorem sound_taken {a : Automaton} (hs : a.Sound) {entry : TagEntry}
    (hc : a.attempt.cursor.current? = some entry) {t : Attempt}
    (ht : t.cursor = a.attempt.cursor.consume) (ha : t.Agrees)
    (hm : t.inside = true → entry.mode = .complete) : t.Sound a.pattern where
  ahead := by rw [ht, Cursor.ahead_consume]; exact hs.ahead
  nested := by rw [ht]; exact Cursor.wellNested_consume hs.nested
  agrees := ha
  entry := fun h => by
    rw [ht, Cursor.current?_consume]
    exact ⟨entry, hc, hm h⟩
  idle := fun h => by
    rw [ht] at h
    cases hcur : a.attempt.cursor with
    | on e here outer => rw [hcur] at h; cases h
    | past place => rw [hcur] at hc; cases hc

theorem StepRule.sound {a : Automaton} {entry : TagEntry} {i : Nat} {token : Token}
    {pairs : PairTable} {x : Automaton × Move} (h : StepRule a entry i token pairs x)
    (hs : a.Sound) (hc : a.attempt.cursor.current? = some entry) : x.1.Sound := by
  -- every entry but one for regions has no region open, before the step and after it
  have outside (hm : entry.mode ≠ .complete) : a.attempt.inside = false := hs.outside hc hm
  have taken (ho : a.attempt.inside = false) : (a.consume i).Sound :=
    sound_taken hs hc rfl ⟨hs.agrees.closer, hs.agrees.depth⟩ fun hin => nomatch ho.symm.trans hin
  cases h with
  | trip => exact sound_restart a
  | pass _ hm => exact sound_advance false hs (outside (by rw [hm]; decide))
  | take _ hm =>
    have ho : a.attempt.inside = false :=
      outside (by rcases hm with hm | hm | hm <;> rw [hm] <;> decide)
    exact sound_advance true (taken ho) ho
  | gather _ hm => exact taken (outside (by rcases hm with hm | hm <;> rw [hm] <;> decide))
  | drop _ hm =>
    have ho : a.attempt.inside = false := outside (by rw [hm]; decide)
    have left : a.leaveOut.Sound :=
      sound_taken hs hc rfl ⟨hs.agrees.closer, hs.agrees.depth⟩
        fun hin => nomatch ho.symm.trans hin
    exact sound_advance true left ho
  | miss _ hm =>
    refine sound_miss hs ?_
    rcases hm with hm | ⟨-, ho⟩
    · exact outside (by rw [hm]; decide)
    · exact ho
  | enter _ hm => exact sound_taken hs hc rfl ⟨rfl, by simp [consume, enterRegion]⟩ fun _ => hm
  | inside _ hm hin =>
    rcases a.takeInside_cases entry i token pairs with ⟨-, ht⟩ | ⟨hd, ht⟩ <;> rw [ht]
    · -- the depth has come to zero when the region is left
      have closed : ((a.consume i).setDepth 0).leaveRegion.Sound :=
        sound_taken hs hc rfl ⟨rfl, by simp [leaveRegion, setDepth]⟩ fun hopen => nomatch hopen
      exact sound_advance true closed rfl
    · exact sound_taken hs hc rfl ⟨hs.agrees.closer, iff_of_true hin hd⟩ fun _ => hm

theorem sound_step {a b : Automaton} {move : Move} {i : Nat} {token : Token} {pairs : PairTable}
    (hs : a.Sound) (h : a.step i token pairs = .ok (b, move)) : b.Sound := by
  rcases step_rule h with ⟨-, rfl, -⟩ | ⟨entry, hc, hr⟩
  · exact hs
  · exact hr.sound hs hc

/-! ## Sequences of calls -/

theorem sound_run {a : Automaton} (hs : a.Sound) (i : Nat) (token : Token) (pairs : PairTable) :
    (a.run i token pairs).1.Sound :=
  run_keeps sound_step hs

theorem sound_feed {a : Automaton} (hs : a.Sound) (i : Nat) (token : Token) (pairs : PairTable) :
    (a.feed i token pairs).1.Sound :=
  feed_keeps sound_step hs

/-- A call fails at an entry for regions whose opener has no closer, and names both the automaton
and the opener. -/
theorem run_error {a : Automaton} (hs : a.Sound) {i : Nat} {token : Token} {pairs : PairTable}
    {fault : PatternError} (h : (a.run i token pairs).2 = .error fault) :
    ∃ entry ∈ a.pattern.entries, entry.mode = .complete ∧ pairs.closer? entry.target = none ∧
      fault = .undefinedCloser a.name entry.target := by
  fun_induction run a i token pairs with
  | case1 a e hstep =>
    cases h
    obtain ⟨entry, hc, -, hm, -, -, hcl, he⟩ := step_error_iff.mp hstep
    exact ⟨entry, hs.current_mem hc, hm, hcl, he⟩
  | case2 a b hstep => cases h
  | case3 a b tag hstep => cases h
  | case4 a b hstep ih =>
    obtain ⟨hname, -, hpattern⟩ := sameMachine_step hstep
    rw [← hname, ← hpattern]
    exact ih (sound_step hs hstep) h

theorem feed_error {a : Automaton} (hs : a.Sound) {i : Nat} {token : Token} {pairs : PairTable}
    {fault : PatternError} (h : (a.feed i token pairs).2 = .error fault) :
    ∃ entry ∈ a.pattern.entries, entry.mode = .complete ∧ pairs.closer? entry.target = none ∧
      fault = .undefinedCloser a.name entry.target := by
  have hfirst (e : PatternError) (he : (a.run i token pairs).2 = .error e) := run_error hs he
  have hb := sound_run hs i token pairs
  obtain ⟨hname, -, hpattern⟩ := sameMachine_run a i token pairs
  rw [feed] at h
  split at h <;> rename_i b _ hrun <;> rw [hrun] at hfirst hb hname hpattern
  · cases h
    exact hfirst fault rfl
  · cases h
  · split at h
    · next c e hrun' =>
      cases h
      rw [← hname, ← hpattern]
      exact run_error hb (by rw [hrun'])
    · cases h

theorem sound_finish (a : Automaton) : a.finish.1.Sound := by
  rcases a.finish_cases with h | h <;> rw [h] <;> exact sound_restart a

/-- The automata that come about from a new one by any sequence of calls, whether the calls
succeed or fail. -/
inductive Reachable : Automaton → Prop
  | new (name : String) (tag : Tag) (pattern : Pattern) :
      Reachable (Automaton.new name tag pattern)
  | feed {a : Automaton} (i : Nat) (token : Token) (pairs : PairTable) : Reachable a →
      Reachable (a.feed i token pairs).1
  | finish {a : Automaton} : Reachable a → Reachable a.finish.1
  | reset {a : Automaton} : Reachable a → Reachable a.reset
  | takeCompleted {a : Automaton} : Reachable a → Reachable a.takeCompleted.1

theorem Reachable.sound {a : Automaton} (h : Reachable a) : a.Sound := by
  induction h with
  | new name tag pattern => exact sound_new name tag pattern
  | feed i token pairs _ ih => exact sound_feed ih i token pairs
  | finish _ _ => exact sound_finish _
  | reset _ _ => exact sound_reset _
  | takeCompleted _ ih => exact ih

end Automaton

end TagLayers
