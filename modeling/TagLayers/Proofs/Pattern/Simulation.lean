import TagLayers.Proofs.Pattern.Matcher
import TagLayers.Proofs.Pattern.Steps

/-!
# The automaton is the recursive matcher

The frames around a cursor are what the recursive matcher still has to do: after the rest of the
innermost group comes the rest of the group around it, and so on. `Verdict.leave` runs the
matcher outwards over the frames, and `Cursor.read` runs it from the position of a cursor. What
the matcher records from there on is the outlook of an automaton, and no step changes it.

Results:
1. `Cursor.read_settle`, `Cursor.leave_failed`: moves of the cursor are moves of the matcher.
2. `StepRule.outlook`: a step keeps the outlook.
3. `completed_feedStream`: fed with any stream, a new automaton has completed what the matcher
   records.
-/

namespace TagLayers

/-! ## Leaving groups -/

/-- What comes of the pattern when the rest of the group at `here` has come to a verdict. The
token next at `start` is the one that failed at the beginning of all the groups that have not
taken a token; only those can be passed over. -/
def Verdict.leave (pairs : PairTable) (start : Reading) (here : Place) (v : Verdict) :
    List Frame → Verdict
  | [] => v
  | g :: outer =>
      match v with
      | .passed r => leave pairs start g.place (g.rest.read pairs r) outer
      | .failed index after =>
          -- a token has been taken, before this one or after it
          if here.consumed || index != start.next then .failed index after
          else if here.optional then
            leave pairs start g.place (g.rest.read pairs start.refuse) outer
          else leave pairs start g.place (.failed index after) outer
      | .waiting => .waiting

namespace Verdict

variable {pairs : PairTable}

theorem leave_next (start : Reading) (here : Place) (v : Verdict) (outer : List Frame) :
    leave pairs start here.next v outer = leave pairs start here v outer := by
  cases outer with
  | nil => rfl
  | cons g outer => cases v <;> rfl

theorem leave_refuse (start : Reading) (here : Place) (v : Verdict) (outer : List Frame) :
    leave pairs start.refuse here v outer = leave pairs start here v outer := by
  induction outer generalizing here v with
  | nil => rfl
  | cons g outer ih =>
    cases v with
    | passed r => exact ih g.place _
    | failed index after =>
      show ite _ _ (ite _ _ _) = ite _ _ (ite _ _ _)
      rw [ih, ih]
      rfl
    | waiting => rfl

/-- A failure at a later token is final: each group around has taken a token. -/
theorem leave_failed_of_ne {start : Reading} {index : Nat} (h : index ≠ start.next) (here : Place)
    (after : List Token) (outer : List Frame) :
    leave pairs start here (failed index after) outer = failed index after := by
  cases outer with
  | nil => rfl
  | cons g outer =>
    have hne : (here.consumed || index != start.next) = true := by simp [h]
    exact if_pos hne

/-- Once a token has been taken, groups with a token taken are left like groups that had to begin
at an earlier token. -/
theorem leave_consume {start start' : Reading} (hlt : start.next < start'.next) {v : Verdict}
    (hv : v.From start') (here : Place) (outer : List Frame) :
    leave pairs start here v outer
      = leave pairs start' here.consume v
          (outer.map fun f => { f with place := f.place.consume }) := by
  induction outer generalizing here v with
  | nil => rfl
  | cons g outer ih =>
    cases v with
    | passed r => exact ih (hv.trans (g.rest.read_from pairs r)) g.place
    | failed index after =>
      have hne : index ≠ start.next := by
        have := hv.1
        omega
      exact leave_failed_of_ne hne here after (g :: outer)
    | waiting => rfl

end Verdict

/-! ## The matcher at a cursor -/

/-- Runs the entry at a position, which goes on inside the region that is open. -/
def TagEntry.resume (pairs : PairTable) (e : TagEntry) (region : Option Region) (r : Reading) :
    Verdict :=
  match region with
  | none => e.read pairs r
  | some region => e.regionFrom pairs region.closer region.depth r.next r.taken r.unread

/-- Runs what is left of the pattern from the position on. -/
def Cursor.read (pairs : PairTable) (c : Cursor) (region : Option Region) (r : Reading) : Verdict :=
  match c with
  | .on e here outer =>
      ((e.resume pairs region r).andThen (here.rest.read pairs)).leave pairs r here.place outer
  | .past _ => .passed r

namespace Cursor

variable {pairs : PairTable}

/-- Where a part has an entry, the position at its first one is the beginning of the part. -/
theorem read_enter {place : Place} {outer : List Frame} {part : Pattern} {c : Cursor}
    (h : enter place outer part = some c) (r : Reading) :
    c.read pairs none r = (part.read pairs r).leave pairs r place outer := by
  induction part generalizing place outer c with
  | nil => cases h
  | item e rest =>
    cases h
    rfl
  | group o body rest ihb ihr =>
    rw [enter] at h
    split at h
    · next hb =>
      cases h
      rw [ihb hb, Pattern.read]
      -- the frame pushed for the group does to the verdict on its body what the group does
      cases hv : body.read pairs r with
      | passed r' => rfl
      | waiting => cases outer <;> rfl
      | failed index after =>
        by_cases hi : index = r.next
        · subst hi
          cases o <;> simp [Verdict.leave]
        · rw [Verdict.leave_failed_of_ne hi]
          simp [hi, Verdict.leave_failed_of_ne hi]
    · next hb =>
      rw [ihr h, Verdict.leave_next, Pattern.read,
        Pattern.read_of_entries_nil pairs (enter_none hb)]

/-- The position that a part settles on is the beginning of the part. -/
theorem read_settle (pairs : PairTable) (place : Place) (part : Pattern) (outer : List Frame)
    (r : Reading) :
    (settle place part outer).read pairs none r
      = (part.read pairs r).leave pairs r place outer := by
  induction outer generalizing place part with
  | nil =>
    rw [settle]
    cases h : enter place [] part with
    | none => rw [Pattern.read_of_entries_nil pairs (enter_none h)]; rfl
    | some c => exact read_enter h r
  | cons g outer ih =>
    rw [settle]
    cases h : enter place (g :: outer) part with
    | none =>
      rw [Pattern.read_of_entries_nil pairs (enter_none h)]
      exact (ih _ _).trans (Verdict.leave_next _ _ _ _)
    | some c => exact read_enter h r

theorem read_start (p : Pattern) (r : Reading) :
    (start p).read pairs none r = p.read pairs r :=
  read_settle pairs {} p [] r

/-- A failure at the next token passes over the group that the cursor skips, if there is one. -/
theorem leave_failed (r : Reading) (here : Place) (after : List Token)
    (outer : List Frame) :
    (Verdict.failed r.next after).leave pairs r here outer
      = match skipFrom here outer with
        | some c => c.read pairs none r.refuse
        | none => .failed r.next after := by
  induction outer generalizing here with
  | nil => rfl
  | cons g outer ih =>
    rw [skipFrom, Verdict.leave]
    cases hc : here.consumed with
    | true => rfl
    | false =>
      cases ho : here.optional with
      | true =>
        have h : (settle g.place.next g.rest outer).read pairs none r.refuse = _ :=
          read_settle pairs g.place.next g.rest outer r.refuse
        rw [Verdict.leave_next, Verdict.leave_refuse] at h
        simp [h]
      | false => simpa using ih g.place

end Cursor

/-! ## One step -/

namespace TagEntry

variable {pairs : PairTable} {e : TagEntry} {token : Token} {rest : List Token} {r : Reading}

theorem read_optional (hu : r.unread = token :: rest) (hm : e.mode = .optional)
    (hit : e.hits token = false) : e.read pairs r = .passed r.refuse := by
  simp [read, hu, hm, hit]

theorem read_hit (hu : r.unread = token :: rest)
    (hm : e.mode = .optional ∨ e.mode = .mandatory ∨ e.mode = .collect)
    (hit : e.hits token = true) : e.read pairs r = .passed r.take := by
  rcases hm with hm | hm | hm <;> simp [read, hu, hm, hit, collectFrom, Reading.take]

theorem read_drop (hu : r.unread = token :: rest) (hm : e.mode = .collectDrop)
    (hit : e.hits token = true) : e.read pairs r = .passed r.leaveOut := by
  simp [read, hu, hm, hit, collectFrom, Reading.leaveOut]

/-- A collecting entry goes on after a token as if it began there. -/
theorem read_gather (hu : r.unread = token :: rest)
    (hm : e.mode = .collect ∨ e.mode = .collectDrop) (hit : e.hits token = false) :
    e.read pairs r = e.read pairs r.take := by
  cases rest <;> rcases hm with hm | hm <;> simp [read, hu, hm, hit, collectFrom, Reading.take]

theorem read_miss (hu : r.unread = token :: rest) (hm : e.mode = .mandatory ∨ e.mode = .complete)
    (hit : e.hits token = false) : e.read pairs r = .failed r.next rest := by
  rcases hm with hm | hm <;> simp [read, hu, hm, hit]

theorem read_opener {closer : Tag} (hu : r.unread = token :: rest) (hm : e.mode = .complete)
    (hit : e.hits token = true) (hcl : pairs.closer? e.target = some closer) :
    e.read pairs r = e.resume pairs (some ⟨closer, 1⟩) r.take := by
  simp [read, hu, hm, hit, hcl, resume, Reading.take]

/-- A token inside a region leaves the depth that an automaton gives it. -/
theorem resume_inside (pairs : PairTable) (e : TagEntry) {region : Region}
    (hd : 0 < region.depth) (hu : r.unread = token :: rest) :
    e.resume pairs (some region) r
      = if region.depthAfter e token pairs = 0 then .passed r.take
        else e.resume pairs
          (some { region with depth := region.depthAfter e token pairs }) r.take := by
  simp only [resume, hu, regionFrom, Region.depthAfter, Reading.take, List.tail_cons]
  by_cases hc : token.tag.meets region.closer = true
  · simp only [hc, if_true]
    by_cases h1 : region.depth ≤ 1
    · rw [if_pos h1, if_pos (by omega)]
    · rw [if_neg h1, if_neg (by omega)]
  · rw [if_neg hc, if_neg hc]
    by_cases ho : (e.hits token || pairs.closer? token.tag == some region.closer) = true
    · rw [if_pos ho, if_pos ho, if_neg (Nat.succ_ne_zero _)]
    · rw [if_neg ho, if_neg ho, if_neg (Nat.ne_of_gt hd)]

theorem resume_from (pairs : PairTable) (e : TagEntry) (region : Option Region) (r : Reading) :
    (e.resume pairs region r).From r := by
  cases region with
  | none => exact e.read_from pairs r
  | some region =>
    rcases regionFrom_from (e := e) rfl with hw | ⟨r', hp, hlt, -, hlen⟩
    · rw [resume, hw]; trivial
    · rw [resume, hp]; exact ⟨Nat.le_of_lt hlt, hlen⟩

end TagEntry

/-- When the entry at a position comes to the same verdict from a later token, the pattern does. -/
theorem Cursor.read_consume {pairs : PairTable} {e : TagEntry} {here : Frame} {outer : List Frame}
    {region region' : Option Region} {r r' : Reading} (hlt : r.next < r'.next)
    (he : e.resume pairs region r = e.resume pairs region' r') :
    (on e here outer).read pairs region r = (on e here outer).consume.read pairs region' r' := by
  have hv := (e.resume_from pairs region' r').andThen (here.rest.read_from pairs)
  rw [read, he, Verdict.leave_consume hlt hv]
  rfl

/-- When the entry at a position is done with after a token, the next position follows. -/
theorem Cursor.read_done {pairs : PairTable} {e : TagEntry} {here : Frame} {outer : List Frame}
    {region : Option Region} {r r' : Reading} (hlt : r.next < r'.next)
    (he : e.resume pairs region r = .passed r') :
    (on e here outer).read pairs region r
      = (on e here outer).consume.advance.read pairs none r' := by
  rw [read, he]
  show (here.rest.read pairs r').leave pairs r here.place outer = _
  rw [Verdict.leave_consume hlt (here.rest.read_from pairs r'), ← Verdict.leave_next]
  exact (read_settle pairs here.place.consume.next here.rest _ r').symm

theorem Cursor.read_pass {pairs : PairTable} {c : Cursor} {e : TagEntry}
    (hc : c.current? = some e) {r : Reading} (he : e.read pairs r = .passed r.refuse) :
    c.read pairs none r = c.advance.read pairs none r.refuse := by
  obtain ⟨here, outer, rfl⟩ := exists_on hc
  have hadv := read_settle pairs here.place.next here.rest outer r.refuse
  rw [Verdict.leave_next, Verdict.leave_refuse] at hadv
  rw [read, TagEntry.resume, he]
  exact hadv.symm

/-- A miss leaves the position that the cursor skips to, if there is one. -/
theorem Cursor.read_miss {pairs : PairTable} {c : Cursor} {e : TagEntry}
    (hc : c.current? = some e) {r : Reading} {after : List Token}
    (he : e.read pairs r = .failed r.next after) :
    c.read pairs none r
      = match c.skip? with
        | some d => d.read pairs none r.refuse
        | none => .failed r.next after := by
  obtain ⟨here, outer, rfl⟩ := exists_on hc
  rw [read, TagEntry.resume, he]
  exact leave_failed r here.place after outer

theorem Cursor.read_waiting {pairs : PairTable} {c : Cursor} {e : TagEntry}
    (hc : c.current? = some e) {region : Option Region} {r : Reading}
    (he : e.resume pairs region r = .waiting) : c.read pairs region r = .waiting := by
  obtain ⟨here, outer, rfl⟩ := exists_on hc
  rw [read, he]
  cases outer <;> rfl

namespace Automaton

/-- The attempt as the recursive matcher sees it. -/
def reading (a : Automaton) (refused : Bool) (i : Nat) (tokens : List Token) : Reading :=
  ⟨i, tokens, a.attempt.buffer.toList, refused⟩

/-- What the automaton has completed and what the matcher records from here on. -/
def outlook (pairs : PairTable) (a : Automaton) (refused : Bool) (i : Nat) (tokens : List Token) :
    List (List Nat) :=
  a.completed.toList ++ (a.attempt.cursor.read pairs a.attempt.region
    (a.reading refused i tokens)).outcome pairs a.pattern

def outlookAfter (pairs : PairTable) (x : Automaton × Move) (i : Nat) (token : Token)
    (rest : List Token) : List (List Nat) :=
  match x.2 with
  | .next => x.1.outlook pairs false (i + 1) rest
  | .again => x.1.outlook pairs true i (token :: rest)
  | .mismatch _ => x.1.outlook pairs false i (token :: rest)

variable {pairs : PairTable} {a : Automaton}

theorem outlook_restart (pairs : PairTable) (hne : a.pattern.entries ≠ []) (i : Nat)
    (tokens : List Token) :
    a.restart.outlook pairs false i tokens
      = a.completed.toList ++ a.pattern.recordsFrom pairs i tokens := by
  rw [Pattern.recordsFrom_eq hne]
  exact congrArg (fun v => _ ++ Verdict.outcome pairs a.pattern v)
    (Cursor.read_start a.pattern _)

/-- A completed attempt is recorded, and a new one begins. -/
theorem outlook_complete (pairs : PairTable) (hne : a.pattern.entries ≠ []) (i : Nat)
    (tokens : List Token) :
    a.complete.outlook pairs false i tokens
      = a.completed.toList ++ ((Verdict.passed (a.reading false i tokens)).record
          ++ a.pattern.recordsFrom pairs i tokens) := by
  have h := outlook_restart pairs (a := a.complete) hne i tokens
  have hstored : a.complete.completed.toList
      = a.completed.toList ++ (Verdict.passed (a.reading false i tokens)).record := by
    by_cases hb : a.attempt.buffer = #[]
    · simp [complete, Verdict.record, reading, hb]
    · simp [complete, Verdict.record, reading, hb]
  rw [hstored, List.append_assoc] at h
  exact h

/-- A move of the cursor leaves the outlook of the position it moves to. -/
theorem outlook_moveTo (hne : a.pattern.entries ≠ []) (ho : a.attempt.inside = false)
    (cursor : Cursor) (used : Bool) (i : Nat) (token : Token) (rest : List Token) :
    outlookAfter pairs (a.moveTo cursor used) i token rest
      = a.completed.toList ++ (cursor.read pairs none
          (if used then a.reading false (i + 1) rest
            else a.reading true i (token :: rest))).outcome pairs a.pattern := by
  rcases a.moveTo_cases cursor used with ⟨hp, h⟩ | ⟨-, h⟩ <;> rw [h]
  · cases cursor with
    | on e here outer => cases hp
    | past place =>
      have hc := outlook_complete pairs
        (a := { a with attempt := { a.attempt with cursor := .past place } }) hne (i + 1) rest
      cases used <;> exact hc
  · have hr : ({ a.attempt with cursor } : Attempt).region = none := Attempt.region_of_outside ho
    cases used <;> simp only [outlookAfter, outlook, hr] <;> rfl

/-- A miss passes over a group, or ends the attempt and leaves the token behind. -/
theorem outlook_miss (hne : a.pattern.entries ≠ []) (ho : a.attempt.inside = false)
    {e : TagEntry} (hc : a.attempt.cursor.current? = some e) (refused : Bool) {i : Nat}
    {token : Token} {rest : List Token}
    (he : e.read pairs (a.reading refused i (token :: rest)) = .failed i rest) :
    a.outlook pairs refused i (token :: rest) = outlookAfter pairs a.miss i token rest := by
  rw [outlook, Attempt.region_of_outside ho, Cursor.read_miss hc he, miss]
  cases a.attempt.cursor.skip? with
  | some c => exact (outlook_moveTo hne ho c false i token rest).symm
  | none => exact (outlook_restart pairs hne (i + 1) rest).symm

/-- A token taken or left out, after which the entry is done with. -/
theorem outlook_done (hne : a.pattern.entries ≠ []) {b : Automaton} {i : Nat} {token : Token}
    {rest : List Token} {refused : Bool} (hp : b.pattern = a.pattern)
    (hdone : b.completed = a.completed) (hb : b.attempt.cursor = a.attempt.cursor.consume)
    (ho : b.attempt.inside = false) {e : TagEntry} (hc : a.attempt.cursor.current? = some e)
    (he : e.resume pairs a.attempt.region (a.reading refused i (token :: rest))
      = .passed (b.reading false (i + 1) rest)) :
    a.outlook pairs refused i (token :: rest)
      = outlookAfter pairs (b.advance true) i token rest := by
  rw [advance, outlook_moveTo (hp ▸ hne) ho, hp, hdone, hb, outlook]
  obtain ⟨here, outer, hcur⟩ := Cursor.exists_on hc
  rw [hcur, Cursor.read_done (Nat.lt_succ_self i) he]
  rfl

theorem outlook_more {b : Automaton} {i : Nat} {token : Token} {rest : List Token}
    {refused : Bool} (hp : b.pattern = a.pattern) (hdone : b.completed = a.completed)
    (hb : b.attempt.cursor = a.attempt.cursor.consume) {e : TagEntry}
    (hc : a.attempt.cursor.current? = some e)
    (he : e.resume pairs a.attempt.region (a.reading refused i (token :: rest))
      = e.resume pairs b.attempt.region (b.reading false (i + 1) rest)) :
    a.outlook pairs refused i (token :: rest) = b.outlook pairs false (i + 1) rest := by
  rw [outlook, outlook, hp, hdone, hb]
  obtain ⟨here, outer, hcur⟩ := Cursor.exists_on hc
  rw [hcur, Cursor.read_consume (Nat.lt_succ_self i) he]

theorem reading_consume (a : Automaton) (refused : Bool) (i : Nat) (token : Token)
    (rest : List Token) :
    (a.consume i).reading false (i + 1) rest = (a.reading refused i (token :: rest)).take := by
  simp [reading, consume, Reading.take]

/-- Every step keeps the outlook. -/
theorem StepRule.outlook {e : TagEntry} {i : Nat} {token : Token} {x : Automaton × Move}
    (h : StepRule a e i token pairs x) (hs : a.Sound) (hne : a.pattern.entries ≠ [])
    (hg : e.guard = none) (hc : a.attempt.cursor.current? = some e) (refused : Bool)
    (rest : List Token) :
    a.outlook pairs refused i (token :: rest) = outlookAfter pairs x i token rest := by
  have outside (hm : e.mode ≠ .complete) : a.attempt.inside = false := hs.outside hc hm
  have htake := a.reading_consume refused i token rest
  have hu : (a.reading refused i (token :: rest)).unread = token :: rest := rfl
  cases h with
  | trip ht =>
    -- without a guard nothing trips
    simp [trips, TagEntry.guardHolds, hg] at ht
  | pass _ hm hit =>
    have ho := outside (by rw [hm]; decide)
    rw [advance, outlook_moveTo hne ho, Automaton.outlook, Attempt.region_of_outside ho,
      Cursor.read_pass hc (TagEntry.read_optional hu hm hit)]
    rfl
  | take _ hm hit =>
    have ho := outside (by rcases hm with hm | hm | hm <;> rw [hm] <;> decide)
    refine outlook_done hne (b := a.consume i) rfl rfl rfl ho hc ?_
    rw [htake, Attempt.region_of_outside ho]
    exact TagEntry.read_hit hu hm hit
  | drop _ hm hit =>
    have ho := outside (by rw [hm]; decide)
    refine outlook_done hne (b := a.leaveOut) rfl rfl rfl ho hc ?_
    rw [Attempt.region_of_outside ho]
    exact TagEntry.read_drop hu hm hit
  | gather _ hm hit =>
    have ho := outside (by rcases hm with hm | hm <;> rw [hm] <;> decide)
    refine outlook_more (b := a.consume i) rfl rfl rfl hc ?_
    rw [htake, Attempt.region_of_outside (t := (a.consume i).attempt) ho,
      Attempt.region_of_outside ho]
    exact TagEntry.read_gather hu hm hit
  | miss _ hm hit =>
    have ho : a.attempt.inside = false := by
      rcases hm with hm | ⟨-, ho⟩
      · exact outside (by rw [hm]; decide)
      · exact ho
    exact outlook_miss hne ho hc refused
      (TagEntry.read_miss hu (hm.imp_right And.left) hit)
  | enter _ hm ho hit hcl =>
    refine outlook_more (b := (a.enterRegion _ i).consume i) rfl rfl rfl hc ?_
    rw [Attempt.region_of_outside ho]
    exact (TagEntry.read_opener hu hm hit hcl).trans (congrArg _ htake.symm)
  | inside _ hm hin =>
    obtain ⟨region, hr⟩ := hs.exists_region hin
    have hread := e.resume_inside pairs (hs.region hr).1 hu
    rw [← hr, ← depthAfter_eq hr] at hread
    rcases a.takeInside_cases e i token pairs with ⟨h0, h⟩ | ⟨h0, h⟩ <;> rw [h]
    · rw [if_pos h0, ← htake] at hread
      exact outlook_done hne (b := ((a.consume i).setDepth 0).leaveRegion) rfl rfl rfl rfl hc
        hread
    · have hopen : ((a.consume i).setDepth (a.depthAfter e token pairs)).attempt.region
          = some { region with depth := a.depthAfter e token pairs } :=
        region_setDepth (a := a.consume i) hr _
      rw [if_neg (Nat.ne_of_gt h0), ← htake, ← hopen] at hread
      exact outlook_more (b := (a.consume i).setDepth _) rfl rfl rfl hc hread

/-- With an entry in the pattern and no guards, a step that succeeds keeps the outlook. -/
theorem outlook_step {x : Automaton × Move} (hs : a.Sound) (hne : a.pattern.entries ≠ [])
    (hg : ∀ e ∈ a.pattern.entries, e.guard = none) (refused : Bool) {i : Nat} {token : Token}
    {rest : List Token} (h : a.step i token pairs = .ok x) :
    a.outlook pairs refused i (token :: rest) = outlookAfter pairs x i token rest := by
  rcases step_rule h with ⟨hc, -, -⟩ | ⟨e, hc, hr⟩
  · exact absurd (hs.entries_eq_nil hc) hne
  · exact hr.outlook hs hne (hg e (hs.current_mem hc)) hc refused rest

/-! ## Streams -/

/-- Where there are no guards and each opener has its closer, feeding succeeds without a report
and keeps the outlook. -/
theorem outlook_run (hs : a.Sound) (hne : a.pattern.entries ≠ [])
    (hg : ∀ e ∈ a.pattern.entries, e.guard = none)
    (hcl : ∀ e ∈ a.pattern.entries, e.mode = .complete → (pairs.closer? e.target).isSome)
    (refused : Bool) (i : Nat) (token : Token) (rest : List Token) :
    (a.run i token pairs).2 = .ok none ∧
      a.outlook pairs refused i (token :: rest)
        = (a.run i token pairs).1.outlook pairs false (i + 1) rest := by
  fun_induction run a i token pairs generalizing refused with
  | case1 a err h =>
    obtain ⟨e, hc, -, hm, -, -, hnone, -⟩ := step_error_iff.mp h
    have hsome := hcl e (hs.current_mem hc) hm
    rw [hnone] at hsome
    cases hsome
  | case2 a b h => exact ⟨rfl, outlook_step hs hne hg refused h⟩
  | case3 a b tag h =>
    obtain ⟨e, hc, ht, -⟩ := step_mismatch h
    rw [trips, TagEntry.guardHolds, hg e (hs.current_mem hc), Bool.and_false] at ht
    cases ht
  | case4 a b h ih =>
    -- from here on the token counts as refused
    have hp : b.pattern = a.pattern := (sameMachine_step h).2.2
    obtain ⟨hok, hout⟩ := ih (sound_step hs h) (hp ▸ hne) (hp ▸ hg) (hp ▸ hcl) true
    exact ⟨hok, (outlook_step hs hne hg refused h).trans hout⟩

theorem outlook_nil (hs : a.Sound) (hne : a.pattern.entries ≠ []) (i : Nat) :
    a.outlook pairs false i [] = a.completed.toList := by
  cases hc : a.attempt.cursor.current? with
  | none => exact absurd (hs.entries_eq_nil hc) hne
  | some e =>
    have hwait : e.resume pairs a.attempt.region (a.reading false i []) = .waiting := by
      cases a.attempt.region <;> rfl
    rw [outlook, Cursor.read_waiting hc hwait]
    exact List.append_nil _

/-- The automaton after tokens fed in order, the first with index `i`, and what each feed gives. -/
def feedStream (pairs : PairTable) (a : Automaton) (i : Nat) :
    List Token → Automaton × List (Except PatternError (Option Mismatch))
  | [] => (a, [])
  | token :: rest =>
      let (b, result) := a.feed i token pairs
      let (c, results) := feedStream pairs b (i + 1) rest
      (c, result :: results)

theorem sameMachine_feedStream (pairs : PairTable) (a : Automaton) (i : Nat)
    (tokens : List Token) : a.SameMachine (a.feedStream pairs i tokens).1 := by
  induction tokens generalizing a i with
  | nil => exact ⟨rfl, rfl, rfl⟩
  | cons token rest ih => exact (sameMachine_feed a i token pairs).trans (ih _ (i + 1))

theorem outlook_feedStream (pairs : PairTable) (hs : a.Sound) (hne : a.pattern.entries ≠ [])
    (hg : ∀ e ∈ a.pattern.entries, e.guard = none)
    (hcl : ∀ e ∈ a.pattern.entries, e.mode = .complete → (pairs.closer? e.target).isSome)
    (i : Nat) (tokens : List Token) :
    (a.feedStream pairs i tokens).1.completed.toList = a.outlook pairs false i tokens ∧
      (a.feedStream pairs i tokens).2 = List.replicate tokens.length (.ok none) := by
  induction tokens generalizing a i with
  | nil => exact ⟨(outlook_nil hs hne i).symm, rfl⟩
  | cons token rest ih =>
    obtain ⟨hok, hout⟩ := outlook_run hs hne hg hcl false i token rest
    have hp : (a.run i token pairs).1.pattern = a.pattern := (sameMachine_run a i token pairs).2.2
    obtain ⟨hdone, hres⟩ :=
      ih (sound_run hs i token pairs) (hp ▸ hne) (hp ▸ hg) (hp ▸ hcl) (i + 1)
    rw [feedStream, feed_of_run (Prod.ext rfl hok)]
    exact ⟨hdone.trans hout.symm, congrArg _ hres⟩

/-- The automaton refines the recursive matcher: with an entry in the pattern, no guards and a
closer for each opener, feeding a stream to a new automaton never fails or reports, and what is
completed at its end, as at the end of every prefix, is what the matcher records. -/
theorem completed_feedStream (name : String) (tag : Tag) (p : Pattern) (pairs : PairTable)
    (hne : p.entries ≠ []) (hg : ∀ e ∈ p.entries, e.guard = none)
    (hcl : ∀ e ∈ p.entries, e.mode = .complete → (pairs.closer? e.target).isSome)
    (tokens : List Token) (n : Nat) :
    ((new name tag p).feedStream pairs 0 (tokens.take n)).1.completed.toList
        = p.records pairs (tokens.take n) ∧
      ((new name tag p).feedStream pairs 0 (tokens.take n)).2
        = List.replicate (tokens.take n).length (.ok none) := by
  obtain ⟨hdone, hres⟩ := outlook_feedStream pairs (a := new name tag p)
    (Attempt.Sound.fresh p) hne hg hcl 0 (tokens.take n)
  exact ⟨hdone.trans (outlook_restart pairs (a := new name tag p) hne 0 _), hres⟩

/-- A pattern with an optional group, a group in it and an entry for regions. -/
def nestedPattern : Pattern :=
  ((Pattern.nil.must (Tag.of 1)).maybe
    ((Pattern.nil.can (Tag.of 2)).nest (Pattern.nil.must (Tag.of 3)))).complete (Tag.of 4)

def nestedPairs : PairTable := ⟨[(Tag.of 4, Tag.of 5)]⟩

/-- Two matches of `nestedPattern`: the optional group is absent from the first one. -/
def nestedTokens : List Token :=
  [1, 4, 9, 4, 5, 5, 1, 2, 3, 4, 5].map fun value => { tag := Tag.of value, text := [], span := {} }

theorem completed_feedStream_nestedPattern :
    ((new "nested" Tag.generic nestedPattern).feedStream nestedPairs 0
        (nestedTokens.take 11)).1.completed.toList
        = nestedPattern.records nestedPairs (nestedTokens.take 11) ∧
      ((new "nested" Tag.generic nestedPattern).feedStream nestedPairs 0 (nestedTokens.take 11)).2
        = List.replicate 11 (.ok none) := by
  have hall : ∀ e ∈ nestedPattern.entries, e.guard = none ∧
      (e.mode = .complete → (nestedPairs.closer? e.target).isSome) := by
    intro e he
    have hlist : nestedPattern.entries = [⟨Tag.of 1, .mandatory, none⟩,
        ⟨Tag.of 2, .optional, none⟩, ⟨Tag.of 3, .mandatory, none⟩,
        ⟨Tag.of 4, .complete, none⟩] := rfl
    simp only [hlist, List.mem_cons, List.not_mem_nil, or_false] at he
    rcases he with rfl | rfl | rfl | rfl <;> exact ⟨rfl, by decide⟩
  exact completed_feedStream "nested" Tag.generic nestedPattern nestedPairs (by decide)
    (fun e he => (hall e he).1) (fun e he => (hall e he).2) nestedTokens 11

example :
    ((new "nested" Tag.generic nestedPattern).feedStream nestedPairs 0
      nestedTokens).1.completed.toList = [[0, 1, 2, 3, 4, 5], [6, 7, 8, 9, 10]] := by
  cbv

end Automaton

end TagLayers
