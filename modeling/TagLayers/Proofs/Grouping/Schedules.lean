import TagLayers.Grouping.Grouper

/-!
# Schedules

The automata of a scan share the tokens and the pairs, which nothing changes, and the list of
reports, to which each adds. A lane is one automaton with what it still has to do: it is reset,
it is fed the tokens in order, and its stream is ended. A fault stops it. A schedule says which
lane makes the next move.

Results:
1. `Scan.run_lane`: after any schedule a lane is where its own moves alone have brought it, and
   has reported the same.
2. `Lane.halted_alone`, `Lane.moves_eq_of_halted`: a lane on its own comes to a halt, and there
   is one state in which it does.
3. `Scan.lane_eq_alone`: a lane that has come to a halt under a schedule is the lane on its own.
4. `Scan.log_perm`: lanes with the same reports make up the same log, but for the order.
-/

namespace TagLayers

/-- How far an automaton is in a scan. -/
inductive Phase where
  | idle
  /-- The token at an index is next, or else the end of the stream. -/
  | reading (next : Nat)
  | ended
  | stopped (fault : PatternError)
deriving DecidableEq, Repr

/-- An automaton in a scan. -/
structure Lane where
  automaton : Automaton
  phase : Phase := .idle

/-- What an automaton has to say. -/
inductive Report where
  | mismatch (m : Mismatch)
  | unterminated (u : Unterminated)
deriving DecidableEq, Repr

namespace Lane

variable (pairs : PairTable) (tokens : List Token)

/-- The lane has nothing left to do. -/
def Halted (lane : Lane) : Prop :=
  match lane.phase with
  | .idle | .reading _ => False
  | .ended | .stopped _ => True

/-- The next move of a lane and what it reports. -/
def move (lane : Lane) : Lane × List Report :=
  match lane.phase with
  | .idle => (⟨lane.automaton.reset, .reading 0⟩, [])
  | .reading i =>
      match tokens[i]? with
      | some token =>
          match lane.automaton.feed i token pairs with
          | (a, .error fault) => (⟨a, .stopped fault⟩, [])
          | (a, .ok mismatch) => (⟨a, .reading (i + 1)⟩, (mismatch.map Report.mismatch).toList)
      | none =>
          let (a, region) := lane.automaton.finish
          (⟨a, .ended⟩, (region.map Report.unterminated).toList)
  | .ended | .stopped _ => (lane, [])

def moves : Nat → Lane → Lane × List Report
  | 0, lane => (lane, [])
  | n + 1, lane =>
      let (next, reports) := lane.move pairs tokens
      let (last, later) := moves n next
      (last, reports ++ later)

/-- An automaton that has the scan to itself. -/
def alone (a : Automaton) : Lane × List Report :=
  moves pairs tokens (tokens.length + 2) ⟨a, .idle⟩

/-- How many moves are left at most. -/
def left (lane : Lane) : Nat :=
  match lane.phase with
  | .idle => tokens.length + 2
  | .reading i => tokens.length - i + 1
  | .ended | .stopped _ => 0

variable {pairs tokens}

theorem halted_of_ended {lane : Lane} (h : lane.phase = .ended) : lane.Halted := by
  rw [Halted, h]
  trivial

theorem halted_of_stopped {lane : Lane} {fault : PatternError} (h : lane.phase = .stopped fault) :
    lane.Halted := by
  rw [Halted, h]
  trivial

theorem move_of_halted {lane : Lane} (h : lane.Halted) : lane.move pairs tokens = (lane, []) := by
  obtain ⟨a, phase⟩ := lane
  cases phase with
  | idle | reading => cases h
  | ended | stopped => rfl

theorem move_fault {a b : Automaton} {i : Nat} {token : Token} {fault : PatternError}
    (ht : tokens[i]? = some token) (hf : a.feed i token pairs = (b, .error fault)) :
    move pairs tokens ⟨a, .reading i⟩ = (⟨b, .stopped fault⟩, []) := by
  simp [move, ht, hf]

theorem move_feed {a b : Automaton} {i : Nat} {token : Token} {mismatch : Option Mismatch}
    (ht : tokens[i]? = some token) (hf : a.feed i token pairs = (b, .ok mismatch)) :
    move pairs tokens ⟨a, .reading i⟩
      = (⟨b, .reading (i + 1)⟩, (mismatch.map Report.mismatch).toList) := by
  simp [move, ht, hf]

theorem move_finish (pairs : PairTable) {a : Automaton} {i : Nat} (ht : tokens[i]? = none) :
    move pairs tokens ⟨a, .reading i⟩
      = (⟨a.finish.1, .ended⟩, (a.finish.2.map Report.unterminated).toList) := by
  simp [move, ht]

theorem halted_of_left (tokens : List Token) {lane : Lane} (h : lane.left tokens = 0) :
    lane.Halted := by
  obtain ⟨a, phase⟩ := lane
  cases phase with
  | idle | reading => cases h
  | ended | stopped => trivial

theorem left_move (lane : Lane) :
    (lane.move pairs tokens).1.left tokens ≤ lane.left tokens - 1 := by
  obtain ⟨a, phase⟩ := lane
  cases phase with
  | idle => exact Nat.le_refl _
  | reading i =>
    cases hi : tokens[i]? with
    | none =>
      rw [move_finish pairs hi]
      exact Nat.zero_le _
    | some token =>
      obtain ⟨hlt, -⟩ := List.getElem?_eq_some_iff.mp hi
      match hf : a.feed i token pairs with
      | (b, .error fault) =>
        rw [move_fault hi hf]
        exact Nat.zero_le _
      | (b, .ok mismatch) =>
        rw [move_feed hi hf]
        show tokens.length - (i + 1) + 1 ≤ tokens.length - i + 1 - 1
        omega
  | ended | stopped => exact Nat.zero_le _

theorem left_moves (n : Nat) (lane : Lane) :
    (lane.moves pairs tokens n).1.left tokens ≤ lane.left tokens - n := by
  induction n generalizing lane with
  | zero => exact Nat.le_refl _
  | succ n ih =>
    have hfirst : (lane.move pairs tokens).1.left tokens ≤ lane.left tokens - 1 := left_move lane
    have hlater := ih (lane.move pairs tokens).1
    show (moves pairs tokens n (lane.move pairs tokens).1).1.left tokens ≤ _
    omega

/-- On its own an automaton comes to the end of its stream or to a fault. -/
theorem halted_alone (pairs : PairTable) (tokens : List Token) (a : Automaton) :
    (alone pairs tokens a).1.Halted := by
  refine halted_of_left tokens (Nat.eq_zero_of_le_zero ?_)
  exact Nat.le_trans (left_moves _ _) (Nat.le_of_eq (Nat.sub_self _))

theorem moves_of_halted {lane : Lane} (h : lane.Halted) (n : Nat) :
    lane.moves pairs tokens n = (lane, []) := by
  induction n with
  | zero => rfl
  | succ n ih => simp [moves, move_of_halted h, ih]

theorem moves_add (m n : Nat) (lane : Lane) :
    lane.moves pairs tokens (m + n)
      = (((lane.moves pairs tokens m).1.moves pairs tokens n).1,
          (lane.moves pairs tokens m).2
            ++ ((lane.moves pairs tokens m).1.moves pairs tokens n).2) := by
  induction m generalizing lane with
  | zero => simp [moves]
  | succ m ih =>
    rw [Nat.succ_add]
    simp [moves, ih, List.append_assoc]

/-- Further moves of a lane that has come to a halt change nothing. -/
theorem moves_eq_of_le {lane : Lane} {m n : Nat} (hmn : m ≤ n)
    (h : (lane.moves pairs tokens m).1.Halted) :
    lane.moves pairs tokens n = lane.moves pairs tokens m := by
  obtain ⟨k, rfl⟩ := Nat.le.dest hmn
  rw [moves_add, moves_of_halted h]
  exact Prod.ext rfl (List.append_nil _)

/-- There is one state, and one row of reports, with which a lane comes to a halt. -/
theorem moves_eq_of_halted {lane : Lane} {m n : Nat} (hm : (lane.moves pairs tokens m).1.Halted)
    (hn : (lane.moves pairs tokens n).1.Halted) :
    lane.moves pairs tokens m = lane.moves pairs tokens n := by
  rcases Nat.le_total m n with h | h
  · exact (moves_eq_of_le h hm).symm
  · exact moves_eq_of_le h hn

end Lane

/-! ## Interleaving lanes -/

/-- The lanes of a scan and the reports of all of them, in the order in which they came. -/
structure Scan where
  lanes : List Lane
  log : List (Nat × Report) := []

namespace Scan

variable (pairs : PairTable) (tokens : List Token)

def start (automata : List Automaton) : Scan := { lanes := automata.map fun a => ⟨a, .idle⟩ }

/-- The lane at `k` makes its next move. -/
def move (s : Scan) (k : Nat) : Scan :=
  match s.lanes[k]? with
  | some lane =>
      let (next, reports) := lane.move pairs tokens
      ⟨s.lanes.set k next, s.log ++ reports.map (k, ·)⟩
  | none => s

/-- The lanes move in the order of a schedule. -/
def run (s : Scan) (schedule : List Nat) : Scan := schedule.foldl (move pairs tokens) s

def reports (s : Scan) (k : Nat) : List Report := (s.log.filter (·.1 == k)).map (·.2)

variable {pairs tokens} {s : Scan} {k : Nat} {lane : Lane}

theorem run_cons (j : Nat) (schedule : List Nat) :
    s.run pairs tokens (j :: schedule) = (s.move pairs tokens j).run pairs tokens schedule := rfl

theorem run_append (first later : List Nat) :
    s.run pairs tokens (first ++ later)
      = (s.run pairs tokens first).run pairs tokens later :=
  List.foldl_append

theorem length_move (j : Nat) : (s.move pairs tokens j).lanes.length = s.lanes.length := by
  unfold move
  split
  · exact List.length_set
  · rfl

theorem length_run (schedule : List Nat) :
    (s.run pairs tokens schedule).lanes.length = s.lanes.length := by
  induction schedule generalizing s with
  | nil => rfl
  | cons j schedule ih => rw [run_cons, ih, length_move]

/-- The move of a lane is its own, whatever the others have done. -/
theorem move_same (pairs : PairTable) (tokens : List Token) (h : s.lanes[k]? = some lane) :
    (s.move pairs tokens k).lanes[k]? = some (lane.move pairs tokens).1 ∧
      (s.move pairs tokens k).reports k = s.reports k ++ (lane.move pairs tokens).2 := by
  obtain ⟨hlt, -⟩ := List.getElem?_eq_some_iff.mp h
  have hmove : s.move pairs tokens k
      = ⟨s.lanes.set k (lane.move pairs tokens).1,
          s.log ++ (lane.move pairs tokens).2.map (k, ·)⟩ := by
    rw [move, h]
  rw [hmove]
  exact ⟨List.getElem?_set_self hlt, by simp [reports, List.filter_map, Function.comp_def]⟩

/-- The move of a lane is none of the others'. -/
theorem move_other (pairs : PairTable) (tokens : List Token) (s : Scan) {j : Nat} (hjk : j ≠ k) :
    (s.move pairs tokens j).lanes[k]? = s.lanes[k]? ∧
      (s.move pairs tokens j).reports k = s.reports k := by
  unfold move
  split
  · simp [reports, hjk, List.filter_map, Function.comp_def]
  · exact ⟨rfl, rfl⟩

/-- After a schedule each lane is where its own moves have brought it, and has reported what they
report. -/
theorem run_lane (pairs : PairTable) (tokens : List Token) (h : s.lanes[k]? = some lane)
    (schedule : List Nat) :
    (s.run pairs tokens schedule).lanes[k]?
        = some (lane.moves pairs tokens (schedule.count k)).1 ∧
      (s.run pairs tokens schedule).reports k
        = s.reports k ++ (lane.moves pairs tokens (schedule.count k)).2 := by
  induction schedule generalizing s lane with
  | nil => exact ⟨h, (List.append_nil _).symm⟩
  | cons j schedule ih =>
    rw [run_cons]
    -- the lane makes the first move itself, or does not notice it
    by_cases hjk : j = k
    · subst hjk
      obtain ⟨hlane, hreports⟩ := move_same pairs tokens h
      obtain ⟨ihl, ihr⟩ := ih hlane
      rw [List.count_cons_self, ihl, ihr, hreports, List.append_assoc]
      exact ⟨rfl, rfl⟩
    · obtain ⟨hlane, hreports⟩ := move_other pairs tokens s hjk
      rw [List.count_cons_of_ne hjk, ← hreports]
      exact ih (hlane.trans h)

/-- Where there is no lane nothing is reported. -/
theorem run_reports_of_none (h : s.lanes[k]? = none) (schedule : List Nat) :
    (s.run pairs tokens schedule).reports k = s.reports k := by
  induction schedule generalizing s with
  | nil => rfl
  | cons j schedule ih =>
    rw [run_cons]
    by_cases hjk : j = k
    · subst hjk
      have hmove : s.move pairs tokens j = s := by rw [move, h]
      rw [hmove, ih h]
    · obtain ⟨hlane, hreports⟩ := move_other pairs tokens s hjk
      rw [ih (hlane.trans h), hreports]

/-- Under every schedule a lane that has come to a halt is the automaton on its own, and so are
its reports. -/
theorem lane_eq_alone {automata : List Automaton} {a : Automaton} (ha : automata[k]? = some a)
    {schedule : List Nat}
    (hlane : ((start automata).run pairs tokens schedule).lanes[k]? = some lane)
    (hhalted : lane.Halted) :
    lane = (Lane.alone pairs tokens a).1 ∧
      ((start automata).run pairs tokens schedule).reports k = (Lane.alone pairs tokens a).2 := by
  have hstart : (start automata).lanes[k]? = some ⟨a, .idle⟩ := by simp [start, ha]
  obtain ⟨hl, hr⟩ := run_lane pairs tokens hstart schedule
  obtain rfl := Option.some.inj (hlane.symm.trans hl)
  -- the lane has halted after the moves that the schedule gives it, and on its own
  have halone := Lane.moves_eq_of_halted hhalted (Lane.halted_alone pairs tokens a)
  rw [hr, halone]
  exact ⟨rfl, rfl⟩

/-! ## The log -/

theorem filter_log (s : Scan) (k : Nat) :
    s.log.filter (·.1 == k) = (s.reports k).map (k, ·) := by
  rw [reports, List.map_map]
  symm
  refine (List.map_congr_left fun entry hentry => ?_).trans (List.map_id _)
  have hk : entry.1 = k := by simpa using (List.mem_filter.mp hentry).2
  rw [← hk]
  rfl

/-- Scans in which each lane has reported the same have the same log, but for the order. -/
theorem log_perm {s t : Scan} (h : ∀ k, s.reports k = t.reports k) : s.log.Perm t.log := by
  rw [List.perm_iff_count]
  rintro ⟨k, report⟩
  have hcount (u : Scan) :
      u.log.count (k, report) = ((u.reports k).map (k, ·)).count (k, report) := by
    rw [← filter_log, List.count_filter]
    exact beq_self_eq_true k
  rw [hcount s, hcount t, h k]

end Scan

end TagLayers
