import TagLayers.Proofs.Grouping.Scans
import TagLayers.Proofs.Pattern.Calls
import TagLayers.Proofs.Pattern.Simulation

/-!
# Streams

An automaton that has a scan to itself is reset and fed the stream, and its stream is ended, unless
it is stopped by a fault on the way. All indices that it keeps and that its reports name are
indices of tokens of the stream. When all automata of a scan have come to an end, each is where it
would be on its own.

Results:
1. `Lane.alone_cases`, `Lane.alone_of_ended`: what an automaton on its own comes to and reports.
2. `Lane.alone_kept`: the indices that it keeps and reports.
3. `Grouper.lanes_of_halted`: the automata at the end of a scan.
4. `Grouper.not_stopped`: where each opener has a closer there are no faults.
-/

namespace TagLayers

namespace Automaton

/-- The matches of an automaton that has a stream to itself, each the indices of its tokens. -/
def runs (pairs : PairTable) (tokens : List Token) (a : Automaton) : List (List Nat) :=
  (a.reset.feedStream pairs 0 tokens).1.finish.1.completed.toList

theorem feedStream_error (pairs : PairTable) {a : Automaton} (hs : a.Sound) (i : Nat)
    (tokens : List Token) {fault : PatternError}
    (h : .error fault ∈ (a.feedStream pairs i tokens).2) :
    ∃ entry ∈ a.pattern.entries, entry.mode = .complete ∧ pairs.closer? entry.target = none ∧
      fault = .undefinedCloser a.name entry.target := by
  induction tokens generalizing a i with
  | nil => cases h
  | cons token rest ih =>
    obtain ⟨hname, -, hpattern⟩ := sameMachine_feed a i token pairs
    rcases List.mem_cons.mp h with h | h
    · exact feed_error hs h.symm
    · rw [← hname, ← hpattern]
      exact ih (sound_feed hs i token pairs) (i + 1) h

/-- A region that is still open has been opened by a token of the attempt. -/
theorem opener_mem_of_finish {a : Automaton} (ht : a.Tidy) {u : Unterminated}
    (h : a.finish.2 = some u) : u.opener ∈ a.attempt.buffer.toList := by
  rw [finish] at h
  split at h
  · next hin =>
    cases h
    exact ht.opener hin
  · split at h <;> cases h

end Automaton

/-- The mismatches among what calls have given. -/
def mismatches (results : List (Except PatternError (Option Mismatch))) : List Mismatch :=
  results.filterMap (·.toOption.join)

namespace Lane

variable {pairs : PairTable} {tokens : List Token}

/-- From its next token on, a lane feeds what is left of the stream and ends it, or it is stopped
by the fault of one of the tokens. -/
theorem moves_reading (a : Automaton) {i : Nat} {rest : List Token} (hrest : tokens.drop i = rest) :
    ((∀ r ∈ (a.feedStream pairs i rest).2, ∃ m, r = .ok m) ∧
      moves pairs tokens (rest.length + 1) ⟨a, .reading i⟩
        = (⟨(a.feedStream pairs i rest).1.finish.1, .ended⟩,
            (mismatches (a.feedStream pairs i rest).2).map Report.mismatch
              ++ ((a.feedStream pairs i rest).1.finish.2.map Report.unterminated).toList)) ∨
    ∃ fault, .error fault ∈ (a.feedStream pairs i rest).2 ∧
      (moves pairs tokens (rest.length + 1) ⟨a, .reading i⟩).1.phase = .stopped fault := by
  induction rest generalizing a i with
  | nil =>
    have hnone : tokens[i]? = none := List.getElem?_eq_none (List.drop_eq_nil_iff.mp hrest)
    refine .inl ⟨List.forall_mem_nil _, ?_⟩
    have hmoves : moves pairs tokens 1 ⟨a, .reading i⟩
        = ((move pairs tokens ⟨a, .reading i⟩).1, (move pairs tokens ⟨a, .reading i⟩).2 ++ []) :=
      rfl
    rw [List.length_nil, hmoves, move_finish pairs hnone, List.append_nil]
    rfl
  | cons token rest ih =>
    have hsome : tokens[i]? = some token := by
      rw [← List.head?_drop, hrest]
      rfl
    have hdrop : tokens.drop (i + 1) = rest := by
      rw [← List.tail_drop, hrest]
      rfl
    have hmoves : moves pairs tokens (rest.length + 1 + 1) ⟨a, .reading i⟩
        = ((moves pairs tokens (rest.length + 1) (move pairs tokens ⟨a, .reading i⟩).1).1,
            (move pairs tokens ⟨a, .reading i⟩).2 ++
              (moves pairs tokens (rest.length + 1) (move pairs tokens ⟨a, .reading i⟩).1).2) :=
      rfl
    cases hfeed : a.feed i token pairs with
    | mk b result =>
      have hstream : a.feedStream pairs i (token :: rest)
          = ((b.feedStream pairs (i + 1) rest).1,
              result :: (b.feedStream pairs (i + 1) rest).2) := by
        rw [Automaton.feedStream, hfeed]
      rw [List.length_cons, hmoves, hstream]
      cases result with
      | error fault =>
        refine .inr ⟨fault, List.mem_cons_self, ?_⟩
        rw [move_fault hsome hfeed, moves_of_halted (halted_of_stopped rfl)]
      | ok mismatch =>
        rw [move_feed hsome hfeed]
        rcases ih b hdrop with ⟨hok, hmoved⟩ | ⟨fault, hfault, hmoved⟩
        · refine .inl ⟨List.forall_mem_cons.mpr ⟨⟨mismatch, rfl⟩, hok⟩, ?_⟩
          dsimp only
          rw [hmoved]
          cases mismatch <;> rfl
        · exact .inr ⟨fault, List.mem_cons_of_mem _ hfault, hmoved⟩

/-- An automaton that has a scan to itself has been fed the whole stream, which has then been
ended, or it has been stopped by the fault of a token. -/
theorem alone_cases (pairs : PairTable) (tokens : List Token) (a : Automaton) :
    ((∀ r ∈ (a.reset.feedStream pairs 0 tokens).2, ∃ m, r = .ok m) ∧
      alone pairs tokens a
        = (⟨(a.reset.feedStream pairs 0 tokens).1.finish.1, .ended⟩,
            (mismatches (a.reset.feedStream pairs 0 tokens).2).map Report.mismatch
              ++ ((a.reset.feedStream pairs 0 tokens).1.finish.2.map
                Report.unterminated).toList)) ∨
    ∃ fault, .error fault ∈ (a.reset.feedStream pairs 0 tokens).2 ∧
      (alone pairs tokens a).1.phase = .stopped fault :=
  moves_reading a.reset List.drop_zero

theorem alone_of_ended {a : Automaton} (h : (alone pairs tokens a).1.phase = .ended) :
    (∀ r ∈ (a.reset.feedStream pairs 0 tokens).2, ∃ m, r = .ok m) ∧
      (alone pairs tokens a).1.automaton = (a.reset.feedStream pairs 0 tokens).1.finish.1 := by
  rcases alone_cases pairs tokens a with ⟨hok, halone⟩ | ⟨fault, -, hstop⟩
  · exact ⟨hok, by rw [halone]⟩
  · cases h.symm.trans hstop

/-- It reports its mismatches in the order of the tokens, and then the region that is left open. -/
theorem reports_of_ended {a : Automaton} (h : (alone pairs tokens a).1.phase = .ended) :
    (alone pairs tokens a).2
      = (mismatches (a.reset.feedStream pairs 0 tokens).2).map Report.mismatch
          ++ ((a.reset.feedStream pairs 0 tokens).1.finish.2.map Report.unterminated).toList := by
  rcases alone_cases pairs tokens a with ⟨-, halone⟩ | ⟨fault, -, hstop⟩
  · rw [halone]
  · cases h.symm.trans hstop

/-- Where each opener of its pattern has a closer an automaton comes to the end of its stream. -/
theorem alone_ended_of_closers (tokens : List Token) {a : Automaton}
    (h : ∀ e ∈ a.pattern.entries, e.mode = .complete → (pairs.closer? e.target).isSome) :
    (alone pairs tokens a).1.phase = .ended := by
  rcases alone_cases pairs tokens a with ⟨-, halone⟩ | ⟨fault, hfault, -⟩
  · rw [halone]
  · have hs : a.reset.Sound := Automaton.sound_reset a
    obtain ⟨e, he, hm, hcl, -⟩ := Automaton.feedStream_error pairs hs 0 tokens hfault
    have hsome := h e he hm
    rw [hcl] at hsome
    cases hsome

/-! ## Indices -/

/-- The tokens that a lane has used are some of those that it has read. -/
def Kept (tokens : List Token) (lane : Lane) : Prop :=
  match lane.phase with
  | .idle => True
  | .reading i => lane.automaton.Tidy ∧ i ≤ tokens.length ∧
      lane.automaton.used.Sublist (List.range i)
  | .ended | .stopped _ => lane.automaton.Tidy ∧
      lane.automaton.used.Sublist (List.range tokens.length)

/-- A move keeps to the tokens read, and the token of each report is there. -/
theorem kept_move {lane : Lane} (h : lane.Kept tokens) :
    (lane.move pairs tokens).1.Kept tokens ∧
      ∀ r ∈ (lane.move pairs tokens).2, (r.diagnostic? tokens).isSome := by
  obtain ⟨a, phase⟩ := lane
  cases phase with
  | idle =>
    exact ⟨⟨Automaton.tidy_reset a, Nat.zero_le _, List.Sublist.refl _⟩, List.forall_mem_nil _⟩
  | ended | stopped => exact ⟨h, List.forall_mem_nil _⟩
  | reading i =>
    obtain ⟨htidy, hi, hused⟩ := h
    cases ht : tokens[i]? with
    | none =>
      have hlen : tokens.length = i := Nat.le_antisymm (List.getElem?_eq_none_iff.mp ht) hi
      rw [move_finish pairs ht]
      refine ⟨⟨Automaton.tidy_finish htidy, ?_⟩, fun r hr => ?_⟩
      · rw [hlen]
        exact (Automaton.used_finish a).trans hused
      · obtain ⟨u, hu, rfl⟩ := Option.map_eq_some_iff.mp (Option.mem_toList.mp hr)
        -- the token that opened the region has been used, so it has been read
        have hmem := hused.subset
          (List.mem_append_right _ (Automaton.opener_mem_of_finish htidy hu))
        rw [← hlen, List.mem_range] at hmem
        simp [Report.diagnostic?, hmem]
    | some token =>
      obtain ⟨hlt, -⟩ := List.getElem?_eq_some_iff.mp ht
      have htidy' := Automaton.tidy_feed htidy i token pairs
      have hused' : (a.feed i token pairs).1.used.Sublist (List.range (i + 1)) := by
        rw [List.range_succ]
        exact (Automaton.used_feed a i token pairs).trans (hused.append (List.Sublist.refl _))
      cases hfeed : a.feed i token pairs with
      | mk b result =>
        rw [hfeed] at htidy' hused'
        cases result with
        | error fault =>
          rw [move_fault ht hfeed]
          exact ⟨⟨htidy', hused'.trans (List.range_sublist.mpr hlt)⟩, List.forall_mem_nil _⟩
        | ok mismatch =>
          rw [move_feed ht hfeed]
          refine ⟨⟨htidy', hlt, hused'⟩, fun r hr => ?_⟩
          obtain ⟨m, rfl, rfl⟩ := Option.map_eq_some_iff.mp (Option.mem_toList.mp hr)
          simp [Report.diagnostic?, (Automaton.feed_mismatch hfeed).2, hlt]

theorem kept_moves {lane : Lane} (h : lane.Kept tokens) (n : Nat) :
    (lane.moves pairs tokens n).1.Kept tokens ∧
      ∀ r ∈ (lane.moves pairs tokens n).2, (r.diagnostic? tokens).isSome := by
  induction n generalizing lane with
  | zero => exact ⟨h, List.forall_mem_nil _⟩
  | succ n ih =>
    have hmove : (lane.move pairs tokens).1.Kept tokens ∧ _ := kept_move h
    obtain ⟨hlast, hlater⟩ := ih hmove.1
    exact ⟨hlast, List.forall_mem_append.mpr ⟨hmove.2, hlater⟩⟩

/-- An automaton on its own keeps indices of tokens only, and the token of each report is there. -/
theorem alone_kept (pairs : PairTable) (tokens : List Token) (a : Automaton) :
    (alone pairs tokens a).1.Kept tokens ∧
      ∀ r ∈ (alone pairs tokens a).2, (r.diagnostic? tokens).isSome := by
  have hidle : Kept tokens ⟨a, .idle⟩ := trivial
  exact kept_moves hidle _

end Lane

/-! ## The automata of a scan -/

namespace Grouper

variable {g : Grouper} {tokens : List Token} {schedule : List Nat}

/-- A lane that has come to a halt is one of the automata on its own. -/
theorem exists_alone {lane : Lane} (hlane : lane ∈ (g.scanned tokens schedule).lanes)
    (hhalted : lane.Halted) : ∃ a ∈ g.automata, lane = (Lane.alone g.pairs tokens a).1 := by
  obtain ⟨k, hk, rfl⟩ := List.getElem_of_mem hlane
  have hlt : k < g.automata.length := by rwa [length_scanned] at hk
  exact ⟨g.automata[k], List.getElem_mem hlt,
    (Scan.lane_eq_alone (List.getElem?_eq_getElem hlt) (List.getElem?_eq_getElem hk) hhalted).1⟩

/-- When all lanes have come to a halt, they are the automata on their own. -/
theorem lanes_of_halted (h : ∀ lane ∈ (g.scanned tokens schedule).lanes, lane.Halted) :
    (g.scanned tokens schedule).lanes
      = g.automata.map fun a => (Lane.alone g.pairs tokens a).1 := by
  refine List.ext_getElem (by rw [length_scanned, List.length_map]) fun k hk hk' => ?_
  have hlt : k < g.automata.length := by rwa [length_scanned] at hk
  rw [List.getElem_map]
  exact (Scan.lane_eq_alone (List.getElem?_eq_getElem hlt) (List.getElem?_eq_getElem hk)
    (h _ (List.getElem_mem hk))).1

/-- Each opener of each pattern has a closer. -/
def Closed (g : Grouper) : Prop :=
  ∀ a ∈ g.automata, ∀ e ∈ a.pattern.entries, e.mode = .complete →
    (g.pairs.closer? e.target).isSome

/-- Where each opener has a closer no fault stops a scan. -/
theorem not_stopped (hg : g.Closed) {lane : Lane}
    (hlane : lane ∈ (g.scanned tokens schedule).lanes) (fault : PatternError) :
    lane.phase ≠ .stopped fault := by
  intro hstop
  obtain ⟨a, ha, rfl⟩ := exists_alone hlane (Lane.halted_of_stopped hstop)
  cases hstop.symm.trans (Lane.alone_ended_of_closers tokens (hg a ha))

end Grouper

end TagLayers
