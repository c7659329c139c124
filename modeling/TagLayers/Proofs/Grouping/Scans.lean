import TagLayers.Proofs.Grouping.Schedules
import TagLayers.Proofs.Pattern.Steps

/-!
# Scans are schedules

What a scan may come to is what its lanes come to under some schedule. When one of them is
stopped by a fault the scan may fail with that fault, whatever the others have done, and when all
have reached the end of their streams their matches are projected. A scan that runs groups of
automata one after the other follows a schedule of this kind, so scans in different groups differ
in the order of their diagnostics and nothing else.

Results:
1. `runGroups_lands`: groups of automata follow a schedule.
2. `outcome_scanIn`: so does a scan.
3. `scans_agree`: all outcomes of a scan agree.
-/

namespace TagLayers

/-- The warning for a report, if the token that it is about is there. -/
def Report.diagnostic? (tokens : List Token) : Report → Option Diagnostic
  | mismatch m => tokens[m.token]?.map (Grouper.mismatchWarning · m)
  | unterminated u => tokens[u.opener]?.map (Grouper.unterminatedWarning · u)

namespace Scan

def automata (s : Scan) : List Automaton := s.lanes.map (·.automaton)

def shown (tokens : List Token) (log : List (Nat × Report)) : List Diagnostic :=
  log.filterMap fun entry => entry.2.diagnostic? tokens

/-! ## Stretches of a schedule -/

/-- Some schedule brings the lanes `lanes` to `later`, with warnings `ds` on the way. -/
def Leads (pairs : PairTable) (tokens : List Token) (lanes : List Lane) (ds : List Diagnostic)
    (later : List Lane) : Prop :=
  ∀ log, ∃ schedule log', (⟨lanes, log⟩ : Scan).run pairs tokens schedule = ⟨later, log'⟩ ∧
    shown tokens log' = shown tokens log ++ ds

variable {pairs : PairTable} {tokens : List Token}

theorem Leads.refl (lanes : List Lane) : Leads pairs tokens lanes [] lanes :=
  fun log => ⟨[], log, rfl, (List.append_nil _).symm⟩

theorem Leads.trans {lanes later last : List Lane} {ds es : List Diagnostic}
    (h1 : Leads pairs tokens lanes ds later) (h2 : Leads pairs tokens later es last) :
    Leads pairs tokens lanes (ds ++ es) last := by
  intro log
  obtain ⟨schedule1, log1, hrun1, hshown1⟩ := h1 log
  obtain ⟨schedule2, log2, hrun2, hshown2⟩ := h2 log1
  refine ⟨schedule1 ++ schedule2, log2, ?_, ?_⟩
  · rw [run_append, hrun1, hrun2]
  · rw [hshown2, hshown1, List.append_assoc]

theorem Leads.lane {lane next : Lane} {reports : List Report}
    (h : lane.move pairs tokens = (next, reports)) (before after : List Lane) :
    Leads pairs tokens (before ++ lane :: after) (reports.filterMap (·.diagnostic? tokens))
      (before ++ next :: after) := by
  intro log
  refine ⟨[before.length], log ++ reports.map (before.length, ·), ?_, ?_⟩
  · simp [run, move, h]
  · rw [shown, List.filterMap_append, List.filterMap_map]
    rfl

/-- The lanes move on as `p` says: those before and after are left alone, and those of the
automata in `p` are in the phase `phase`, unless one of the lanes is stopped by the fault. -/
def Lands (pairs : PairTable) (tokens : List Token) (lanes before after : List Lane)
    (p : Progress) (phase : Phase) : Prop :=
  match p.fault with
  | none => Leads pairs tokens lanes p.emitted (before ++ p.automata.map (⟨·, phase⟩) ++ after)
  | some fault => ∃ later, Leads pairs tokens lanes p.emitted later ∧
      later.map (·.automaton)
        = before.map (·.automaton) ++ p.automata ++ after.map (·.automaton) ∧
      ∃ lane ∈ later, lane.phase = .stopped fault

variable {lanes later before after : List Lane} {phase : Phase}

/-- A stretch of a schedule, after which some lanes are in the phase, and the rest of it. -/
theorem Lands.prepend {ds : List Diagnostic} (bs : List Automaton) {q : Progress}
    (h : Leads pairs tokens lanes ds later)
    (hq : Lands pairs tokens later (before ++ bs.map (⟨·, phase⟩)) after q phase) :
    Lands pairs tokens lanes before after
      { q with automata := bs ++ q.automata, emitted := ds ++ q.emitted } phase := by
  unfold Lands at hq ⊢
  split at hq
  · next hf =>
    simp only [hf]
    have hl := h.trans hq
    simpa using hl
  · next fault hf =>
    obtain ⟨last, hl, ha, hstop⟩ := hq
    simp only [hf]
    refine ⟨last, h.trans hl, ?_, hstop⟩
    rw [ha]
    simp [Function.comp_def]

theorem Lands.trans {ds : List Diagnostic} {q : Progress} (h : Leads pairs tokens lanes ds later)
    (hq : Lands pairs tokens later before after q phase) :
    Lands pairs tokens lanes before after { q with emitted := ds ++ q.emitted } phase :=
  Lands.prepend [] h (by simpa using hq)

theorem Lands.of_fault {p : Progress} {fault : PatternError} (hf : p.fault = some fault)
    (h : Lands pairs tokens lanes before after p phase) (phase' : Phase) :
    Lands pairs tokens lanes before after p phase' := by
  unfold Lands at h ⊢
  simp only [hf] at h ⊢
  exact h

theorem Lands.of_none {p : Progress} (hf : p.fault = none)
    (h : Lands pairs tokens lanes before after p phase) :
    Leads pairs tokens lanes p.emitted (before ++ p.automata.map (⟨·, phase⟩) ++ after) := by
  unfold Lands at h
  simp only [hf] at h
  exact h

/-! ## Groups of automata -/

theorem reset_leads (as : List Automaton) (before after : List Lane) :
    Leads pairs tokens (before ++ as.map (⟨·, .idle⟩) ++ after) []
      (before ++ (as.map Automaton.reset).map (⟨·, .reading 0⟩) ++ after) := by
  induction as generalizing before with
  | nil => exact .refl _
  | cons a rest ih =>
    have hmove : Lane.move pairs tokens ⟨a, .idle⟩ = (⟨a.reset, .reading 0⟩, []) := rfl
    have hfirst := Leads.lane hmove before (rest.map (⟨·, .idle⟩) ++ after)
    have hrest := ih (before ++ [⟨a.reset, .reading 0⟩])
    simpa using hfirst.trans (by simpa using hrest)

theorem feedEach_lands (pairs : PairTable) {i : Nat} {token : Token} (ht : tokens[i]? = some token)
    (as : List Automaton) (before after : List Lane) :
    Lands pairs tokens (before ++ as.map (⟨·, .reading i⟩) ++ after) before after
      (Grouper.feedEach pairs i token as) (.reading (i + 1)) := by
  induction as generalizing before with
  | nil => exact Leads.refl _
  | cons a rest ih =>
    rw [Grouper.feedEach]
    split
    · next b fault hf =>
      have hmove := Lane.move_fault ht hf
      refine ⟨before ++ ⟨b, .stopped fault⟩ :: (rest.map (⟨·, .reading i⟩) ++ after), ?_, ?_, ?_⟩
      · simpa using Leads.lane hmove before (rest.map (⟨·, .reading i⟩) ++ after)
      · simp [Function.comp_def]
      · exact ⟨⟨b, .stopped fault⟩, by simp, rfl⟩
    · next b mismatch hf =>
      have hmove := Lane.move_feed ht hf
      have hshown : ((mismatch.map Report.mismatch).toList).filterMap (·.diagnostic? tokens)
          = (mismatch.map (Grouper.mismatchWarning token)).toList := by
        cases mismatch with
        | none => rfl
        | some m => simp [Report.diagnostic?, (Automaton.feed_mismatch hf).2, ht]
      have hfirst := Leads.lane hmove before (rest.map (⟨·, .reading i⟩) ++ after)
      rw [hshown] at hfirst
      have hrest := ih (before ++ [⟨b, .reading (i + 1)⟩])
      exact Lands.prepend [b] (by simpa using hfirst) (by simpa using hrest)

theorem feedAll_lands (as : List Automaton) {i : Nat} {rest : List Token}
    (hrest : tokens.drop i = rest) (hi : i ≤ tokens.length) (before after : List Lane) :
    Lands pairs tokens (before ++ as.map (⟨·, .reading i⟩) ++ after) before after
      (Grouper.feedAll pairs as i rest) (.reading tokens.length) := by
  induction rest generalizing as i with
  | nil =>
    have hlen : i = tokens.length := Nat.le_antisymm hi (List.drop_eq_nil_iff.mp hrest)
    rw [hlen]
    exact Leads.refl _
  | cons token rest ih =>
    have hlt : i < tokens.length := by
      refine Nat.lt_of_not_le fun hle => ?_
      rw [List.drop_eq_nil_iff.mpr hle] at hrest
      cases hrest
    have ht : tokens[i]? = some token := by
      rw [← List.head?_drop, hrest]
      rfl
    have hdrop : tokens.drop (i + 1) = rest := by
      rw [← List.tail_drop, hrest]
      rfl
    have hfirst := feedEach_lands pairs ht as before after
    rw [Grouper.feedAll]
    cases hf : (Grouper.feedEach pairs i token as).fault with
    | some fault => exact hfirst.of_fault hf _
    | none => exact Lands.trans (hfirst.of_none hf) (ih _ hdrop hlt)

theorem finishEach_lands (as : List Automaton) (before after : List Lane) :
    Lands pairs tokens (before ++ as.map (⟨·, .reading tokens.length⟩) ++ after) before after
      (Grouper.finishEach tokens as) .ended := by
  induction as generalizing before with
  | nil => exact Leads.refl _
  | cons a rest ih =>
    have hmove := Lane.move_finish pairs (a := a)
      (List.getElem?_eq_none (Nat.le_refl tokens.length))
    have hshown : ((a.finish.2.map Report.unterminated).toList).filterMap (·.diagnostic? tokens)
        = (a.finish.2.bind fun u =>
            tokens[u.opener]?.map fun t => Grouper.unterminatedWarning t u).toList := by
      cases a.finish.2 with
      | none => rfl
      | some u => cases hu : tokens[u.opener]? <;> simp [Report.diagnostic?, hu]
    have hfirst := Leads.lane hmove before (rest.map (⟨·, .reading tokens.length⟩) ++ after)
    rw [hshown] at hfirst
    have hrest := ih (before ++ [⟨a.finish.1, .ended⟩])
    have hcons : Grouper.finishEach tokens (a :: rest)
        = { Grouper.finishEach tokens rest with
            automata := [a.finish.1] ++ (Grouper.finishEach tokens rest).automata
            emitted := (a.finish.2.bind fun u =>
                tokens[u.opener]?.map fun t => Grouper.unterminatedWarning t u).toList
              ++ (Grouper.finishEach tokens rest).emitted } := rfl
    rw [hcons]
    exact Lands.prepend [a.finish.1] (by simpa using hfirst) (by simpa using hrest)

/-- A group of automata is reset, fed and brought to the end of the stream. -/
theorem runGroup_lands (pairs : PairTable) (tokens : List Token) (as : List Automaton)
    (before after : List Lane) :
    Lands pairs tokens (before ++ as.map (⟨·, .idle⟩) ++ after) before after
      (Grouper.runGroup pairs tokens as) .ended := by
  have hfed : Lands pairs tokens (before ++ as.map (⟨·, .idle⟩) ++ after) before after
      (Grouper.feedAll pairs (as.map Automaton.reset) 0 tokens) (.reading tokens.length) :=
    Lands.trans (reset_leads as before after)
      (feedAll_lands _ List.drop_zero (Nat.zero_le _) before after)
  rw [Grouper.runGroup]
  cases hf : (Grouper.feedAll pairs (as.map Automaton.reset) 0 tokens).fault with
  | some fault => exact hfed.of_fault hf _
  | none => exact Lands.trans (hfed.of_none hf) (finishEach_lands _ before after)

theorem runGroups_lands (pairs : PairTable) (tokens : List Token)
    (groups : List (List Automaton)) (before : List Lane) :
    Lands pairs tokens (before ++ groups.flatten.map (⟨·, .idle⟩)) before []
      (Grouper.runGroups pairs tokens groups) .ended := by
  induction groups generalizing before with
  | nil =>
    show Leads pairs tokens (before ++ []) [] (before ++ [] ++ [])
    rw [List.append_nil, List.append_nil]
    exact Leads.refl _
  | cons group rest ih =>
    have hgroup : Lands pairs tokens (before ++ (group :: rest).flatten.map (⟨·, .idle⟩)) before
        (rest.flatten.map (⟨·, .idle⟩)) (Grouper.runGroup pairs tokens group) .ended := by
      simpa using runGroup_lands pairs tokens group before (rest.flatten.map (⟨·, .idle⟩))
    rw [Grouper.runGroups]
    cases hf : (Grouper.runGroup pairs tokens group).fault with
    | some fault =>
      -- the automata of the groups that do not run are as they were
      unfold Lands at hgroup ⊢
      simp only [hf] at hgroup ⊢
      obtain ⟨later, hl, ha, hstop⟩ := hgroup
      refine ⟨later, hl, ?_, hstop⟩
      rw [ha]
      simp [Function.comp_def]
    | none =>
      have hrest := ih (before ++ (Grouper.runGroup pairs tokens group).automata.map (⟨·, .ended⟩))
      exact Lands.prepend _ (hgroup.of_none hf) hrest

end Scan

/-! ## Outcomes -/

namespace Grouper

/-- What a scan gives when all automata have reached the end of the stream. -/
def conclude (g : Grouper) (tokens : List Token) (automata : List Automaton)
    (emitted : List Diagnostic) (text : TaggedText) (input output : String) : ScanOutcome :=
  let g := { g with automata := automata.map fun a => a.takeCompleted.1 }
  match project tokens.toArray automata text input output with
  | .error e => ⟨g, text, emitted, .error (.tag e)⟩
  | .ok (text, result) => ⟨g, text, emitted, .ok result⟩

/-- The scan of the stream under a schedule. -/
def scanned (g : Grouper) (tokens : List Token) (schedule : List Nat) : Scan :=
  (Scan.start g.automata).run g.pairs tokens schedule

/-- What a scan may come to, in whatever order its automata move. -/
inductive Outcome (g : Grouper) (text : TaggedText) (input output : String) : ScanOutcome → Prop
  /-- The tokens cannot be had. -/
  | unread {e : TagError} : g.stream text input = .error e →
      Outcome g text input output ⟨g, text, [], .error (.tag e)⟩
  /-- An automaton has been stopped by a fault, wherever the others are. -/
  | fault {tokens : List Token} {lane : Lane} {fault : PatternError} (schedule : List Nat) :
      g.stream text input = .ok tokens → lane ∈ (g.scanned tokens schedule).lanes →
      lane.phase = .stopped fault →
      Outcome g text input output
        ⟨{ g with automata := (g.scanned tokens schedule).automata }, text,
          Scan.shown tokens (g.scanned tokens schedule).log, .error (.pattern fault)⟩
  /-- Each automaton has reached the end of the stream. -/
  | ended {tokens : List Token} (schedule : List Nat) :
      g.stream text input = .ok tokens →
      (∀ lane ∈ (g.scanned tokens schedule).lanes, lane.phase = .ended) →
      Outcome g text input output
        (g.conclude tokens (g.scanned tokens schedule).automata
          (Scan.shown tokens (g.scanned tokens schedule).log) text input output)

variable {g : Grouper} {text : TaggedText} {input output : String}

/-- A scan follows a schedule, in whatever groups its automata are run. -/
theorem outcome_scanIn {groups : List (List Automaton)} (h : groups.flatten = g.automata) :
    g.Outcome text input output (g.scanIn groups text input output) := by
  rw [scanIn]
  cases hs : g.stream text input with
  | error e => exact .unread hs
  | ok tokens =>
    -- the schedule is the one along which the groups are run
    have hlands := Scan.runGroups_lands g.pairs tokens groups []
    rw [List.nil_append, h] at hlands
    unfold Scan.Lands at hlands
    cases hf : (runGroups g.pairs tokens groups).fault with
    | some fault =>
      simp only [hf] at hlands ⊢
      obtain ⟨later, hl, ha, lane, hlane, hphase⟩ := hlands
      obtain ⟨schedule, log, hrun, hshown⟩ := hl []
      have hrun' : g.scanned tokens schedule = ⟨later, log⟩ := hrun
      have hautomata : (⟨later, log⟩ : Scan).automata
          = (runGroups g.pairs tokens groups).automata :=
        ha.trans (List.append_nil _)
      have hlane' : lane ∈ (g.scanned tokens schedule).lanes := by
        rw [hrun']
        exact hlane
      have hout : g.Outcome text input output _ := .fault schedule hs hlane' hphase
      rw [hrun', hautomata, show Scan.shown tokens log = _ from hshown] at hout
      exact hout
    | none =>
      simp only [hf] at hlands ⊢
      obtain ⟨schedule, log, hrun, hshown⟩ := hlands []
      have hrun' : g.scanned tokens schedule = ⟨_, log⟩ := hrun
      have hended : ∀ lane ∈ (g.scanned tokens schedule).lanes, lane.phase = .ended := by
        rw [hrun']
        simp
      have hout : g.Outcome text input output _ := .ended schedule hs hended
      have hautomata : (g.scanned tokens schedule).automata
          = (runGroups g.pairs tokens groups).automata := by
        rw [hrun']
        simp [Scan.automata, Function.comp_def]
      rw [hautomata, hrun', show Scan.shown tokens log = _ from hshown] at hout
      exact hout

theorem length_scanned (tokens : List Token) (schedule : List Nat) :
    (g.scanned tokens schedule).lanes.length = g.automata.length :=
  (Scan.length_run schedule).trans (List.length_map _)

/-- An automaton comes to the same end in all schedules that bring it to one. -/
theorem lane_unique {tokens : List Token} {schedule schedule' : List Nat} {k : Nat}
    {lane lane' : Lane} (h : (g.scanned tokens schedule).lanes[k]? = some lane)
    (h' : (g.scanned tokens schedule').lanes[k]? = some lane') (hh : lane.Halted)
    (hh' : lane'.Halted) :
    lane = lane' ∧ (g.scanned tokens schedule).reports k
      = (g.scanned tokens schedule').reports k := by
  obtain ⟨a, ha⟩ : ∃ a, g.automata[k]? = some a := by
    obtain ⟨hlt, -⟩ := List.getElem?_eq_some_iff.mp h
    rw [length_scanned] at hlt
    exact ⟨_, List.getElem?_eq_getElem hlt⟩
  obtain ⟨hl, hr⟩ := Scan.lane_eq_alone ha h hh
  obtain ⟨hl', hr'⟩ := Scan.lane_eq_alone ha h' hh'
  exact ⟨hl.trans hl'.symm, hr.trans hr'.symm⟩

/-- Once all automata have come to an end, the lanes and all that each has reported do not depend
on the schedule. -/
theorem scanned_unique {tokens : List Token} {schedule schedule' : List Nat}
    (h : ∀ lane ∈ (g.scanned tokens schedule).lanes, lane.phase = .ended)
    (h' : ∀ lane ∈ (g.scanned tokens schedule').lanes, lane.phase = .ended) :
    (g.scanned tokens schedule).lanes = (g.scanned tokens schedule').lanes ∧
      (g.scanned tokens schedule).log.Perm (g.scanned tokens schedule').log := by
  have hlen : (g.scanned tokens schedule).lanes.length
      = (g.scanned tokens schedule').lanes.length := by
    rw [length_scanned, length_scanned]
  -- lane by lane; at a place without a lane nothing has been reported
  have both (k : Nat) : (g.scanned tokens schedule).lanes[k]?
        = (g.scanned tokens schedule').lanes[k]? ∧
      (g.scanned tokens schedule).reports k = (g.scanned tokens schedule').reports k := by
    by_cases hk : k < (g.scanned tokens schedule).lanes.length
    · have hl := List.getElem?_eq_getElem hk
      have hl' := List.getElem?_eq_getElem (hlen ▸ hk)
      obtain ⟨heq, hreports⟩ := lane_unique hl hl'
        (Lane.halted_of_ended (h _ (List.getElem_mem _)))
        (Lane.halted_of_ended (h' _ (List.getElem_mem _)))
      rw [hl, hl', heq]
      exact ⟨rfl, hreports⟩
    · have hstart : (Scan.start g.automata).lanes[k]? = none := by
        rw [scanned, Scan.length_run] at hk
        exact List.getElem?_eq_none (Nat.le_of_not_lt hk)
      refine ⟨?_, ?_⟩
      · rw [List.getElem?_eq_none (Nat.le_of_not_lt hk),
          List.getElem?_eq_none (hlen ▸ Nat.le_of_not_lt hk)]
      · rw [scanned, scanned, Scan.run_reports_of_none hstart, Scan.run_reports_of_none hstart]
  exact ⟨List.ext_getElem? fun k => (both k).1, Scan.log_perm fun k => (both k).2⟩

/-- A fault that stops a lane in one schedule keeps it from the end of the stream in all. -/
theorem not_stopped_of_ended {tokens : List Token} {schedule schedule' : List Nat}
    (h : ∀ lane ∈ (g.scanned tokens schedule).lanes, lane.phase = .ended) {lane' : Lane}
    (h' : lane' ∈ (g.scanned tokens schedule').lanes) {fault : PatternError}
    (hstop : lane'.phase = .stopped fault) : False := by
  obtain ⟨k, hk, rfl⟩ := List.getElem_of_mem h'
  have hlen : (g.scanned tokens schedule').lanes.length
      = (g.scanned tokens schedule).lanes.length := by
    rw [length_scanned, length_scanned]
  have hended := h _ (List.getElem_mem (hlen ▸ hk))
  obtain ⟨heq, -⟩ := lane_unique (List.getElem?_eq_getElem (hlen ▸ hk))
    (List.getElem?_eq_getElem hk) (Lane.halted_of_ended hended) (Lane.halted_of_stopped hstop)
  rw [heq, hstop] at hended
  cases hended

/-- Two outcomes both fail, or have the same matches, text and diagnostics. -/
def Agree (x y : ScanOutcome) : Prop :=
  ((∃ e, x.result = .error e) ↔ ∃ e, y.result = .error e) ∧
    ∀ found found', x.result = .ok found → y.result = .ok found' →
      found = found' ∧ x.text = y.text ∧ x.emitted.Perm y.emitted

theorem agree_of_errors {x y : ScanOutcome} {e e' : EngineError} (hx : x.result = .error e)
    (hy : y.result = .error e') : Agree x y := by
  refine ⟨⟨fun _ => ⟨e', hy⟩, fun _ => ⟨e, hx⟩⟩, fun found _ hfound _ => ?_⟩
  rw [hx] at hfound
  cases hfound

theorem agree_conclude {tokens : List Token} {automata : List Automaton} {ds es : List Diagnostic}
    (h : ds.Perm es) :
    Agree (g.conclude tokens automata ds text input output)
      (g.conclude tokens automata es text input output) := by
  unfold conclude
  cases project tokens.toArray automata text input output with
  | error e => exact agree_of_errors rfl rfl
  | ok projected =>
    refine ⟨Iff.rfl, fun found found' hx hy => ⟨?_, rfl, h⟩⟩
    exact Except.ok.inj (hx.symm.trans hy)

theorem agree_of_outcomes {x y : ScanOutcome} (hx : g.Outcome text input output x)
    (hy : g.Outcome text input output y) : Agree x y := by
  cases hx with
  | unread hs =>
    cases hy with
    | unread _ => exact agree_of_errors rfl rfl
    | fault _ hs' | ended _ hs' => cases hs.symm.trans hs'
  | fault schedule hs hlane hstop =>
    cases hy with
    | unread hs' => cases hs.symm.trans hs'
    | fault _ _ _ _ => exact agree_of_errors rfl rfl
    | ended schedule' hs' hended =>
      cases hs.symm.trans hs'
      exact (not_stopped_of_ended hended hlane hstop).elim
  | ended schedule hs hended =>
    cases hy with
    | unread hs' => cases hs.symm.trans hs'
    | fault schedule' hs' hlane hstop =>
      cases hs.symm.trans hs'
      exact (not_stopped_of_ended hended hlane hstop).elim
    | ended schedule' hs' hended' =>
      cases hs.symm.trans hs'
      obtain ⟨hlanes, hlog⟩ := scanned_unique hended hended'
      rw [Scan.automata, Scan.automata, hlanes]
      exact agree_conclude (hlog.filterMap _)

/-- Scans agree under every schedule. A lane that has come to a halt is the automaton on its own,
with its matches and its reports. A scan and a parallel scan are outcomes of schedules, and all
such outcomes fail, or have the same matches, text and diagnostics, up to the order of the last. -/
theorem scans_agree (g : Grouper) (text : TaggedText) (input output : String) :
    (∀ (tokens : List Token) (schedule : List Nat) (k : Nat) (a : Automaton) (lane : Lane),
      g.automata[k]? = some a → (g.scanned tokens schedule).lanes[k]? = some lane →
      lane.Halted →
        lane = (Lane.alone g.pairs tokens a).1 ∧
          (g.scanned tokens schedule).reports k = (Lane.alone g.pairs tokens a).2) ∧
    g.Outcome text input output (g.scan text input output) ∧
    g.Outcome text input output (g.scanParallel text input output) ∧
    ∀ x y, g.Outcome text input output x → g.Outcome text input output y →
      ((∃ e, x.result = .error e) ↔ ∃ e, y.result = .error e) ∧
      ∀ found found', x.result = .ok found → y.result = .ok found' →
        found = found' ∧ x.text = y.text ∧ x.emitted.Perm y.emitted := by
  refine ⟨?_, ?_, ?_, ?_⟩
  · intro tokens schedule k a lane ha hlane hhalted
    exact Scan.lane_eq_alone ha hlane hhalted
  · exact outcome_scanIn (List.append_nil _)
  · exact outcome_scanIn (List.flatMap_singleton' _)
  · intro x y hx hy
    exact agree_of_outcomes hx hy

end Grouper

end TagLayers
