import Mathlib.Data.List.Forall2
import TagLayers.Proofs.Grouping.Scans
import TagLayers.Proofs.Pattern.Openers

/-!
# Scans forget

A scan leaves its automata where they were when it ended: in the middle of an attempt or of a
region if a fault has stopped it, with matches that nobody has taken and with the opener of the last
region. The next scan resets each automaton before it feeds it, and nothing but the opener outlives
that. Two groupers whose automata have the same names, tags and patterns go through a schedule side
by side: lane by lane they are alike, except for the lanes that have not made their first move.

Results:
1. `Lane.Alike.move`, `Scan.Alike.run`: the relation, along one move and along a schedule.
2. `Grouper.OutcomeUnder.exists_alike`: outcomes under the same schedule.
3. `Grouper.scan_alike`, `Grouper.scanParallel_alike`: scans and parallel scans.
4. `Grouper.renew_outcome`: a scan keeps the names, tags and patterns.
-/

namespace TagLayers

/-- A new automaton of the same name, tag and pattern. -/
def Automaton.renew (a : Automaton) : Automaton := new a.name a.tag a.pattern

theorem Automaton.SameMachine.renew_eq {a b : Automaton} (h : a.SameMachine b) :
    b.renew = a.renew := by
  obtain ⟨hname, htag, hpattern⟩ := h
  unfold renew
  rw [hname, htag, hpattern]

theorem Automaton.sameMachine_of_renew {a b : Automaton} (h : a.renew = b.renew) :
    a.SameMachine b :=
  ⟨(congrArg Automaton.name h).symm, (congrArg Automaton.tag h).symm,
    (congrArg Automaton.pattern h).symm⟩

/-! ## Lanes -/

namespace Lane

/-- The lanes are in the same phase with automata that are alike, or have not moved yet and will
start from automata of the same name, tag and pattern. -/
inductive Alike : Lane → Lane → Prop
  | moved {a b : Automaton} (phase : Phase) : a.Alike b → Alike ⟨a, phase⟩ ⟨b, phase⟩
  | idle {a b : Automaton} : a.renew = b.renew → Alike ⟨a, .idle⟩ ⟨b, .idle⟩

variable {pairs : PairTable} {tokens : List Token} {lane lane' : Lane}

theorem Alike.move (h : lane.Alike lane') (pairs : PairTable) (tokens : List Token) :
    (lane.move pairs tokens).1.Alike (lane'.move pairs tokens).1 ∧
      (lane.move pairs tokens).2 = (lane'.move pairs tokens).2 := by
  cases h with
  | idle hab =>
    -- the first move resets the automaton
    exact ⟨.moved _ (Automaton.alike_reset (Automaton.sameMachine_of_renew hab)), rfl⟩
  | @moved a b phase hab =>
    cases phase with
    | idle => exact ⟨.moved _ (Automaton.alike_reset hab.sameMachine), rfl⟩
    | ended | stopped => exact ⟨.moved _ hab, rfl⟩
    | reading i =>
      cases hi : tokens[i]? with
      | none =>
        obtain ⟨hfinished, hregion⟩ := hab.finish
        rw [move_finish pairs hi, move_finish pairs hi, hregion]
        exact ⟨.moved _ hfinished, rfl⟩
      | some token =>
        obtain ⟨hfed, hresult⟩ := hab.feed i token pairs
        rcases ha : a.feed i token pairs with ⟨a', fault | mismatch⟩ <;>
          rcases hb : b.feed i token pairs with ⟨b', result⟩ <;>
          rw [ha, hb] at hfed hresult <;> obtain rfl := hresult
        · rw [move_fault hi ha, move_fault hi hb]
          exact ⟨.moved _ hfed, rfl⟩
        · rw [move_feed hi ha, move_feed hi hb]
          exact ⟨.moved _ hfed, rfl⟩

theorem Alike.phase_eq (h : lane.Alike lane') : lane'.phase = lane.phase := by
  cases h <;> rfl

theorem Alike.automaton (h : lane.Alike lane') (hh : lane.Halted) :
    lane.automaton.Alike lane'.automaton := by
  cases h with
  | moved _ hab => exact hab
  | idle => cases hh

theorem sameMachine_move (pairs : PairTable) (tokens : List Token) (lane : Lane) :
    lane.automaton.SameMachine (lane.move pairs tokens).1.automaton := by
  obtain ⟨a, phase⟩ := lane
  cases phase with
  | idle => exact ⟨rfl, rfl, rfl⟩
  | ended | stopped => exact ⟨rfl, rfl, rfl⟩
  | reading i =>
    cases hi : tokens[i]? with
    | none =>
      rw [move_finish pairs hi]
      exact a.sameMachine_finish
    | some token =>
      have hfeed := a.sameMachine_feed i token pairs
      match hf : a.feed i token pairs with
      | (b, .error fault) =>
        rw [move_fault hi hf]
        rwa [hf] at hfeed
      | (b, .ok mismatch) =>
        rw [move_feed hi hf]
        rwa [hf] at hfeed

theorem sameMachine_moves (pairs : PairTable) (tokens : List Token) (n : Nat) (lane : Lane) :
    lane.automaton.SameMachine (lane.moves pairs tokens n).1.automaton := by
  induction n generalizing lane with
  | zero => exact ⟨rfl, rfl, rfl⟩
  | succ n ih => exact (sameMachine_move pairs tokens lane).trans (ih _)

end Lane

/-! ## Schedules -/

namespace Scan

/-- Lane by lane the scans are alike, and they have logged the same. -/
structure Alike (s t : Scan) : Prop where
  lanes : List.Forall₂ Lane.Alike s.lanes t.lanes
  log : s.log = t.log

variable {pairs : PairTable} {tokens : List Token} {s t : Scan}

theorem getElem?_alike {lanes lanes' : List Lane} (h : List.Forall₂ Lane.Alike lanes lanes')
    (k : Nat) : Option.Rel Lane.Alike lanes[k]? lanes'[k]? := by
  induction h generalizing k with
  | nil => exact .none
  | cons hlane _ ih =>
    cases k with
    | zero => exact .some hlane
    | succ k => exact ih k

theorem set_alike {lanes lanes' : List Lane} (h : List.Forall₂ Lane.Alike lanes lanes')
    {next next' : Lane} (hnext : next.Alike next') (k : Nat) :
    List.Forall₂ Lane.Alike (lanes.set k next) (lanes'.set k next') := by
  induction h generalizing k with
  | nil => exact .nil
  | cons hlane hrest ih =>
    cases k with
    | zero => exact .cons hnext hrest
    | succ k => exact .cons hlane (ih k)

theorem Alike.move (h : s.Alike t) (pairs : PairTable) (tokens : List Token) (j : Nat) :
    (s.move pairs tokens j).Alike (t.move pairs tokens j) := by
  have hj := getElem?_alike h.lanes j
  unfold Scan.move
  generalize s.lanes[j]? = left at hj
  generalize t.lanes[j]? = right at hj
  cases hj with
  | none => exact h
  | some hlane =>
    obtain ⟨hnext, hreports⟩ := hlane.move pairs tokens
    exact ⟨set_alike h.lanes hnext j, by dsimp only; rw [h.log, hreports]⟩

theorem Alike.run (h : s.Alike t) (schedule : List Nat) :
    (s.run pairs tokens schedule).Alike (t.run pairs tokens schedule) := by
  induction schedule generalizing s t with
  | nil => exact h
  | cons j schedule ih =>
    rw [run_cons, run_cons]
    exact ih (h.move pairs tokens j)

theorem alike_start {automata automata' : List Automaton}
    (h : automata.map Automaton.renew = automata'.map Automaton.renew) :
    (start automata).Alike (start automata') := by
  have hsame : List.Forall₂ (fun a b => a.renew = b.renew) automata automata' := by
    rwa [← List.forall₂_eq_eq_eq, List.forall₂_map_left_iff, List.forall₂_map_right_iff] at h
  refine ⟨?_, rfl⟩
  rw [start, start, List.forall₂_map_left_iff, List.forall₂_map_right_iff]
  exact hsame.imp fun _ _ => .idle

/-- A lane in some phase stands beside one in the same phase. -/
theorem Alike.exists_lane (h : s.Alike t) {lane : Lane} (hlane : lane ∈ s.lanes) :
    ∃ lane' ∈ t.lanes, lane'.phase = lane.phase := by
  obtain ⟨k, hk⟩ := List.mem_iff_getElem?.mp hlane
  have hrel := getElem?_alike h.lanes k
  rw [hk] at hrel
  generalize ht : t.lanes[k]? = right at hrel
  cases hrel with
  | some hsame => exact ⟨_, List.mem_of_getElem? ht, hsame.phase_eq⟩

theorem Alike.ended (h : s.Alike t) (hended : ∀ lane ∈ s.lanes, lane.phase = .ended) :
    (∀ lane ∈ t.lanes, lane.phase = .ended) ∧
      List.Forall₂ Automaton.Alike s.automata t.automata := by
  obtain ⟨lanes, log⟩ := s
  obtain ⟨lanes', log'⟩ := t
  have hlanes : List.Forall₂ Lane.Alike lanes lanes' := h.lanes
  unfold automata
  dsimp only at hended ⊢
  clear h
  induction hlanes with
  | nil => exact ⟨hended, .nil⟩
  | cons hlane _ ih =>
    obtain ⟨hfirst, hlater⟩ := List.forall_mem_cons.mp hended
    obtain ⟨hphases, hautomata⟩ := ih hlater
    refine ⟨List.forall_mem_cons.mpr ⟨hlane.phase_eq.trans hfirst, hphases⟩, ?_⟩
    exact .cons (hlane.automaton (Lane.halted_of_ended hfirst)) hautomata

/-- Each automaton keeps its name, tag and pattern. -/
theorem renew_run (schedule : List Nat) :
    (s.run pairs tokens schedule).automata.map Automaton.renew
      = s.automata.map Automaton.renew := by
  refine List.ext_getElem? fun k => ?_
  simp only [automata, List.getElem?_map]
  cases hs : s.lanes[k]? with
  | none =>
    have hlen : (s.run pairs tokens schedule).lanes.length ≤ k := by
      rw [length_run]
      exact List.getElem?_eq_none_iff.mp hs
    rw [List.getElem?_eq_none hlen]
  | some lane =>
    rw [(run_lane pairs tokens hs schedule).1]
    simp only [Option.map_some, (Lane.sameMachine_moves pairs tokens _ lane).renew_eq]

end Scan

/-! ## Outcomes -/

/-- What the caller of a scan sees: the text, the diagnostics and the result. -/
def ScanOutcome.seen (o : ScanOutcome) :
    TaggedText × List Diagnostic × Except EngineError ScanResult :=
  (o.text, o.emitted, o.result)

namespace Grouper

/-- A new grouper with the same tokenizer, automata, pairs and skipped tags. -/
def renew (g : Grouper) : Grouper := { g with automata := g.automata.map Automaton.renew }

/-- What a scan may come to under a schedule. -/
inductive OutcomeUnder (g : Grouper) (text : TaggedText) (input output : String)
    (schedule : List Nat) : ScanOutcome → Prop
  | unread {e : TagError} : g.stream text input = .error e →
      OutcomeUnder g text input output schedule ⟨g, text, [], .error (.tag e)⟩
  | fault {tokens : List Token} {lane : Lane} {fault : PatternError} :
      g.stream text input = .ok tokens → lane ∈ (g.scanned tokens schedule).lanes →
      lane.phase = .stopped fault →
      OutcomeUnder g text input output schedule
        ⟨{ g with automata := (g.scanned tokens schedule).automata }, text,
          Scan.shown tokens (g.scanned tokens schedule).log, .error (.pattern fault)⟩
  | ended {tokens : List Token} : g.stream text input = .ok tokens →
      (∀ lane ∈ (g.scanned tokens schedule).lanes, lane.phase = .ended) →
      OutcomeUnder g text input output schedule
        (g.conclude tokens (g.scanned tokens schedule).automata
          (Scan.shown tokens (g.scanned tokens schedule).log) text input output)

variable {g g' : Grouper} {text : TaggedText} {input output : String} {schedule : List Nat}
  {o : ScanOutcome}

/-- An outcome is an outcome under some schedule. -/
theorem outcome_iff :
    g.Outcome text input output o ↔ ∃ schedule, g.OutcomeUnder text input output schedule o := by
  constructor
  · intro h
    cases h with
    | unread hs => exact ⟨[], .unread hs⟩
    | fault schedule hs hlane hstop => exact ⟨schedule, .fault hs hlane hstop⟩
    | ended schedule hs hended => exact ⟨schedule, .ended hs hended⟩
  · rintro ⟨schedule, h⟩
    cases h with
    | unread hs => exact .unread hs
    | fault hs hlane hstop => exact .fault schedule hs hlane hstop
    | ended hs hended => exact .ended schedule hs hended

theorem stream_alike (h : g.renew = g'.renew) (text : TaggedText) (input : String) :
    g.stream text input = g'.stream text input := by
  obtain ⟨-, -, -, hskips⟩ := Grouper.mk.inj h
  unfold stream
  rw [hskips]

theorem scanned_alike (h : g.renew = g'.renew) (tokens : List Token) (schedule : List Nat) :
    (g.scanned tokens schedule).Alike (g'.scanned tokens schedule) := by
  obtain ⟨-, hpairs, hautomata, -⟩ := Grouper.mk.inj h
  unfold scanned
  rw [hpairs]
  exact (Scan.alike_start hautomata).run schedule

/-- What is projected of an automaton is its name, its tag and its matches. -/
theorem project_alike {automata automata' : List Automaton}
    (h : List.Forall₂ Automaton.Alike automata automata') (tokens : Array Token)
    (text : TaggedText) (input output : String) :
    project tokens automata text input output = project tokens automata' text input output := by
  have hsets : automata.map (fun a => (a.name, matchesOf tokens a))
      = automata'.map fun a => (a.name, matchesOf tokens a) := by
    induction h with
    | nil => rfl
    | cons hab _ ih =>
      obtain ⟨hname, htag, -⟩ := hab.sameMachine
      rw [List.map_cons, List.map_cons, ih, matchesOf, matchesOf, hname, htag, hab.completed_eq]
  unfold project
  dsimp only
  rw [hsets]

theorem seen_conclude (g g' : Grouper) {tokens : List Token} {automata automata' : List Automaton}
    (h : List.Forall₂ Automaton.Alike automata automata') (ds : List Diagnostic)
    (text : TaggedText) (input output : String) :
    (g.conclude tokens automata ds text input output).seen
      = (g'.conclude tokens automata' ds text input output).seen := by
  unfold conclude
  rw [project_alike h]
  cases project tokens.toArray automata' text input output <;> rfl

/-- Groupers that differ in what their automata have been through see the same outcomes under the
same schedule. -/
theorem OutcomeUnder.exists_alike (h : g.renew = g'.renew)
    (ho : g.OutcomeUnder text input output schedule o) :
    ∃ o', g'.OutcomeUnder text input output schedule o' ∧ o'.seen = o.seen := by
  cases ho with
  | unread hs =>
    rw [stream_alike h] at hs
    exact ⟨_, .unread hs, rfl⟩
  | @fault tokens lane fault hs hlane hstop =>
    have hsame := scanned_alike h tokens schedule
    obtain ⟨lane', hlane', hphase⟩ := hsame.exists_lane hlane
    rw [stream_alike h] at hs
    refine ⟨_, .fault hs hlane' (hphase.trans hstop), ?_⟩
    rw [hsame.log]
    rfl
  | @ended tokens hs hended =>
    have hsame := scanned_alike h tokens schedule
    obtain ⟨hended', hautomata⟩ := hsame.ended hended
    rw [stream_alike h] at hs
    refine ⟨_, .ended hs hended', ?_⟩
    rw [← hsame.log]
    exact (seen_conclude g g' hautomata _ text input output).symm

/-! ## Scans -/

/-- The automata have come to the same, and have reported the same on the way. -/
structure ProgressAlike (p q : Progress) : Prop where
  automata : List.Forall₂ Automaton.Alike p.automata q.automata
  emitted : p.emitted = q.emitted
  fault : p.fault = q.fault

section Groups

variable {automata automata' : List Automaton}

theorem feedEach_alike (h : List.Forall₂ Automaton.Alike automata automata') (pairs : PairTable)
    (i : Nat) (token : Token) :
    ProgressAlike (feedEach pairs i token automata) (feedEach pairs i token automata') := by
  induction h with
  | nil => exact ⟨.nil, rfl, rfl⟩
  | @cons a b _ _ hab hrest ih =>
    obtain ⟨hfed, hresult⟩ := hab.feed i token pairs
    unfold feedEach
    rcases ha : a.feed i token pairs with ⟨a', fault | mismatch⟩ <;>
      rcases hb : b.feed i token pairs with ⟨b', result⟩ <;>
      rw [ha, hb] at hfed hresult <;> obtain rfl := hresult
    · exact ⟨.cons hfed hrest, rfl, rfl⟩
    · exact ⟨.cons hfed ih.automata, by dsimp only; rw [ih.emitted], ih.fault⟩

theorem feedAll_alike (h : List.Forall₂ Automaton.Alike automata automata') (pairs : PairTable)
    (i : Nat) (tokens : List Token) :
    ProgressAlike (feedAll pairs automata i tokens) (feedAll pairs automata' i tokens) := by
  induction tokens generalizing automata automata' i with
  | nil => exact ⟨h, rfl, rfl⟩
  | cons token rest ih =>
    have hfirst := feedEach_alike h pairs i token
    have hlater := ih hfirst.automata (i + 1)
    unfold feedAll
    dsimp only
    rw [hfirst.fault]
    split
    · exact hfirst
    · exact ⟨hlater.automata, by dsimp only; rw [hfirst.emitted, hlater.emitted], hlater.fault⟩

theorem finishEach_alike (h : List.Forall₂ Automaton.Alike automata automata')
    (tokens : List Token) :
    ProgressAlike (finishEach tokens automata) (finishEach tokens automata') := by
  induction h with
  | nil => exact ⟨.nil, rfl, rfl⟩
  | cons hab _ ih =>
    obtain ⟨hfinished, hregion⟩ := hab.finish
    unfold finishEach
    dsimp only
    rw [hregion, ih.emitted]
    exact ⟨.cons hfinished ih.automata, rfl, ih.fault⟩

theorem runGroup_alike (h : automata.map Automaton.renew = automata'.map Automaton.renew)
    (pairs : PairTable) (tokens : List Token) :
    ProgressAlike (runGroup pairs tokens automata) (runGroup pairs tokens automata') := by
  have hreset : List.Forall₂ Automaton.Alike (automata.map Automaton.reset)
      (automata'.map Automaton.reset) := by
    rw [← List.forall₂_eq_eq_eq, List.forall₂_map_left_iff, List.forall₂_map_right_iff] at h
    rw [List.forall₂_map_left_iff, List.forall₂_map_right_iff]
    exact h.imp fun _ _ hab => Automaton.alike_reset (Automaton.sameMachine_of_renew hab)
  have hfed := feedAll_alike hreset pairs 0 tokens
  have hfinished := finishEach_alike hfed.automata tokens
  unfold runGroup
  dsimp only
  rw [hfed.fault]
  split
  · exact hfed
  · refine ⟨hfinished.automata, ?_, hfinished.fault⟩
    dsimp only
    rw [hfed.emitted, hfinished.emitted]

end Groups

/-- Groups of automata come to the same, but for those that a fault has kept from starting. -/
theorem runGroups_alike {groups groups' : List (List Automaton)}
    (h : groups.map (·.map Automaton.renew) = groups'.map (·.map Automaton.renew))
    (pairs : PairTable) (tokens : List Token) :
    (runGroups pairs tokens groups).fault = (runGroups pairs tokens groups').fault ∧
      (runGroups pairs tokens groups).emitted = (runGroups pairs tokens groups').emitted ∧
      ((runGroups pairs tokens groups).fault = none → List.Forall₂ Automaton.Alike
        (runGroups pairs tokens groups).automata (runGroups pairs tokens groups').automata) := by
  induction groups generalizing groups' with
  | nil =>
    cases groups' with
    | nil => exact ⟨rfl, rfl, fun _ => .nil⟩
    | cons group' rest' => cases h
  | cons group rest ih =>
    cases groups' with
    | nil => cases h
    | cons group' rest' =>
      obtain ⟨hgroup, hrest⟩ := List.cons.inj h
      obtain ⟨hfault, hemitted, hautomata⟩ := ih hrest
      have hfirst := runGroup_alike hgroup pairs tokens
      rw [runGroups, runGroups]
      dsimp only
      rw [hfirst.fault]
      cases hf : (runGroup pairs tokens group').fault with
      | some fault =>
        refine ⟨rfl, hfirst.emitted, fun hnone => ?_⟩
        cases hnone
      | none =>
        refine ⟨hfault, by dsimp only; rw [hfirst.emitted, hemitted], fun hnone => ?_⟩
        exact List.rel_append hfirst.automata (hautomata hnone)

theorem scanIn_alike (h : g.renew = g'.renew) {groups groups' : List (List Automaton)}
    (hgroups : groups.map (·.map Automaton.renew) = groups'.map (·.map Automaton.renew))
    (text : TaggedText) (input output : String) :
    (g.scanIn groups text input output).seen = (g'.scanIn groups' text input output).seen := by
  obtain ⟨-, hpairs, -, -⟩ := Grouper.mk.inj h
  unfold scanIn
  rw [stream_alike h, hpairs]
  cases g'.stream text input with
  | error e => rfl
  | ok tokens =>
    obtain ⟨hfault, hemitted, hautomata⟩ := runGroups_alike hgroups g'.pairs tokens
    dsimp only
    rw [hfault, hemitted]
    cases hf : (runGroups g'.pairs tokens groups').fault with
    | some fault => rfl
    | none =>
      dsimp only
      rw [project_alike (hautomata (hfault.trans hf))]
      cases project tokens.toArray (runGroups g'.pairs tokens groups').automata text input output
        <;> rfl

theorem scan_alike (h : g.renew = g'.renew) (text : TaggedText) (input output : String) :
    (g.scan text input output).seen = (g'.scan text input output).seen := by
  obtain ⟨-, -, hautomata, -⟩ := Grouper.mk.inj h
  refine scanIn_alike h ?_ text input output
  rw [List.map_singleton, List.map_singleton, hautomata]

theorem scanParallel_alike (h : g.renew = g'.renew) (text : TaggedText) (input output : String) :
    (g.scanParallel text input output).seen = (g'.scanParallel text input output).seen := by
  obtain ⟨-, -, hautomata, -⟩ := Grouper.mk.inj h
  refine scanIn_alike h ?_ text input output
  have hsingle (automata : List Automaton) :
      (automata.map ([·])).map (·.map Automaton.renew)
        = (automata.map Automaton.renew).map ([·]) := by
    simp [Function.comp_def]
  rw [hsingle, hsingle, hautomata]

/-! ## Histories -/

/-- A scan keeps the names, tags and patterns of the automata, the pairs and the skipped tags. -/
theorem renew_outcome (ho : g.Outcome text input output o) : o.grouper.renew = g.renew := by
  have hscanned (tokens : List Token) (schedule : List Nat) :
      (g.scanned tokens schedule).automata.map Automaton.renew
        = g.automata.map Automaton.renew := by
    unfold scanned
    rw [Scan.renew_run, Scan.start, Scan.automata, List.map_map]
    simp [Function.comp_def]
  cases ho with
  | unread hs => rfl
  | fault schedule hs hlane hstop => exact congrArg (Grouper.mk _ _ · _) (hscanned _ schedule)
  | @ended tokens schedule hs hended =>
    have htaken : ((g.scanned tokens schedule).automata.map (·.takeCompleted.1)).map
        Automaton.renew = g.automata.map Automaton.renew := by
      rw [List.map_map, ← hscanned tokens schedule]
      rfl
    unfold conclude
    cases project tokens.toArray (g.scanned tokens schedule).automata text input output <;>
      exact congrArg (Grouper.mk _ _ · _) htaken

/-- The groupers that come about from one by scans, side by side or parallel, of any texts, those
that fail included. -/
inductive Used (g : Grouper) : Grouper → Prop
  | unused : Used g g
  | scan {g' : Grouper} {text : TaggedText} {input output : String} {o : ScanOutcome} :
      Used g g' → g'.Outcome text input output o → Used g o.grouper

theorem Used.renew_eq (h : g.Used g') : g'.renew = g.renew := by
  induction h with
  | unused => rfl
  | scan _ ho ih => exact (renew_outcome ho).trans ih

theorem renew_renew (g : Grouper) : g.renew.renew = g.renew := by
  unfold renew
  rw [List.map_map]
  rfl

end Grouper

end TagLayers
