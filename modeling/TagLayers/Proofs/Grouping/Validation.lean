import TagLayers.Proofs.Grouping.Failures
import TagLayers.Proofs.Grouping.Totality

/-!
# Validation

A validation walks each pattern and asks for the closer of each entry that opens regions. An
automaton asks for a closer only when a token hits such an entry, and it comes to its entries by a
cursor that skips groups. Each entry that a cursor can rest on is one of the walk, whatever calls
have been made. So what has passed a validation never fails in a scan for want of a closer, and what
fails in a scan does not pass; the validation then names the first pattern at fault, which need not
be the one that has failed.

Results:
1. `Pattern.validate_eq_error_iff`, `validate_eq_error_iff`: what a validation names.
2. `Fails.exists_unclosed`: what feeds that fail have met.
3. `validate_sound`: validations and scans.
-/

namespace TagLayers

/-- The entry opens regions with a tag that has no closer in the table. -/
def TagEntry.Unclosed (pairs : PairTable) (e : TagEntry) : Prop :=
  e.mode = .complete ∧ pairs.closer? e.target = none

/-- A pattern that does not pass is named with the first entry of its walk without a closer. -/
theorem Pattern.validate_eq_error_iff {p : Pattern} {name : String} {pairs : PairTable}
    {fault : PatternError} :
    p.validate name pairs = .error fault ↔ ∃ front path e back,
      p.walk = front ++ (path, e) :: back ∧ (∀ item ∈ front, ¬item.2.Unclosed pairs) ∧
        e.Unclosed pairs ∧ fault = .undefinedCloser name e.target := by
  have hfind (item : List Nat × TagEntry) :
      p.walk.find? ((fun e => e.mode == .complete && (pairs.closer? e.target).isNone) ∘ (·.2))
          = some item ↔
        item.2.Unclosed pairs ∧ ∃ front back, p.walk = front ++ item :: back ∧
          ∀ x ∈ front, ¬x.2.Unclosed pairs := by
    simp [List.find?_eq_some_iff_append, TagEntry.Unclosed, imp_iff_not_or,
      Option.isSome_iff_ne_none]
  rw [validate, entries_eq_walk, List.find?_map]
  constructor
  · intro h
    split at h
    · next e' hmap =>
      cases h
      obtain ⟨⟨path, e⟩, hitem, rfl⟩ := Option.map_eq_some_iff.mp hmap
      obtain ⟨he, front, back, hwalk, hfront⟩ := (hfind _).mp hitem
      exact ⟨front, path, e, back, hwalk, hfront, he, rfl⟩
    · cases h
  · rintro ⟨front, path, e, back, hwalk, hfront, he, rfl⟩
    rw [(hfind (path, e)).mpr ⟨he, front, back, hwalk, hfront⟩]
    rfl

namespace Grouper

/-- Of the automata in order of registration `a` is the first whose pattern has an entry without a
closer, at any depth, and `e` is the first such entry of its walk. -/
structure FirstUnclosed (g : Grouper) (a : Automaton) (e : TagEntry) : Prop where
  registered : ∃ before after, g.automata = before ++ a :: after ∧
    ∀ b ∈ before, ∀ item ∈ b.pattern.walk, ¬item.2.Unclosed g.pairs
  walked : ∃ front path back, a.pattern.walk = front ++ (path, e) :: back ∧
    ∀ item ∈ front, ¬item.2.Unclosed g.pairs
  unclosed : e.Unclosed g.pairs

/-- Some feed of an automaton fails: in a scan, in whatever order the automata move, or in any state
that calls bring one with the same pattern to. -/
inductive Fails (g : Grouper) : PatternError → Prop
  | scan {tokens : List Token} {schedule : List Nat} {lane : Lane} {fault : PatternError} :
      lane ∈ (g.scanned tokens schedule).lanes → lane.phase = .stopped fault → Fails g fault
  | feed {a b : Automaton} {i : Nat} {token : Token} {fault : PatternError} : a ∈ g.automata →
      b.Reachable → b.pattern = a.pattern → (b.feed i token g.pairs).2 = .error fault →
      Fails g fault

variable {g : Grouper} {text : TaggedText} {input output : String} {fault : PatternError}

theorem validate_eq_error_iff :
    g.validate = .error fault ↔
      ∃ a e, g.FirstUnclosed a e ∧ fault = .undefinedCloser a.name e.target := by
  have hpass (b : Automaton) : b.pattern.validate b.name g.pairs = .ok () ↔
      ∀ item ∈ b.pattern.walk, ¬item.2.Unclosed g.pairs := by
    rw [Pattern.validate_eq_ok_iff, Pattern.entries_eq_walk, List.forall_mem_map]
    refine forall₂_congr fun item _ => ?_
    rw [TagEntry.Unclosed, not_and, ← ne_eq, ← Option.isSome_iff_ne_none]
  rw [validate, forM_eq_error_iff]
  constructor
  · rintro ⟨before, a, after, hautomata, hbefore, ha⟩
    obtain ⟨front, path, e, back, hwalk, hfront, he, rfl⟩ := Pattern.validate_eq_error_iff.mp ha
    exact ⟨a, e, ⟨⟨before, after, hautomata, fun b hb => (hpass b).mp (hbefore b hb)⟩,
      ⟨front, path, back, hwalk, hfront⟩, he⟩, rfl⟩
  · rintro ⟨a, e, hfirst, rfl⟩
    obtain ⟨before, after, hautomata, hbefore⟩ := hfirst.registered
    obtain ⟨front, path, back, hwalk, hfront⟩ := hfirst.walked
    exact ⟨before, a, after, hautomata, fun b hb => (hpass b).mpr (hbefore b hb),
      Pattern.validate_eq_error_iff.mpr ⟨front, path, e, back, hwalk, hfront, hfirst.unclosed, rfl⟩⟩

/-- A feed that fails has met an entry without a closer. -/
theorem Fails.exists_unclosed (h : g.Fails fault) :
    ∃ a ∈ g.automata, ∃ e ∈ a.pattern.entries, e.Unclosed g.pairs := by
  cases h with
  | scan hlane hstop =>
    obtain ⟨a, ha, e, he, hm, hcl, -⟩ := fault_of_stopped hlane hstop
    exact ⟨a, ha, e, he, hm, hcl⟩
  | @feed a b i token _ ha hb hpattern hfeed =>
    obtain ⟨e, he, hm, hcl, -⟩ := Automaton.feed_error hb.sound hfeed
    exact ⟨a, ha, e, hpattern ▸ he, hm, hcl⟩

/-- A scan fails for want of a closer when one of its automata does. -/
theorem Outcome.fails {o : ScanOutcome} (ho : g.Outcome text input output o)
    (h : o.result = .error (.pattern fault)) : g.Fails fault := by
  cases ho with
  | unread hs => cases h
  | fault schedule hs hlane hstop =>
    cases h
    exact .scan hlane hstop
  | @ended tokens schedule hs hended =>
    rw [conclude] at h
    split at h <;> cases h

/-- A validation is a sound check for what scans may fail with. Scans come to outcomes of some order
in which the automata move. When a grouper passes its validation, no feed of its automata fails, and
a scan of a text that comes about by tokenization and by calls can only fail for want of its input.
A scan that fails for want of a closer has had a feed that failed; and when a feed fails the grouper
does not pass, and what is named is the first pattern in order of registration with an entry that
has no closer, at any depth, and the first such entry. -/
theorem validate_sound (g : Grouper) :
    (∀ text input output, g.Outcome text input output (g.scan text input output) ∧
      g.Outcome text input output (g.scanParallel text input output)) ∧
    (g.validate = .ok () →
      (∀ fault, ¬g.Fails fault) ∧
      ∀ text : TaggedText, text.Made → ∀ input output o, g.Outcome text input output o →
        ∀ e, o.result = .error e → e = .tag (.unknownPerspective input) ∧
          text.perspectives.get? input = none) ∧
    (∀ text input output o fault, g.Outcome text input output o →
      o.result = .error (.pattern fault) → g.Fails fault) ∧
    ∀ fault, g.Fails fault →
      ∃ a e, g.FirstUnclosed a e ∧ g.validate = .error (.undefinedCloser a.name e.target) := by
  have rejected {fault : PatternError} (h : g.Fails fault) : g.validate ≠ .ok () := by
    intro hok
    obtain ⟨a, ha, e, he, hm, hcl⟩ := h.exists_unclosed
    have hsome := validate_eq_ok_iff.mp hok a ha e he hm
    rw [hcl] at hsome
    cases hsome
  refine ⟨fun text input output => ⟨outcome_scanIn (List.append_nil _),
    outcome_scanIn (List.flatMap_singleton' _)⟩, fun hok => ⟨fun fault h => rejected h hok, ?_⟩,
    fun text input output o fault ho h => ho.fails h, fun fault h => ?_⟩
  · intro text htext input output o ho e he
    have hsound := htext.reachable.sound
    cases ho with
    | unread hs =>
      cases he
      obtain ⟨hnone, rfl⟩ := (stream_eq_error_iff hsound).mp hs
      exact ⟨rfl, hnone⟩
    | fault schedule hs hlane hstop => exact absurd hok (rejected (.scan hlane hstop))
    | @ended tokens schedule hs hended =>
      -- the calls of the projection succeed
      have herror := (calls_scanned hsound output hs hended
        (Scan.shown tokens (g.scanned tokens schedule).log)).1
      rw [ScanOutcome.error?, he] at herror
      cases herror
  · cases hv : g.validate with
    | ok _ => exact absurd hv (rejected h)
    | error fault' =>
      obtain ⟨a, e, hfirst, rfl⟩ := validate_eq_error_iff.mp hv
      exact ⟨a, e, hfirst, rfl⟩

/-- Neither automaton has a closer for its entry. No token comes to that of the first, which lies in
a group. -/
def unclosedGrouper : Grouper :=
  ⟨⟨{}, [], [], [], {}⟩, {},
    [.new "asleep" (Tag.of 12)
        ((Pattern.nil.must (Tag.of 9)).maybe (Pattern.nil.complete (Tag.of 5))),
      .new "awake" (Tag.of 13) (Pattern.nil.complete (Tag.of 2))], []⟩

def closedGrouper : Grouper :=
  (unclosedGrouper.pair (Tag.of 2) (Tag.of 3)).pair (Tag.of 5) (Tag.of 3)

/-- The second automaton fails, and the first is named. With closers for both nothing fails. -/
theorem validate_sound_unclosedGrouper :
    (unclosedGrouper.scan markedText "top" "out").error?
        = some (.pattern (.undefinedCloser "awake" (Tag.of 2))) ∧
      (∃ a e, unclosedGrouper.FirstUnclosed a e ∧ a.name = "asleep" ∧ e.target = Tag.of 5) ∧
      closedGrouper.validate = .ok () ∧
      ∀ e, (closedGrouper.scan markedText "none" "out").result = .error e →
        e = .tag (.unknownPerspective "none") := by
  have herror : (unclosedGrouper.scan markedText "top" "out").error?
      = some (.pattern (.undefinedCloser "awake" (Tag.of 2))) := by
    decide +kernel
  have hnamed : unclosedGrouper.validate = .error (.undefinedCloser "asleep" (Tag.of 5)) := rfl
  have hpassed : closedGrouper.validate = .ok () := rfl
  obtain ⟨houtcome, -, hfails, hfirst⟩ := validate_sound unclosedGrouper
  obtain ⟨houtcome', hsound, -⟩ := validate_sound closedGrouper
  refine ⟨herror, ?_, hpassed, fun e he => ?_⟩
  · cases hresult : (unclosedGrouper.scan markedText "top" "out").result with
    | ok found =>
      rw [ScanOutcome.error?, hresult] at herror
      cases herror
    | error e =>
      rw [ScanOutcome.error?, hresult] at herror
      cases herror
      obtain ⟨a, e, hae, hvalidate⟩ := hfirst _ (hfails _ _ _ _ _ (houtcome _ _ _).1 hresult)
      rw [hnamed, Except.error.injEq, PatternError.undefinedCloser.injEq] at hvalidate
      exact ⟨a, e, hae, hvalidate.1.symm, hvalidate.2.symm⟩
  · exact ((hsound hpassed).2 _ reachable_markedText.made _ _ _ (houtcome' _ _ _).1 e he).1

end Grouper

end TagLayers
