import TagLayers.Proofs.Grouping.Projection

/-!
# Orders of warnings

The schedule of a scan decides in which order the lanes come to report, and nothing else. So the
warnings of a scan are made of rows, one for each automaton, in which the warnings of the automaton
stand in the order of its own reports. Where only one row has anything in it there is one order.

Results:
1. `Merges`, `Interleaves`: lists that are made of others, each in its own order.
2. `Interleaves.perm`, `Interleaves.filter`, `Interleaves.eq_flatten`: what they have in common.
3. `Grouper.interleaves_log`, `Grouper.interleaves_shown`: the reports and the warnings of a scan.
-/

namespace TagLayers

variable {α β : Type}

/-- The last list is made of the other two, each in its own order. -/
inductive Merges : List α → List α → List α → Prop
  | nil : Merges [] [] []
  | left {x : α} {xs ys zs : List α} : Merges xs ys zs → Merges (x :: xs) ys (x :: zs)
  | right {y : α} {xs ys zs : List α} : Merges xs ys zs → Merges xs (y :: ys) (y :: zs)

/-- The list is made of the rows, each in its own order. -/
def Interleaves : List (List α) → List α → Prop
  | [], all => all = []
  | row :: rows, all => ∃ others, Interleaves rows others ∧ Merges row others all

namespace Merges

variable {xs ys zs : List α}

theorem perm (h : Merges xs ys zs) : zs.Perm (xs ++ ys) := by
  induction h with
  | nil => exact .nil
  | left _ ih => exact ih.cons _
  | right _ ih => exact (ih.cons _).trans List.perm_middle.symm

theorem filterMap (h : Merges xs ys zs) (f : α → Option β) :
    Merges (xs.filterMap f) (ys.filterMap f) (zs.filterMap f) := by
  induction h with
  | nil => exact .nil
  | @left x _ _ _ _ ih =>
    rw [List.filterMap_cons, List.filterMap_cons]
    cases f x with
    | none => exact ih
    | some _ => exact .left ih
  | @right y _ _ _ _ ih =>
    rw [List.filterMap_cons, List.filterMap_cons]
    cases f y with
    | none => exact ih
    | some _ => exact .right ih

theorem eq_right (h : Merges [] ys zs) : zs = ys := by
  generalize hxs : ([] : List α) = xs at h
  induction h with
  | nil => rfl
  | left => cases hxs
  | right _ ih => rw [ih hxs]

theorem eq_left (h : Merges xs [] zs) : zs = xs := by
  generalize hys : ([] : List α) = ys at h
  induction h with
  | nil => rfl
  | left _ ih => rw [ih hys]
  | right => cases hys

/-- A list is made of what passes a test and what does not. -/
theorem of_filter (p : α → Bool) (l : List α) :
    Merges (l.filter p) (l.filter fun x => !p x) l := by
  induction l with
  | nil => exact .nil
  | cons x l ih =>
    rw [List.filter_cons, List.filter_cons]
    cases p x with
    | true => exact .left ih
    | false => exact .right ih

theorem map (h : Merges xs ys zs) (f : α → β) : Merges (xs.map f) (ys.map f) (zs.map f) := by
  rw [← List.filterMap_eq_map]
  exact h.filterMap _

end Merges

namespace Interleaves

variable {rows : List (List α)} {all : List α}

/-- The list has what the rows have, each as often. -/
theorem perm (h : Interleaves rows all) : all.Perm rows.flatten := by
  induction rows generalizing all with
  | nil => exact h ▸ .nil
  | cons row rows ih =>
    obtain ⟨others, hothers, hmerges⟩ := h
    exact hmerges.perm.trans ((ih hothers).append_left row)

theorem filterMap (h : Interleaves rows all) (f : α → Option β) :
    Interleaves (rows.map (·.filterMap f)) (all.filterMap f) := by
  induction rows generalizing all with
  | nil => exact congrArg (·.filterMap f) h
  | cons row rows ih =>
    obtain ⟨others, hothers, hmerges⟩ := h
    exact ⟨others.filterMap f, ih hothers, hmerges.filterMap f⟩

theorem filter (h : Interleaves rows all) (p : α → Bool) :
    Interleaves (rows.map (·.filter p)) (all.filter p) := by
  rw [← List.filterMap_eq_filter]
  exact h.filterMap _

/-- Where only one row has anything in it the list is that row. -/
theorem eq_flatten (h : Interleaves rows all)
    (hone : rows.Pairwise fun row row' => row = [] ∨ row' = []) : all = rows.flatten := by
  induction rows generalizing all with
  | nil => exact h
  | cons row rows ih =>
    obtain ⟨others, hothers, hmerges⟩ := h
    obtain ⟨hrow, hrows⟩ := List.pairwise_cons.mp hone
    obtain rfl := ih hothers hrows
    rw [List.flatten_cons]
    by_cases hempty : row = []
    · subst hempty
      exact hmerges.eq_right
    · have hnone : rows.flatten = [] :=
        List.flatten_eq_nil_iff.mpr fun row' hrow' => (hrow row' hrow').resolve_left hempty
      rw [hnone] at hmerges ⊢
      rw [hmerges.eq_left, List.append_nil]

/-- Where the rows on both sides of one are empty the list is that row. -/
theorem eq_row {front back : List (List α)} {row : List α}
    (h : Interleaves (front ++ row :: back) all) (hfront : ∀ r ∈ front, r = [])
    (hback : ∀ r ∈ back, r = []) : all = row := by
  induction front generalizing all with
  | nil =>
    obtain ⟨others, hothers, hmerges⟩ := h
    have hnone : others = [] := by
      have hperm := hothers.perm
      rw [List.flatten_eq_nil_iff.mpr hback] at hperm
      exact hperm.eq_nil
    rw [hnone] at hmerges
    exact hmerges.eq_left
  | cons first front ih =>
    obtain ⟨others, hothers, hmerges⟩ := h
    obtain ⟨rfl, hrest⟩ := List.forall_mem_cons.mp hfront
    rw [hmerges.eq_right]
    exact ih hothers hrest

/-- A list is made of rows when each of its elements can be labelled with the index of its row. -/
theorem of_labels {log : List (Nat × α)}
    (h : ∀ k, (log.filter (·.1 == k)).map (·.2) = rows[k]?.getD []) :
    Interleaves rows (log.map (·.2)) := by
  induction rows generalizing log with
  | nil =>
    have hnone (entry : Nat × α) : entry ∉ log := by
      intro hmem
      have hfilter : entry ∈ log.filter (·.1 == entry.1) :=
        List.mem_filter.mpr ⟨hmem, beq_self_eq_true entry.1⟩
      rw [List.map_eq_nil_iff.mp (h entry.1)] at hfilter
      cases hfilter
    rw [List.eq_nil_iff_forall_not_mem.mpr hnone]
    rfl
  | cons row rows ih =>
    -- the rows after the first one are labelled from 1 on
    let lower (entry : Nat × α) : Nat × α := (entry.1 - 1, entry.2)
    have hothers : Interleaves rows
        (((log.filter fun entry => !(entry.1 == 0)).map lower).map (·.2)) := ih fun k => by
      have hk := h (k + 1)
      rw [List.getElem?_cons_succ] at hk
      rw [← hk, List.filter_map, List.map_map, List.filter_filter]
      refine congrArg (List.map _) (List.filter_congr fun entry _ => ?_)
      obtain ⟨j, x⟩ := entry
      cases j <;> simp [lower]
    refine ⟨_, hothers, ?_⟩
    have hfirst : (log.filter (·.1 == 0)).map (·.2) = row := h 0
    have hmerges := (Merges.of_filter (fun entry : Nat × α => entry.1 == 0) log).map (·.2)
    rw [hfirst] at hmerges
    rw [List.map_map]
    exact hmerges

end Interleaves

/-! ## The reports of a scan -/

/-- The warnings about what an automaton reports when it has the stream to itself. -/
def Automaton.warnings (pairs : PairTable) (tokens : List Token) (a : Automaton) :
    List Diagnostic :=
  (Lane.alone pairs tokens a).2.filterMap (·.diagnostic? tokens)

namespace Grouper

variable {g : Grouper} {tokens : List Token} {schedule : List Nat}

/-- The warnings of each automaton. -/
def warnings (g : Grouper) (tokens : List Token) : List (List Diagnostic) :=
  g.automata.map (·.warnings g.pairs tokens)

/-- At the end of a scan each lane has reported what its automaton reports on its own. -/
theorem reports_scanned (h : ∀ lane ∈ (g.scanned tokens schedule).lanes, lane.phase = .ended)
    {k : Nat} {a : Automaton} (ha : g.automata[k]? = some a) :
    (g.scanned tokens schedule).reports k = (Lane.alone g.pairs tokens a).2 := by
  obtain ⟨hlt, -⟩ := List.getElem?_eq_some_iff.mp ha
  have hk : k < (g.scanned tokens schedule).lanes.length := by rwa [length_scanned]
  have hended := h _ (List.getElem_mem hk)
  exact (Scan.lane_eq_alone ha (List.getElem?_eq_getElem hk) (Lane.halted_of_ended hended)).2

theorem reports_of_none {k : Nat} (ha : g.automata[k]? = none) :
    (g.scanned tokens schedule).reports k = [] := by
  have hstart : (Scan.start g.automata).lanes[k]? = none := by
    rw [Scan.start, List.getElem?_map, ha]
    rfl
  exact Scan.run_reports_of_none hstart schedule

/-- The reports of a scan are made of those of its automata. -/
theorem interleaves_log (h : ∀ lane ∈ (g.scanned tokens schedule).lanes, lane.phase = .ended) :
    Interleaves (g.automata.map fun a => (Lane.alone g.pairs tokens a).2)
      ((g.scanned tokens schedule).log.map (·.2)) := by
  refine Interleaves.of_labels fun k => ?_
  rw [← Scan.reports, List.getElem?_map]
  cases ha : g.automata[k]? with
  | some a => exact reports_scanned h ha
  | none => exact reports_of_none ha

theorem interleaves_shown (h : ∀ lane ∈ (g.scanned tokens schedule).lanes, lane.phase = .ended) :
    Interleaves (g.warnings tokens) (Scan.shown tokens (g.scanned tokens schedule).log) := by
  have hwarnings := (interleaves_log h).filterMap (·.diagnostic? tokens)
  rw [List.map_map, List.filterMap_map] at hwarnings
  exact hwarnings

end Grouper

end TagLayers
