/-!
# Runs that succeed

Calls, passes and checks are run one after the other and end at the first that fails. A run that
succeeds has run each of its steps, and what every step keeps holds at its end.

Results:
1. `bind_eq_ok`: two steps.
2. `foldlM_invariant_of_mem`, `foldlM_invariant`: what steps keep.
3. `mapM_eq_ok`, `forM_eq_ok_iff`, `forM_eq_error_iff`: steps that do not depend on each other.
4. `bind_eq_error`, `mapM_eq_error`, `foldlM_eq_error`: the step at which a run has failed.
-/

namespace TagLayers

variable {α β ε : Type}

theorem bind_eq_ok {x : Except ε α} {f : α → Except ε β} {b : β} :
    x >>= f = .ok b ↔ ∃ a, x = .ok a ∧ f a = .ok b := by
  cases x with
  | error e =>
    constructor
    · intro h
      cases h
    · rintro ⟨a, ha, -⟩
      cases ha
  | ok a =>
    constructor
    · intro h
      exact ⟨a, rfl, h⟩
    · rintro ⟨a', ha, h⟩
      cases ha
      exact h

theorem foldlM_invariant_of_mem {P : β → Prop} {step : β → α → Except ε β} {steps : List α}
    (hstep : ∀ x ∈ steps, ∀ b c, P b → step b x = .ok c → P c) {b c : β} (hb : P b)
    (h : steps.foldlM step b = .ok c) : P c := by
  induction steps generalizing b with
  | nil =>
    cases h
    exact hb
  | cons x rest ih =>
    rw [List.foldlM_cons] at h
    obtain ⟨next, hx, hrest⟩ := bind_eq_ok.mp h
    obtain ⟨hfirst, hlater⟩ := List.forall_mem_cons.mp hstep
    exact ih hlater (hfirst b next hb hx) hrest

theorem foldlM_invariant {P : β → Prop} {step : β → α → Except ε β}
    (hstep : ∀ {b c x}, P b → step b x = .ok c → P c) {b c : β} (hb : P b) {steps : List α}
    (h : steps.foldlM step b = .ok c) : P c :=
  foldlM_invariant_of_mem (fun _ _ _ _ hb hx => hstep hb hx) hb h

theorem mapM_eq_ok {f : α → Except ε β} {g : α → β} {l : List α}
    (h : ∀ x ∈ l, f x = .ok (g x)) : l.mapM f = .ok (l.map g) := by
  induction l with
  | nil => rfl
  | cons x rest ih =>
    obtain ⟨hx, hrest⟩ := List.forall_mem_cons.mp h
    rw [List.mapM_cons, hx, ih hrest]
    rfl

theorem exists_mapM_eq_ok {f : α → Except ε β} {l : List α} (h : ∀ x ∈ l, ∃ y, f x = .ok y) :
    ∃ ys, l.mapM f = .ok ys := by
  induction l with
  | nil => exact ⟨[], rfl⟩
  | cons x rest ih =>
    obtain ⟨⟨y, hy⟩, hrest⟩ := List.forall_mem_cons.mp h
    obtain ⟨ys, hys⟩ := ih hrest
    refine ⟨y :: ys, ?_⟩
    rw [List.mapM_cons, hy, hys]
    rfl

theorem bind_eq_error {x : Except ε α} {f : α → Except ε β} {e : ε} (h : x >>= f = .error e) :
    x = .error e ∨ ∃ a, x = .ok a ∧ f a = .error e := by
  cases x with
  | error e' =>
    cases h
    exact .inl rfl
  | ok a => exact .inr ⟨a, rfl, h⟩

theorem mapM_eq_error {f : α → Except ε β} {l : List α} {e : ε} (h : l.mapM f = .error e) :
    ∃ x ∈ l, f x = .error e := by
  induction l with
  | nil => cases h
  | cons x rest ih =>
    rw [List.mapM_cons] at h
    rcases bind_eq_error h with hx | ⟨_, -, h⟩
    · exact ⟨x, List.mem_cons_self, hx⟩
    · rcases bind_eq_error h with hrest | ⟨_, -, h⟩
      · obtain ⟨y, hy, he⟩ := ih hrest
        exact ⟨y, List.mem_cons_of_mem x hy, he⟩
      · cases h

theorem foldlM_eq_error {step : β → α → Except ε β} {steps : List α} {b : β} {e : ε}
    (h : steps.foldlM step b = .error e) : ∃ x ∈ steps, ∃ c, step c x = .error e := by
  induction steps generalizing b with
  | nil => cases h
  | cons x rest ih =>
    rw [List.foldlM_cons] at h
    rcases bind_eq_error h with hx | ⟨_, -, hrest⟩
    · exact ⟨x, List.mem_cons_self, b, hx⟩
    · obtain ⟨y, hy, c, he⟩ := ih hrest
      exact ⟨y, List.mem_cons_of_mem x hy, c, he⟩

theorem forM_eq_ok_iff {f : α → Except ε Unit} {l : List α} :
    l.forM f = .ok () ↔ ∀ x ∈ l, f x = .ok () := by
  induction l with
  | nil => exact ⟨fun _ => List.forall_mem_nil _, fun _ => rfl⟩
  | cons x rest ih =>
    rw [List.forall_mem_cons, ← ih]
    show (f x >>= fun _ => rest.forM f) = .ok () ↔ _
    rw [bind_eq_ok]
    constructor
    · rintro ⟨_, hx, hrest⟩
      exact ⟨hx, hrest⟩
    · rintro ⟨hx, hrest⟩
      exact ⟨(), hx, hrest⟩

/-- Checks that fail do so at the first one that fails. -/
theorem forM_eq_error_iff {f : α → Except ε Unit} {l : List α} {e : ε} :
    l.forM f = .error e ↔ ∃ before x after, l = before ++ x :: after ∧
      (∀ y ∈ before, f y = .ok ()) ∧ f x = .error e := by
  induction l with
  | nil =>
    refine ⟨fun h => (nomatch h), ?_⟩
    rintro ⟨before, x, after, h, -⟩
    cases before <;> cases h
  | cons first rest ih =>
    show (f first >>= fun _ => rest.forM f) = .error e ↔ _
    cases hf : f first with
    | error e' =>
      constructor
      · intro h
        cases h
        exact ⟨[], first, rest, rfl, List.forall_mem_nil _, hf⟩
      · rintro ⟨before, x, after, h, hbefore, hx⟩
        cases before with
        | nil =>
          cases h
          exact hf.symm.trans hx
        | cons y before =>
          cases h
          cases hf.symm.trans (hbefore first List.mem_cons_self)
    | ok _ =>
      refine ih.trans ⟨?_, ?_⟩
      · rintro ⟨before, x, after, rfl, hbefore, hx⟩
        exact ⟨first :: before, x, after, rfl, List.forall_mem_cons.mpr ⟨hf, hbefore⟩, hx⟩
      · rintro ⟨before, x, after, h, hbefore, hx⟩
        cases before with
        | nil =>
          cases h
          cases hf.symm.trans hx
        | cons y before =>
          cases h
          exact ⟨before, x, after, rfl, (List.forall_mem_cons.mp hbefore).2, hx⟩

end TagLayers
