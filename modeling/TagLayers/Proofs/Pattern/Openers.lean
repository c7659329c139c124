import TagLayers.Proofs.Pattern.Steps

/-!
# Stale openers

The index of the token that opened a region is written when a region is opened and read when the
stream ends in one. Nothing clears it: it is still there when the region is over, when the attempt
is dropped and when the automaton is reset. Two automata that differ only in an opener of this kind
go through any calls side by side, give the same results, and differ in nothing else.

Results:
1. `Alike.step`, `Alike.run`: the relation, along one step and until the token is done with.
2. `Alike.feed`, `Alike.finish`: the calls give the same.
3. `alike_reset`: resets bring automata of the same name, tag and pattern together.
-/

namespace TagLayers.Automaton

/-- The automata differ at most in the opener, and not in that of an open region. -/
inductive Alike (a : Automaton) : Automaton → Prop
  | intro (opener : Nat) : (a.attempt.inside = true → opener = a.opener) → Alike a { a with opener }

/-- A call leaves the automata alike and gives the same. -/
structure Together {α : Type} (x y : Automaton × α) : Prop where
  alike : x.1.Alike y.1
  same : x.2 = y.2

/-- A step fails for the same reason, or leaves the automata alike with the same move. -/
inductive StepsTogether :
    Except PatternError (Automaton × Move) → Except PatternError (Automaton × Move) → Prop
  | error (fault : PatternError) : StepsTogether (.error fault) (.error fault)
  | ok {x y : Automaton × Move} : Together x y → StepsTogether (.ok x) (.ok y)

theorem StepsTogether.of_error {x y : Except PatternError (Automaton × Move)}
    {fault : PatternError} (h : StepsTogether x y) (hx : x = .error fault) : y = .error fault := by
  cases h with
  | error => exact hx
  | ok => cases hx

theorem StepsTogether.of_ok {x y : Except PatternError (Automaton × Move)} {a : Automaton}
    {move : Move} (h : StepsTogether x y) (hx : x = .ok (a, move)) :
    ∃ b, y = .ok (b, move) ∧ a.Alike b := by
  cases h with
  | error => cases hx
  | @ok x y htogether =>
    obtain rfl := Except.ok.inj hx
    have hmove : move = y.2 := htogether.same
    exact ⟨y.1, by rw [hmove], htogether.alike⟩

variable {a b : Automaton} {entry : TagEntry} {i : Nat} {token : Token} {pairs : PairTable}

namespace Alike

theorem refl (a : Automaton) : a.Alike a := .intro a.opener fun _ => rfl

theorem attempt_eq (h : a.Alike b) : b.attempt = a.attempt := by
  cases h
  rfl

theorem sameMachine (h : a.Alike b) : a.SameMachine b := by
  cases h
  exact ⟨rfl, rfl, rfl⟩

theorem completed_eq (h : a.Alike b) : b.completed = a.completed := by
  cases h
  rfl

/-! ## Steps -/

theorem restart (h : a.Alike b) : a.restart.Alike b.restart := by
  cases h with
  | intro opener => exact .intro opener fun hin => nomatch hin

theorem complete (h : a.Alike b) : a.complete.Alike b.complete := by
  cases h with
  | intro opener => exact .intro opener fun hin => nomatch hin

theorem consume (h : a.Alike b) (i : Nat) : (a.consume i).Alike (b.consume i) := by
  cases h with
  | intro opener ho => exact .intro opener ho

theorem leaveOut (h : a.Alike b) : a.leaveOut.Alike b.leaveOut := by
  cases h with
  | intro opener ho => exact .intro opener ho

theorem moveTo (h : a.Alike b) (cursor : Cursor) (used : Bool) :
    Together (a.moveTo cursor used) (b.moveTo cursor used) := by
  cases h with
  | intro opener ho =>
    have hmoved : Alike { a with attempt := { a.attempt with cursor } }
        { a with attempt := { a.attempt with cursor }, opener } := .intro opener ho
    unfold Automaton.moveTo
    split
    · exact ⟨hmoved.complete, rfl⟩
    · exact ⟨hmoved, rfl⟩

theorem advance (h : a.Alike b) (used : Bool) : Together (a.advance used) (b.advance used) := by
  unfold Automaton.advance
  rw [h.attempt_eq]
  exact h.moveTo _ used

theorem miss (h : a.Alike b) : Together a.miss b.miss := by
  unfold Automaton.miss
  rw [h.attempt_eq]
  split
  · exact h.moveTo _ false
  · exact ⟨h.restart, rfl⟩

theorem takeInside (h : a.Alike b) (entry : TagEntry) (i : Nat) (token : Token)
    (pairs : PairTable) :
    Together (a.takeInside entry i token pairs) (b.takeInside entry i token pairs) := by
  cases h with
  | intro opener ho =>
    have hdepth : Automaton.depthAfter { a with opener } entry token pairs
        = a.depthAfter entry token pairs := rfl
    unfold Automaton.takeInside
    rw [hdepth]
    split
    · have hleft : (((a.consume i).setDepth 0).leaveRegion).Alike
          (((Automaton.consume { a with opener } i).setDepth 0).leaveRegion) :=
        .intro opener fun hin => nomatch hin
      exact hleft.advance true
    · exact ⟨.intro opener ho, rfl⟩

/-- A region that is opened has the same opener in both. -/
theorem openRegion (h : a.Alike b) (entry : TagEntry) (i : Nat) (pairs : PairTable) :
    StepsTogether (a.openRegion entry i pairs) (b.openRegion entry i pairs) := by
  cases h with
  | intro opener ho =>
    unfold Automaton.openRegion
    split
    · exact .error _
    · exact .ok ⟨.refl _, rfl⟩

theorem offer (h : a.Alike b) (entry : TagEntry) (i : Nat) (token : Token) (pairs : PairTable) :
    StepsTogether (a.offer entry i token pairs) (b.offer entry i token pairs) := by
  unfold Automaton.offer
  rw [h.attempt_eq]
  cases entry.mode with
  | optional =>
    dsimp only
    split
    · exact .ok ((h.consume i).advance true)
    · exact .ok (h.advance false)
  | mandatory =>
    dsimp only
    split
    · exact .ok ((h.consume i).advance true)
    · exact .ok h.miss
  | collect =>
    dsimp only
    split
    · exact .ok ((h.consume i).advance true)
    · exact .ok ⟨h.consume i, rfl⟩
  | collectDrop =>
    dsimp only
    split
    · exact .ok (h.leaveOut.advance true)
    · exact .ok ⟨h.consume i, rfl⟩
  | complete =>
    dsimp only
    split
    · exact .ok (h.takeInside entry i token pairs)
    · split
      · exact h.openRegion entry i pairs
      · exact .ok h.miss

theorem step (h : a.Alike b) (i : Nat) (token : Token) (pairs : PairTable) :
    StepsTogether (a.step i token pairs) (b.step i token pairs) := by
  have htrips (entry : TagEntry) : b.trips entry token = a.trips entry token := by
    cases h
    rfl
  have hexpected (entry : TagEntry) : b.expected entry = a.expected entry := by
    cases h
    rfl
  unfold Automaton.step
  rw [h.attempt_eq]
  split
  · exact .ok ⟨h, rfl⟩
  · next entry _ =>
    rw [htrips, hexpected]
    split
    · exact .ok ⟨h.restart, rfl⟩
    · exact h.offer entry i token pairs

/-! ## Calls -/

theorem run (h : a.Alike b) (i : Nat) (token : Token) (pairs : PairTable) :
    Together (a.run i token pairs) (b.run i token pairs) := by
  fun_induction Automaton.run a i token pairs generalizing b with
  | case1 a fault ha =>
    rw [run_of_error ((h.step i token pairs).of_error ha)]
    exact ⟨h, rfl⟩
  | case2 a a' ha =>
    obtain ⟨b', hb, halike⟩ := (h.step i token pairs).of_ok ha
    rw [run_of_next hb]
    exact ⟨halike, rfl⟩
  | case3 a a' tag ha =>
    obtain ⟨b', hb, halike⟩ := (h.step i token pairs).of_ok ha
    rw [run_of_mismatch hb]
    exact ⟨halike, rfl⟩
  | case4 a a' ha ih =>
    obtain ⟨b', hb, halike⟩ := (h.step i token pairs).of_ok ha
    rw [run_of_again hb]
    exact ih halike

/-- Fed the same token, the automata report the same and are alike again. -/
theorem feed (h : a.Alike b) (i : Nat) (token : Token) (pairs : PairTable) :
    Together (a.feed i token pairs) (b.feed i token pairs) := by
  have hname : b.name = a.name := h.sameMachine.1
  obtain ⟨hfirst, hsame⟩ := h.run i token pairs
  unfold Automaton.feed
  rcases ha : a.run i token pairs with ⟨a', fault | _ | tag⟩ <;>
    rcases hb : b.run i token pairs with ⟨b', result⟩ <;>
    rw [ha, hb] at hfirst hsame <;> obtain rfl := hsame
  · exact ⟨hfirst, rfl⟩
  · exact ⟨hfirst, rfl⟩
  · -- a guard has ended both attempts, and both automata are offered the token again
    obtain ⟨hsecond, hsame⟩ := hfirst.run i token pairs
    dsimp only at hsecond hsame ⊢
    rcases ha' : a'.run i token pairs with ⟨a'', fault | result⟩ <;>
      rcases hb' : b'.run i token pairs with ⟨b'', result'⟩ <;>
      rw [ha', hb'] at hsecond hsame <;> obtain rfl := hsame
    · exact ⟨hsecond, rfl⟩
    · exact ⟨hsecond, by rw [hname]⟩

/-- At the end of the stream the region that is reported has the same opener. -/
theorem finish (h : a.Alike b) : Together a.finish b.finish := by
  cases h with
  | intro opener ho =>
    have h : a.Alike { a with opener } := .intro opener ho
    unfold Automaton.finish
    split
    · next hin => exact ⟨h.restart, by rw [ho hin]⟩
    · split
      · exact ⟨h.complete, rfl⟩
      · exact ⟨h.restart, rfl⟩

end Alike

/-- Whatever a reset leaves behind is an opener of no open region. -/
theorem alike_reset (h : a.SameMachine b) : a.reset.Alike b.reset := by
  obtain ⟨name, tag, pattern, attempt, completed, opener⟩ := a
  obtain ⟨name', tag', pattern', attempt', completed', opener'⟩ := b
  obtain ⟨rfl, rfl, rfl⟩ := h
  exact .intro opener' fun hin => nomatch hin

end TagLayers.Automaton
