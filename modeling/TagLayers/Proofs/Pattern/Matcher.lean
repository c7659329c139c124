import TagLayers.Pattern.Basic

/-!
# A recursive matcher

Matching by recursion on the pattern, with neither cursor nor frames. The entries are run from
left to right on the tokens that are still unread:

* an optional entry takes a hit, and otherwise takes nothing;
* a mandatory entry takes a hit, and otherwise fails;
* a collecting entry takes every token up to the first hit, which it takes or leaves out;
* an entry for regions fails unless the first token is a hit, and then takes every token through
  the one that brings the count of openers and closers back to zero;
* a group runs its body, and one that may be absent is passed over when its body fails at the
  token at which the group began;
* any other failure ends the attempt, and the token that failed is not offered again.

An attempt that runs through the whole pattern records what it has taken, if anything. The next
attempt begins at the next token that has been offered to no entry.

Results:
1. `read_from`: a verdict accounts for every token.
2. `read_passed`: a pattern with an entry cannot pass without a look at a token.
3. `recordsFrom_eq`: hence the attempts follow each other until the tokens end.
-/

namespace TagLayers

/-- How far an attempt has read. -/
structure Reading where
  next : Nat
  unread : List Token
  /-- The indices of the tokens taken. -/
  taken : List Nat := []
  /-- An entry of this attempt has refused the next unread token. -/
  refused : Bool := false

namespace Reading

def take (r : Reading) : Reading := ⟨r.next + 1, r.unread.tail, r.taken ++ [r.next], false⟩

def leaveOut (r : Reading) : Reading := ⟨r.next + 1, r.unread.tail, r.taken, false⟩

def refuse (r : Reading) : Reading := { r with refused := true }

/-- The tokens that no entry has been offered. -/
def left (r : Reading) : List Token := if r.refused then r.unread.tail else r.unread

end Reading

/-- What comes of entries that are run on the unread tokens. -/
inductive Verdict where
  | passed (r : Reading)
  /-- The token at an index made the entries fail; the tokens after it follow. -/
  | failed (index : Nat) (after : List Token)
  /-- The tokens have ended before it was decided. -/
  | waiting

def Verdict.andThen (v : Verdict) (f : Reading → Verdict) : Verdict :=
  match v with
  | passed r => f r
  | failed index after => failed index after
  | waiting => waiting

namespace TagEntry

def collectFrom (e : TagEntry) (keep : Bool) (next : Nat) (taken : List Nat) :
    List Token → Verdict
  | [] => .waiting
  | token :: rest =>
      if e.hits token then
        .passed ⟨next + 1, rest, if keep then taken ++ [next] else taken, false⟩
      else collectFrom e keep (next + 1) (taken ++ [next]) rest

def regionFrom (e : TagEntry) (pairs : PairTable) (closer : Tag) (count next : Nat)
    (taken : List Nat) : List Token → Verdict
  | [] => .waiting
  | token :: rest =>
      if token.tag.meets closer then
        if count ≤ 1 then .passed ⟨next + 1, rest, taken ++ [next], false⟩
        else regionFrom e pairs closer (count - 1) (next + 1) (taken ++ [next]) rest
      else if e.hits token || pairs.closer? token.tag == some closer then
        regionFrom e pairs closer (count + 1) (next + 1) (taken ++ [next]) rest
      else regionFrom e pairs closer count (next + 1) (taken ++ [next]) rest

/-- Runs one entry. -/
def read (pairs : PairTable) (e : TagEntry) (r : Reading) : Verdict :=
  match r.unread with
  | [] => .waiting
  | token :: rest =>
      match e.mode with
      | .optional => .passed (if e.hits token then r.take else r.refuse)
      | .mandatory => if e.hits token then .passed r.take else .failed r.next rest
      | .collect => e.collectFrom true r.next r.taken r.unread
      | .collectDrop => e.collectFrom false r.next r.taken r.unread
      | .complete =>
          match e.hits token, pairs.closer? e.target with
          | true, some closer =>
              e.regionFrom pairs closer 1 (r.next + 1) (r.taken ++ [r.next]) rest
          | _, _ => .failed r.next rest

end TagEntry

namespace Pattern

/-- Runs the entries of a pattern from left to right. -/
def read (pairs : PairTable) : Pattern → Reading → Verdict
  | nil, r => .passed r
  | item e rest, r => (e.read pairs r).andThen (read pairs rest)
  | group optional body rest, r =>
      match read pairs body r with
      | .passed r' => read pairs rest r'
      | .failed index after =>
          if optional && index == r.next then read pairs rest r.refuse
          else .failed index after
      | .waiting => .waiting

end Pattern

namespace Verdict

def record : Verdict → List (List Nat)
  | passed r => if r.taken = [] then [] else [r.taken]
  | _ => []

def resume? : Verdict → Option (Nat × List Token)
  | passed r => some (if r.refused then r.next + 1 else r.next, r.left)
  | failed index after => some (index + 1, after)
  | waiting => none

end Verdict

namespace Pattern

/-- What one attempt after the other records from the tokens, the first of which has index `i`.
An attempt that reads nothing, as without entries, is the last one. -/
def recordsFrom (pairs : PairTable) (p : Pattern) (i : Nat) (tokens : List Token) :
    List (List Nat) :=
  let v := p.read pairs { next := i, unread := tokens }
  v.record ++
    match v.resume? with
    | some (j, rest) => if rest.length < tokens.length then recordsFrom pairs p j rest else []
    | none => []
termination_by tokens.length

/-- What the recursive matcher records from a stream of tokens. -/
def records (pairs : PairTable) (p : Pattern) (tokens : List Token) : List (List Nat) :=
  p.recordsFrom pairs 0 tokens

end Pattern

/-! ## Every token is accounted for -/

/-- The verdict is one on the tokens that `r` has not read. -/
def Verdict.From (r : Reading) : Verdict → Prop
  | passed r' => r.next ≤ r'.next ∧ r'.next + r'.unread.length = r.next + r.unread.length
  | failed index after => r.next ≤ index ∧ index + 1 + after.length = r.next + r.unread.length
  | waiting => True

theorem Verdict.From.trans {r r' : Reading} {v : Verdict} (h : (passed r').From r)
    (hv : v.From r') : v.From r := by
  obtain ⟨h1, h2⟩ := h
  cases v with
  | passed r'' => exact ⟨Nat.le_trans h1 hv.1, hv.2.trans h2⟩
  | failed index after => exact ⟨Nat.le_trans h1 hv.1, hv.2.trans h2⟩
  | waiting => trivial

theorem Verdict.From.andThen {r : Reading} {v : Verdict} {f : Reading → Verdict}
    (h : v.From r) (hf : ∀ r', (f r').From r') : (v.andThen f).From r := by
  cases v with
  | passed r' => exact h.trans (hf r')
  | failed index after => exact h
  | waiting => trivial

namespace TagEntry

theorem collectFrom_from {e : TagEntry} {keep : Bool} {next : Nat} {taken : List Nat}
    {tokens : List Token} {v : Verdict} (h : e.collectFrom keep next taken tokens = v) :
    v = .waiting ∨ ∃ r', v = .passed r' ∧ next < r'.next ∧ r'.refused = false ∧
      r'.next + r'.unread.length = next + tokens.length := by
  induction tokens generalizing next taken with
  | nil => exact .inl h.symm
  | cons token rest ih =>
    rw [collectFrom] at h
    split at h
    · refine .inr ⟨_, h.symm, Nat.lt_succ_self _, rfl, ?_⟩
      show next + 1 + rest.length = next + (rest.length + 1)
      omega
    · rcases ih h with hw | ⟨r', hp, hlt, href, hlen⟩
      · exact .inl hw
      · exact .inr ⟨r', hp, by omega, href, by rw [List.length_cons]; omega⟩

theorem regionFrom_from {e : TagEntry} {pairs : PairTable} {closer : Tag} {count next : Nat}
    {taken : List Nat} {tokens : List Token} {v : Verdict}
    (h : e.regionFrom pairs closer count next taken tokens = v) :
    v = .waiting ∨ ∃ r', v = .passed r' ∧ next < r'.next ∧ r'.refused = false ∧
      r'.next + r'.unread.length = next + tokens.length := by
  induction tokens generalizing count next taken with
  | nil => exact .inl h.symm
  | cons token rest ih =>
    -- whatever the count becomes, the rest of the region is read from the next token on
    have later {count' : Nat}
        (h : e.regionFrom pairs closer count' (next + 1) (taken ++ [next]) rest = v) :
        v = .waiting ∨ ∃ r', v = .passed r' ∧ next < r'.next ∧ r'.refused = false ∧
          r'.next + r'.unread.length = next + (token :: rest).length := by
      rcases ih h with hw | ⟨r', hp, hlt, href, hlen⟩
      · exact .inl hw
      · exact .inr ⟨r', hp, by omega, href, by rw [List.length_cons]; omega⟩
    rw [regionFrom] at h
    split at h
    · split at h
      · refine .inr ⟨_, h.symm, Nat.lt_succ_self _, rfl, ?_⟩
        show next + 1 + rest.length = next + (rest.length + 1)
        omega
      · exact later h
    · split at h <;> exact later h

/-- An entry fails at the first unread token, or passes after it has looked at that token. -/
theorem read_cases (pairs : PairTable) (e : TagEntry) (r : Reading) :
    e.read pairs r = .waiting ∨
    (∃ token rest, r.unread = token :: rest ∧ e.read pairs r = .failed r.next rest) ∨
    (∃ token rest, r.unread = token :: rest ∧ e.read pairs r = .passed r.refuse) ∨
    ∃ r', e.read pairs r = .passed r' ∧ r.next < r'.next ∧ r'.refused = false ∧
      r'.next + r'.unread.length = r.next + r.unread.length := by
  rw [read]
  split
  · exact .inl rfl
  · next token rest hu =>
    have taken : r.next < r.take.next ∧ r.take.refused = false ∧
        r.take.next + r.take.unread.length = r.next + r.unread.length := by
      refine ⟨Nat.lt_succ_self _, rfl, ?_⟩
      simp only [Reading.take, hu, List.tail_cons, List.length_cons]
      omega
    cases e.mode with
    | optional =>
      cases e.hits token with
      | false => exact .inr (.inr (.inl ⟨token, rest, hu, rfl⟩))
      | true => exact .inr (.inr (.inr ⟨_, rfl, taken⟩))
    | mandatory =>
      cases e.hits token with
      | false => exact .inr (.inl ⟨token, rest, hu, rfl⟩)
      | true => exact .inr (.inr (.inr ⟨_, rfl, taken⟩))
    | collect | collectDrop =>
      rcases collectFrom_from (e := e) rfl with hw | ⟨r', hp, h⟩
      · exact .inl hw
      · exact .inr (.inr (.inr ⟨r', hp, h⟩))
    | complete =>
      cases e.hits token with
      | false => exact .inr (.inl ⟨token, rest, hu, rfl⟩)
      | true =>
        cases pairs.closer? e.target with
        | none => exact .inr (.inl ⟨token, rest, hu, rfl⟩)
        | some closer =>
          rcases regionFrom_from (e := e) rfl with hw | ⟨r', hp, hlt, href, hlen⟩
          · exact .inl hw
          · refine .inr (.inr (.inr ⟨r', hp, by omega, href, ?_⟩))
            rw [hlen, hu, List.length_cons]
            omega

theorem read_from (pairs : PairTable) (e : TagEntry) (r : Reading) :
    (e.read pairs r).From r := by
  rcases e.read_cases pairs r with h | ⟨token, rest, hu, h⟩ | ⟨_, _, _, h⟩ | ⟨r', h, hlt, -, hlen⟩
    <;> rw [h]
  · trivial
  · exact ⟨Nat.le_refl _, by rw [hu, List.length_cons]; omega⟩
  · exact ⟨Nat.le_refl _, rfl⟩
  · exact ⟨Nat.le_of_lt hlt, hlen⟩

end TagEntry

namespace Pattern

/-- A verdict accounts for every token: it comes after what was read, and what it leaves is the
rest of the tokens. -/
theorem read_from (pairs : PairTable) (p : Pattern) (r : Reading) : (p.read pairs r).From r := by
  induction p generalizing r with
  | nil => exact ⟨Nat.le_refl _, rfl⟩
  | item e rest ih => exact (e.read_from pairs r).andThen ih
  | group optional body rest ihb ihr =>
    have hb := ihb r
    rw [read]
    split <;> rename_i hv <;> rw [hv] at hb
    · exact hb.trans (ihr _)
    · split
      · exact ihr r.refuse
      · exact hb
    · trivial

theorem read_of_entries_nil (pairs : PairTable) {p : Pattern} (h : p.entries = [])
    (r : Reading) : p.read pairs r = .passed r := by
  induction p generalizing r with
  | nil => rfl
  | item e rest => cases h
  | group optional body rest ihb ihr =>
    rw [entries, List.append_eq_nil_iff] at h
    rw [read, ihb h.1]
    exact ihr h.2 r

end Pattern

/-- The reading `r'` comes after `r` and has looked at a token that `r` had not read. -/
def Reading.Looked (r r' : Reading) : Prop := r'.left.length < r.unread.length

theorem Reading.Looked.trans {r r1 r2 : Reading} {none : Prop} (h : r.Looked r1)
    (hle : (Verdict.passed r1).From r) (h2 : (none ∧ r2 = r1) ∨ r1.Looked r2) : r.Looked r2 := by
  obtain ⟨h1, hlen⟩ := hle
  rcases h2 with ⟨-, rfl⟩ | h2
  · exact h
  · rw [Looked] at h2 ⊢
    omega

theorem TagEntry.looked_of_passed {pairs : PairTable} {e : TagEntry} {r r' : Reading}
    (h : e.read pairs r = .passed r') : r.Looked r' := by
  rcases e.read_cases pairs r with hv | ⟨_, _, _, hv⟩ | ⟨token, rest, hu, hv⟩ | ⟨_, hv, hlt, hf, hl⟩
    <;> rw [hv] at h <;> cases h
  · simp [Reading.Looked, Reading.left, Reading.refuse, hu]
  · rw [Reading.Looked, Reading.left, hf, if_neg Bool.false_ne_true]
    omega

namespace Pattern

/-- A pattern passes without a look at a token only if it has no entry. -/
theorem read_passed {pairs : PairTable} {p : Pattern} {r r' : Reading}
    (h : p.read pairs r = .passed r') : (p.entries = [] ∧ r' = r) ∨ r.Looked r' := by
  induction p generalizing r r' with
  | nil =>
    cases h
    exact .inl ⟨rfl, rfl⟩
  | item e rest ih =>
    rw [read] at h
    cases he : e.read pairs r with
    | passed r1 =>
      rw [he] at h
      have hle := (he ▸ e.read_from pairs r : (Verdict.passed r1).From r)
      exact .inr ((e.looked_of_passed he).trans hle (ih h))
    | failed index after => rw [he] at h; cases h
    | waiting => rw [he] at h; cases h
  | group optional body rest ihb ihr =>
    rw [read] at h
    split at h
    · next r1 hb =>
      have hle := (hb ▸ body.read_from pairs r : (Verdict.passed r1).From r)
      rcases ihb hb with ⟨hnil, rfl⟩ | hl
      · rcases ihr h with ⟨hnil', rfl⟩ | hl'
        · exact .inl ⟨by rw [entries, hnil, hnil', List.nil_append], rfl⟩
        · exact .inr hl'
      · exact .inr (hl.trans hle (ihr h))
    · next index after hb =>
      split at h
      · -- the token at which the body failed was unread before, and is refused now
        have hf := (hb ▸ body.read_from pairs r : (Verdict.failed index after).From r)
        have hl : r.Looked r.refuse := by
          obtain ⟨h1, h2⟩ := hf
          show r.unread.tail.length < r.unread.length
          rw [List.length_tail]
          omega
        exact .inr (hl.trans ⟨Nat.le_refl _, rfl⟩ (ihr h))
      · cases h
    · cases h

end Pattern

/-! ## The attempts of a stream -/

/-- What an attempt records and what the attempts after it record. -/
def Verdict.outcome (pairs : PairTable) (p : Pattern) (v : Verdict) : List (List Nat) :=
  v.record ++
    match v.resume? with
    | some (j, rest) => p.recordsFrom pairs j rest
    | none => []

/-- With an entry in the pattern the attempts follow each other until the tokens end. -/
theorem Pattern.recordsFrom_eq {pairs : PairTable} {p : Pattern} (hne : p.entries ≠ [])
    (i : Nat) (tokens : List Token) :
    p.recordsFrom pairs i tokens
      = (p.read pairs { next := i, unread := tokens }).outcome pairs p := by
  have hfrom := p.read_from pairs { next := i, unread := tokens }
  rw [recordsFrom, Verdict.outcome]
  cases hv : p.read pairs { next := i, unread := tokens } with
  | passed r =>
    rcases read_passed hv with ⟨hnil, -⟩ | hl
    · exact absurd hnil hne
    · exact congrArg _ (if_pos hl)
  | failed index after =>
    obtain ⟨h1, h2⟩ := (hv ▸ hfrom : (Verdict.failed index after).From _)
    have hlt : after.length < tokens.length := by
      simp only at h1 h2
      omega
    exact congrArg _ (if_pos hlt)
  | waiting => rfl

end TagLayers
