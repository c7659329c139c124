import Mathlib.Computability.Language
import Mathlib.Order.CompletePartialOrder
import TagLayers.Proofs.Pattern.Steps

/-!
# The words of a pattern

A pattern stands for a language. Its letters are tokens, each with the entry that has taken it or
left it out. A cursor stands for the words that complete the pattern from its position on: first
what the rest of the innermost group asks for, then the rest of the group around it, and so on
outwards. A group that may be absent and has taken no token may also stand for nothing.

Results:
1. `Cursor.words_settle`, `Cursor.words_skip`: a move that takes no token loses words, and never
   gains one.
2. `Cursor.cons_words`, `Cursor.cons_words_advance`: a word from after a token, with that token in
   front, is a word from before it.
3. `Cursor.nil_mem_words`: where the rest is optional, nothing more is asked for.
-/

namespace TagLayers

/-- A token in an attempt. -/
structure Letter where
  token : Token
  /-- The index of the token in the stream. -/
  index : Nat
  /-- The entry under the cursor at the token. -/
  entry : TagEntry
  /-- The entry has taken the token, and has not left it out of the match. -/
  kept : Bool

/-- The token and its index. -/
def Letter.fed (l : Letter) : Token × Nat := (l.token, l.index)

namespace TagEntry

def Takes (e : TagEntry) (l : Letter) : Prop := l.entry = e ∧ l.kept = true

def LeavesOut (e : TagEntry) (l : Letter) : Prop := l.entry = e ∧ l.kept = false

/-- How many tokens close a region. -/
def closers (closer : Tag) (tokens : List Token) : Nat := tokens.countP (·.tag.meets closer)

/-- How many tokens open a region within one: they do not close it, and they hit its entry or have
the same closer. -/
def openers (pairs : PairTable) (e : TagEntry) (closer : Tag) (tokens : List Token) : Nat :=
  tokens.countP fun t => !t.tag.meets closer && (e.hits t || pairs.closer? t.tag == some closer)

/-- Within `depth` regions, the tokens go to the first one at which all of them are closed. -/
def Closes (pairs : PairTable) (e : TagEntry) (closer : Tag) (depth : Nat) (tokens : List Token) :
    Prop :=
  closers closer tokens = depth + openers pairs e closer tokens ∧
    ∀ k < tokens.length,
      closers closer (tokens.take k) < depth + openers pairs e closer (tokens.take k)

/-- The words of an entry. -/
inductive Word (pairs : PairTable) (e : TagEntry) : List Letter → Prop
  | absent : e.mode = .optional → Word pairs e []
  | one {l : Letter} : e.mode = .optional ∨ e.mode = .mandatory → e.Takes l →
      e.hits l.token = true → Word pairs e [l]
  /-- Tokens that do not hit, and one that does. -/
  | collect {ls : List Letter} {l : Letter} : e.mode = .collect →
      (∀ m ∈ ls, e.Takes m ∧ e.hits m.token = false) → e.Takes l → e.hits l.token = true →
      Word pairs e (ls ++ [l])
  /-- The same, but the last token is left out. -/
  | collectDrop {ls : List Letter} {l : Letter} : e.mode = .collectDrop →
      (∀ m ∈ ls, e.Takes m ∧ e.hits m.token = false) → e.LeavesOut l → e.hits l.token = true →
      Word pairs e (ls ++ [l])
  /-- A token that opens a region, and those up to the one that closes it. -/
  | region {l : Letter} {ls : List Letter} {closer : Tag} : e.mode = .complete →
      pairs.closer? e.target = some closer → e.hits l.token = true → (∀ m ∈ l :: ls, e.Takes m) →
      e.Closes pairs closer 1 (ls.map (·.token)) → Word pairs e (l :: ls)

/-- The words that complete an entry, which goes on inside the region that is open. -/
def rest (pairs : PairTable) (e : TagEntry) : Option Region → Language Letter
  | none => {w | e.Word pairs w}
  | some region =>
      {w | (∀ l ∈ w, e.Takes l) ∧ e.Closes pairs region.closer region.depth (w.map (·.token))}

end TagEntry

namespace Pattern

/-- The words of a pattern. -/
def words (pairs : PairTable) : Pattern → Language Letter
  | nil => 1
  | item e rest => e.rest pairs none * rest.words pairs
  | group optional body rest =>
      (if optional then 1 + body.words pairs else body.words pairs) * rest.words pairs

end Pattern

namespace Cursor

/-- The words that complete a pattern from inside the group at `here`, where `inner` completes the
group. -/
def outwards (pairs : PairTable) (here : Place) (inner : Language Letter) :
    List Frame → Language Letter
  | [] => inner
  | g :: outer =>
      outwards pairs g.place
        ((if here.passable then 1 + inner else inner) * g.rest.words pairs) outer

/-- The words that complete a pattern from a position on. -/
def words (pairs : PairTable) (c : Cursor) (region : Option Region) : Language Letter :=
  match c with
  | on e here outer => outwards pairs here.place (e.rest pairs region * here.rest.words pairs) outer
  | past _ => 1

end Cursor

/-! ## Regions -/

namespace TagEntry

variable {pairs : PairTable} {e : TagEntry}

theorem depth_after (pairs : PairTable) (e : TagEntry) {region : Region} (hd : 0 < region.depth)
    (token : Token) (tokens : List Token) :
    region.depthAfter e token pairs + openers pairs e region.closer tokens
        + closers region.closer [token]
      = region.depth + openers pairs e region.closer (token :: tokens) := by
  simp only [Region.depthAfter, openers, closers, List.countP_cons, List.countP_nil]
  by_cases hc : token.tag.meets region.closer = true
  · simp only [hc, if_true, Bool.not_true, Bool.false_and, Bool.false_eq_true, if_false]
    omega
  · by_cases ho : (e.hits token || pairs.closer? token.tag == some region.closer) = true
    · simp only [hc, ho, if_true, if_false, Bool.not_false, Bool.true_and, Bool.false_eq_true]
      omega
    · simp only [hc, ho, if_false, Bool.not_false, Bool.true_and, Bool.false_eq_true]
      omega

theorem closers_cons (closer : Tag) (token : Token) (tokens : List Token) :
    closers closer (token :: tokens) = closers closer tokens + closers closer [token] := by
  simp [closers, List.countP_cons]

/-- A token leaves a region as many openers and closers to come as the depth that it leaves. -/
theorem closes_cons {region : Region} (hd : 0 < region.depth) {token : Token} {tokens : List Token}
    (h : e.Closes pairs region.closer (region.depthAfter e token pairs) tokens) :
    e.Closes pairs region.closer region.depth (token :: tokens) := by
  refine ⟨?_, fun k hk => ?_⟩
  · have hsum := depth_after pairs e hd token tokens
    have hall := h.1
    rw [closers_cons]
    omega
  · cases k with
    | zero => simpa [closers, openers] using hd
    | succ k =>
      have hsum := depth_after pairs e hd token (tokens.take k)
      have hfirst := h.2 k (by simpa using hk)
      rw [List.take_succ_cons, closers_cons]
      omega

theorem closes_nil (pairs : PairTable) (e : TagEntry) (closer : Tag) : e.Closes pairs closer 0 [] :=
  ⟨rfl, fun _ hk => nomatch hk⟩

/-- A token inside a region, before tokens that close what it leaves open. -/
theorem cons_mem_rest {region : Region} (hd : 0 < region.depth) {l : Letter} (ht : e.Takes l)
    {w : List Letter} (hw : ∀ m ∈ w, e.Takes m)
    (hclose : e.Closes pairs region.closer (region.depthAfter e l.token pairs)
      (w.map (·.token))) :
    l :: w ∈ e.rest pairs (some region) :=
  ⟨List.forall_mem_cons.mpr ⟨ht, hw⟩, closes_cons hd hclose⟩

/-- A collecting entry goes on after a token that does not hit. -/
theorem cons_mem_rest_of_collecting {l : Letter} (ht : e.Takes l) (hit : e.hits l.token = false)
    (hm : e.mode = .collect ∨ e.mode = .collectDrop) {w : List Letter}
    (hw : w ∈ e.rest pairs none) : l :: w ∈ e.rest pairs none := by
  cases hw with
  | absent hm' | one hm' =>
    rcases hm with hm | hm <;> simp [hm] at hm'
  | region hm' =>
    rcases hm with hm | hm <;> simp [hm] at hm'
  | collect hm' hls hl hhit =>
    exact .collect hm' (List.forall_mem_cons.mpr ⟨⟨ht, hit⟩, hls⟩) hl hhit
  | collectDrop hm' hls hl hhit =>
    exact .collectDrop hm' (List.forall_mem_cons.mpr ⟨⟨ht, hit⟩, hls⟩) hl hhit

theorem singleton_mem_rest {l : Letter} (ht : e.Takes l) (hit : e.hits l.token = true)
    (hm : e.mode = .optional ∨ e.mode = .mandatory ∨ e.mode = .collect) :
    [l] ∈ e.rest pairs none := by
  rcases hm with hm | hm | hm
  · exact .one (.inl hm) ht hit
  · exact .one (.inr hm) ht hit
  · show e.Word pairs ([] ++ [l])
    exact .collect hm (fun _ h => nomatch h) ht hit

end TagEntry

/-! ## Moves without a token -/

namespace Pattern

variable {pairs : PairTable}

theorem nil_mem_words {p : Pattern} (h : p.allOptional = true) : [] ∈ p.words pairs := by
  induction p with
  | nil => exact Language.nil_mem_one
  | item e rest ih =>
    simp only [allOptional, TagEntry.isOptional, Bool.and_eq_true, beq_iff_eq] at h
    exact Language.append_mem_mul (show [] ∈ e.rest pairs none from .absent h.1) (ih h.2)
  | group o body rest ihb ihr =>
    simp only [allOptional, Bool.and_eq_true, Bool.or_eq_true] at h
    refine Language.append_mem_mul (a := []) ?_ (ihr h.2)
    cases o with
    | true => exact .inl rfl
    | false => exact ihb (by simpa using h.1)

theorem allOptional_of_entries_nil {p : Pattern} (h : p.entries = []) : p.allOptional = true := by
  induction p with
  | nil => rfl
  | item e rest => cases h
  | group o body rest ihb ihr =>
    rw [entries, List.append_eq_nil_iff] at h
    simp [allOptional, ihb h.1, ihr h.2]

end Pattern

/-- A language with the empty word can be passed over in front of another one. -/
theorem le_mul_of_nil_mem {α : Type} {l m : Language α} (h : [] ∈ l) : m ≤ l * m :=
  fun _ hw => Language.append_mem_mul h hw

namespace Cursor

variable {pairs : PairTable}

/-- Past the last entry nothing is asked for. -/
theorem words_of_past {c : Cursor} (h : c.isPast = true) (region : Option Region) :
    c.words pairs region = 1 := by
  obtain ⟨place, rfl⟩ := exists_past h
  rfl

theorem outwards_next (here : Place) (inner : Language Letter) (outer : List Frame) :
    outwards pairs here.next inner outer = outwards pairs here inner outer := by
  cases outer <;> rfl

theorem outwards_mono (here : Place) {l m : Language Letter} (h : l ≤ m) (outer : List Frame) :
    outwards pairs here l outer ≤ outwards pairs here m outer := by
  induction outer generalizing here l m with
  | nil => exact h
  | cons g outer ih =>
    refine ih g.place (mul_le_mul_left ?_ _)
    cases here.passable with
    | true => exact add_le_add_right h 1
    | false => exact h

theorem words_enter {place : Place} {outer : List Frame} {part : Pattern} {c : Cursor}
    (h : enter place outer part = some c) :
    c.words pairs none ≤ outwards pairs place (part.words pairs) outer := by
  induction part generalizing place outer c with
  | nil => cases h
  | item e rest =>
    cases h
    exact le_refl _
  | group o body rest ihb ihr =>
    rw [enter] at h
    split at h
    · next hb =>
      -- the frame of a group that is entered asks for what the group asks for
      cases h
      refine (ihb hb).trans (le_of_eq ?_)
      cases o <;> rfl
    · next hb =>
      refine (ihr h).trans ?_
      rw [outwards_next]
      refine outwards_mono place (le_mul_of_nil_mem ?_) outer
      have hnil : [] ∈ body.words pairs :=
        Pattern.nil_mem_words (Pattern.allOptional_of_entries_nil (enter_none hb))
      cases o with
      | true => exact .inl rfl
      | false => exact hnil

/-- The position that a part settles on completes the part, and then the groups around it. -/
theorem words_settle (pairs : PairTable) (place : Place) (part : Pattern) (outer : List Frame) :
    (settle place part outer).words pairs none ≤ outwards pairs place (part.words pairs) outer := by
  induction outer generalizing place part with
  | nil =>
    rw [settle]
    cases h : enter place [] part with
    | none =>
      rintro w rfl
      exact Pattern.nil_mem_words (Pattern.allOptional_of_entries_nil (enter_none h))
    | some c => exact words_enter h
  | cons g outer ih =>
    rw [settle]
    cases h : enter place (g :: outer) part with
    | none =>
      have hnil : [] ∈ part.words pairs :=
        Pattern.nil_mem_words (Pattern.allOptional_of_entries_nil (enter_none h))
      refine (ih g.place.next g.rest).trans ?_
      rw [outwards_next]
      refine outwards_mono g.place (le_mul_of_nil_mem ?_) outer
      cases place.passable with
      | true => exact .inl rfl
      | false => exact hnil
    | some c => exact words_enter h

theorem words_start (pairs : PairTable) (p : Pattern) :
    (start p).words pairs none ≤ p.words pairs :=
  words_settle pairs {} p []

/-- An entry that may be absent is passed over. -/
theorem words_pass {c : Cursor} {e : TagEntry} (hc : c.current? = some e)
    (hm : e.mode = .optional) : c.advance.words pairs none ≤ c.words pairs none := by
  obtain ⟨here, outer, rfl⟩ := exists_on hc
  refine (words_settle pairs here.place.next here.rest outer).trans ?_
  rw [outwards_next]
  exact outwards_mono here.place
    (le_mul_of_nil_mem (show [] ∈ e.rest pairs none from .absent hm)) outer

/-- A group that is skipped stands for nothing, whatever would have completed it. -/
theorem words_skipFrom {here : Place} {outer : List Frame} {c : Cursor}
    (h : skipFrom here outer = some c) (inner : Language Letter) :
    c.words pairs none ≤ outwards pairs here inner outer := by
  induction outer generalizing here inner with
  | nil => cases h
  | cons g outer ih =>
    rw [skipFrom] at h
    split at h
    · cases h
    · next hconsumed =>
      split at h
      · next hoptional =>
        cases h
        have hpass : here.passable = true := by simp [Place.passable, hoptional, hconsumed]
        refine (words_settle pairs g.place.next g.rest outer).trans ?_
        rw [outwards_next, outwards, hpass, if_pos rfl]
        exact outwards_mono g.place (le_mul_of_nil_mem (.inl rfl)) outer
      · exact ih h _

theorem words_skip {c d : Cursor} (h : c.skip? = some d) (region : Option Region) :
    d.words pairs none ≤ c.words pairs region := by
  cases c with
  | on e here outer => exact words_skipFrom h _
  | past place => cases h

/-! ## Moves with a token -/

/-- Where a token has been taken no group around it can be absent. What completes the groups
after the token completes them, with the token in front, from before it. -/
theorem cons_outwards {l : Letter} {inner inner' : Language Letter}
    (h : ∀ w ∈ inner', l :: w ∈ inner) (here : Place) (outer : List Frame) {w : List Letter}
    (hw : w ∈ outwards pairs here.consume inner'
      (outer.map fun f => { f with place := f.place.consume })) :
    l :: w ∈ outwards pairs here inner outer := by
  induction outer generalizing here inner inner' with
  | nil => exact h w hw
  | cons g outer ih =>
    refine ih ?_ g.place hw
    intro v hv
    have hnot : here.consume.passable = false := by simp [Place.passable, Place.consume]
    rw [hnot, if_neg Bool.false_ne_true] at hv
    obtain ⟨a, ha, b, hb, rfl⟩ := Language.mem_mul.mp hv
    refine Language.append_mem_mul (a := l :: a) ?_ hb
    cases here.passable with
    | true => exact .inr (h a ha)
    | false => exact h a ha

theorem cons_mul {α : Type} {l : α} {a b m : Language α} (h : ∀ w ∈ a, l :: w ∈ b) :
    ∀ w ∈ a * m, l :: w ∈ b * m := by
  intro w hw
  obtain ⟨u, hu, v, hv, rfl⟩ := Language.mem_mul.mp hw
  exact Language.append_mem_mul (h u hu) hv

/-- The entry takes a token and goes on. -/
theorem cons_words {c : Cursor} {e : TagEntry} (hc : c.current? = some e) {l : Letter}
    {region region' : Option Region}
    (h : ∀ w ∈ e.rest pairs region', l :: w ∈ e.rest pairs region) {w : List Letter}
    (hw : w ∈ c.consume.words pairs region') : l :: w ∈ c.words pairs region := by
  obtain ⟨here, outer, rfl⟩ := exists_on hc
  exact cons_outwards (cons_mul h) here.place outer hw

/-- The entry is done with after a token. -/
theorem cons_words_advance {c : Cursor} {e : TagEntry} (hc : c.current? = some e) {l : Letter}
    {region : Option Region} (h : [l] ∈ e.rest pairs region) {w : List Letter}
    (hw : w ∈ c.consume.advance.words pairs none) : l :: w ∈ c.words pairs region := by
  obtain ⟨here, outer, rfl⟩ := exists_on hc
  have hout := words_settle pairs here.place.consume.next here.rest _ hw
  rw [outwards_next] at hout
  exact cons_outwards (fun v hv => Language.append_mem_mul (a := [l]) h hv) here.place outer hout

/-! ## The end of a stream -/

theorem nil_mem_outwards {here : Place} {outer : List Frame} {inner : Language Letter}
    (hn : Nested here outer) (h : here.passable = true ∨ [] ∈ inner)
    (hall : ∀ f ∈ outer, f.place.passable = true ∨ f.rest.allOptional = true) :
    [] ∈ outwards pairs here inner outer := by
  induction outer generalizing here inner with
  | nil =>
    have hp : here.passable = false := by
      simp [Place.passable, show here.optional = false from hn]
    exact h.resolve_left (by simp [hp])
  | cons g outer ih =>
    obtain ⟨hg, hrest⟩ := List.forall_mem_cons.mp hall
    refine ih hn.2 (hg.imp_right fun hopt => ?_) hrest
    refine Language.append_mem_mul (a := []) ?_ (Pattern.nil_mem_words hopt)
    cases hp : here.passable with
    | true => exact .inl rfl
    | false => simpa [hp] using h

theorem nil_mem_words {c : Cursor} (hn : c.WellNested) (h : c.restOptional = true) :
    [] ∈ c.words pairs none := by
  cases c with
  | past place => exact Language.nil_mem_one
  | on e here outer =>
    simp only [restOptional, Bool.and_eq_true, Bool.or_eq_true, List.all_eq_true] at h
    refine nil_mem_outwards hn (h.1.imp_right fun hopt => ?_) h.2
    have hm : e.mode = .optional := by simpa [TagEntry.isOptional] using hopt.1
    exact Language.append_mem_mul (show [] ∈ e.rest pairs none from .absent hm)
      (Pattern.nil_mem_words hopt.2)

end Cursor

end TagLayers
