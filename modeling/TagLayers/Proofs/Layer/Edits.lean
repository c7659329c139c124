import TagLayers.Proofs.Layer.Texts

/-!
# Edits in place

A text may also be edited in place: a call reads what it needs, refuses what it must, and writes
the perspective that it names. Were something refused after a write, a text would be left half
changed. Nothing is: what a call refuses it refuses before it writes, so an edit in place and a call
that returns a new text come to the same. Texts that go through any run of edits, some of which
fail, stay sound, and each edit reaches one perspective only.

Results:
1. `call_eq`: edits in place and calls that return a new text.
2. `refuses_iff`: which edits fail, and with which error.
3. `get?_call`, `get?_after`: what edits leave alone.
4. `get?_after_tags`: of a run that tags, a perspective sees its own calls only.
5. `edits_keep_texts`: whole runs.
-/

namespace TagLayers

/-- A call that changes a text. -/
inductive TextCall where
  | tag (name : String) (start stop : Nat) (label : Tag)
  | copy (input output : String)
  | add (name : String)
deriving DecidableEq, Repr

/-- An edit of a text in place, which may fail. What it has written before stays written. -/
abbrev TextEdit := ExceptT TagError (StateM TaggedText)

namespace TextEdit

def read {α : Type} (f : TaggedText → Except TagError α) : TextEdit α := fun text => (f text, text)

def write (f : TaggedText → TaggedText) : TextEdit Unit := fun text => (.ok (), f text)

theorem read_bind {α β : Type} (f : TaggedText → Except TagError α) (g : α → TextEdit β)
    (text : TaggedText) :
    (read f >>= g) text = match f text with
      | .ok a => g a text
      | .error e => (.error e, text) := by
  show (ExceptT.bindCont g (f text)) text = _
  cases f text <;> rfl

end TextEdit

namespace TextCall

/-- The perspective that a call names as the one to be written. -/
def target : TextCall → String
  | tag name _ _ _ => name
  | copy _ output => output
  | add name => name

def isTag : TextCall → Bool
  | tag _ _ _ _ => true
  | _ => false

open TextEdit in
/-- A call in place. -/
def edit : TextCall → TextEdit Unit
  | tag name start stop label => do
      read fun text => match text.splitOffset? start stop with
        | some offset => .error (.notCharBoundary offset)
        | none => .ok ()
      let p ← read (·.perspective name)
      let q ← read fun _ => p.tag start stop label
      write (·.put name q)
  | copy input output => do
      let p ← read (·.perspective input)
      write (·.put output p)
  | add name => write (·.add name)

end TextCall

namespace TaggedText

/-- The text that a call returns. -/
def make (text : TaggedText) : TextCall → Except TagError TaggedText
  | .tag name start stop label => text.tag name start stop label
  | .copy input output => text.copy input output
  | .add name => .ok (text.add name)

/-- The outcome of a call in place, and the text that it leaves behind. -/
def call (text : TaggedText) (c : TextCall) : Except TagError Unit × TaggedText := c.edit text

/-- The text after calls in place, some of which may have failed. -/
def after (text : TaggedText) (calls : List TextCall) : TaggedText :=
  calls.foldl (fun text c => (text.call c).2) text

/-- The outcome of a call that returns a text, and the text that is there after it. -/
def settle (text : TaggedText) : Except TagError TaggedText → Except TagError Unit × TaggedText
  | .ok text' => (.ok (), text')
  | .error e => (.error e, text)

variable {text text' : TaggedText} {c : TextCall} {name : String}

/-! ## One call -/

/-- An edit in place leaves the text that the call returns, and the text as it was where it returns
none. -/
theorem call_eq (text : TaggedText) (c : TextCall) : text.call c = text.settle (text.make c) := by
  unfold call
  cases c with
  | tag name start stop label =>
    show _ = text.settle (text.tag name start stop label)
    rw [TextCall.edit, TextEdit.read_bind, TaggedText.tag]
    cases text.splitOffset? start stop with
    | some offset => rfl
    | none =>
      dsimp only
      rw [TextEdit.read_bind]
      cases text.perspective name with
      | error e => rfl
      | ok p =>
        dsimp only
        rw [TextEdit.read_bind]
        show _ = text.settle (p.tag start stop label >>= fun q => pure (text.put name q))
        cases p.tag start stop label <;> rfl
  | copy input output =>
    show _ = text.settle (text.perspective input >>= fun p => pure (text.put output p))
    rw [TextCall.edit, TextEdit.read_bind]
    cases text.perspective input <;> rfl
  | add name => rfl

theorem make_eq_ok (h : text.make c = .ok text') : ∃ p, text' = text.put c.target p := by
  cases c with
  | tag name start stop label =>
    obtain ⟨-, q, -, -, -, rfl⟩ := tag_eq_ok h
    exact ⟨q, rfl⟩
  | copy input output =>
    obtain ⟨p, -, rfl⟩ := copy_eq_ok.mp h
    exact ⟨p, rfl⟩
  | add name =>
    cases h
    exact ⟨_, rfl⟩

theorem Reachable.make (ht : text.Reachable) (h : text.make c = .ok text') : text'.Reachable := by
  cases c with
  | tag name start stop label => exact .tag ht h
  | copy input output => exact .copy ht h
  | add name =>
    cases h
    exact .add name ht

/-- A call leaves the text as it was and says why, or succeeds and writes its target. -/
theorem call_cases (text : TaggedText) (c : TextCall) :
    (∃ e, text.make c = .error e ∧ text.call c = (.error e, text)) ∨
    ∃ p, text.make c = .ok (text.put c.target p) ∧ text.call c = (.ok (), text.put c.target p) := by
  rw [call_eq]
  cases h : text.make c with
  | error e => exact .inl ⟨e, rfl, rfl⟩
  | ok text' =>
    obtain ⟨p, rfl⟩ := make_eq_ok h
    exact .inr ⟨p, rfl, rfl⟩

theorem Reachable.call (ht : text.Reachable) (c : TextCall) : (text.call c).2.Reachable := by
  rcases text.call_cases c with ⟨e, -, h⟩ | ⟨p, hmake, h⟩
  · rw [h]
    exact ht
  · rw [h]
    exact ht.make hmake

theorem source_call (text : TaggedText) (c : TextCall) : (text.call c).2.source = text.source := by
  rcases text.call_cases c with ⟨e, -, h⟩ | ⟨p, -, h⟩
  · rw [h]
  · rw [h]
    rfl

/-- A call reaches no perspective but its target. -/
theorem get?_call (text : TaggedText) (hname : name ≠ c.target) :
    (text.call c).2.perspectives.get? name = text.perspectives.get? name := by
  rcases text.call_cases c with ⟨e, -, h⟩ | ⟨p, -, h⟩
  · rw [h]
  · rw [h, get?_put, if_neg hname]

/-- The calls that fail. A range within the text that splits a character is refused before a name
that is not there, and that before a range that is reversed or ends beyond the text. -/
inductive Refuses (text : TaggedText) : TextCall → TagError → Prop
  | start {name : String} {start stop : Nat} {label : Tag} :
      start ≤ stop → stop ≤ text.source.length → text.source.text.isBoundary start = false →
      Refuses text (.tag name start stop label) (.notCharBoundary start)
  | stop {name : String} {start stop : Nat} {label : Tag} :
      start ≤ stop → stop ≤ text.source.length → text.source.text.isBoundary start = true →
      text.source.text.isBoundary stop = false →
      Refuses text (.tag name start stop label) (.notCharBoundary stop)
  | unknown {name : String} {start stop : Nat} {label : Tag} :
      text.splitOffset? start stop = none → text.perspectives.get? name = none →
      Refuses text (.tag name start stop label) (.unknownPerspective name)
  | range {name : String} {start stop : Nat} {label : Tag} :
      stop < start ∨ text.source.length < stop → text.perspectives.get? name ≠ none →
      Refuses text (.tag name start stop label) (.outOfRange start stop text.source.length)
  | uncopied {input output : String} : text.perspectives.get? input = none →
      Refuses text (.copy input output) (.unknownPerspective input)

theorem splitOffset?_cases (text : TaggedText) (start stop : Nat) :
    ((stop < start ∨ text.source.length < stop) ∧ text.splitOffset? start stop = none) ∨
    (start ≤ stop ∧ stop ≤ text.source.length ∧ text.splitOffset? start stop
      = if text.source.text.isBoundary start = true then
          if text.source.text.isBoundary stop = true then none else some stop
        else some start) := by
  unfold splitOffset?
  split
  · next h =>
    refine .inr ⟨h.2, h.1, ?_⟩
    cases text.source.text.isBoundary start <;> cases text.source.text.isBoundary stop <;> rfl
  · next h => exact .inl ⟨by omega, rfl⟩

theorem tag_of_splitOffset? {start stop : Nat} (h : text.splitOffset? start stop = none)
    (name : String) (label : Tag) :
    text.tag name start stop label = match text.perspectives.get? name with
      | none => .error (.unknownPerspective name)
      | some p => (p.tag start stop label).map (text.put name) := by
  rw [TaggedText.tag, h, perspective]
  cases text.perspectives.get? name with
  | none => rfl
  | some p =>
    show (p.tag start stop label >>= fun q => pure (text.put name q))
      = (p.tag start stop label).map (text.put name)
    cases p.tag start stop label <;> rfl

theorem refuses_of_tag (ht : text.Sound) {start stop : Nat} {label : Tag} {e : TagError}
    (h : text.tag name start stop label = .error e) :
    Refuses text (.tag name start stop label) e := by
  cases hsplit : text.splitOffset? start stop with
  | some offset =>
    rw [TaggedText.tag, hsplit] at h
    cases h
    rcases text.splitOffset?_cases start stop with ⟨-, hnone⟩ | ⟨hle, hlen, hends⟩
    · cases hnone.symm.trans hsplit
    · rw [hends] at hsplit
      split at hsplit
      · next hstart =>
        split at hsplit
        · cases hsplit
        · next hstop =>
          cases hsplit
          exact .stop hle hlen hstart (eq_false_of_ne_true hstop)
      · next hstart =>
        cases hsplit
        exact .start hle hlen (eq_false_of_ne_true hstart)
  | none =>
    rw [tag_of_splitOffset? hsplit] at h
    cases hp : text.perspectives.get? name with
    | none =>
      rw [hp] at h
      cases h
      exact .unknown hsplit hp
    | some p =>
      rw [hp] at h
      dsimp only at h
      cases hq : p.tag start stop label with
      | ok q =>
        rw [hq] at h
        cases h
      | error e' =>
        rw [hq] at h
        cases h
        obtain ⟨hout, rfl⟩ := Perspective.tag_eq_error_iff.mp hq
        rw [(ht name p hp).length] at hout ⊢
        exact .range hout (by simp [hp])

theorem Refuses.make_eq (ht : text.Sound) {e : TagError} (h : Refuses text c e) :
    text.make c = .error e := by
  cases h with
  | @start name start stop label hle hlen hstart =>
    have hsplit : text.splitOffset? start stop = some start := by
      simp [splitOffset?, hle, hlen, hstart]
    show text.tag name start stop label = _
    rw [TaggedText.tag, hsplit]
  | @stop name start stop label hle hlen hstart hstop =>
    have hsplit : text.splitOffset? start stop = some stop := by
      simp [splitOffset?, hle, hlen, hstart, hstop]
    show text.tag name start stop label = _
    rw [TaggedText.tag, hsplit]
  | @unknown name start stop label hsplit hp =>
    show text.tag name start stop label = _
    rw [tag_of_splitOffset? hsplit, hp]
  | @range name start stop label hout hp =>
    have hsplit : text.splitOffset? start stop = none := if_neg (by omega)
    obtain ⟨p, hp⟩ := Option.ne_none_iff_exists'.mp hp
    have hlen := (ht name p hp).length
    have herror : p.tag start stop label = .error (.outOfRange start stop p.length) :=
      Perspective.tag_eq_error_iff.mpr ⟨by rwa [hlen], rfl⟩
    show text.tag name start stop label = _
    rw [tag_of_splitOffset? hsplit, hp]
    dsimp only
    rw [herror, hlen]
    rfl
  | @uncopied input output hp =>
    show (text.perspective input >>= fun p => pure (text.put output p)) = _
    rw [perspective, hp]
    rfl

/-- A call to a sound text fails exactly when it is refused. -/
theorem refuses_iff (ht : text.Sound) {e : TagError} :
    text.make c = .error e ↔ Refuses text c e := by
  refine ⟨fun h => ?_, fun h => h.make_eq ht⟩
  cases c with
  | tag name start stop label => exact refuses_of_tag ht h
  | copy input output =>
    replace h : (text.perspective input >>= fun p => pure (text.put output p)) = .error e := h
    cases hp : text.perspectives.get? input with
    | some p =>
      rw [perspective, hp] at h
      cases h
    | none =>
      rw [perspective, hp] at h
      cases h
      exact .uncopied hp
  | add name => cases h

theorem call_eq_error_iff (ht : text.Sound) {e : TagError} :
    (text.call c).1 = .error e ↔ Refuses text c e := by
  rw [← refuses_iff ht]
  rcases text.call_cases c with ⟨e', hmake, hcall⟩ | ⟨p, hmake, hcall⟩
  · rw [hmake, hcall]
    exact ⟨fun h => by cases h; rfl, fun h => by cases h; rfl⟩
  · rw [hmake, hcall]
    exact ⟨nofun, nofun⟩

theorem call_of_ne_ok (h : (text.call c).1 ≠ .ok ()) : (text.call c).2 = text := by
  rcases text.call_cases c with ⟨e, -, hcall⟩ | ⟨p, -, hcall⟩
  · rw [hcall]
  · rw [hcall] at h
    exact absurd rfl h

theorem get?_call_copy {input output : String}
    (h : text.call (.copy input output) = (.ok (), text')) :
    text'.perspectives.get? output = text.perspectives.get? input := by
  rcases text.call_cases (.copy input output) with ⟨e, -, hcall⟩ | ⟨p, hmake, hcall⟩
  · cases hcall.symm.trans h
  · cases hcall.symm.trans h
    obtain ⟨q, hq, hsame⟩ := copy_eq_ok.mp hmake
    rw [hsame, hq]
    exact get?_put_self text output q

example : ((ofSource ⟨"a", ['é']⟩).call (.tag top 0 1 Tag.generic)).1
    = .error (.notCharBoundary 1) := by rfl

example : ((ofSource ⟨"a", ['é']⟩).call (.tag "b" 2 0 Tag.generic)).1
    = .error (.unknownPerspective "b") := by rfl

/-! ## Runs of calls -/

theorem Reachable.after (ht : text.Reachable) (calls : List TextCall) :
    (text.after calls).Reachable := by
  induction calls generalizing text with
  | nil => exact ht
  | cons c calls ih => exact ih (ht.call c)

theorem source_after (text : TaggedText) (calls : List TextCall) :
    (text.after calls).source = text.source := by
  induction calls generalizing text with
  | nil => rfl
  | cons c calls ih => exact (ih _).trans (text.source_call c)

/-- A run of calls reaches no perspective but its targets. -/
theorem get?_after {calls : List TextCall} (h : ∀ c ∈ calls, name ≠ c.target) :
    (text.after calls).perspectives.get? name = text.perspectives.get? name := by
  induction calls generalizing text with
  | nil => rfl
  | cons c calls ih =>
    obtain ⟨hc, hcalls⟩ := List.forall_mem_cons.mp h
    exact (ih hcalls).trans (text.get?_call hc)

/-- Two texts of one source with the same perspective under a name. -/
def SameAt (name : String) (a b : TaggedText) : Prop :=
  a.source = b.source ∧ a.perspectives.get? name = b.perspectives.get? name

/-- What tagging makes of a perspective depends on the perspective and the source alone. -/
theorem SameAt.call_tag {a b : TaggedText} {start stop : Nat} {label : Tag}
    (h : SameAt name a b) :
    SameAt name (a.call (.tag name start stop label)).2
      (b.call (.tag name start stop label)).2 := by
  obtain ⟨hsource, hget⟩ := h
  refine ⟨by rw [source_call, source_call, hsource], ?_⟩
  have hsplit : a.splitOffset? start stop = b.splitOffset? start stop := by
    unfold splitOffset?
    rw [hsource]
  rw [call_eq, call_eq]
  show (a.settle (a.tag name start stop label)).2.perspectives.get? name
    = (b.settle (b.tag name start stop label)).2.perspectives.get? name
  rw [TaggedText.tag, TaggedText.tag, perspective, perspective, hsplit, hget]
  cases b.splitOffset? start stop with
  | some offset => exact hget
  | none =>
    cases hp : b.perspectives.get? name with
    | none =>
      show a.perspectives.get? name = b.perspectives.get? name
      exact hget
    | some p =>
      show (a.settle (p.tag start stop label >>= fun q =>
          pure (a.put name q))).2.perspectives.get? name
        = (b.settle (p.tag start stop label >>= fun q =>
          pure (b.put name q))).2.perspectives.get? name
      cases p.tag start stop label with
      | error e => exact hget
      | ok q => exact (get?_put_self a name q).trans (get?_put_self b name q).symm

theorem SameAt.after_tags {a b : TaggedText} (h : SameAt name a b) {calls : List TextCall}
    (htags : ∀ c ∈ calls, c.isTag = true) :
    SameAt name (a.after calls) (b.after (calls.filter (·.target == name))) := by
  induction calls generalizing a b with
  | nil => exact h
  | cons c calls ih =>
    obtain ⟨hc, hcalls⟩ := List.forall_mem_cons.mp htags
    by_cases hname : c.target = name
    · rw [List.filter_cons_of_pos (by exact beq_iff_eq.mpr hname)]
      cases c with
      | tag other start stop label =>
        obtain rfl : other = name := hname
        exact ih h.call_tag hcalls
      | copy input output => cases hc
      | add other => cases hc
    · rw [List.filter_cons_of_neg (by simpa using hname)]
      refine ih ⟨(a.source_call c).trans h.1, ?_⟩ hcalls
      exact (a.get?_call (Ne.symm hname)).trans h.2

/-- Of a run that tags, a perspective sees its own calls only. -/
theorem get?_after_tags (text : TaggedText) (name : String) {calls : List TextCall}
    (htags : ∀ c ∈ calls, c.isTag = true) :
    (text.after calls).perspectives.get? name
      = (text.after (calls.filter (·.target == name))).perspectives.get? name :=
  (SameAt.after_tags ⟨rfl, rfl⟩ htags).2

/-- The tokens of a perspective of a sound text are its intervals, cut out of the source. -/
theorem Sound.tokens (ht : text.Sound) {p : Perspective}
    (hp : text.perspectives.get? name = some p) :
    ∃ tokens, text.tokens name = .ok tokens ∧
      tokens.map (fun token => (⟨token.span, token.tag⟩ : Interval)) = p.intervals ∧
      (∀ token ∈ tokens, text.source.snippet? token.span = some token.text) ∧
      tokens.flatMap (·.text) = text.source.text := by
  have hfits := ht name p hp
  refine ⟨_, tokens_eq hp hfits, ?_, ?_, hfits.join_tokens⟩
  · rw [List.map_map]
    exact List.map_id _
  · intro token htoken
    obtain ⟨iv, hiv, rfl⟩ := List.mem_map.mp htoken
    exact (hfits.admits hiv).1.snippet?

/-- Texts stay whole through any run of edits, some of which may fail. After the run each
perspective covers the source, cuts it between characters only, and has tokens that can be cut out
of the source and that are the source when they are joined. Of the edit that comes next: it fails
exactly when it is refused, and then leaves the text as it was; and it leaves every perspective but
its target as it was. After a copy the two perspectives are the same, and each stays as it is while
only others are written; of later tagging each sees its own calls only. -/
theorem edits_keep_texts (source : Source) (calls : List TextCall) :
    let text := (ofSource source).after calls
    (text.source = source ∧ ∀ name p, text.perspectives.get? name = some p →
      p.isComplete = true ∧ p.length = source.length ∧
      (∀ iv ∈ p.intervals, source.text.isBoundary iv.span.start = true ∧
        source.text.isBoundary iv.span.stop = true) ∧
      ∃ tokens, text.tokens name = .ok tokens ∧
        tokens.map (fun token => (⟨token.span, token.tag⟩ : Interval)) = p.intervals ∧
        (∀ token ∈ tokens, source.snippet? token.span = some token.text) ∧
        tokens.flatMap (·.text) = source.text) ∧
    (∀ c, (∀ e, (text.call c).1 = .error e ↔ Refuses text c e) ∧
      ((text.call c).1 ≠ .ok () → (text.call c).2 = text) ∧
      ∀ name, name ≠ c.target →
        (text.call c).2.perspectives.get? name = text.perspectives.get? name) ∧
    ∀ input output copied, text.call (.copy input output) = (.ok (), copied) → input ≠ output →
      copied.perspectives.get? input = text.perspectives.get? input ∧
      copied.perspectives.get? output = text.perspectives.get? input ∧
      ∀ later, (∀ name, (∀ c ∈ later, name ≠ c.target) →
          (copied.after later).perspectives.get? name = copied.perspectives.get? name) ∧
        ((∀ c ∈ later, c.isTag = true) → ∀ name,
          (copied.after later).perspectives.get? name
            = (copied.after (later.filter (·.target == name))).perspectives.get? name) := by
  intro text
  have hsource : text.source = source := source_after (ofSource source) calls
  have hsound : text.Sound := ((Reachable.ofSource source).after calls).sound
  refine ⟨⟨hsource, ?_⟩, ?_, ?_⟩
  · intro name p hp
    have hfits := hsound name p hp
    have htokens := hsound.tokens hp
    rw [hsource] at hfits htokens
    exact ⟨hfits.filled.isComplete, hfits.length, hfits.ends, htokens⟩
  · intro c
    exact ⟨fun e => call_eq_error_iff hsound, call_of_ne_ok, fun name => text.get?_call⟩
  · intro input output copied hcopy hne
    have hinput := text.get?_call (c := .copy input output) hne
    rw [hcopy] at hinput
    refine ⟨hinput, get?_call_copy hcopy, fun later => ⟨fun name => get?_after, ?_⟩⟩
    intro htags name
    exact copied.get?_after_tags name htags

end TaggedText

end TagLayers
