import TagLayers.Layer.TaggedText
import TagLayers.Proofs.Layer.Cuts
import TagLayers.Proofs.Success

/-!
# Sound texts

A tagged text is sound when each of its perspectives fits the source. A call that succeeds puts one
perspective in place of the one it names, and a sound text stays sound; so every text that comes
about by calls is sound, and all that a perspective of a sound text is asked for can be had: its
tokens, and ranges to be tagged between the characters.

Results:
1. `tag_eq_ok`, `copy_eq_ok`: what a successful call does.
2. `Reachable.sound`: calls lead to sound texts.
3. `tokens_eq`, `Reachable.exists_tokens`: the tokens of a perspective.
4. `tagAll_put`: tagging spans in a perspective.
-/

namespace TagLayers

namespace TaggedText

theorem get?_put (text : TaggedText) (name other : String) (p : Perspective) :
    (text.put name p).perspectives.get? other
      = if other = name then some p else text.perspectives.get? other :=
  NameTable.get?_insert text.perspectives name other p

theorem get?_put_self (text : TaggedText) (name : String) (p : Perspective) :
    (text.put name p).perspectives.get? name = some p := by
  rw [get?_put, if_pos rfl]

theorem put_put (text : TaggedText) (name : String) (p q : Perspective) :
    (text.put name p).put name q = text.put name q := by
  rw [put, put, put, NameTable.insert_insert]

variable {text text' : TaggedText} {name : String} {p q : Perspective}

/-- Each perspective fits the source. -/
def Sound (text : TaggedText) : Prop :=
  ∀ name p, text.perspectives.get? name = some p → p.Fits text.source

theorem Sound.put (ht : text.Sound) (name : String) (hp : p.Fits text.source) :
    (text.put name p).Sound := by
  intro other q hq
  rw [get?_put] at hq
  split at hq
  · cases hq
    exact hp
  · exact ht other q hq

/-- Names that are there stay there, and so does the new one. -/
theorem isSome_put {names : List String}
    (h : ∀ name ∈ names, (text.perspectives.get? name).isSome) (target : String)
    (p : Perspective) :
    ∀ name ∈ names ++ [target], ((text.put target p).perspectives.get? name).isSome := by
  intro name hname
  rw [get?_put]
  split
  · rfl
  · next hne =>
    rcases List.mem_append.mp hname with hname | hname
    · exact h name hname
    · exact absurd (List.mem_singleton.mp hname) hne

theorem sound_ofSource (source : Source) : (ofSource source).Sound := by
  intro name p hp
  rw [ofSource, NameTable.get?_insert] at hp
  split at hp
  · cases hp
    exact .fresh source
  · cases hp

/-! ## Calls -/

/-- A call that tags a range finds the perspective, and the range is none that splits a
character. -/
theorem tag_eq_ok {start stop : Nat} {label : Tag}
    (h : text.tag name start stop label = .ok text') :
    ∃ p q, text.perspectives.get? name = some p ∧ text.splitOffset? start stop = none ∧
      p.tag start stop label = .ok q ∧ text' = text.put name q := by
  rw [tag] at h
  split at h
  · cases h
  · next hsplit =>
    cases hp : text.perspectives.get? name with
    | none =>
      rw [perspective, hp] at h
      cases h
    | some p =>
      rw [perspective, hp] at h
      obtain ⟨_, hsome, htag⟩ := bind_eq_ok.mp h
      cases hsome
      obtain ⟨q, hq, hsame⟩ := bind_eq_ok.mp htag
      cases hsame
      exact ⟨p, q, rfl, hsplit, hq, rfl⟩

theorem copy_eq_ok {input output : String} :
    text.copy input output = .ok text'
      ↔ ∃ p, text.perspectives.get? input = some p ∧ text' = text.put output p := by
  rw [copy, perspective]
  cases text.perspectives.get? input with
  | none =>
    constructor
    · intro h
      cases h
    · rintro ⟨p, hp, -⟩
      cases hp
  | some p =>
    constructor
    · intro h
      cases h
      exact ⟨p, rfl, rfl⟩
    · rintro ⟨q, hq, rfl⟩
      cases hq
      rfl

/-- A range within the text that splits no character lies between boundaries. -/
theorem admits_of_splitOffset? {start stop : Nat} (h : text.splitOffset? start stop = none)
    (hle : start ≤ stop) (hstop : stop ≤ text.source.length) :
    text.source.Admits ⟨start, stop⟩ := by
  rw [splitOffset?, if_pos ⟨hstop, hle⟩] at h
  split at h
  · cases h
  · next hs =>
    split at h
    · cases h
    · next ht => exact ⟨hle, by simpa using hs, by simpa using ht⟩

theorem splitOffset?_of_admits {s : Span} (hs : text.source.Admits s) :
    text.splitOffset? s.start s.stop = none := by
  rw [splitOffset?, if_pos ⟨hs.stop_le, hs.order⟩]
  simp [hs.start, hs.stop]

theorem sound_tag (ht : text.Sound) {start stop : Nat} {label : Tag}
    (h : text.tag name start stop label = .ok text') : text'.Sound := by
  obtain ⟨p, q, hp, hsplit, hq, rfl⟩ := tag_eq_ok h
  have hfits := ht name p hp
  obtain ⟨hle, hlen, -⟩ := Perspective.tag_eq_ok hq
  rw [hfits.length] at hlen
  obtain ⟨r, hr, hrfits, -⟩ := hfits.tag (admits_of_splitOffset? hsplit hle hlen) label
  cases hq.symm.trans hr
  exact ht.put name hrfits

/-- The texts that come about from a source by calls that succeed. -/
inductive Reachable : TaggedText → Prop
  | ofSource (source : Source) : Reachable (ofSource source)
  | tag {text text' : TaggedText} {name : String} {start stop : Nat} {label : Tag} :
      Reachable text → text.tag name start stop label = .ok text' → Reachable text'
  | copy {text text' : TaggedText} {input output : String} :
      Reachable text → text.copy input output = .ok text' → Reachable text'
  | add {text : TaggedText} (name : String) : Reachable text → Reachable (text.add name)

theorem Reachable.sound (h : text.Reachable) : text.Sound := by
  induction h with
  | ofSource source => exact sound_ofSource source
  | tag _ h ih => exact sound_tag ih h
  | @copy text text' input output _ h ih =>
    obtain ⟨p, hp, rfl⟩ := copy_eq_ok.mp h
    exact ih.put output (ih input p hp)
  | add name _ ih => exact ih.put name (.fresh _)

theorem Reachable.tagAll (h : text.Reachable) {spans : List Span} {label : Tag}
    (htag : text.tagAll name spans label = .ok text') : text'.Reachable := by
  rw [tagAll_eq_foldlM] at htag
  exact foldlM_invariant .tag h htag

/-! ## Tokens and spans of a perspective that fits -/

/-- The tokens are the intervals with their texts. -/
theorem tokens_eq (hp : text.perspectives.get? name = some p) (hfits : p.Fits text.source) :
    text.tokens name = .ok (p.intervals.map (Token.ofInterval text.source.text)) := by
  rw [tokens, perspective, hp, ← hfits.cut_eq]
  rfl

/-- The tokens of a text that tagging leads to have text, and together they are the source. -/
theorem Reachable.exists_tokens (h : text.Reachable)
    (hname : (text.perspectives.get? name).isSome) :
    ∃ tokens, text.tokens name = .ok tokens ∧ (∀ token ∈ tokens, token.text ≠ []) ∧
      tokens.flatMap (·.text) = text.source.text := by
  obtain ⟨p, hp⟩ := Option.isSome_iff_exists.mp hname
  have hfits := h.sound name p hp
  refine ⟨_, tokens_eq hp hfits, ?_, hfits.join_tokens⟩
  intro token htoken
  obtain ⟨iv, hiv, rfl⟩ := List.mem_map.mp htoken
  exact hfits.text_ne_nil hiv

theorem tokens_of_none (hp : text.perspectives.get? name = none) :
    text.tokens name = .error (.unknownPerspective name) := by
  rw [tokens, perspective, hp]
  rfl

/-- Spans between boundaries can all be tagged; they get the tag, and every other offset keeps
its own. -/
theorem tagAll_put (text : TaggedText) (name : String) (hp : p.Fits text.source)
    {spans : List Span} (hs : ∀ s ∈ spans, text.source.Admits s) (label : Tag) :
    ∃ q, (text.put name p).tagAll name spans label = .ok (text.put name q) ∧
      q.Fits text.source ∧ ∀ offset,
        q.tagAt? offset = if spans.any (·.holds offset) then some label else p.tagAt? offset := by
  obtain ⟨q, hq, hqfits, hqtag⟩ := hp.tagSpans hs label
  refine ⟨q, ?_, hqfits, hqtag⟩
  rw [tagAll_eq_foldlM]
  by_cases hne : spans = []
  · subst hne
    cases hq
    rfl
  · have hsplit : ∀ s ∈ spans, (text.put name p).splitOffset? s.start s.stop = none :=
      fun s hmem => splitOffset?_of_admits (hs s hmem)
    rw [foldlM_tag (get?_put_self text name p) hne hsplit, hq, Except.map, put_put]

end TaggedText

end TagLayers
