import TagLayers.Layer.Token
import TagLayers.NameTable

/-!
# Tagged texts

A tagged text is a source with any number of perspectives, each known by a name. All
perspectives have the length of the source and their boundaries lie between characters. A
copied perspective shares nothing with the one it was copied from.

A step that fails gives no new text, so the old one is what remains.

Main statement: `tagAll_eq_foldlM`: to tag ranges is to tag one after the other.
-/

namespace TagLayers

/-- A source and its perspectives by name. -/
structure TaggedText where
  source : Source
  perspectives : NameTable Perspective
deriving Repr, Inhabited

namespace TaggedText

/-- The name of the perspective that every tagged text starts with. -/
def top : String := "top"

/-- A source with nothing classified. -/
def ofSource (source : Source) : TaggedText :=
  ⟨source, (⟨[]⟩ : NameTable Perspective).insert top (Perspective.fresh source.length)⟩

/-- Looks a perspective up. -/
def perspective (text : TaggedText) (name : String) : Except TagError Perspective :=
  match text.perspectives.get? name with
  | some p => .ok p
  | none => .error (.unknownPerspective name)

/-- Puts a perspective under a name, over any that was there. -/
def put (text : TaggedText) (name : String) (p : Perspective) : TaggedText :=
  { text with perspectives := text.perspectives.insert name p }

/-- Creates a perspective in which nothing is classified, or clears the one of that name. -/
def add (text : TaggedText) (name : String) : TaggedText :=
  text.put name (Perspective.fresh text.source.length)

/-- Copies a perspective under another name. -/
def copy (text : TaggedText) (source target : String) : Except TagError TaggedText := do
  let p ← text.perspective source
  return text.put target p

/-- The first of two offsets that lies inside a character. -/
def splitOffset? (text : TaggedText) (start stop : Nat) : Option Nat :=
  if stop ≤ text.source.length ∧ start ≤ stop then
    if !text.source.text.isBoundary start then some start
    else if !text.source.text.isBoundary stop then some stop
    else none
  else
    none

/-- Tags a range of a perspective. A range within the text has to lie between characters; that
is checked before the name, and the name before the range. -/
def tag (text : TaggedText) (name : String) (start stop : Nat) (label : Tag) :
    Except TagError TaggedText :=
  match text.splitOffset? start stop with
  | some offset => .error (.notCharBoundary offset)
  | none => do
      let p ← text.perspective name
      let p ← p.tag start stop label
      return text.put name p

/-- The ends of spans that follow each other lie between characters, given the text from `pos`
on. -/
def endsFit (pos : Nat) (rest : Text) : List Span → Bool
  | [] => true
  | span :: more =>
      let here := rest.dropBytes (span.start - pos)
      let length := span.stop - span.start
      rest.isBoundary (span.start - pos) && here.isBoundary length
        && endsFit span.stop (here.dropBytes length) more

/-- Tags ranges of a perspective one after the other. Ranges that follow each other between
characters are tagged in one go. -/
def tagAll (text : TaggedText) (name : String) (spans : List Span) (label : Tag) :
    Except TagError TaggedText :=
  match spans, text.perspectives.get? name with
  | span :: more, some p =>
      if Span.inOrder p.length 0 (span :: more) && endsFit 0 text.source.text (span :: more) then
        .ok (text.put name (p.sweep (span :: more) label))
      else (span :: more).foldlM (fun text s => text.tag name s.start s.stop label) text
  | spans, _ => spans.foldlM (fun text s => text.tag name s.start s.stop label) text

/-- The tokens of a perspective in order. -/
def tokens (text : TaggedText) (name : String) : Except TagError (List Token) := do
  let p ← text.perspective name
  return Token.cut 0 text.source.text p.intervals

/-! ## Ranges are tagged one after the other -/

/-- The ends of spans that follow each other lie between characters of the whole text. -/
theorem isBoundary_of_endsFit {text : Text} {length pos : Nat} {spans : List Span}
    (ho : Span.inOrder length pos spans) (hp : text.isBoundary pos)
    (h : endsFit pos (text.dropBytes pos) spans) {span : Span} (hs : span ∈ spans) :
    text.isBoundary span.start ∧ text.isBoundary span.stop := by
  induction spans generalizing pos with
  | nil => simp at hs
  | cons first more ih =>
      simp only [Span.inOrder, Bool.and_eq_true, decide_eq_true_eq] at ho
      simp only [endsFit, Bool.and_eq_true] at h
      obtain ⟨⟨⟨hpos, hlt⟩, -⟩, ho⟩ := ho
      obtain ⟨⟨hstart, hstop⟩, hmore⟩ := h
      have atStart := Text.isBoundary_add hp hstart
      rw [Nat.add_sub_cancel' hpos] at atStart
      rw [Text.dropBytes_dropBytes hp, Nat.add_sub_cancel' hpos] at hstop hmore
      have atStop := Text.isBoundary_add atStart hstop
      rw [Nat.add_sub_cancel' (Nat.le_of_lt hlt)] at atStop
      rw [Text.dropBytes_dropBytes atStart, Nat.add_sub_cancel' (Nat.le_of_lt hlt)] at hmore
      rcases List.mem_cons.mp hs with rfl | hs
      · exact ⟨atStart, atStop⟩
      · exact ih ho atStop hmore hs

/-- Tagging ranges between characters changes the one perspective as if on its own. -/
theorem foldlM_tag {text : TaggedText} {name : String} {p : Perspective} {spans : List Span}
    (hp : text.perspectives.get? name = some p) (hne : spans ≠ [])
    (hs : ∀ s ∈ spans, text.splitOffset? s.start s.stop = none) (label : Tag) :
    spans.foldlM (fun text s => text.tag name s.start s.stop label) text
      = (spans.foldlM (fun (p : Perspective) s => p.tag s.start s.stop label) p).map
          (text.put name) := by
  induction spans generalizing text p with
  | nil => exact absurd rfl hne
  | cons span more ih =>
      have first : text.tag name span.start span.stop label
          = (p.tag span.start span.stop label).map (text.put name) := by
        simp only [tag, hs span List.mem_cons_self, perspective, hp]
        cases h : p.tag span.start span.stop label <;>
          simp [h, bind, Except.bind, Except.map, pure, Except.pure]
      rw [List.foldlM_cons, List.foldlM_cons, first]
      cases p.tag span.start span.stop label with
      | error e => rfl
      | ok q =>
          cases more with
          | nil => rfl
          | cons next rest =>
              have hq : (text.put name q).perspectives.get? name = some q := by
                rw [put, NameTable.get?_insert, if_pos rfl]
              refine (ih hq (List.cons_ne_nil _ _)
                fun s hm => hs s (List.mem_cons_of_mem _ hm)).trans ?_
              have same : (text.put name q).put name = text.put name := by
                funext r
                rw [put, put, put, NameTable.insert_insert]
              rw [same]
              rfl

/-- To tag ranges is to tag one after the other. -/
theorem tagAll_eq_foldlM (text : TaggedText) (name : String) (spans : List Span) (label : Tag) :
    text.tagAll name spans label
      = spans.foldlM (fun text s => text.tag name s.start s.stop label) text := by
  unfold tagAll
  split
  · next span more p hp =>
      split
      · next h =>
          rw [Bool.and_eq_true] at h
          have ends : ∀ s ∈ span :: more, text.splitOffset? s.start s.stop = none := by
            intro s hs
            have fit : endsFit 0 (text.source.text.dropBytes 0) (span :: more) := by
              rw [Text.dropBytes_zero]
              exact h.2
            have atStart : text.source.text.isBoundary 0 := by cases text.source.text <;> rfl
            have hb := isBoundary_of_endsFit h.1 atStart fit hs
            simp [splitOffset?, hb.1, hb.2]
          rw [foldlM_tag hp (List.cons_ne_nil _ _) ends, Perspective.foldlM_tag h.1]
          rfl
      · rfl
  · rfl

end TaggedText

end TagLayers
