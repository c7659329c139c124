import TagLayers.Color.Map
import TagLayers.Proofs.Layer.Texts

/-!
# Color codes

Output for a terminal is text with codes in it. A code starts with an escape character and a
bracket and ends with the next `m`, so letters, digits and brackets of the text are not taken for
codes as long as no escape character is among them. Reading the output gives pieces: the codes, and
the longest stretches of text between them.

Results:
1. `ofOutput_append`, `ofOutput_code`: how texts and codes are read back.
2. `color?_eq_some_iff`, `color?_eq_none_iff`: the entry that gives a tag its color.
3. `shows_pieces`: a colored token is one stretch between two codes, and the tokens without a color
   stand in stretches of whole tokens.
4. `renderColored_adds_codes`: without its codes the output is the source.
-/

namespace TagLayers

/-- What terminal output is made of. -/
inductive OutputPiece where
  /-- What stands between the bracket and the `m` of an escape sequence. -/
  | code (parameters : Text)
  /-- Text that is shown. -/
  | plain (text : Text)
deriving DecidableEq, Repr

namespace OutputPiece

/-- The text that is shown. -/
def shown : OutputPiece → Text
  | code _ => []
  | plain text => text

/-- The pieces with a character of text before them. -/
def attach (c : Char) : List OutputPiece → List OutputPiece
  | plain text :: more => plain (c :: text) :: more
  | more => plain [c] :: more

/-- What a sequence says that goes on after its escape character, if it ends. -/
def parameters? : Text → Option Text
  | '[' :: rest => if 'm' ∈ rest then some (rest.takeWhile (· != 'm')) else none
  | _ => none

/-- The pieces of output whose first characters, so many, still belong to a code. -/
def scan : Nat → Text → List OutputPiece
  | _, [] => []
  | skipped + 1, _ :: rest => scan skipped rest
  | 0, c :: rest =>
      match (if c = '\x1b' then parameters? rest else none) with
      | some parameters => code parameters :: scan (parameters.length + 2) rest
      | none => attach c (scan 0 rest)

/-- The pieces of output. -/
def ofOutput (out : Text) : List OutputPiece := scan 0 out

/-- Output without its codes. -/
def strip (out : Text) : Text := (ofOutput out).flatMap shown

/-! ## Texts and codes are read back -/

theorem scan_append (a rest : Text) : scan a.length (a ++ rest) = ofOutput rest := by
  induction a with
  | nil => rfl
  | cons c a ih => exact ih

/-- A text without escape characters is read as it is. -/
theorem ofOutput_append {text : Text} (htext : '\x1b' ∉ text) (rest : Text) :
    ofOutput (text ++ rest) = text.foldr attach (ofOutput rest) := by
  induction text with
  | nil => rfl
  | cons c text ih =>
    obtain ⟨hc, htext⟩ := List.ne_and_not_mem_of_not_mem_cons htext
    rw [List.cons_append, ofOutput, scan, if_neg (Ne.symm hc), List.foldr_cons, ← ih htext]
    rfl

theorem ofOutput_code {parameters : Text} (hm : 'm' ∉ parameters) (rest : Text) :
    ofOutput (TerminalColor.escape ++ parameters ++ 'm' :: rest)
      = code parameters :: ofOutput rest := by
  have htake : (parameters ++ 'm' :: rest).takeWhile (· != 'm') = parameters := by
    rw [List.takeWhile_append_of_pos, List.takeWhile_cons_of_neg, List.append_nil]
    · decide
    · intro c hc
      exact bne_iff_ne.mpr fun h => hm (h ▸ hc)
  have hread : parameters? ('[' :: (parameters ++ 'm' :: rest)) = some parameters := by
    rw [parameters?, if_pos (List.mem_append_right _ List.mem_cons_self), htake]
  have hskip := scan_append ('[' :: (parameters ++ ['m'])) rest
  rw [List.length_cons, List.length_append, List.cons_append, List.append_assoc] at hskip
  rw [TerminalColor.escape, ofOutput, List.append_assoc, List.cons_append, List.cons_append,
    List.nil_append, scan, if_pos rfl, hread]
  exact congrArg _ hskip

example : ofOutput "a\x1b[0mb\x1b[".toList = [plain ['a'], code ['0'], plain "b\x1b[".toList] := by
  decide

/-- The next piece is not text. -/
def StartsWithCode : List OutputPiece → Prop
  | plain _ :: _ => False
  | _ => True

theorem foldr_attach_plain (text next : Text) (pieces : List OutputPiece) :
    text.foldr attach (plain next :: pieces) = plain (text ++ next) :: pieces := by
  induction text with
  | nil => rfl
  | cons c text ih => rw [List.foldr_cons, ih, attach, List.cons_append]

theorem foldr_attach {text : Text} (hne : text ≠ []) {pieces : List OutputPiece}
    (hcode : StartsWithCode pieces) : text.foldr attach pieces = plain text :: pieces := by
  induction text with
  | nil => exact absurd rfl hne
  | cons c text ih =>
    rw [List.foldr_cons]
    by_cases hlast : text = []
    · subst hlast
      match pieces, hcode with
      | [], _ => rfl
      | code _ :: _, _ => rfl
    · rw [ih hlast]
      rfl

end OutputPiece

/-! ## The entry that gives a color -/

namespace ColorMap

variable {κ : Type} {map : ColorMap κ} {tag : Tag} {color : κ}

/-- The first entry that meets the tag has the color. -/
def Gives (map : ColorMap κ) (tag : Tag) (color : κ) : Prop :=
  ∃ before entry after, map.entries = before ++ (entry, color) :: after ∧
    entry.meets tag = true ∧ ∀ other ∈ before, other.1.meets tag = false

/-- No entry meets the tag. -/
def Ignores (map : ColorMap κ) (tag : Tag) : Prop :=
  ∀ entry ∈ map.entries, entry.1.meets tag = false

theorem color?_eq_some_iff : map.color? tag = some color ↔ map.Gives tag color := by
  rw [color?, Option.map_eq_some_iff]
  constructor
  · rintro ⟨⟨entry, _⟩, hfind, rfl⟩
    obtain ⟨hmeets, before, after, hsplit, hbefore⟩ := List.find?_eq_some_iff_append.mp hfind
    exact ⟨before, entry, after, hsplit, hmeets,
      fun other hother => Bool.not_eq_true' _ ▸ hbefore other hother⟩
  · rintro ⟨before, entry, after, hsplit, hmeets, hbefore⟩
    refine ⟨(entry, color), List.find?_eq_some_iff_append.mpr ⟨hmeets, before, after, hsplit, ?_⟩,
      rfl⟩
    intro other hother
    rw [hbefore other hother]
    rfl

theorem color?_eq_none_iff : map.color? tag = none ↔ map.Ignores tag := by
  rw [color?, Option.map_eq_none_iff, List.find?_eq_none]
  exact forall₂_congr fun entry _ => iff_of_eq (Bool.not_eq_true _)

end ColorMap

namespace TerminalColor

/-- What the sequence says that goes back to the default color. -/
def defaultParameters : Text := "39".toList

theorem paint_eq {κ : Type} [TerminalColor κ] (color : κ) (text rest : Text) :
    paint color text ++ rest
      = escape ++ parameters color ++ 'm' ::
          (text ++ (escape ++ defaultParameters ++ 'm' :: rest)) := by
  have hdefault : defaultSequence = escape ++ defaultParameters ++ ['m'] := by decide
  unfold paint startSequence
  rw [hdefault]
  simp only [List.append_assoc, List.cons_append, List.nil_append]

end TerminalColor

/-! ## Rendered tokens -/

open OutputPiece

variable {κ : Type} [TerminalColor κ]

/-- What tokens look like under a color map: a token with a color stands alone between the code of
the color and the code of the default, and a row of tokens without a color, as long as it can be, is
one stretch of text. -/
inductive ColorMap.Shows (map : ColorMap κ) : List Token → List OutputPiece → Prop
  | nil : map.Shows [] []
  | colored {token : Token} {color : κ} {rest : List Token} {pieces : List OutputPiece} :
      map.Gives token.tag color → map.Shows rest pieces →
      map.Shows (token :: rest)
        (code (TerminalColor.parameters color) :: plain token.text ::
          code TerminalColor.defaultParameters :: pieces)
  | uncolored {run rest : List Token} {pieces : List OutputPiece} :
      run ≠ [] → (∀ token ∈ run, map.Ignores token.tag) → StartsWithCode pieces →
      map.Shows rest pieces →
      map.Shows (run ++ rest) (plain (run.flatMap (·.text)) :: pieces)

namespace ColorMap.Shows

variable {map : ColorMap κ} {tokens : List Token} {pieces : List OutputPiece}

/-- A token without a color begins a stretch or is added to the one after it. -/
theorem attach {token : Token} (hignores : map.Ignores token.tag) (htext : token.text ≠ [])
    (h : map.Shows tokens pieces) :
    map.Shows (token :: tokens) (token.text.foldr OutputPiece.attach pieces) := by
  have alone (hcode : StartsWithCode pieces) :
      map.Shows (token :: tokens) (token.text.foldr OutputPiece.attach pieces) := by
    rw [foldr_attach htext hcode]
    have hone : [token].flatMap (·.text) = token.text := List.flatMap_singleton _ _
    exact hone ▸ uncolored (List.cons_ne_nil token [])
      (fun _ hmem => List.mem_singleton.mp hmem ▸ hignores) hcode h
  -- a stretch that already stands there takes the token in front of its own
  cases h with
  | nil => exact alone trivial
  | colored _ _ => exact alone trivial
  | @uncolored run rest pieces hne hrun hcode h =>
    rw [foldr_attach_plain, ← List.cons_append]
    exact uncolored (List.cons_ne_nil token run) (List.forall_mem_cons.mpr ⟨hignores, hrun⟩) hcode h

/-- What is shown of the tokens is their text. -/
theorem shown (h : map.Shows tokens pieces) :
    pieces.flatMap OutputPiece.shown = tokens.flatMap (·.text) := by
  induction h with
  | nil => rfl
  | colored _ _ ih =>
    rw [List.flatMap_cons, List.flatMap_cons, List.flatMap_cons, List.flatMap_cons, ih]
    rfl
  | uncolored _ _ _ _ ih =>
    rw [List.flatMap_cons, List.flatMap_append, ih]
    rfl

/-- Each stretch of text is made of whole tokens. -/
theorem exists_run (h : map.Shows tokens pieces) {stretch : Text} (hmem : plain stretch ∈ pieces) :
    ∃ before run after, tokens = before ++ run ++ after ∧ stretch = run.flatMap (·.text) := by
  induction h with
  | nil => exact absurd hmem List.not_mem_nil
  | @colored token color rest pieces _ _ ih =>
    simp only [List.mem_cons, reduceCtorEq, false_or, plain.injEq] at hmem
    obtain rfl | hmem := hmem
    · exact ⟨[], [token], rest, rfl, (List.flatMap_singleton _ _).symm⟩
    · obtain ⟨before, run, after, rfl, rfl⟩ := ih hmem
      exact ⟨token :: before, run, after, rfl, rfl⟩
  | @uncolored first rest pieces _ _ _ _ ih =>
    rw [List.mem_cons, plain.injEq] at hmem
    obtain rfl | hmem := hmem
    · exact ⟨[], first, rest, rfl, rfl⟩
    · obtain ⟨before, run, after, rfl, rfl⟩ := ih hmem
      refine ⟨first ++ before, run, after, ?_, rfl⟩
      simp only [List.append_assoc]

end ColorMap.Shows

/-- The pieces of rendered tokens. -/
theorem ColorMap.shows_pieces (map : ColorMap κ) {tokens : List Token}
    (htokens : ∀ token ∈ tokens, token.text ≠ [] ∧ '\x1b' ∉ token.text) :
    map.Shows tokens (ofOutput (tokens.flatMap map.renderToken)) := by
  induction tokens with
  | nil => exact .nil
  | cons token rest ih =>
    obtain ⟨⟨hne, htext⟩, hrest⟩ := List.forall_mem_cons.mp htokens
    rw [List.flatMap_cons, renderToken]
    cases hcolor : map.color? token.tag with
    | none =>
      rw [ofOutput_append htext]
      exact .attach (color?_eq_none_iff.mp hcolor) hne (ih hrest)
    | some color =>
      have hcode (pieces : List OutputPiece) :
          StartsWithCode (code TerminalColor.defaultParameters :: pieces) := trivial
      rw [TerminalColor.paint_eq, ofOutput_code (TerminalColor.not_mem_parameters color),
        ofOutput_append htext, ofOutput_code (by decide), foldr_attach hne (hcode _)]
      exact .colored (color?_eq_some_iff.mp hcolor) (ih hrest)

/-! ## Rendered texts -/

variable {text : TaggedText} {name : String}

theorem TaggedText.renderColored_eq {tokens : List Token} (h : text.tokens name = .ok tokens)
    (map : ColorMap κ) : text.renderColored name map = .ok (tokens.flatMap map.renderToken) := by
  rw [renderColored, h]
  rfl

/-- Coloring a text without escape characters only adds codes. Without them the output is the
source, each stretch between them is made of whole tokens, a token has the color of the first entry
that it meets, and a token that meets none has no code around it. Without entries nothing is
added. -/
theorem TaggedText.renderColored_adds_codes (h : text.Reachable)
    (hname : (text.perspectives.get? name).isSome) (hescape : '\x1b' ∉ text.source.text)
    (map : ColorMap κ) :
    ∃ tokens out, text.tokens name = .ok tokens ∧ text.renderColored name map = .ok out ∧
      strip out = text.source.text ∧ map.Shows tokens (ofOutput out) ∧
      (∀ stretch, plain stretch ∈ ofOutput out → ∃ before run after,
        tokens = before ++ run ++ after ∧ stretch = run.flatMap (·.text)) ∧
      text.renderColored name ({} : ColorMap κ) = .ok text.source.text := by
  obtain ⟨tokens, htokens, hne, hjoin⟩ := h.exists_tokens hname
  have hshows := map.shows_pieces fun token htoken => ⟨hne token htoken, fun hmem =>
    hescape (hjoin ▸ List.mem_flatMap.mpr ⟨token, htoken, hmem⟩)⟩
  refine ⟨tokens, _, htokens, renderColored_eq htokens map, ?_, hshows,
    fun stretch => hshows.exists_run, ?_⟩
  · rw [strip, hshows.shown, hjoin]
  · have hplain : ColorMap.renderToken ({} : ColorMap κ) = (·.text) := rfl
    rw [renderColored_eq htokens, hplain, hjoin]

/-- A keyword before text that looks like the end of a code. -/
theorem TaggedText.renderColored_adds_codes_brackets :
    ∃ text tokens out,
      (ofSource ⟨"a.v", "wire [0m".toList⟩).tag "top" 0 4 (Tag.ofCategory .keyword) = .ok text ∧
      text.tokens "top" = .ok tokens ∧ text.renderColored "top" ColorMap.lexical = .ok out ∧
      out = "\x1b[38;5;10mwire\x1b[39m [0m".toList ∧ strip out = "wire [0m".toList ∧
      ColorMap.lexical.Shows tokens (ofOutput out) := by
  have htag : (ofSource ⟨"a.v", "wire [0m".toList⟩).tag "top" 0 4 (Tag.ofCategory .keyword)
      = .ok _ := rfl
  obtain ⟨tokens, out, htokens, hout, hstrip, hshows, -, -⟩ :=
    @renderColored_adds_codes Color _ _ "top" (.tag (.ofSource _) htag) rfl (by decide)
      ColorMap.lexical
  exact ⟨_, tokens, out, htag, htokens, hout, Except.ok.inj (hout.symm.trans rfl), hstrip, hshows⟩

end TagLayers
