import TagLayers.Config.Reading
import TagLayers.Proofs.Lexicon.Walks

/-!
# Quotes, escapes and marks of configurations

A section of a configuration is checked as it is written, and what it leaves out is filled in
afterwards. So a quote and an escape that are both written differ, and a quote that is the default
of the escape passes the check where the escape is left out, and the other way round. No string ends
in such a lexicon. An empty mark switches the comments to the end of the line off, and longer
comments with an empty mark are refused, so no mark of a comment is empty.

Results:
1. `closable_iff`, `stringAt?_of_eq`: strings where quote and escape differ, and where they do not.
2. `ofLexicon_eq_error`: why a lexicon makes no tokenizer.
3. `quote_eq_escape_iff`, `toTokenizer_ne_error`: the sections that are accepted.
4. `quote_of_accepted`: the lexicons of configurations.
-/

namespace TagLayers

namespace Lexicon

variable {lex : Lexicon}

/-- Where the quote is its own escape, a walk that has come into a string stays there. -/
theorem inside_of_eq (h : lex.quote = lex.escape) (text : Text) {s : StringState}
    (hs : s ≠ .outside) : text.foldl (StringState.next lex.quote lex.escape) s ≠ .outside := by
  induction text generalizing s with
  | nil => exact hs
  | cons c rest ih =>
    refine ih ?_
    cases s with
    | outside => exact absurd rfl hs
    | inside =>
      rw [StringState.next, ← h]
      by_cases hc : c = lex.quote
      · rw [if_pos hc]
        exact StringState.noConfusion
      · rw [if_neg hc, if_neg hc]
        exact StringState.noConfusion
    | escaped => exact StringState.noConfusion

/-- The strings of every text can be closed if and only if the quote is not its own escape. -/
theorem closable_iff (lex : Lexicon) :
    (∀ text, ∃ more, lex.Closes (text ++ more)) ↔ lex.quote ≠ lex.escape := by
  constructor
  · intro hclose h
    obtain ⟨more, hmore⟩ := hclose [lex.quote]
    unfold Closes at hmore
    rw [List.singleton_append, List.foldl_cons, StringState.next, if_pos rfl] at hmore
    exact inside_of_eq h more StringState.noConfusion hmore
  · intro h text
    have hquote : StringState.next lex.quote lex.escape .inside lex.quote = .outside := by
      rw [StringState.next, if_neg h, if_pos rfl]
    unfold Closes
    cases hstate : text.foldl (StringState.next lex.quote lex.escape) .outside with
    | outside => exact ⟨[], by rw [List.append_nil, hstate]⟩
    | inside => exact ⟨[lex.quote], by rw [List.foldl_append, hstate]; exact hquote⟩
    | escaped =>
      refine ⟨[lex.quote, lex.quote], ?_⟩
      rw [List.foldl_append, hstate]
      exact hquote

/-- Where the quote is its own escape, a string takes the rest of the text. -/
theorem stringAt?_of_eq (h : lex.quote = lex.escape) (rest : Text) :
    lex.stringAt? (lex.quote :: rest) = some (1 + rest.length) := by
  have hlength (b : Bool) (text : Text) :
      stringLength lex.quote lex.quote b text = text.length := by
    induction text generalizing b with
    | nil => cases b <;> rfl
    | cons c text ih =>
      cases b with
      | true => rw [stringLength, ih, List.length_cons, Nat.add_comm]
      | false =>
        rw [stringLength, List.length_cons]
        split
        · rw [ih, Nat.add_comm]
        · rw [ih, Nat.add_comm]
  rw [stringAt?, if_pos rfl, ← h, hlength]

/-! ## Errors -/

theorem checkTable_eq_error {part : LexiconPart} {seen : List TagValue}
    {table : List (String × TagValue)} {e : LexiconError}
    (h : checkTable part seen table = .error e) :
    e = .emptySymbol part ∨ ∃ id, e = .duplicateId part id := by
  induction table generalizing seen with
  | nil => cases h
  | cons entry rest ih =>
    rw [checkTable] at h
    split at h
    · cases h
      exact .inl rfl
    · split at h
      · cases h
        exact .inr ⟨_, rfl⟩
      · exact ih h

/-- No mark of a comment is empty. -/
structure MarksGiven (lex : Lexicon) : Prop where
  line : lex.lineComment ≠ some ""
  block : ∀ opener closer, lex.blockComment = some (opener, closer) →
    (opener.isEmpty || closer.isEmpty) = false

theorem MarksGiven.validate_eq (h : lex.MarksGiven) :
    lex.validate = (do
      checkTable .keywords [] lex.keywords
      checkTable .reserved [] (lex.reserved.map fun r : Reserved => (r.symbol, r.id))
      checkTable .directives [] lex.directives) := by
  unfold validate
  rw [if_neg h.line]
  cases hblock : lex.blockComment with
  | none => rfl
  | some marks =>
    dsimp only
    rw [h.block marks.1 marks.2 hblock]
    rfl

/-- Where the marks of comments are given, only a table can be wrong. -/
theorem MarksGiven.part_of_error (h : lex.MarksGiven) {e : LexiconError}
    (he : lex.validate = .error e) :
    ∃ part ∈ [LexiconPart.keywords, .reserved, .directives],
      e = .emptySymbol part ∨ ∃ id, e = .duplicateId part id := by
  rw [h.validate_eq] at he
  rcases bind_eq_error he with hkeywords | ⟨_, -, hlater⟩
  · exact ⟨.keywords, by decide, checkTable_eq_error hkeywords⟩
  · rcases bind_eq_error hlater with hreserved | ⟨_, -, hdirectives⟩
    · exact ⟨.reserved, by decide, checkTable_eq_error hreserved⟩
    · exact ⟨.directives, by decide, checkTable_eq_error hdirectives⟩

end Lexicon

namespace Tokenizer

theorem finderOf_eq_error {engine : Engine} {r : Reserved} {e : LexiconError}
    (h : finderOf engine r = .error e) :
    e = .badPattern r.symbol := by
  unfold finderOf at h
  split at h
  · cases h
  · split at h
    · cases h
    · cases h
      rfl

theorem symbolTag_eq_error {lex : Lexicon} {symbol : String} {e : LexiconError}
    (h : symbolTag lex symbol = .error e) : e = .unknownPairSymbol symbol := by
  unfold symbolTag at h
  split at h
  · cases h
  · cases h
  · cases h
    rfl

/-- A lexicon makes no tokenizer if it is not valid, if one of its expressions is not one, or if a
symbol of a pair is in no table. -/
theorem ofLexicon_eq_error {lex : Lexicon} {engine : Engine} {e : LexiconError}
    (h : ofLexicon lex engine = .error e) :
    lex.validate = .error e ∨ (∃ symbol, e = .badPattern symbol) ∨
      ∃ symbol, e = .unknownPairSymbol symbol := by
  rcases bind_eq_error h with hvalid | ⟨_, -, h⟩
  · exact .inl hvalid
  · rcases bind_eq_error h with hreserved | ⟨_, -, h⟩
    · obtain ⟨r, -, hr⟩ := mapM_eq_error hreserved
      rcases bind_eq_error hr with hfinder | ⟨_, -, hr⟩
      · exact .inr (.inl ⟨r.symbol, finderOf_eq_error hfinder⟩)
      · cases hr
    · rcases bind_eq_error h with hpairs | ⟨_, -, h⟩
      · obtain ⟨pair, -, table, hpair⟩ := foldlM_eq_error hpairs
        rcases bind_eq_error hpair with hopener | ⟨_, -, hpair⟩
        · exact .inr (.inr ⟨_, symbolTag_eq_error hopener⟩)
        · rcases bind_eq_error hpair with hcloser | ⟨_, -, hpair⟩
          · exact .inr (.inr ⟨_, symbolTag_eq_error hcloser⟩)
          · cases hpair
      · cases h

end Tokenizer

namespace LexiconSection

variable {s : LexiconSection}

theorem validate_eq_ok (h : s.validate = .ok ()) :
    s.blockCommentOk = true ∧ (s.quote.isSome && s.quote == s.escape) = false := by
  unfold validate at h
  cases hblock : s.blockCommentOk with
  | false =>
    rw [hblock] at h
    cases h
  | true =>
    cases hquote : s.quote.isSome && s.quote == s.escape with
    | true =>
      rw [hblock, hquote] at h
      cases h
    | false => exact ⟨rfl, rfl⟩

/-- Among the sections that pass the check, those that leave out one of the two and give its default
to the other have a quote that is its own escape. -/
theorem quote_eq_escape_iff (h : s.validate = .ok ()) :
    s.toLexicon.quote = s.toLexicon.escape ↔
      s.quote = some '\\' ∧ s.escape = none ∨ s.quote = none ∧ s.escape = some '"' := by
  have hcheck := (validate_eq_ok h).2
  show s.quote.getD '"' = s.escape.getD '\\' ↔ _
  cases hquote : s.quote with
  | none =>
    cases hescape : s.escape with
    | none => decide
    | some escape => simp [eq_comm]
  | some quote =>
    cases hescape : s.escape with
    | none => simp
    | some escape =>
      rw [hquote, hescape] at hcheck
      have hne : quote ≠ escape := by simpa using hcheck
      simpa using hne

theorem marksGiven (h : s.validate = .ok ()) : s.toLexicon.MarksGiven where
  line := by
    unfold toLexicon
    dsimp only
    split
    · decide
    · next mark _ =>
      split
      · decide
      · next hmark =>
        rw [ne_eq, Option.some.injEq]
        exact fun hnil => hmark (String.isEmpty_iff.mpr hnil)
  block := by
    have hblock := (validate_eq_ok h).1
    unfold blockCommentOk at hblock
    unfold toLexicon
    dsimp only
    intro opener closer hmarks
    split at hmarks
    · cases hmarks
      rfl
    · next hgiven =>
      cases hmarks
      rw [hgiven] at hblock
      simpa using hblock
    · cases hmarks

/-- No tokenizer of an accepted section is missing for an empty mark of comments. -/
theorem toTokenizer_ne_error (h : s.validate = .ok ()) {part : LexiconPart}
    (hpart : part ∈ [LexiconPart.lineComment, .blockComment]) (engine : Engine) :
    s.toTokenizer engine ≠ .error (.lexicon (.emptySymbol part)) := by
  intro herror
  unfold toTokenizer at herror
  cases hrun : Tokenizer.ofLexicon s.toLexicon engine with
  | ok t =>
    rw [hrun] at herror
    cases herror
  | error e =>
    rw [hrun] at herror
    obtain rfl : e = .emptySymbol part := by
      cases herror
      rfl
    rcases Tokenizer.ofLexicon_eq_error hrun with hvalid | ⟨_, he⟩ | ⟨_, he⟩
    · obtain ⟨part', hpart', he | ⟨_, he⟩⟩ := (marksGiven h).part_of_error hvalid
      · cases he
        have hother : ∀ part ∈ [LexiconPart.lineComment, .blockComment],
            part ∉ [LexiconPart.keywords, .reserved, .directives] := by decide
        exact hother _ hpart hpart'
      · cases he
    · cases he
    · cases he

end LexiconSection

namespace Config

theorem validate_of_ofText {text : Text} {config : Config} (h : ofText text = .ok config) :
    config.validate = .ok () := by
  unfold ofText at h
  split at h
  · cases h
  · obtain ⟨_, hvalid, h⟩ := bind_eq_ok.mp h
    cases h
    exact hvalid

theorem validate_of_lexicon {config : Config} {s : LexiconSection} (h : config.validate = .ok ())
    (hs : config.lexicon = some s) : s.validate = .ok () := by
  obtain ⟨_, -, h⟩ := bind_eq_ok.mp h
  rw [hs] at h
  exact h

/-- The quote of an accepted configuration is its own escape if and only if one of the two is left
out and its default is given to the other. Where it is not, the strings of every text can be closed,
and where it is, none ends. No mark of comments is empty. -/
theorem quote_of_accepted {text : Text} {config : Config} {s : LexiconSection}
    (h : ofText text = .ok config) (hs : config.lexicon = some s) :
    (s.toLexicon.quote = s.toLexicon.escape ↔
      s.quote = some '\\' ∧ s.escape = none ∨ s.quote = none ∧ s.escape = some '"') ∧
    ((∀ written, ∃ more, s.toLexicon.Closes (written ++ more))
      ↔ s.toLexicon.quote ≠ s.toLexicon.escape) ∧
    (s.toLexicon.quote = s.toLexicon.escape → ∀ rest,
      s.toLexicon.stringAt? (s.toLexicon.quote :: rest) = some (1 + rest.length)) ∧
    ∀ engine, s.toTokenizer engine ≠ .error (.lexicon (.emptySymbol .lineComment)) ∧
      s.toTokenizer engine ≠ .error (.lexicon (.emptySymbol .blockComment)) := by
  have hvalid := validate_of_lexicon (validate_of_ofText h) hs
  refine ⟨LexiconSection.quote_eq_escape_iff hvalid, s.toLexicon.closable_iff,
    fun heq => Lexicon.stringAt?_of_eq heq, fun engine => ⟨?_, ?_⟩⟩
  · exact LexiconSection.toTokenizer_ne_error hvalid (by decide) engine
  · exact LexiconSection.toTokenizer_ne_error hvalid (by decide) engine

theorem quote_of_accepted_apostrophe :
    ∃ config s, ofText "[lexicon]\nquote = \"'\"\nline_comment = ''\n".toList = .ok config ∧
      config.lexicon = some s ∧ s.toLexicon.lineComment = none ∧
      s.toLexicon.quote ≠ s.toLexicon.escape ∧
      ∀ written, ∃ more, s.toLexicon.Closes (written ++ more) := by
  have hread : ofText "[lexicon]\nquote = \"'\"\nline_comment = ''\n".toList
      = .ok ⟨some { quote := some '\'', lineComment := some "" }, {}⟩ := by
    cbv
  obtain ⟨hdiffers, hclosable, -⟩ := quote_of_accepted hread rfl
  have hne := mt hdiffers.mp (by decide)
  exact ⟨_, _, hread, rfl, rfl, hne, hclosable.mpr hne⟩

/-- A section with the default of the escape for its quote is accepted, and its quote is its own
escape. -/
theorem accepted_quote_is_escape :
    ∃ config s, ofText "[lexicon]\nquote = '\\'\n".toList = .ok config ∧
      config.lexicon = some s ∧ s.toLexicon.quote = s.toLexicon.escape ∧
      ∀ more, ¬ s.toLexicon.Closes ("\\a\\ b".toList ++ more) := by
  have hread : ofText "[lexicon]\nquote = '\\'\n".toList
      = .ok ⟨some { quote := some '\\' }, {}⟩ := by
    cbv
  have heq : (LexiconSection.toLexicon { quote := some '\\' }).quote
      = (LexiconSection.toLexicon { quote := some '\\' }).escape := rfl
  have hinside : StringState.inside ≠ .outside := by decide
  refine ⟨_, _, hread, rfl, heq, fun more hcloses => ?_⟩
  -- the quote opens a string, and the next one takes the meaning from the blank
  exact Lexicon.inside_of_eq heq more hinside hcloses

end Config

end TagLayers
