import TagLayers.Proofs.Lexicon.Symbols
import TagLayers.Proofs.Lexicon.Words

/-!
# Keywords

The keywords of a lexicon are searched for one after the other in what the symbols have left. As
each of them is a word, the searches together tag each word that is a keyword, for the first entry
with its text, and nothing else. All that they depend on is which id a text has in the table.

Results:
1. `lookup_keywordTags`, `rulesOf_keywords`: the searches for keywords.
2. `keyword_iff`: the keywords of a tokenizer.
-/

namespace TagLayers

namespace Tokenizer

open Segment

/-- The keywords of a table, each with its tag. -/
def keywordTags (keywords : List (String × TagValue)) : List (Text × Tag) :=
  keywords.map fun k => (k.1.toList, Tag.ofSymbol .keyword k.2)

theorem lookup_keywordTags (lex : Lexicon) (word : Text) :
    (keywordTags lex.keywords).lookup word
      = (lex.keywordId? (String.ofList word)).map (Tag.ofSymbol .keyword) := by
  unfold Lexicon.keywordId?
  induction lex.keywords with
  | nil => rfl
  | cons k keywords ih =>
    rw [keywordTags, List.map_cons, List.lookup_cons]
    by_cases hk : k.1 = String.ofList word
    · have hfirst : (k :: keywords).find? (·.1 == String.ofList word) = some k :=
        List.find?_cons_of_pos (beq_iff_eq.mpr hk)
      rw [hfirst, hk, String.toList_ofList, beq_self_eq_true]
      rfl
    · have hword : word ≠ k.1.toList := fun hword => hk (by rw [hword, String.ofList_toList])
      have hlater : (k :: keywords).find? (·.1 == String.ofList word)
          = keywords.find? (·.1 == String.ofList word) :=
        List.find?_cons_of_neg (by simpa using hk)
      rw [hlater, beq_false_of_ne hword]
      exact ih

variable {lex : Lexicon} {engine : Engine} {t : Tokenizer}

theorem words_keywordTags (h : ofLexicon lex engine = .ok t)
    (hwords : ∀ k ∈ lex.keywords, ∀ c ∈ k.1.toList, Unicode.isWord c = true) :
    Words (keywordTags lex.keywords) := by
  intro w hw
  obtain ⟨k, hk, rfl⟩ := List.mem_map.mp hw
  have htable := (Lexicon.tables_of_validate (ofLexicon_eq_ok h).1).1
  exact ⟨⟨Lexicon.ne_nil_of_checkTable htable k hk, hwords k hk⟩, rfl⟩

theorem rulesOf_keywords (h : ofLexicon lex engine = .ok t) :
    t.rulesOf 6 = t.rulesOf 5 ++ (keywordTags lex.keywords).map wordRule := by
  have hlast : t.rulesOf 6
      = t.rulesOf 5 ++ t.keywords.map fun k => ⟨Tag.ofSymbol .keyword k.2, k.1.pieces⟩ := by
    simp [rulesOf, passes]
  rw [hlast, (ofLexicon_tables h).2.1, keywordTags, List.map_map, List.map_map]
  rfl

/-- The passes before the keywords do not depend on them. -/
theorem rulesOf_five_congr {t' : Tokenizer} {keywords : List (String × TagValue)}
    (h : ofLexicon lex engine = .ok t) (h' : ofLexicon { lex with keywords } engine = .ok t') :
    t'.rulesOf 5 = t.rulesOf 5 := by
  obtain ⟨-, hlex, hdirectives⟩ := ofLexicon_eq_ok h
  obtain ⟨-, hlex', hdirectives'⟩ := ofLexicon_eq_ok h'
  have hreserved : t'.reserved = t.reserved :=
    Except.ok.inj ((ofLexicon_tables h').1.symm.trans (ofLexicon_tables h).1)
  simp only [rulesOf, passes, hlex, hlex', hdirectives, hdirectives', hreserved, List.take]
  rfl

/-- Before the keywords nothing is tagged as one. -/
theorem category_of_mem_symbols {g : Segment} {text : Text}
    (h : g ∈ ofRules (t.rulesOf 5) (gap text)) :
    g.tag.category ≠ some Category.keyword.value :=
  (categoryIn_of_mem (fun _ => categoryIn_of_mem_rulesOf_five) h).ne (by decide)

/-- A token is tagged as a keyword if and only if it is a word within generic text that the passes
before have left, and is in the table. The id is that of its first entry. So two tables that give
each text the same id make the same tokens. -/
theorem keyword_iff (h : ofLexicon lex engine = .ok t)
    (hwords : ∀ k ∈ lex.keywords, ∀ c ∈ k.1.toList, Unicode.isWord c = true) (source : Source) :
    ∃ text before after, t.tokenize source = .ok text ∧ text.tokens "reserved" = .ok before ∧
      text.tokens "keywords" = .ok after ∧
      (∀ word span id, ⟨Tag.ofSymbol .keyword id, word, span⟩ ∈ after ↔
        ∃ token ∈ before, token.tag.isGeneric = true ∧ ∃ u v, token.text = u ++ word ++ v ∧
          Text.WordBetween u word v ∧ span = ⟨token.span.start + u.byteLen,
            token.span.start + u.byteLen + word.byteLen⟩ ∧
          lex.keywordId? (String.ofList word) = some id) ∧
      ∀ keywords t', ofLexicon { lex with keywords } engine = .ok t' →
        (∀ k ∈ keywords, ∀ c ∈ k.1.toList, Unicode.isWord c = true) →
        (∀ word, { lex with keywords }.keywordId? word = lex.keywordId? word) →
        ∃ text', t'.tokenize source = .ok text' ∧ text'.tokens "keywords" = .ok after := by
  obtain ⟨text, htext, htokens⟩ := t.tokenize_rules source
  have hkeywords := words_keywordTags h hwords
  have hrow : ∀ s ∈ ofRules (t.rulesOf 5) (gap source.text), s.text ≠ [] := ne_nil_of_mem_ofRules
  have hnew (word : Text) (id : TagValue) :
      (⟨Tag.ofSymbol .keyword id, word⟩ : Segment) ∉ ofRules (t.rulesOf 5) (gap source.text) :=
    fun hmem => category_of_mem_symbols hmem rfl
  refine ⟨text, _, _, htext, htokens 5 _ rfl, htokens 6 _ rfl, fun word span id => ?_,
    fun keywords t' h' hwords' hsame => ?_⟩
  · have hlook : (keywordTags lex.keywords).lookup word = some (Tag.ofSymbol .keyword id)
        ↔ lex.keywordId? (String.ofList word) = some id := by
      rw [lookup_keywordTags, Option.map_eq_some_iff]
      refine ⟨?_, fun hid => ⟨id, hid, rfl⟩⟩
      rintro ⟨id', hid', htag⟩
      cases htag
      exact hid'
    rw [rulesOf_keywords h, ofRules_append, mem_tokens, ← hlook]
    constructor
    · rintro ⟨before, hstands, hspan⟩
      obtain ⟨hword, outer, s, u, v, hs, hgeneric, hsegment, hbetween, rfl⟩ :=
        (stands_words_iff hkeywords hrow (hnew word id) rfl).mp hstands
      refine ⟨⟨s.tag, s.text, outer.spanAfter s.text⟩, mem_tokens.mpr ⟨outer, hs, rfl⟩, hgeneric,
        u, v, ?_, hbetween, ?_, hword⟩
      · rw [List.append_assoc]
        exact hsegment
      · rw [Text.spanAfter, Text.byteLen_append] at hspan
        exact hspan
    · rintro ⟨token, htoken, hgeneric, u, v, hsegment, hbetween, rfl, hword⟩
      obtain ⟨outer, hs, hspan⟩ := mem_tokens.mp htoken
      refine ⟨outer ++ u, ?_, ?_⟩
      · refine (stands_words_iff hkeywords hrow (hnew word id) rfl).mpr
          ⟨hword, outer, token.segment, u, v, hs, hgeneric, ?_, hbetween, rfl⟩
        rw [← List.append_assoc]
        exact hsegment
      · rw [hspan, Text.spanAfter, Text.spanAfter, Text.byteLen_append]
  · obtain ⟨text', htext', htokens'⟩ := t'.tokenize_rules source
    have hkeywords' := words_keywordTags h' hwords'
    refine ⟨text', htext', (htokens' 6 _ rfl).trans ?_⟩
    rw [rulesOf_keywords h', rulesOf_keywords h, rulesOf_five_congr h h', ofRules_append,
      ofRules_append, ofRules_words_congr hkeywords' hkeywords _ hrow]
    intro word
    have hword := congrArg (Option.map (Tag.ofSymbol .keyword)) (hsame (String.ofList word))
    rwa [← lookup_keywordTags, ← lookup_keywordTags] at hword

/-- A lexicon with a keyword that goes on as another one, and with two entries for it. -/
def wordLexicon : Lexicon := { keywords := [("in", 1), ("int", 2), ("été", 3), ("in", 4)] }

/-- The same look-up in another order. -/
def wordOrder : List (String × TagValue) := [("été", 3), ("int", 2), ("in", 1), ("in", 7)]

set_option maxRecDepth 20000 in
theorem all_isWord : ['i', 'n', 't', 'é'].all Unicode.isWord = true := by decide +kernel

theorem keyword_iff_wordLexicon :
    ∃ t text before after t' text', ofLexicon wordLexicon = .ok t ∧
      (∀ k ∈ wordLexicon.keywords, ∀ c ∈ k.1.toList, Unicode.isWord c = true) ∧
      t.tokenize ⟨"words", "int été_in".toList⟩ = .ok text ∧
      text.tokens "reserved" = .ok before ∧ text.tokens "keywords" = .ok after ∧
      ⟨Tag.ofSymbol .keyword 2, "int".toList, ⟨0, 3⟩⟩ ∈ after ∧
      ofLexicon { wordLexicon with keywords := wordOrder } = .ok t' ∧
      t'.tokenize ⟨"words", "int été_in".toList⟩ = .ok text' ∧
      text'.tokens "keywords" = .ok after := by
  have hvalid : wordLexicon.validate = .ok () := rfl
  have hwords : ∀ k ∈ wordLexicon.keywords, ∀ c ∈ k.1.toList, Unicode.isWord c = true := by
    have hmem : ∀ k ∈ wordLexicon.keywords, ∀ c ∈ k.1.toList, c ∈ ['i', 'n', 't', 'é'] := by
      simp [wordLexicon]
    exact fun k hk c hc => List.all_eq_true.mp all_isWord c (hmem k hk c hc)
  obtain ⟨t, ht, -⟩ := ofLexicon_ok .standard hvalid (List.forall_mem_nil _) rfl
  obtain ⟨text, before, after, htext, hbefore, hafter, hiff, horder⟩ :=
    keyword_iff ht hwords ⟨"words", "int été_in".toList⟩
  -- the text that the symbols have left
  obtain ⟨-, hlex, hdirectives⟩ := ofLexicon_eq_ok ht
  obtain ⟨hreserved, -⟩ := ofLexicon_tables ht
  obtain ⟨text₁, htext₁, htokens⟩ := t.tokenize_rules ⟨"words", "int été_in".toList⟩
  cases htext.symm.trans htext₁
  cases hbefore.symm.trans (htokens 5 _ rfl)
  have hmem : (⟨Tag.generic, "int".toList, ⟨0, 3⟩⟩ : Token) ∈
      tokensAfter [] (ofRules (t.rulesOf 5) (gap "int été_in".toList)) := by
    have hmarks : tokensAfter [] (ofRules (t.rulesOf 5) (gap "int été_in".toList))
        = [⟨Tag.generic, "int".toList, ⟨0, 3⟩⟩, ⟨Tag.ofCategory .whitespace, [' '], ⟨3, 4⟩⟩,
          ⟨Tag.generic, "été_in".toList, ⟨4, 12⟩⟩] := by
      rw [wordLexicon, longestFirst, List.mergeSort_nil] at hdirectives hreserved
      rw [rulesOf, passes, hlex, hdirectives, ← Except.ok.inj hreserved]
      cbv
    rw [hmarks]
    exact .head _
  have hint : ⟨Tag.ofSymbol .keyword 2, "int".toList, ⟨0, 3⟩⟩ ∈ after := by
    refine (hiff _ _ _).mpr ⟨_, hmem, rfl, [], [], rfl, ?_, rfl, by decide⟩
    exact ⟨⟨by decide, hwords ("int", 2) (by decide)⟩, by simp, by simp⟩
  have hvalid' : ({ wordLexicon with keywords := wordOrder } : Lexicon).validate = .ok () := rfl
  obtain ⟨t', ht', -⟩ := ofLexicon_ok .standard hvalid' (List.forall_mem_nil _) rfl
  have hsame (word : String) : Lexicon.keywordId? { wordLexicon with keywords := wordOrder } word
      = wordLexicon.keywordId? word := by
    by_cases hin : "in" = word
    · subst hin
      decide
    · by_cases hint : "int" = word
      · subst hint
        decide
      · simp [Lexicon.keywordId?, wordLexicon, wordOrder, List.find?_cons, beq_false_of_ne hin,
          beq_false_of_ne hint]
  have hwords' : ∀ k ∈ wordOrder, ∀ c ∈ k.1.toList, Unicode.isWord c = true := by
    have hmem : ∀ k ∈ wordOrder, ∀ c ∈ k.1.toList, c ∈ ['i', 'n', 't', 'é'] := by
      simp [wordOrder]
    exact fun k hk c hc => List.all_eq_true.mp all_isWord c (hmem k hk c hc)
  obtain ⟨text', htext', hafter'⟩ := horder wordOrder t' ht' hwords' hsame
  exact ⟨t, text, _, after, t', text', ht, hwords, htext, hbefore, hafter, hint, ht', htext',
    hafter'⟩

end Tokenizer

end TagLayers
