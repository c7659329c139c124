import TagLayers.Proofs.Lexicon.Keywords

/-!
# Symbols of pairs

Closers are looked up by equality of tags. So the tag that a pair gives to a symbol has to be the
one that the passes give to it in a text. A symbol that is reserved never comes to the keywords, and
in both tables it is the first entry that counts, for pairs and for passes.

Results:
1. `symbolTag_of_mem`: the tags of symbols and keywords in a text.
2. `pairTable_eq_ok`: the table of pairs.
3. `pair_symbols_resolve`: the pairs of a tokenizer.
-/

namespace TagLayers

namespace Tokenizer

open Segment

variable {lex : Lexicon} {engine : Engine} {t : Tokenizer}

/-- What is tagged as a symbol or as a keyword has the tag of its text. -/
theorem symbolTag_of_mem (h : ofLexicon lex engine = .ok t)
    (hliteral : ∀ r ∈ lex.reserved, r.pattern = none)
    (hwords : ∀ k ∈ lex.keywords, ∀ c ∈ k.1.toList, Unicode.isWord c = true) {text : Text}
    {g : Segment} (hg : g ∈ ofRules (t.rulesOf 6) (gap text))
    (hcategory : g.tag.category = some Category.reserved.value ∨
      g.tag.category = some Category.keyword.value) :
    symbolTag lex (String.ofList g.text) = .ok g.tag := by
  have htagged : g.tag.isGeneric = false := by
    refine Bool.eq_false_of_not_eq_true fun hgeneric => ?_
    rw [beq_iff_eq.mp hgeneric] at hcategory
    exact absurd hcategory (by decide)
  have hsymbols := symbol_ne_nil h
  rw [rulesOf_keywords h, ofRules_append] at hg
  by_cases hold : g ∈ ofRules (t.rulesOf 5) (gap text)
  · have hreserved := hcategory.resolve_right (category_of_mem_symbols hold)
    rw [rulesOf_symbols h hliteral, ofRules_append] at hold
    rcases entry_of_mem hsymbols hold with hmarks | hgeneric | ⟨r, hr, htag⟩
    · have hmark := categoryIn_of_mem (fun _ => categoryIn_of_mem_rulesOf_four) hmarks
      exact absurd hreserved (hmark.ne (by decide))
    · cases htagged.symm.trans hgeneric
    · have hid : lex.reservedId? (String.ofList g.text) = some r.id := by
        rw [find?_longestFirst] at hr
        rw [Lexicon.reservedId?, hr]
        rfl
      rw [symbolTag, hid, htag]
  · obtain ⟨x, y, hxy⟩ := List.append_of_mem hg
    obtain ⟨hlook, outer, s, u, v, hs, hgeneric, htext, -⟩ :=
      (stands_words_iff (words_keywordTags h hwords) ne_nil_of_mem_ofRules hold htagged).mp
        ⟨x, y, hxy, rfl⟩
    -- the passes before have left no symbol in generic text
    have hnone : lex.reservedId? (String.ofList g.text) = none := by
      rw [Lexicon.reservedId?, Option.map_eq_none_iff, List.find?_eq_none]
      intro r hr hsame
      have hmem := hs.mem
      rw [rulesOf_symbols h hliteral, ofRules_append] at hmem
      refine leavesNone_symbols hsymbols (List.mem_mergeSort.mpr hr) s hmem hgeneric ?_
      rw [beq_iff_eq.mp hsame, String.toList_ofList]
      exact ⟨u, v, by rw [htext, List.append_assoc]⟩
    rw [lookup_keywordTags, Option.map_eq_some_iff] at hlook
    obtain ⟨id, hid, htag⟩ := hlook
    rw [symbolTag, hnone, hid, ← htag]

/-- The tag that a symbol of a pair has. Where it has none, there is no table. -/
def tagOf (lex : Lexicon) (symbol : String) : Tag :=
  match symbolTag lex symbol with
  | .ok tag => tag
  | .error _ => Tag.generic

theorem tagOf_eq {symbol : String} {tag : Tag} (h : symbolTag lex symbol = .ok tag) :
    tagOf lex symbol = tag := by
  rw [tagOf, h]

theorem pairTable_eq_ok {table : PairTable} (h : pairTable lex = .ok table) :
    (∀ pair ∈ lex.pairs, ∀ symbol ∈ [pair.1, pair.2],
      symbolTag lex symbol = .ok (tagOf lex symbol)) ∧
    table = lex.pairs.foldl
      (fun table pair => table.insert (tagOf lex pair.1) (tagOf lex pair.2)) {} := by
  have hrun {pairs : List (String × String)} {first : PairTable}
      (h : pairs.foldlM (fun table pair => do
        let opener ← symbolTag lex pair.1
        let closer ← symbolTag lex pair.2
        return table.insert opener closer) first = .ok table) :
      (∀ pair ∈ pairs, ∀ symbol ∈ [pair.1, pair.2],
        symbolTag lex symbol = .ok (tagOf lex symbol)) ∧
      table = pairs.foldl
        (fun table pair => table.insert (tagOf lex pair.1) (tagOf lex pair.2)) first := by
    induction pairs generalizing first with
    | nil =>
      cases h
      exact ⟨List.forall_mem_nil _, rfl⟩
    | cons pair rest ih =>
      rw [List.foldlM_cons] at h
      obtain ⟨next, hnext, hrest⟩ := bind_eq_ok.mp h
      obtain ⟨opener, hopener, hnext⟩ := bind_eq_ok.mp hnext
      obtain ⟨closer, hcloser, hnext⟩ := bind_eq_ok.mp hnext
      cases hnext
      obtain ⟨hall, htable⟩ := ih hrest
      refine ⟨List.forall_mem_cons.mpr ⟨?_, hall⟩, ?_⟩
      · refine List.forall_mem_cons.mpr ⟨?_, List.forall_mem_singleton.mpr ?_⟩
        · rw [tagOf_eq hopener, hopener]
        · rw [tagOf_eq hcloser, hcloser]
      · rw [List.foldl_cons, tagOf_eq hopener, tagOf_eq hcloser]
        exact htable
  exact hrun h

/-- Wherever a symbol of a pair is tagged as a symbol or as a keyword in a text, it has the tag that
it has in the table of pairs. -/
theorem pair_symbols_resolve (h : ofLexicon lex engine = .ok t)
    (hliteral : ∀ r ∈ lex.reserved, r.pattern = none)
    (hwords : ∀ k ∈ lex.keywords, ∀ c ∈ k.1.toList, Unicode.isWord c = true) :
    ∃ resolve : String → Tag,
      (∀ pair ∈ lex.pairs, ∀ symbol ∈ [pair.1, pair.2],
        symbolTag lex symbol = .ok (resolve symbol)) ∧
      t.pairs = lex.pairs.foldl
        (fun table pair => table.insert (resolve pair.1) (resolve pair.2)) {} ∧
      ∀ source, ∃ text tokens, t.tokenize source = .ok text ∧
        text.tokens "keywords" = .ok tokens ∧
        ∀ pair ∈ lex.pairs, ∀ symbol ∈ [pair.1, pair.2], ∀ token ∈ tokens,
          token.text = symbol.toList →
          token.tag.category = some Category.reserved.value ∨
            token.tag.category = some Category.keyword.value →
          token.tag = resolve symbol := by
  obtain ⟨hresolve, htable⟩ := pairTable_eq_ok (ofLexicon_tables h).2.2
  refine ⟨tagOf lex, hresolve, htable, fun source => ?_⟩
  obtain ⟨text, htext, htokens⟩ := t.tokenize_rules source
  refine ⟨text, _, htext, htokens 6 _ rfl, ?_⟩
  intro pair hpair symbol hsymbol token htoken hsame hcategory
  obtain ⟨outer, hstands, -⟩ := mem_tokens.mp htoken
  have htag := symbolTag_of_mem h hliteral hwords hstands.mem hcategory
  have hname : String.ofList token.segment.text = symbol := by
    rw [show token.segment.text = token.text from rfl, hsame, String.ofList_toList]
  rw [hname] at htag
  exact (tagOf_eq htag).symm

/-- A lexicon with a symbol that is a keyword, too, and two entries for each end of its pair. -/
def crossLexicon : Lexicon :=
  { reserved := [⟨"in", 4, none⟩, ⟨"in", 6, none⟩]
    keywords := [("in", 1), ("t", 2), ("t", 3)]
    pairs := [("in", "t")] }

theorem pair_symbols_resolve_crossLexicon :
    ∃ t text tokens, ofLexicon crossLexicon = .ok t ∧
      (∀ r ∈ crossLexicon.reserved, r.pattern = none) ∧
      (∀ k ∈ crossLexicon.keywords, ∀ c ∈ k.1.toList, Unicode.isWord c = true) ∧
      t.pairs = ({} : PairTable).insert (Tag.ofSymbol .reserved 4) (Tag.ofSymbol .keyword 2) ∧
      t.pairs.closer? (Tag.ofSymbol .reserved 4) = some (Tag.ofSymbol .keyword 2) ∧
      t.tokenize ⟨"cross", "int".toList⟩ = .ok text ∧ text.tokens "keywords" = .ok tokens ∧
      (∃ token ∈ tokens, token.text = "in".toList ∧ token.tag = Tag.ofSymbol .reserved 4) ∧
      ∃ token ∈ tokens, token.text = "t".toList ∧ token.tag = Tag.ofSymbol .keyword 2 := by
  have hvalid : crossLexicon.validate = .ok () := rfl
  have hliteral : ∀ r ∈ crossLexicon.reserved, r.pattern = none := by decide
  have hwords : ∀ k ∈ crossLexicon.keywords, ∀ c ∈ k.1.toList, Unicode.isWord c = true := by
    have hmem : ∀ k ∈ crossLexicon.keywords, ∀ c ∈ k.1.toList, c ∈ ['i', 'n', 't', 'é'] := by
      simp [crossLexicon]
    exact fun k hk c hc => List.all_eq_true.mp all_isWord c (hmem k hk c hc)
  obtain ⟨t, ht, -⟩ := ofLexicon_ok .standard hvalid (by decide) rfl
  obtain ⟨resolve, hresolve, hpairs, hsources⟩ := pair_symbols_resolve ht hliteral hwords
  obtain ⟨text, tokens, htext, htokens, htags⟩ := hsources ⟨"cross", "int".toList⟩
  have hpair : ("in", "t") ∈ crossLexicon.pairs := List.mem_singleton_self _
  have hin : resolve "in" = Tag.ofSymbol .reserved 4 :=
    (Except.ok.inj (hresolve _ hpair "in" (by decide))).symm
  have hend : resolve "t" = Tag.ofSymbol .keyword 2 :=
    (Except.ok.inj (hresolve _ hpair "t" (by decide))).symm
  -- the tokens, from the row that the symbols have left
  obtain ⟨-, hlex, hdirectives⟩ := ofLexicon_eq_ok ht
  have hlongest : longestFirst Reserved.symbol crossLexicon.reserved = crossLexicon.reserved :=
    List.mergeSort_of_pairwise (by decide)
  have hrow : ofRules (t.rulesOf 5) (gap "int".toList)
      = [⟨Tag.ofSymbol .reserved 4, "in".toList⟩, ⟨Tag.generic, ['t']⟩] := by
    rw [rulesOf_symbols ht hliteral, hlongest]
    rw [crossLexicon, longestFirst, List.mergeSort_nil] at hdirectives
    rw [rulesOf, passes, hlex, hdirectives]
    cbv
  have hword : Text.WordBetween [] ['t'] [] :=
    ⟨⟨by decide, hwords ("t", 2) (by decide)⟩, by simp, by simp⟩
  have hlater : ofRules ((keywordTags crossLexicon.keywords).map wordRule) [⟨Tag.generic, ['t']⟩]
      = [⟨Tag.ofSymbol .keyword 2, ['t']⟩] := by
    have hruns : Text.runs ['t'] = [['t']] := Text.runs_append_word hword
    rw [ofRules_of_words (words_keywordTags ht hwords) (by decide), if_pos (by decide), hruns]
    rfl
  have hlast : ofRules (t.rulesOf 6) (gap "int".toList)
      = [⟨Tag.ofSymbol .reserved 4, "in".toList⟩, ⟨Tag.ofSymbol .keyword 2, ['t']⟩] := by
    rw [rulesOf_keywords ht, ofRules_append, hrow, ofRules_flatMap, List.flatMap_cons,
      ofRules_of_tagged _ rfl, List.flatMap_singleton, hlater, List.singleton_append]
  obtain ⟨text', htext', htokens'⟩ := t.tokenize_rules ⟨"cross", "int".toList⟩
  cases htext.symm.trans htext'
  obtain rfl : tokens = tokensAfter [] [⟨Tag.ofSymbol .reserved 4, "in".toList⟩,
      ⟨Tag.ofSymbol .keyword 2, ['t']⟩] := by
    rw [← hlast]
    exact Except.ok.inj (htokens.symm.trans (htokens' 6 _ rfl))
  have hopener := htags _ hpair "in" (by decide) _ (.head _) rfl (.inl rfl)
  have hcloser := htags _ hpair "t" (by decide) _ (.tail _ (.head _)) rfl (.inr rfl)
  have htable : t.pairs
      = ({} : PairTable).insert (Tag.ofSymbol .reserved 4) (Tag.ofSymbol .keyword 2) := by
    rw [hpairs, crossLexicon, List.foldl_cons, List.foldl_nil, hin, hend]
  refine ⟨t, text, _, ht, hliteral, hwords, htable, ?_, htext, htokens,
    ⟨_, .head _, rfl, hopener.trans hin⟩, ⟨_, .tail _ (.head _), rfl, hcloser.trans hend⟩⟩
  rw [htable, PairTable.closer?_insert, if_pos rfl]

end Tokenizer

end TagLayers
