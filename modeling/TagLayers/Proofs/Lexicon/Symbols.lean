import Mathlib.Data.String.Basic
import TagLayers.Proofs.Lexicon.Places

/-!
# Reserved symbols

Symbols are searched for one after the other, the longest first and those of one length in the order
of the lexicon. A search leaves no occurrence of its symbol in generic text, and later ones do not
bring one back. So where a symbol has occurred, either its own search has found it, or some symbol
that was searched for before lies across it; and of two entries with the same text only the first
one finds anything.

Results:
1. `leavesNone_ofRules`: what searches leave.
2. `categoryIn_of_mem`: the tags that rules assign.
3. `filter_longestFirst`: the entries of one symbol keep their order.
4. `entry_of_mem`: which entry a symbol is tagged for.
5. `exists_longer`: what lies across an occurrence.
6. `longest_symbol_wins`: the symbols of a tokenizer.
-/

namespace TagLayers

theorem Text.utf8ByteSize_eq (s : String) : s.utf8ByteSize = byteLen s.toList := by
  have hlen (text : Text) : String.utf8Len text = byteLen text := by
    induction text with
    | nil => rfl
    | cons c rest ih => rw [String.utf8Len_cons, byteLen, ih, Nat.add_comm]
  rw [← hlen, ← String.utf8ByteSize_ofList, String.ofList_toList]

theorem Span.SharesByte.append {a b t u : Text} (before : Text)
    (h : (a.spanAfter t).SharesByte (b.spanAfter u)) :
    ((before ++ a).spanAfter t).SharesByte ((before ++ b).spanAfter u) := by
  obtain ⟨offset, ha, hb⟩ := h
  rw [Text.holds_spanAfter] at ha hb
  refine ⟨before.byteLen + offset, ?_, ?_⟩ <;> rw [Text.holds_spanAfter, Text.byteLen_append] <;>
    omega

/-- The tag is of one of the categories. -/
def Tag.CategoryIn (categories : List Category) (tag : Tag) : Prop :=
  ∃ c ∈ categories, tag.category = some c.value

theorem Tag.CategoryIn.ne {categories : List Category} {tag : Tag} {c : Category}
    (h : tag.CategoryIn categories) (hc : c ∉ categories) : tag.category ≠ some c.value := by
  obtain ⟨c', hc', hcategory⟩ := h
  have hinjective (a b : Category) (hab : a.value = b.value) : a = b := by
    cases a <;> cases b <;> first | rfl | cases hab
  rw [hcategory]
  intro heq
  rw [hinjective c' c (Option.some.inj heq)] at hc'
  exact hc hc'

namespace Segment

variable {rules : List Rule} {row : List Segment} {g : Segment} {t : Text} {label : Tag}

theorem categoryIn_of_mem {categories : List Category} {text : Text}
    (hrules : ∀ rule ∈ rules, rule.label.CategoryIn categories) (h : g ∈ ofRules rules (gap text)) :
    g.tag.CategoryIn (.generic :: categories) := by
  rcases label_of_mem_ofRules h with hgeneric | ⟨rule, hrule, hlabel⟩
  · rw [beq_iff_eq.mp hgeneric]
    exact ⟨.generic, List.mem_cons_self, rfl⟩
  · obtain ⟨c, hc, hcategory⟩ := hrules rule hrule
    rw [hlabel]
    exact ⟨c, List.mem_cons_of_mem _ hc, hcategory⟩

theorem infix_join (h : g ∈ row) : g.text <:+: join row := by
  obtain ⟨x, y, rfl⟩ := List.append_of_mem h
  exact ⟨join x, join y, by rw [join_append, join_cons, List.append_assoc]⟩

/-- No generic segment of the row holds the text. -/
def LeavesNone (t : Text) (row : List Segment) : Prop :=
  ∀ g ∈ row, g.tag.isGeneric = true → ¬ t <:+: g.text

theorem LeavesNone.ofRules (h : LeavesNone t row)
    (hrules : ∀ rule ∈ rules, Tokenizer.Lossless rule.find) :
    LeavesNone t (Segment.ofRules rules row) := by
  intro g hg hgeneric ht
  obtain ⟨s, hs, hsgeneric, hpart⟩ := exists_of_generic hrules hg hgeneric
  exact h s hs hsgeneric (ht.trans hpart)

/-! ## Searches for a text -/

section Search

variable {σ : Type} {find : σ → Text → Option Nat} {pass : σ → Char → σ} {jump : σ → Text → σ}

theorem Searched.unfound (hlabel : label.isGeneric = false) {s : σ}
    (h : Searched find pass jump label s row) (hg : g ∈ row) (hgeneric : g.tag.isGeneric = true) :
    ∃ s' rest, Unfound find pass s' g.text rest := by
  induction h with
  | rest hrun =>
    rw [mem_gap hg]
    exact ⟨_, _, hrun⟩
  | found hrun _ _ _ _ ih =>
    rcases List.mem_append.mp hg with hg | hg
    · rw [mem_gap hg]
      exact ⟨_, _, hrun⟩
    · rcases List.mem_cons.mp hg with rfl | hg
      · cases hlabel.symm.trans hgeneric
      · exact ih hg

theorem Searched.taken {s : σ} (h : Searched find pass jump label s row) (hg : g ∈ row)
    (htagged : g.tag.isGeneric = false) :
    g.tag = label ∧ ∃ s' rest n, find s' (g.text ++ rest) = some (n + 1) ∧
      g.text = (g.text ++ rest).take (n + 1) := by
  have hgap {run : Text} (h : g ∈ gap run) : False := by
    cases htagged.symm.trans (ne_nil_of_mem_gap h).2
  induction h with
  | rest => exact (hgap hg).elim
  | found _ hfind htake _ _ ih =>
    rcases List.mem_append.mp hg with hg | hg
    · exact (hgap hg).elim
    · rcases List.mem_cons.mp hg with rfl | hg
      · exact ⟨rfl, _, _, _, hfind, htake⟩
      · exact ih hg

end Search

theorem searched_text (symbol : Text) (label : Tag) (text : Text) :
    Searched (fun (_ : Unit) rest => Finder.textAt? symbol rest) (fun s _ => s) (fun s _ => s)
      label () (ofPieces label [] ((Finder.text symbol).pieces text)) :=
  searched_search _ _ _ label () text

theorem leavesNone_split (hlabel : label.isGeneric = false) (ht : t ≠ []) (row : List Segment) :
    LeavesNone t (row.flatMap (split ⟨label, (Finder.text t).pieces⟩)) := by
  intro g hg hgeneric hinfix
  obtain ⟨s, -, hparts⟩ := List.mem_flatMap.mp hg
  unfold split at hparts
  split at hparts
  · obtain ⟨_, rest, hunfound⟩ := (searched_text t label s.text).unfound hlabel hparts hgeneric
    obtain ⟨a, b, hab⟩ := hinfix
    have hnone : (Finder.textAt? t (t ++ b ++ rest)).getD 0 = 0 :=
      hunfound a (t ++ b) (by rw [← hab, List.append_assoc]) (by simp [ht])
    rw [List.append_assoc, Finder.textAt?,
      if_pos (List.isPrefixOf_iff_prefix.mpr (List.prefix_append t _)), Option.getD_some] at hnone
    exact ht (List.eq_nil_of_length_eq_zero hnone)
  · next hs =>
    obtain rfl := List.mem_singleton.mp hparts
    exact hs hgeneric

theorem text_of_found {text : Text} (h : g ∈ ofPieces label [] ((Finder.text t).pieces text))
    (htagged : g.tag.isGeneric = false) : g.tag = label ∧ g.text = t := by
  obtain ⟨hlabel, -, rest, n, hfind, htake⟩ := (searched_text t label text).taken h htagged
  refine ⟨hlabel, ?_⟩
  unfold Finder.textAt? at hfind
  split at hfind
  · next hstarts =>
    obtain ⟨later, hlater⟩ := List.isPrefixOf_iff_prefix.mp hstarts
    rw [htake, ← hlater, ← Option.some.inj hfind, List.take_left]
  · cases hfind

/-- The searches for symbols by their texts leave none of the symbols. -/
theorem leavesNone_ofRules (hrules : ∀ rule ∈ rules, Tokenizer.Lossless rule.find)
    (hlabel : label.isGeneric = false) (ht : t ≠ [])
    (h : ⟨label, (Finder.text t).pieces⟩ ∈ rules) : LeavesNone t (ofRules rules row) := by
  obtain ⟨earlier, later, rfl⟩ := List.append_of_mem h
  rw [ofRules_append]
  refine (leavesNone_split hlabel ht _).ofRules fun rule hrule => hrules rule ?_
  exact List.mem_append_right earlier (List.mem_cons_of_mem _ hrule)

end Segment

namespace Tokenizer

open Segment

/-! ## The order of the symbols -/

theorem filter_longestFirst {α : Type} (text : α → String) (items : List α) (symbol : String) :
    (longestFirst text items).filter (text · == symbol) = items.filter (text · == symbol) := by
  have hsize (l : List α) : l.filter (text · == symbol)
      = (l.filter fun a => (text a).utf8ByteSize == symbol.utf8ByteSize).filter
        (text · == symbol) := by
    rw [List.filter_filter]
    refine List.filter_congr fun a _ => ?_
    by_cases ha : text a = symbol <;> simp [ha]
  have hsame := keyOrder_longest.filter_mergeSort (fun a => (text a).utf8ByteSize) items
    symbol.utf8ByteSize
  rw [hsize, longestFirst, hsame, ← hsize]

theorem find?_longestFirst {α : Type} (text : α → String) (items : List α) (symbol : String) :
    (longestFirst text items).find? (text · == symbol) = items.find? (text · == symbol) := by
  rw [← List.head?_filter, filter_longestFirst, List.head?_filter]

theorem pairwise_longestFirst {α : Type} (text : α → String) (items : List α) :
    (longestFirst text items).Pairwise fun a b => (text b).utf8ByteSize ≤ (text a).utf8ByteSize :=
  (keyOrder_longest.along_mergeSort (fun a => (text a).utf8ByteSize) items).imp of_decide_eq_true

/-! ## Symbols in a row -/

/-- The rule of a symbol that is found by its text. -/
def symbolRule (r : Reserved) : Rule :=
  ⟨Tag.ofSymbol .reserved r.id, (Finder.text r.symbol.toList).pieces⟩

variable {rs : List Reserved} {row : List Segment} {s g : Segment}

theorem lossless_symbolRule (r : Reserved) : Lossless (symbolRule r).find :=
  (Finder.text r.symbol.toList).join_pieces

theorem lossless_symbolRules : ∀ rule ∈ rs.map symbolRule, Lossless rule.find := by
  intro rule hrule
  obtain ⟨r, -, rfl⟩ := List.mem_map.mp hrule
  exact lossless_symbolRule r

theorem leavesNone_symbols (hrs : ∀ r ∈ rs, r.symbol.toList ≠ []) {r : Reserved} (hr : r ∈ rs) :
    LeavesNone r.symbol.toList (ofRules (rs.map symbolRule) row) :=
  leavesNone_ofRules lossless_symbolRules rfl (hrs r hr) (List.mem_map_of_mem hr)

/-- A symbol is tagged for the first entry that has its text. -/
theorem entry_of_mem (hrs : ∀ r ∈ rs, r.symbol.toList ≠ [])
    (h : g ∈ ofRules (rs.map symbolRule) row) :
    g ∈ row ∨ g.tag.isGeneric = true ∨
      ∃ r, rs.find? (·.symbol == String.ofList g.text) = some r ∧
        g.tag = Tag.ofSymbol .reserved r.id := by
  rcases exists_rule h with hrow | ⟨earlier, rule, later, s, hrules, hs, hgeneric, hfound⟩
  · exact .inl hrow
  cases hg : g.tag.isGeneric with
  | true => exact .inr (.inl rfl)
  | false =>
    refine .inr (.inr ?_)
    obtain ⟨before, rest, rfl, rfl, hrest⟩ := List.map_eq_append_iff.mp hrules
    obtain ⟨r, after, rfl, rfl, rfl⟩ := List.map_eq_cons_iff.mp hrest
    obtain ⟨hlabel, htext⟩ := text_of_found hfound hg
    refine ⟨r, ?_, hlabel⟩
    -- an earlier entry with the same text would have left none of it
    have hnone : before.find? (·.symbol == String.ofList g.text) = none := by
      refine List.find?_eq_none.mpr fun r' hr' hsame => ?_
      have hsymbol : r'.symbol.toList = g.text := by
        rw [beq_iff_eq.mp hsame, String.toList_ofList]
      have hleaves : LeavesNone r'.symbol.toList (ofRules (before.map symbolRule) row) :=
        leavesNone_symbols (fun q hq => hrs q (List.mem_append_left _ hq)) hr'
      rw [hsymbol] at hleaves
      refine hleaves s hs hgeneric ?_
      have hpart := infix_join hfound
      rwa [join_ofPieces, lossless_symbolRule, List.nil_append] at hpart
    rw [List.find?_append, hnone, Option.none_or, List.find?_cons_of_pos]
    rw [htext, String.ofList_toList]
    exact beq_self_eq_true _

/-- Across an occurrence of a symbol lies a symbol that is as long, at least. -/
theorem exists_longer (hrs : ∀ r ∈ rs, r.symbol.toList ≠ [])
    (hsorted : rs.Pairwise fun a b => b.symbol.utf8ByteSize ≤ a.symbol.utf8ByteSize)
    {r : Reserved} (hr : r ∈ rs) {outer a b : Text} (hs : Stands row outer s)
    (hgeneric : s.tag.isGeneric = true) (htext : s.text = a ++ (r.symbol.toList ++ b)) :
    ∃ before g id, Stands (ofRules (rs.map symbolRule) row) before g ∧
      g.tag = Tag.ofSymbol .reserved id ∧ r.symbol.utf8ByteSize ≤ g.text.byteLen ∧
      (before.spanAfter g.text).SharesByte ((outer ++ a).spanAfter r.symbol.toList) := by
  obtain ⟨earlier, later, rfl⟩ := List.append_of_mem hr
  have hne := hrs r hr
  -- the row after the search for this symbol
  have hdone : ∀ q ∈ earlier ++ [r], q ∈ earlier ++ r :: later ∧
      r.symbol.utf8ByteSize ≤ q.symbol.utf8ByteSize := by
    intro q hq
    rcases List.mem_append.mp hq with hq | hq
    · refine ⟨List.mem_append_left _ hq, ?_⟩
      exact (List.pairwise_append.mp hsorted).2.2 q hq r List.mem_cons_self
    · obtain rfl := List.mem_singleton.mp hq
      exact ⟨hr, Nat.le_refl _⟩
  have hrules : (earlier ++ r :: later).map symbolRule
      = (earlier ++ [r]).map symbolRule ++ later.map symbolRule := by
    rw [← List.map_append, List.append_assoc]
    rfl
  have hsne : ∀ s' ∈ [s], s'.text ≠ [] := by
    refine List.forall_mem_singleton.mpr ?_
    rw [htext]
    simp [hne]
  have hjoin : join (ofRules ((earlier ++ [r]).map symbolRule) [s])
      = a ++ (r.symbol.toList ++ b) := by
    rw [join_ofRules lossless_symbolRules, ← htext]
    exact List.append_nil _
  have hlabels : ∀ rule ∈ (earlier ++ [r]).map symbolRule, rule.label.isGeneric = false := by
    intro rule hrule
    obtain ⟨q, -, rfl⟩ := List.mem_map.mp hrule
    rfl
  rcases lies_or_shares (alternates_ofRules hlabels (.singleton s)) (ne_nil_of_ofRules hsne) hjoin
    hne with ⟨inner, g, u, v, hg, hggeneric, hgtext, -⟩ | ⟨inner, g, hg, hgtagged, hshares⟩
  · refine absurd ⟨u, v, ?_⟩ (leavesNone_symbols (fun q hq => hrs q (hdone q hq).1)
      (List.mem_append_right _ (List.mem_singleton_self r)) g hg.mem hggeneric)
    rw [hgtext, List.append_assoc]
  · rcases entry_of_mem (fun q hq => hrs q (hdone q hq).1) hg.mem with hmem | hmem |
      ⟨q, hq, hgtag⟩
    · rw [List.mem_singleton.mp hmem] at hgtagged
      cases hgtagged.symm.trans hgeneric
    · cases hgtagged.symm.trans hmem
    · have hlater : ∀ rule ∈ later.map symbolRule, Lossless rule.find := lossless_symbolRules
      have hstands := (hs.ofRules lossless_symbolRules hg).kept hlater hgtagged
      rw [← ofRules_append, ← hrules] at hstands
      refine ⟨outer ++ inner, g, q.id, hstands, hgtag, ?_, hshares.append outer⟩
      have hlonger := (hdone q (List.mem_of_find?_eq_some hq)).2
      have hfirst := List.find?_some hq
      have hsymbol : q.symbol = String.ofList g.text := beq_iff_eq.mp hfirst
      rwa [hsymbol, Text.utf8ByteSize_eq (String.ofList g.text), String.toList_ofList] at hlonger

/-! ## Tokenizations -/

variable {lex : Lexicon} {engine : Engine} {t : Tokenizer}

theorem ofLexicon_tables (h : ofLexicon lex engine = .ok t) :
    (longestFirst Reserved.symbol lex.reserved).mapM
        (fun r => do return (← finderOf engine r, r.id)) = .ok t.reserved ∧
      t.keywords = lex.keywords.map (fun k => (.word k.1.toList, k.2)) ∧
      pairTable lex = .ok t.pairs := by
  obtain ⟨_, -, h⟩ := bind_eq_ok.mp h
  obtain ⟨reserved, hreserved, h⟩ := bind_eq_ok.mp h
  obtain ⟨pairs, hpairs, h⟩ := bind_eq_ok.mp h
  cases h
  exact ⟨hreserved, rfl, hpairs⟩

theorem rulesOf_five (t : Tokenizer) :
    t.rulesOf 5
      = t.rulesOf 4 ++ t.reserved.map fun r => ⟨Tag.ofSymbol .reserved r.2, r.1.pieces⟩ := by
  simp [rulesOf, passes]

/-- The rules of the symbols, where each is found by its text. -/
theorem rulesOf_symbols (h : ofLexicon lex engine = .ok t)
    (hliteral : ∀ r ∈ lex.reserved, r.pattern = none) :
    t.rulesOf 5 = t.rulesOf 4 ++ (longestFirst Reserved.symbol lex.reserved).map symbolRule := by
  have hreserved : (longestFirst Reserved.symbol lex.reserved).mapM
      (fun r => do return (← finderOf engine r, r.id))
      = .ok ((longestFirst Reserved.symbol lex.reserved).map fun r =>
        (.text r.symbol.toList, r.id)) := by
    refine mapM_eq_ok fun r hr => ?_
    rw [finderOf, hliteral r (List.mem_mergeSort.mp hr)]
    rfl
  have hsame := Except.ok.inj ((ofLexicon_tables h).1.symm.trans hreserved)
  rw [rulesOf_five, hsame, List.map_map]
  rfl

theorem categoryIn_of_mem_rulesOf_four {rule : Rule} (h : rule ∈ t.rulesOf 4) :
    rule.label.CategoryIn [.comment, .directive, .string, .whitespace] := by
  obtain ⟨pass, hpass, hrule⟩ := List.mem_flatMap.mp h
  simp only [passes, List.take, List.mem_cons, List.not_mem_nil, or_false] at hpass
  rcases hpass with rfl | rfl | rfl | rfl
  · obtain rfl := List.mem_singleton.mp hrule
    exact ⟨.comment, by decide, rfl⟩
  · obtain ⟨d, -, rfl⟩ := List.mem_map.mp hrule
    exact ⟨.directive, by decide, rfl⟩
  · obtain rfl := List.mem_singleton.mp hrule
    exact ⟨.string, by decide, rfl⟩
  · obtain rfl := List.mem_singleton.mp hrule
    exact ⟨.whitespace, by decide, rfl⟩

theorem categoryIn_of_mem_rulesOf_five {rule : Rule} (h : rule ∈ t.rulesOf 5) :
    rule.label.CategoryIn [.comment, .directive, .string, .whitespace, .reserved] := by
  rw [rulesOf_five] at h
  rcases List.mem_append.mp h with h | h
  · obtain ⟨c, hc, hcategory⟩ := categoryIn_of_mem_rulesOf_four h
    exact ⟨c, List.mem_append_left [Category.reserved] hc, hcategory⟩
  · obtain ⟨r, -, rfl⟩ := List.mem_map.mp h
    exact ⟨.reserved, by decide, rfl⟩

theorem symbol_ne_nil (h : ofLexicon lex engine = .ok t) :
    ∀ r ∈ longestFirst Reserved.symbol lex.reserved, r.symbol.toList ≠ [] := by
  intro r hr
  have htable := (Lexicon.tables_of_validate (ofLexicon_eq_ok h).1).2.1
  exact Lexicon.ne_nil_of_checkTable htable (r.symbol, r.id)
    (List.mem_map_of_mem (List.mem_mergeSort.mp hr))

/-- A token that is tagged as a symbol has the text of a symbol, and the id of its first entry. Each
occurrence of a symbol in text that the passes before have left shares a byte with a symbol that is
as long, at least, and none is left. -/
theorem longest_symbol_wins (h : ofLexicon lex engine = .ok t)
    (hliteral : ∀ r ∈ lex.reserved, r.pattern = none) (source : Source) :
    ∃ text before after, t.tokenize source = .ok text ∧ text.tokens "whitespace" = .ok before ∧
      text.tokens "reserved" = .ok after ∧
      (∀ token ∈ after, ∀ id, token.tag = Tag.ofSymbol .reserved id →
        lex.reservedId? (String.ofList token.text) = some id) ∧
      (∀ token ∈ before, token.tag.isGeneric = true → ∀ r ∈ lex.reserved, ∀ a b,
        token.text = a ++ r.symbol.toList ++ b →
        ∃ symbol ∈ after, ∃ id, symbol.tag = Tag.ofSymbol .reserved id ∧
          r.symbol.utf8ByteSize ≤ symbol.text.byteLen ∧
          symbol.span.SharesByte ⟨token.span.start + a.byteLen,
            token.span.start + a.byteLen + r.symbol.utf8ByteSize⟩) ∧
      ∀ token ∈ after, token.tag.isGeneric = true → ∀ r ∈ lex.reserved,
        ¬ r.symbol.toList <:+: token.text := by
  obtain ⟨text, htext, htokens⟩ := t.tokenize_rules source
  have hne := symbol_ne_nil h
  have hrow := rulesOf_symbols h hliteral
  have hlongest {r : Reserved} (hr : r ∈ lex.reserved) :
      r ∈ longestFirst Reserved.symbol lex.reserved := List.mem_mergeSort.mpr hr
  refine ⟨text, _, _, htext, htokens 4 _ rfl, htokens 5 _ rfl, ?_, ?_, ?_⟩ <;>
    rw [hrow, ofRules_append]
  · intro token htoken id hid
    obtain ⟨outer, hstands, -⟩ := mem_tokens.mp htoken
    rcases entry_of_mem hne hstands.mem with hmem | hgeneric | ⟨r, hr, htag⟩
    · have hmarks := categoryIn_of_mem (fun _ => categoryIn_of_mem_rulesOf_four) hmem
      exact absurd (congrArg Tag.category hid) (hmarks.ne (by decide))
    · rw [show token.segment.tag = _ from hid] at hgeneric
      cases hgeneric
    · rw [find?_longestFirst] at hr
      rw [Lexicon.reservedId?, show token.text = token.segment.text from rfl, hr]
      cases htag.symm.trans hid
      rfl
  · intro token htoken hgeneric r hr a b hab
    obtain ⟨outer, hstands, hspan⟩ := mem_tokens.mp htoken
    obtain ⟨before, g, id, hg, htag, hlonger, hshares⟩ := exists_longer hne
      (pairwise_longestFirst _ _) (hlongest hr) hstands hgeneric
      (hab.trans (List.append_assoc _ _ _))
    refine ⟨⟨g.tag, g.text, before.spanAfter g.text⟩, mem_tokens.mpr ⟨before, hg, rfl⟩, id,
      htag, hlonger, ?_⟩
    have hplace : (⟨token.span.start + a.byteLen,
        token.span.start + a.byteLen + r.symbol.utf8ByteSize⟩ : Span)
        = (outer ++ a).spanAfter r.symbol.toList := by
      rw [hspan, Text.utf8ByteSize_eq, Text.spanAfter, Text.spanAfter, Text.byteLen_append]
    rwa [hplace]
  · intro token htoken hgeneric r hr
    obtain ⟨outer, hstands, -⟩ := mem_tokens.mp htoken
    exact leavesNone_symbols hne (hlongest hr) _ hstands.mem hgeneric

/-- A lexicon whose symbols overlap and where one has two entries. -/
def overlapLexicon : Lexicon :=
  { reserved := [⟨"=", 1, none⟩, ⟨"<=", 2, none⟩, ⟨"==", 3, none⟩, ⟨"<=", 4, none⟩] }

theorem longest_symbol_wins_overlapLexicon :
    ∃ t text before after token, ofLexicon overlapLexicon = .ok t ∧
      (∀ r ∈ overlapLexicon.reserved, r.pattern = none) ∧
      t.tokenize ⟨"arrow", "é <== y".toList⟩ = .ok text ∧
      text.tokens "whitespace" = .ok before ∧ text.tokens "reserved" = .ok after ∧
      token ∈ before ∧ token.tag.isGeneric = true ∧ token.text = "<==".toList ∧
      token.span = ⟨3, 6⟩ ∧ ∃ symbol ∈ after, ∃ id, symbol.tag = Tag.ofSymbol .reserved id ∧
        overlapLexicon.reservedId? (String.ofList symbol.text) = some id ∧
        2 ≤ symbol.text.byteLen ∧ symbol.span.SharesByte ⟨4, 6⟩ := by
  have hvalid : overlapLexicon.validate = .ok () := rfl
  have hliteral : ∀ r ∈ overlapLexicon.reserved, r.pattern = none := by decide
  obtain ⟨t, ht, -⟩ := ofLexicon_ok .standard hvalid (by decide) rfl
  obtain ⟨-, hlex, hdirectives⟩ := ofLexicon_eq_ok ht
  obtain ⟨text, before, after, htext, hbefore, hafter, hids, hlonger, -⟩ :=
    longest_symbol_wins ht hliteral ⟨"arrow", "é <== y".toList⟩
  obtain ⟨text', htext', htokens⟩ := t.tokenize_rules ⟨"arrow", "é <== y".toList⟩
  cases htext.symm.trans htext'
  cases hbefore.symm.trans (htokens 4 _ rfl)
  have hmem : (⟨Tag.generic, "<==".toList, ⟨3, 6⟩⟩ : Token) ∈
      tokensAfter [] (ofRules (t.rulesOf 4) (gap "é <== y".toList)) := by
    have hmarks : tokensAfter [] (ofRules (t.rulesOf 4) (gap "é <== y".toList))
        = [⟨Tag.generic, ['é'], ⟨0, 2⟩⟩, ⟨Tag.ofCategory .whitespace, [' '], ⟨2, 3⟩⟩,
          ⟨Tag.generic, "<==".toList, ⟨3, 6⟩⟩, ⟨Tag.ofCategory .whitespace, [' '], ⟨6, 7⟩⟩,
          ⟨Tag.generic, ['y'], ⟨7, 8⟩⟩] := by
      rw [overlapLexicon, longestFirst, List.mergeSort_nil] at hdirectives
      rw [rulesOf, passes, hlex, hdirectives]
      cbv
    rw [hmarks]
    exact .tail _ (.tail _ (.head _))
  obtain ⟨symbol, hsymbol, id, htag, hlen, hshares⟩ :=
    hlonger _ hmem rfl ⟨"==", 3, none⟩ (by decide) ['<'] [] rfl
  exact ⟨t, text, _, after, _, ht, hliteral, htext, hbefore, hafter, hmem, rfl, rfl, rfl, symbol,
    hsymbol, id, htag, hids symbol hsymbol id htag, hlen, hshares⟩

end Tokenizer

end TagLayers
