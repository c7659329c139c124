import TagLayers.Proofs.Sorting
import TagLayers.Proofs.Verilog.Boundaries
import TagLayers.Report.MatchRecord

/-!
# Listings of matches

A listing has one record for each match of each automaton, and no other. It goes pass by pass. The
table of a pass is in the order of the names, and the matches of one automaton follow each other, so
no two records of a pass have the same start and the same name; a stable sort by the start then
gives the order of starts first and names second.

Results:
1. `NameTable.increasing_foldl_insert`, `NameTable.perm_foldl_insert`: the rows of a table.
2. `tells_ofMatch`: what a record says of its match.
3. `pairwise_ofPass`, `lists_ofPass`: the records of a pass.
4. `listing_complete`: the records of a parse.
-/

namespace TagLayers

/-! ## Tables in the order of their names -/

namespace NameTable

variable {α : Type} {rows : List (String × α)} {table : NameTable α} {name : String} {value : α}

/-- The names increase, so none comes twice. -/
def Increasing (rows : List (String × α)) : Prop := rows.Pairwise fun a b => a.1 < b.1

theorem Increasing.insertInto (h : Increasing rows) (name : String) (value : α) :
    Increasing (insertInto name value rows) := by
  induction rows with
  | nil => exact List.pairwise_singleton _ _
  | cons first rest ih =>
    obtain ⟨hfirst, hrest⟩ := List.pairwise_cons.mp h
    rw [NameTable.insertInto]
    split
    · next hsame => exact .cons (fun row hrow => hsame ▸ hfirst row hrow) hrest
    · next hne =>
      split
      · next hlt =>
        refine .cons (fun row hrow => ?_) h
        rcases List.mem_cons.mp hrow with rfl | hrow
        · exact hlt
        · exact String.lt_trans hlt (hfirst row hrow)
      · next hle =>
        refine .cons (fun row hrow => ?_) (ih hrest)
        rcases mem_insertInto hrow with rfl | hrow
        · exact String.not_le.mp fun hge => hne (String.le_antisymm (String.not_lt.mp hle) hge)
        · exact hfirst row hrow

theorem increasing_foldl_insert (h : Increasing table.rows) (rows : List (String × α)) :
    Increasing (rows.foldl (fun table row => table.insert row.1 row.2) table).rows := by
  induction rows generalizing table with
  | nil => exact h
  | cons row rest ih => exact ih (h.insertInto row.1 row.2)

theorem perm_insertInto (hnew : name ∉ rows.map (·.1)) (value : α) :
    (insertInto name value rows).Perm ((name, value) :: rows) := by
  induction rows with
  | nil => exact .refl _
  | cons first rest ih =>
    obtain ⟨hne, hrest⟩ := not_or.mp (fun h => hnew (List.mem_cons.mpr h))
    rw [insertInto, if_neg (Ne.symm hne)]
    split
    · exact .refl _
    · exact ((ih hrest).cons first).trans (.swap _ _ _)

/-- Rows of different names are all kept. -/
theorem perm_foldl_insert (h : ((rows ++ table.rows).map (·.1)).Nodup) :
    (rows.foldl (fun table row => table.insert row.1 row.2) table).rows.Perm
      (rows ++ table.rows) := by
  induction rows generalizing table with
  | nil => exact .refl _
  | cons row rest ih =>
    obtain ⟨hrow, hrest⟩ := List.nodup_cons.mp h
    have hnew : row.1 ∉ table.rows.map (·.1) := fun hmem =>
      hrow (List.map_append ▸ List.mem_append_right _ hmem)
    have hinsert : (table.insert row.1 row.2).rows.Perm (row :: table.rows) :=
      perm_insertInto hnew row.2
    have hmiddle : (rest ++ (table.insert row.1 row.2).rows).Perm (row :: rest ++ table.rows) :=
      (hinsert.append_left rest).trans List.perm_middle
    exact (ih ((hmiddle.map _).nodup_iff.mpr h)).trans hmiddle

end NameTable

namespace Report.MatchRecord

open Verilog

variable {source : Source}

/-! ## Records -/

/-- The record tells of a match of an automaton: its layer, its name and its tag, from where to
where it reaches, and the text there. -/
structure Tells (source : Source) (layer : String) (a : Automaton) (m : Match) (r : MatchRecord) :
    Prop where
  layer : r.layer = layer
  name : r.name = a.name
  tag : r.tag = a.tag.display
  ends : ∃ first last, m.tokens.head? = some first ∧ m.tokens.getLast? = some last ∧
    r.span = ⟨first.span.start, last.span.stop⟩ ∧ r.location = source.location first.span.start
  order : r.span.start < r.span.stop
  text : source.snippet? r.span = some r.text

/-- The record of a match of an automaton. -/
def ofAutomaton (source : Source) (layer : String) (a : Automaton) (m : Match) : MatchRecord :=
  ofMatch source source.lines layer a.name a.tag m

theorem tells_ofMatch {pairs : PairTable} {tokens : List Token} {a : Automaton}
    (htokens : Token.Ordered source tokens) (hend : (Lane.alone pairs tokens a).1.phase = .ended)
    (layer : String) {m : Match} (hm : m ∈ a.found pairs tokens) :
    Tells source layer a m (ofAutomaton source layer a m) := by
  obtain ⟨hadmits, hlt⟩ := (Automaton.spans_found htokens hend).1 m hm
  obtain ⟨-, hne⟩ := Automaton.ordered_found htokens hend hm
  have hhead := List.head?_eq_some_head hne
  have hlast := List.getLast?_eq_some_getLast hne
  have hspan : m.span = ⟨(m.tokens.head hne).span.start, (m.tokens.getLast hne).span.stop⟩ := by
    rw [Match.span, hhead, hlast]
  exact
    { layer := rfl
      name := rfl
      tag := rfl
      ends := ⟨_, _, hhead, hlast, hspan, by rw [ofAutomaton, ofMatch, hspan]; rfl⟩
      order := hlt
      text := hadmits.snippet? }

/-! ## The records of a pass -/

/-- The order of a listing within a pass: by the start, and then by the name. -/
def Before (a b : MatchRecord) : Prop :=
  a.span.start < b.span.start ∨ (a.span.start = b.span.start ∧ a.name < b.name)

theorem keyOrder_start : KeyOrder fun start start' : Nat => decide (start ≤ start') where
  trans hab hbc := by
    rw [decide_eq_true_eq] at hab hbc ⊢
    omega
  total a b := by
    rw [Bool.or_eq_true, decide_eq_true_eq, decide_eq_true_eq]
    omega
  antisymm hab hba := by
    rw [decide_eq_true_eq] at hab hba
    omega

/-- Where the table of a pass is in order, and the matches of each automaton come one after the
other, the listing is in order. -/
theorem pairwise_ofPass {pass : PassResult} (hrows : NameTable.Increasing pass.found.rows)
    (hfound : ∀ row ∈ pass.found.rows,
      row.2.found.Pairwise fun m n => m.span.start < n.span.start) :
    (ofPass source source.lines pass).Pairwise Before := by
  have hlisted : (pass.found.rows.flatMap fun row =>
      row.2.found.map (ofMatch source source.lines pass.layer row.1 row.2.tag)).Pairwise
        fun a b : MatchRecord => a.span.start = b.span.start → a.name < b.name := by
    -- one automaton has no two matches of the same start, and two have different names
    refine List.pairwise_flatMap.mpr ⟨fun row hrow => ?_, hrows.imp fun hlt => ?_⟩
    · refine List.pairwise_map.mpr ((hfound row hrow).imp fun hlt hsame => ?_)
      exact absurd hsame (Nat.ne_of_lt hlt)
    · intro a ha b hb _
      obtain ⟨m, -, rfl⟩ := List.mem_map.mp ha
      obtain ⟨n, -, rfl⟩ := List.mem_map.mp hb
      exact hlt
  refine (keyOrder_start.pairwise_mergeSort hlisted).imp fun {a b} hab => ?_
  obtain ⟨hle, hname⟩ := hab
  rcases Nat.lt_or_eq_of_le (of_decide_eq_true hle) with hlt | hsame
  · exact .inl hlt
  · exact .inr ⟨hsame, hname hsame⟩

/-- The records list the matches of a step. -/
structure Lists (source : Source) (s : PassStep) (records : List MatchRecord) : Prop where
  found : ∀ a ∈ s.pass.grouper.automata,
    s.result.found.get? a.name = some ⟨a.tag, a.found s.pass.grouper.pairs s.tokens⟩
  complete : records.Perm (s.pass.grouper.automata.flatMap fun a =>
    (a.found s.pass.grouper.pairs s.tokens).map (ofAutomaton source s.pass.output a))
  tells : ∀ a ∈ s.pass.grouper.automata, ∀ m ∈ a.found s.pass.grouper.pairs s.tokens,
    Tells source s.pass.output a m (ofAutomaton source s.pass.output a m)
  order : records.Pairwise Before

theorem lists_ofPass {s : PassStep} (htokens : Token.Ordered source s.tokens)
    (hclosed : s.pass.grouper.Closed) (hnames : s.pass.names.Nodup) :
    Lists source s (ofPass source source.lines s.result) := by
  have hend {a : Automaton} (ha : a ∈ s.pass.grouper.automata) :=
    Lane.alone_ended_of_closers s.tokens (hclosed a ha)
  have hrows : (s.pass.grouper.rows s.tokens).map (·.1) = s.pass.names := by
    rw [Grouper.rows, List.map_map]
    rfl
  have hperm : s.result.found.rows.Perm (s.pass.grouper.rows s.tokens) := by
    have hnodup : ((s.pass.grouper.rows s.tokens ++ ({} : ScanResult).rows).map (·.1)).Nodup := by
      rwa [List.append_nil, hrows]
    exact (NameTable.perm_foldl_insert hnodup).trans (.of_eq (List.append_nil _))
  exact
    { found := fun a ha => s.get?_result hnames ha
      complete := by
        refine (List.mergeSort_perm _ _).trans ((hperm.flatMap_right _).trans (.of_eq ?_))
        rw [Grouper.rows, List.flatMap_map]
        rfl
      tells := fun a ha m hm => tells_ofMatch htokens (hend ha) s.pass.output hm
      order := by
        refine pairwise_ofPass (NameTable.increasing_foldl_insert .nil _) fun row hrow => ?_
        obtain ⟨a, ha, rfl⟩ := List.mem_map.mp (hperm.subset hrow)
        obtain ⟨hspans, hapart⟩ := Automaton.spans_found htokens (hend ha)
        exact hapart.imp_of_mem fun hm _ hle => Nat.lt_of_lt_of_le (hspans _ hm).2 hle }

/-! ## The records of a parse -/

/-- The listing of a parse, whatever its schedules and whatever the parser has parsed before, goes
pass by pass and has one record for each match of each automaton of the pass, and no other. Within a
pass the records strictly increase by start and name. Each tells the place of the first and of the
last token of its match, starts before it stops, and has the text of the source there. -/
theorem listing_complete (parallel : Bool) (earlier : List Source) (source : Source) :
    ∃ parser out steps groups, Parser.build parallel = .ok parser ∧
      (∀ o, (o = (parser.after earlier).parse source ∨
          ∃ schedules, (parser.after earlier).ParseUnder schedules source o) →
        o.result = .ok out) ∧
      steps.map (·.pass) = (parser.after earlier).passes ∧
      (∀ s ∈ steps, s.pass.grouper.stream out.text s.pass.input = .ok s.tokens) ∧
      out.passes = steps.map PassStep.result ∧
      ofOutput source out = groups.flatten ∧ List.Forall₂ (Lists source) steps groups := by
  obtain ⟨parser, hbuild, hready⟩ := build_ok parallel
  have hused : (parser.after earlier).Used := (Parser.Used.build hbuild).after earlier
  have hafter := hready.after earlier
  obtain ⟨text, out, steps, hsource, hsteps, hunder⟩ := Parser.exists_steps hafter source
  have hstream (s : PassStep) (hs : s ∈ steps) := (hsteps.seen s hs).stream
  have hpass (s : PassStep) (hs : s ∈ steps) : s.pass ∈ (parser.after earlier).passes := by
    rw [← hsteps.order]
    exact List.mem_map_of_mem hs
  refine ⟨parser, out, steps, steps.map fun s => ofPass source source.lines s.result, hbuild, ?_,
    hsteps.order, hstream, hsteps.found, ?_, ?_⟩
  · intro o ho
    obtain ⟨schedules, hparse⟩ :
        ∃ schedules, (parser.after earlier).ParseUnder schedules source o := by
      rcases ho with rfl | ho
      · exact (parser.after earlier).exists_parseUnder source
      · exact ho
    exact (hunder _ schedules o hparse).1
  · rw [ofOutput, hsteps.found, List.nil_append, List.flatMap_map, List.flatMap]
  · refine List.forall₂_map_right_iff.mpr (List.forall₂_same.mpr fun s hs => ?_)
    have hordered := Grouper.ordered_stream hsteps.sound (hstream s hs)
    rw [hsteps.source, hsource] at hordered
    exact lists_ofPass hordered (hafter.closed s.pass (hpass s hs))
      ((List.nodup_flatMap.mp hused.names).1 s.pass (hpass s hs))

end Report.MatchRecord
end TagLayers
