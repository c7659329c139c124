import TagLayers.Proofs.Grouping.Projection
import TagLayers.Proofs.Lexicon.Tokenization

/-!
# Scans that fail

A projection changes its text call by call: it copies the input and then tags one match after the
other. A call that failed half way would leave a text that is partly tagged. None does: the indices
of the matches are those of tokens, a match starts at its first token and stops at its last, and
both ends lie between characters of the source. So a scan can only fail before it has made its
first call, and then the text is as it was.

To say this, the calls are made in place (`inPlace`), where what has been done before a failure
stays done.

Results:
1. `inPlace_of_foldlM`: calls in place and calls that return a new text.
2. `inPlace_calls`: the calls of a projection that succeeds.
3. `fault_of_stopped`, `isSome_of_mem_log`, `lt_of_mem_completed`: faults, and the indices of
   tokens.
4. `failed_scan_keeps_text`: what a scan that fails leaves behind.
-/

namespace TagLayers

namespace TaggedText

/-- The texts that come about by tokenization and by calls that succeed. -/
inductive Made : TaggedText → Prop
  | ofSource (source : Source) : Made (ofSource source)
  | tokenize {t : Tokenizer} {source : Source} {text : TaggedText} :
      t.tokenize source = .ok text → Made text
  | tag {text text' : TaggedText} {name : String} {start stop : Nat} {label : Tag} :
      Made text → text.tag name start stop label = .ok text' → Made text'
  | copy {text text' : TaggedText} {input output : String} :
      Made text → text.copy input output = .ok text' → Made text'
  | add {text : TaggedText} (name : String) : Made text → Made (text.add name)

theorem Made.reachable {text : TaggedText} (h : text.Made) : text.Reachable := by
  induction h with
  | ofSource source => exact .ofSource source
  | tokenize h => exact Tokenizer.reachable_tokenize h
  | tag _ h ih => exact ih.tag h
  | copy _ h ih => exact ih.copy h
  | add name _ ih => exact ih.add name

theorem Reachable.made {text : TaggedText} (h : text.Reachable) : text.Made := by
  induction h with
  | ofSource source => exact .ofSource source
  | tag _ h ih => exact ih.tag h
  | copy _ h ih => exact ih.copy h
  | add name _ ih => exact ih.add name

/-! ## Calls in place -/

/-- Calls to a text in place. A call that fails is the last one, and what the calls before it have
changed stays changed. -/
def inPlace (text : TaggedText) :
    List (TaggedText → Except TagError TaggedText) → TaggedText × Option TagError
  | [] => (text, none)
  | call :: more =>
      match call text with
      | .error e => (text, some e)
      | .ok text => inPlace text more

theorem inPlace_of_foldlM {calls : List (TaggedText → Except TagError TaggedText)}
    {text text' : TaggedText} (h : calls.foldlM (fun text call => call text) text = .ok text') :
    text.inPlace calls = (text', none) := by
  induction calls generalizing text with
  | nil =>
    cases h
    rfl
  | cons call more ih =>
    rw [List.foldlM_cons] at h
    obtain ⟨next, hcall, hmore⟩ := bind_eq_ok.mp h
    rw [inPlace, hcall]
    exact ih hmore

-- the second call fails, and the copy that the first one has made is there
example :
    ((ofSource ⟨"two", ['a', 'b']⟩).inPlace [(·.copy top "copy"), (·.tag "none" 0 1 (Tag.of 1))]).1
      ≠ ofSource ⟨"two", ['a', 'b']⟩ := by
  intro h
  have hnames := congrArg (fun text => text.perspectives.rows.map (·.1)) h
  revert hnames
  decide

end TaggedText

/-- The error of a scan that failed. -/
def ScanOutcome.error? (o : ScanOutcome) : Option EngineError :=
  match o.result with
  | .error e => some e
  | .ok _ => none

namespace Grouper

/-- The calls of a projection. -/
def calls (tokens : Array Token) (automata : List Automaton) (input output : String) :
    List (TaggedText → Except TagError TaggedText) :=
  (·.copy input output) :: automata.flatMap fun a =>
    (matchesOf tokens a).found.map fun m text => text.tag output m.span.start m.span.stop a.tag

variable {g : Grouper} {text : TaggedText} {tokens : List Token} {input output : String}
  {schedule : List Nat}

theorem foldlM_tags (tokens : Array Token) (automata : List Automaton) (output : String)
    (text : TaggedText) :
    (automata.flatMap fun a => (matchesOf tokens a).found.map fun m (text : TaggedText) =>
        text.tag output m.span.start m.span.stop a.tag).foldlM (fun text call => call text) text
      = (automata.map fun a => (a.name, matchesOf tokens a)).foldlM
          (fun text row => tagMatches output text row.2) text := by
  induction automata generalizing text with
  | nil => rfl
  | cons a rest ih =>
    rw [List.flatMap_cons, List.foldlM_append, List.map_cons, List.foldlM_cons, tagMatches,
      TaggedText.tagAll_eq_foldlM, List.foldlM_map, List.foldlM_map]
    exact bind_congr fun text => ih text

/-- A projection that succeeds has made each of its calls. -/
theorem inPlace_calls {tokens : Array Token} {automata : List Automaton} {text' : TaggedText}
    {found : ScanResult} (h : project tokens automata text input output = .ok (text', found)) :
    text.inPlace (calls tokens automata input output) = (text', none) := by
  refine TaggedText.inPlace_of_foldlM ?_
  obtain ⟨copied, hcopy, hrest⟩ := bind_eq_ok.mp h
  obtain ⟨tagged, htags, hsame⟩ := bind_eq_ok.mp hrest
  cases hsame
  rw [calls, List.foldlM_cons]
  refine bind_eq_ok.mpr ⟨copied, hcopy, ?_⟩
  rw [foldlM_tags, htags]

/-! ## Faults and indices -/

/-- A lane is stopped by an opener of its pattern that has no closer. -/
theorem fault_of_stopped {lane : Lane} (hlane : lane ∈ (g.scanned tokens schedule).lanes)
    {fault : PatternError} (hstop : lane.phase = .stopped fault) :
    ∃ a ∈ g.automata, ∃ e ∈ a.pattern.entries, e.mode = .complete ∧
      g.pairs.closer? e.target = none ∧ fault = .undefinedCloser a.name e.target := by
  obtain ⟨a, ha, rfl⟩ := exists_alone hlane (Lane.halted_of_stopped hstop)
  refine ⟨a, ha, ?_⟩
  rcases Lane.alone_cases g.pairs tokens a with ⟨-, hended⟩ | ⟨fault', hfault, hstop'⟩
  · rw [hended] at hstop
    cases hstop
  · cases hstop.symm.trans hstop'
    have hs : a.reset.Sound := Automaton.sound_reset a
    exact Automaton.feedStream_error g.pairs hs 0 tokens hfault

/-- The token of each report is there, however far the scan has come. -/
theorem isSome_of_mem_log {entry : Nat × Report} (h : entry ∈ (g.scanned tokens schedule).log) :
    (entry.2.diagnostic? tokens).isSome := by
  have hmem : entry.2 ∈ (g.scanned tokens schedule).reports entry.1 :=
    List.mem_map_of_mem (List.mem_filter.mpr ⟨h, beq_self_eq_true entry.1⟩)
  unfold scanned at hmem
  cases hlane : (Scan.start g.automata).lanes[entry.1]? with
  | none =>
    rw [Scan.run_reports_of_none hlane] at hmem
    cases hmem
  | some lane =>
    rw [(Scan.run_lane g.pairs tokens hlane schedule).2] at hmem
    have hidle : lane.Kept tokens := by
      obtain ⟨a, -, rfl⟩ := List.mem_map.mp (List.mem_of_getElem? hlane)
      trivial
    exact (Lane.kept_moves hidle _).2 _ hmem

/-- At the end of the stream all indices in matches are those of tokens. -/
theorem lt_of_mem_completed (h : ∀ lane ∈ (g.scanned tokens schedule).lanes, lane.phase = .ended)
    {a : Automaton} (ha : a ∈ (g.scanned tokens schedule).automata) {run : List Nat}
    (hrun : run ∈ a.completed.toList) {i : Nat} (hi : i ∈ run) : i < tokens.length := by
  rw [Scan.automata, lanes_of_halted fun lane hlane => Lane.halted_of_ended (h lane hlane),
    List.map_map] at ha
  obtain ⟨b, hb, rfl⟩ := List.mem_map.mp ha
  have hend := alone_ended h hb
  rw [Function.comp_apply, (Lane.alone_of_ended hend).2] at hrun
  exact List.mem_range.mp
    ((Automaton.runs_of_ended hend).1.subset (List.mem_flatten.mpr ⟨run, hrun, hi⟩))

/-! ## Failures -/

/-- The text that a scan leaves behind where its calls are made in place, and the error that it
returns, in whatever order its automata move. -/
inductive Leaves (g : Grouper) (text : TaggedText) (input output : String) :
    TaggedText → Option EngineError → Prop
  | unread {e : TagError} : g.stream text input = .error e →
      Leaves g text input output text (some (.tag e))
  | fault {tokens : List Token} {lane : Lane} {fault : PatternError} (schedule : List Nat) :
      g.stream text input = .ok tokens → lane ∈ (g.scanned tokens schedule).lanes →
      lane.phase = .stopped fault → Leaves g text input output text (some (.pattern fault))
  | ended {tokens : List Token} {text' : TaggedText} {error : Option TagError}
      (schedule : List Nat) : g.stream text input = .ok tokens →
      (∀ lane ∈ (g.scanned tokens schedule).lanes, lane.phase = .ended) →
      text.inPlace (calls tokens.toArray (g.scanned tokens schedule).automata input output)
        = (text', error) →
      Leaves g text input output text' (error.map .tag)

/-- At the end of the stream all calls of the projection succeed, in place as without. -/
theorem calls_scanned (ht : text.Sound) (output : String) (hs : g.stream text input = .ok tokens)
    (h : ∀ lane ∈ (g.scanned tokens schedule).lanes, lane.phase = .ended)
    (ds : List Diagnostic) :
    (g.conclude tokens (g.scanned tokens schedule).automata ds text input output).error? = none ∧
      text.inPlace (calls tokens.toArray (g.scanned tokens schedule).automata input output)
        = ((g.conclude tokens (g.scanned tokens schedule).automata ds text input output).text,
            none) := by
  obtain ⟨before, after, -, -, hproject, -⟩ := project_scanned ht output hs h
  rw [inPlace_calls hproject, conclude, hproject]
  exact ⟨rfl, rfl⟩

/-- What a scan comes to is what it leaves behind in place. -/
theorem leaves_of_outcome (ht : text.Sound) {o : ScanOutcome}
    (ho : g.Outcome text input output o) : g.Leaves text input output o.text o.error? := by
  cases ho with
  | unread hs => exact .unread hs
  | fault schedule hs hlane hstop => exact .fault schedule hs hlane hstop
  | @ended tokens schedule hs h =>
    obtain ⟨herror, hcalls⟩ := calls_scanned ht output hs h
      (Scan.shown tokens (g.scanned tokens schedule).log)
    rw [herror]
    exact .ended schedule hs h hcalls

theorem stream_eq_error_iff (ht : text.Sound) {e : TagError} :
    g.stream text input = .error e ↔
      text.perspectives.get? input = none ∧ e = .unknownPerspective input := by
  rw [stream]
  cases hp : text.perspectives.get? input with
  | none =>
    rw [TaggedText.tokens_of_none hp]
    simp [bind, Except.bind, eq_comm]
  | some p =>
    rw [TaggedText.tokens_eq hp (ht input p hp)]
    simp [bind, Except.bind, pure, Except.pure]

/-- A scan of a text that comes about by tokenization and by calls leaves the text as it was if it
fails, in whatever order its automata move and with its calls made in place. It fails for want of
its input exactly when there is no such perspective, and else with an opener that has no closer.
Once all automata have reached the end of the stream nothing can fail: all calls of the projection
succeed, and no match or report names a token that is not there. -/
theorem failed_scan_keeps_text (g : Grouper) {text : TaggedText} (ht : text.Made)
    (input output : String) :
    (∀ o, o = g.scan text input output ∨ o = g.scanParallel text input output →
      g.Leaves text input output o.text o.error?) ∧
    (∀ left error, g.Leaves text input output left error →
      (error = some (.tag (.unknownPerspective input)) ↔
        text.perspectives.get? input = none) ∧
      ∀ e, error = some e → left = text ∧
        (e = .tag (.unknownPerspective input) ∨ ∃ a ∈ g.automata, ∃ entry ∈ a.pattern.entries,
          entry.mode = .complete ∧ g.pairs.closer? entry.target = none ∧
            e = .pattern (.undefinedCloser a.name entry.target))) ∧
    ∀ tokens schedule, g.stream text input = .ok tokens →
      (∀ report ∈ (g.scanned tokens schedule).log, (report.2.diagnostic? tokens).isSome) ∧
      ((∀ lane ∈ (g.scanned tokens schedule).lanes, lane.phase = .ended) →
        (text.inPlace (calls tokens.toArray (g.scanned tokens schedule).automata input
          output)).2 = none ∧
        ∀ a ∈ (g.scanned tokens schedule).automata, ∀ run ∈ a.completed.toList, ∀ i ∈ run,
          i < tokens.length) := by
  have hsound := ht.reachable.sound
  refine ⟨fun o ho => ?_, fun left error hleft => ?_, fun tokens schedule hs => ?_⟩
  · rcases ho with rfl | rfl
    · exact leaves_of_outcome hsound (outcome_scanIn (List.append_nil _))
    · exact leaves_of_outcome hsound (outcome_scanIn (List.flatMap_singleton' _))
  · have hsome {tokens : List Token} (hs : g.stream text input = .ok tokens) :
        text.perspectives.get? input ≠ none := by
      obtain ⟨p, hp, -⟩ := stream_eq_ok hsound hs
      simp [hp]
    cases hleft with
    | unread hs =>
      obtain ⟨hnone, rfl⟩ := (stream_eq_error_iff hsound).mp hs
      exact ⟨⟨fun _ => hnone, fun _ => rfl⟩, fun e he => ⟨rfl, .inl (Option.some.inj he).symm⟩⟩
    | fault schedule hs hlane hstop =>
      refine ⟨⟨nofun, fun hnone => absurd hnone (hsome hs)⟩, ?_⟩
      intro e he
      cases he
      obtain ⟨a, ha, entry, hentry, hm, hcl, rfl⟩ := fault_of_stopped hlane hstop
      exact ⟨rfl, .inr ⟨a, ha, entry, hentry, hm, hcl, rfl⟩⟩
    | ended schedule hs h hcalls =>
      -- the calls succeed, so there is no error
      rw [(calls_scanned hsound output hs h []).2] at hcalls
      cases hcalls
      exact ⟨⟨nofun, fun hnone => absurd hnone (hsome hs)⟩, nofun⟩
  · refine ⟨fun report hreport => isSome_of_mem_log hreport, fun h => ⟨?_, ?_⟩⟩
    · rw [(calls_scanned hsound output hs h []).2]
    · intro a ha run hrun i hi
      exact lt_of_mem_completed h ha hrun hi

/-- The first automaton has a match when the second one is stopped. -/
def openGrouper : Grouper :=
  ⟨⟨{}, [], [], [], {}⟩, {},
    [firstToken, .new "open" (Tag.of 13) (Pattern.nil.complete (Tag.of 2))], []⟩

theorem failed_scan_keeps_text_openGrouper :
    (openGrouper.scan markedText "top" "out").text = markedText ∧
      (openGrouper.scan markedText "top" "out").error?
        = some (.pattern (.undefinedCloser "open" (Tag.of 2))) ∧
      (openGrouper.scan markedText "none" "out").error?
        = some (.tag (.unknownPerspective "none")) := by
  have herror : (openGrouper.scan markedText "top" "out").error?
      = some (.pattern (.undefinedCloser "open" (Tag.of 2))) := by
    decide +kernel
  obtain ⟨hleaves, hleft, -⟩ :=
    failed_scan_keeps_text openGrouper reachable_markedText.made "top" "out"
  obtain ⟨hleaves', hleft', -⟩ :=
    failed_scan_keeps_text openGrouper reachable_markedText.made "none" "out"
  exact ⟨((hleft _ _ (hleaves _ (.inl rfl))).2 _ herror).1, herror,
    (hleft' _ _ (hleaves' _ (.inl rfl))).1.mpr rfl⟩

end Grouper

end TagLayers
