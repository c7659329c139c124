import TagLayers.CommandLine.Arguments
import TagLayers.Config.Reading
import TagLayers.Diagnostic.Rendering
import TagLayers.Diagnostic.Sink
import TagLayers.Report.Json

/-!
# Running commands

A command maps the files that it reads to what it prints and its exit code. The code is 0
after a run without errors, 1 after an error, and 2 for wrong arguments.
-/

namespace TagLayers.CommandLine

/-- What the program leaves behind. -/
structure Output where
  /-- The exit code. -/
  code : Nat
  /-- The text on the standard output. -/
  out : Text := []
  /-- The text on the standard error. -/
  err : Text := []
deriving DecidableEq, Repr

/-- The content of the files that a command reads. -/
structure Inputs where
  /-- The configuration, if there is one. -/
  config : Option (Except FileError Text)
  source : Except FileError Text

/-- Why a command failed. -/
inductive CommandError where
  /-- The configuration cannot be used. -/
  | config (cause : ConfigError)
  /-- The source cannot be read. -/
  | unreadable (path : String) (cause : FileError)
  /-- The text could not be tagged or parsed. -/
  | engine (cause : EngineError)
deriving DecidableEq, Repr

namespace CommandError

/-- The wording of an error. -/
def message : CommandError → String
  | config cause => cause.message
  | unreadable path cause =>
      let code := String.ofList DiagnosticCode.unreadableInput.display
      s!"[{code}] cannot read {path}: {cause.message}"
  | engine cause => cause.message

end CommandError

/-- The name of the configuration that is used when none is given. -/
def defaultConfig : String := "veritag.toml"

/-- The text that shows the version. -/
def versionText : Text := "veritag 0.1.0\n".toList

/-- How many characters of a line are shown under a diagnostic. -/
def terminalWidth : Nat := 80

/-- The configuration of a call. -/
def loadConfig : Option (Except FileError Text) → Except CommandError Config
  | none => .ok {}
  | some (.error e) => .error (.config (.file e))
  | some (.ok text) => (Config.ofText text).mapError .config

/-- The source of a call. -/
def loadSource (path : String) : Except FileError Text → Except CommandError Source
  | .ok text => .ok ⟨path, text⟩
  | .error e => .error (.unreadable path e)

/-- Tags a source: by the lexicon of the configuration if it has one, otherwise as Verilog with
all its layers. The colors are those that suit. -/
def tagSource (config : Config) (source : Source) :
    Except CommandError (TaggedText × ColorMap) := do
  let colors ← config.colorMap.mapError .config
  match config.lexicon with
  | some s =>
      let tokenizer ← s.toTokenizer.mapError .config
      let text ← (tokenizer.tokenize source).mapError (.engine ∘ .tag)
      return (text, colors)
  | none =>
      let parser ← (Verilog.Parser.build false).mapError .engine
      let out ← (parser.parse source).result.mapError .engine
      return (out.text, colors.extend Verilog.colors)

/-- Text with a newline at its end. -/
def asLine (text : Text) : Text := text ++ ['\n']

/-- Shows the tokens of a perspective. -/
def runTokens (color : Bool) (inputs : Inputs) (file perspective : String) (format : Format)
    (list : Bool) : Except CommandError Output := do
  let config ← loadConfig inputs.config
  let source ← loadSource file inputs.source
  let (text, colors) ← tagSource config source
  let tokens ← (text.tokens perspective).mapError (.engine ∘ .tag)
  match format, list with
  | .text, true =>
      let records := Report.TokenRecord.ofTokens source tokens
      return { code := 0, out := records.flatMap fun r => asLine r.line }
  | .text, false =>
      let shown ← (text.renderColored perspective (if color then colors else {})).mapError
        (.engine ∘ .tag)
      return { code := 0, out := shown }
  | .json, _ =>
      let records := Report.TokenRecord.ofTokens source tokens
      let json := Report.Json.list (records.map Report.TokenRecord.json)
      return { code := 0, out := asLine (json.render 0) }

/-- The diagnostics of a parse as they are shown; a quiet call shows errors only. -/
def shownDiagnostics (quiet : Bool) (style : TerminalStyle) (source : Source)
    (ds : List Diagnostic) : Text :=
  (ds.filter fun d => !quiet || d.severity.isError).flatMap fun d =>
    asLine ((d.render? style source).getD [])

/-- The last line of a parse. -/
def summaryLine (sink : Sink) : Text :=
  let warnings := (sink.held.filter (·.severity == .warning)).length
  asLine s!"   Result: {sink.errors} error(s), {warnings} warning(s)".toList

/-- Parses a file and shows the matches. -/
def runParse (color quiet : Bool) (inputs : Inputs) (file : String) (format : Format)
    (parallel : Bool) : Except CommandError Output := do
  let source ← loadSource file inputs.source
  let parser ← (Verilog.Parser.build parallel).mapError .engine
  let outcome := parser.parse source
  let out ← outcome.result.mapError .engine
  let sink := Sink.emitAll {} outcome.emitted
  let records := Report.MatchRecord.ofOutput source out
  let code := if sink.hasErrors then 1 else 0
  match format with
  | .text =>
      return {
        code
        out := records.flatMap fun r => asLine r.line
        err := shownDiagnostics quiet ⟨color, terminalWidth⟩ source sink.held
          ++ if quiet then [] else summaryLine sink }
  | .json => return { code, out := asLine ((Report.parseJson file records sink.held).render 0) }

/-- Output is colored. -/
def useColor (choice : ColorChoice) (terminal : Bool) : Bool :=
  match choice with
  | .auto => terminal
  | .always => true
  | .never => false

/-- Runs a command on the files that it reads; `terminal` says whether the standard output is a
terminal. -/
def run (inv : Invocation) (terminal : Bool) (inputs : Inputs) : Output :=
  let color := useColor inv.color terminal
  let result :=
    match inv.command with
    | .tokens file perspective format list =>
        runTokens color inputs file perspective format list
    | .parse file format parallel => runParse color inv.quiet inputs file format parallel
  match result with
  | .ok output => output
  | .error e => { code := 1, err := asLine ("error: ".toList ++ e.message.toList) }

/-- What is left behind when no command is run. -/
def stopped : Stop → Output
  | .usage => { code := 2, err := asLine "error: wrong arguments".toList }
  | .version => { code := 0, out := versionText }

/-! ## Files -/

/-- The file of a command. -/
def Invocation.file (inv : Invocation) : String :=
  match inv.command with
  | .tokens file _ _ _ => file
  | .parse file _ _ => file

/-- The configuration of a call in a directory. One that was not asked for need not be there. -/
def configIn (d : Directory) : Option String → Option (Except FileError Text)
  | some path => some ((d.read path).bind Text.ofBytes)
  | none =>
      match d.read defaultConfig with
      | .ok bytes => some (Text.ofBytes bytes)
      | .error _ => none

/-- The files of a call in a directory. -/
def Invocation.inputsIn (inv : Invocation) (d : Directory) : Inputs :=
  ⟨configIn d inv.config, (d.read inv.file).bind Text.ofBytes⟩

/-- Runs the program in a directory, with its output not going to a terminal. -/
def runIn (d : Directory) (args : List String) : Output :=
  match readArguments args with
  | .error stop => stopped stop
  | .ok inv => run inv false (inv.inputsIn d)

end TagLayers.CommandLine
