import TagLayers.Text

/-!
# Arguments

The program is called with options, a command, and the options and the file of the command:

    veritag [-q] [-v] [--color WHEN] [--config PATH] COMMAND
    tokens FILE [-p NAME] [-f FORMAT] [-l]
    parse FILE [-f FORMAT] [--parallel]

The options of the first line may also stand after the command; what is given there wins. An
option may be given once before the command and once after it. The value of an option follows
as the next argument, after an equals sign, or directly after a letter; as an argument of its
own it must not start with a dash, except for a dash alone. Letters without values may be
joined. After two dashes every argument is a file.

`--version` before the command ends the reading of arguments at once.
-/

namespace TagLayers.CommandLine

/-- When output is colored. -/
inductive ColorChoice where
  /-- If it goes to a terminal. -/
  | auto
  /-- In any case. -/
  | always
  /-- In no case. -/
  | never
deriving DecidableEq, Repr

/-- The form of a report. -/
inductive Format where
  /-- For people. -/
  | text
  | json
deriving DecidableEq, Repr

/-- What the program is to do. -/
inductive Command where
  /-- Show the tokens of a perspective. -/
  | tokens (file perspective : String) (format : Format) (list : Bool)
  /-- Parse a file and show the matches. -/
  | parse (file : String) (format : Format) (parallel : Bool)
deriving DecidableEq, Repr

/-- A complete call. -/
structure Invocation where
  /-- Show errors only. -/
  quiet : Bool
  /-- Show more than usual. -/
  verbose : Bool
  /-- When output is colored. -/
  color : ColorChoice
  /-- The path of a configuration. -/
  config : Option String
  command : Command
deriving DecidableEq, Repr

/-- Why no command is run. -/
inductive Stop where
  /-- The arguments are wrong. -/
  | usage
  /-- The version was asked for. -/
  | version
deriving DecidableEq, Repr

/-- An option. -/
inductive Flag where
  | quiet
  | verbose
  | color
  | config
  | version
  | perspective
  | format
  | list
  | parallel
deriving DecidableEq, Repr

namespace Flag

/-- The long name. -/
def long : Flag → String
  | quiet => "quiet"
  | verbose => "verbose"
  | color => "color"
  | config => "config"
  | version => "version"
  | perspective => "perspective"
  | format => "format"
  | list => "list"
  | parallel => "parallel"

/-- The letter, if there is one. -/
def letter? : Flag → Option Char
  | quiet => some 'q'
  | verbose => some 'v'
  | version => some 'V'
  | perspective => some 'p'
  | format => some 'f'
  | list => some 'l'
  | color | config | parallel => none

/-- The option has a value. -/
def hasValue : Flag → Bool
  | color | config | perspective | format => true
  | _ => false

end Flag

/-- Where an argument stands. -/
inductive Level where
  /-- Before the command. -/
  | top
  /-- After `tokens`. -/
  | tokens
  /-- After `parse`. -/
  | parse
deriving DecidableEq, Repr

/-- The options of a level. -/
def Level.flags : Level → List Flag
  | .top => [.quiet, .verbose, .color, .config, .version]
  | .tokens => [.quiet, .verbose, .color, .config, .perspective, .format, .list]
  | .parse => [.quiet, .verbose, .color, .config, .format, .parallel]

/-- What has been given at one level: options with their values, and the file. -/
structure Given where
  /-- Options with their values; those without a value have an empty one. -/
  flags : List (Flag × String) := []
  file : Option String := none
deriving DecidableEq, Repr

namespace Given

/-- The value of an option. -/
def value? (g : Given) (flag : Flag) : Option String :=
  (g.flags.find? (·.1 == flag)).map (·.2)

/-- The option was given. -/
def has (g : Given) (flag : Flag) : Bool := (g.value? flag).isSome

end Given

/-- The choice of a name. -/
def colorChoice? : String → Option ColorChoice
  | "auto" => some .auto
  | "always" => some .always
  | "never" => some .never
  | _ => none

/-- The format of a name. -/
def format? : String → Option Format
  | "text" => some .text
  | "json" => some .json
  | _ => none

/-- The option can have the value. -/
def validValue (flag : Flag) (value : String) : Bool :=
  match flag with
  | .color => (colorChoice? value).isSome
  | .format => (format? value).isSome
  | .config => !value.isEmpty
  | _ => true

/-- Records an option. An option is given once, and the version ends everything. -/
def Given.record (g : Given) (flag : Flag) (value : String) : Except Stop Given :=
  if flag = .version then .error .version
  else if g.has flag || !validValue flag value then .error .usage
  else .ok { g with flags := g.flags ++ [(flag, value)] }

/-- Options read from one argument; the last one may still want its value. -/
structure Pending where
  /-- What has been given. -/
  given : Given
  /-- The option that waits for its value. -/
  wants : Option Flag := none

/-- Reads an option with a long name, without its dashes. -/
def readLong (level : Level) (g : Given) (text : Text) : Except Stop Pending := do
  let name := String.ofList (text.takeWhile (· != '='))
  let some flag := level.flags.find? (·.long == name) | throw .usage
  match text.dropWhile (· != '='), flag.hasValue with
  | _ :: value, true => return { given := ← g.record flag (String.ofList value) }
  | _ :: _, false => throw .usage
  | [], true => return { given := g, wants := some flag }
  | [], false => return { given := ← g.record flag "" }

/-- Reads options given by letters. -/
def readLetters (level : Level) (g : Given) : Text → Except Stop Pending
  | [] => .ok { given := g }
  | c :: rest => do
      let some flag := level.flags.find? (·.letter? == some c) | throw .usage
      if flag.hasValue then
        match rest with
        | [] => return { given := g, wants := some flag }
        | '=' :: value => return { given := ← g.record flag (String.ofList value) }
        | value => return { given := ← g.record flag (String.ofList value) }
      else
        readLetters level (← g.record flag "") rest

/-- Records a file. -/
def Given.recordFile (g : Given) (file : String) : Except Stop Given :=
  if g.file.isSome || file.isEmpty then .error .usage else .ok { g with file := some file }

/-- What an argument is by its look. -/
inductive Shape where
  /-- Two dashes. -/
  | terminator
  /-- An option with a long name. -/
  | long (text : Text)
  /-- Options by letters. -/
  | letters (text : Text)
  /-- Anything else. -/
  | operand
deriving DecidableEq, Repr

/-- The look of an argument. -/
def shape (arg : String) : Shape :=
  match arg.toList with
  | ['-', '-'] => .terminator
  | '-' :: '-' :: text => .long text
  | ['-'] => .operand
  | '-' :: text => .letters text
  | _ => .operand

/-- Reads arguments at one level. Before the command the first operand is the command; it is
given back with the arguments after it. -/
def readLevel (level : Level) (g : Given) :
    List String → Except Stop (Given × Option (String × List String))
  | [] => .ok (g, none)
  | arg :: rest =>
      let continueWith (p : Except Stop Pending) :
          Except Stop (Given × Option (String × List String)) :=
        match p, rest with
        | .error stop, _ => .error stop
        | .ok ⟨g, none⟩, rest => readLevel level g rest
        | .ok ⟨_, some _⟩, [] => .error .usage
        | .ok ⟨g, some flag⟩, value :: rest =>
            if shape value = .operand then
              match g.record flag value with
              | .error stop => .error stop
              | .ok g => readLevel level g rest
            else .error .usage
      match shape arg with
      | .long text => continueWith (readLong level g text)
      | .letters text => continueWith (readLetters level g text)
      | .terminator =>
          if level = .top then .error .usage
          else (rest.foldlM Given.recordFile g).map (·, none)
      | .operand =>
          if level = .top then .ok (g, some (arg, rest))
          else
            match g.recordFile arg with
            | .error stop => .error stop
            | .ok g => readLevel level g rest

/-- The last value given for an option, after the command or before it. -/
def lastValue? (top sub : Given) (flag : Flag) : Option String :=
  (sub.value? flag).or (top.value? flag)

/-- Puts together what was given before and after the command. -/
def invocation (top sub : Given) (command : Command) : Invocation where
  quiet := top.has .quiet || sub.has .quiet
  verbose := top.has .verbose || sub.has .verbose
  color := ((lastValue? top sub .color).bind colorChoice?).getD .auto
  config := lastValue? top sub .config
  command := command

/-- The format given, or text. -/
def givenFormat (g : Given) : Format := ((g.value? .format).bind format?).getD .text

/-- Reads all arguments. -/
def readArguments (args : List String) : Except Stop Invocation := do
  let (top, some (name, rest)) ← readLevel .top {} args | throw .usage
  match name with
  | "tokens" =>
      let (sub, _) ← readLevel .tokens {} rest
      let some file := sub.file | throw .usage
      return invocation top sub
        (.tokens file ((sub.value? .perspective).getD "keywords") (givenFormat sub)
          (sub.has .list))
  | "parse" =>
      let (sub, _) ← readLevel .parse {} rest
      let some file := sub.file | throw .usage
      return invocation top sub (.parse file (givenFormat sub) (sub.has .parallel))
  | _ => throw .usage

end TagLayers.CommandLine
