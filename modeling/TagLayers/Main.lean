import TagLayers.CommandLine.Run

/-!
# The program

Reads arguments and files, runs the command, and prints what it gives.
-/

namespace TagLayers.CommandLine

/-- Reads a file as text. -/
def readFile (path : String) : IO (Except FileError Text) := do
  try
    return Text.ofBytes (← IO.FS.readBinFile path)
  catch e =>
    match e with
    | .noFileOrDirectory _ _ _ => return .error .missing
    | .inappropriateType _ code _ =>
        return .error (if code == 20 then .notDirectory else .isDirectory)
    | .invalidArgument _ 36 _ => return .error .tooLong
    | e => return .error (.other (toString e))

/-- The configuration of a call. -/
def readConfig (config : Option String) : IO (Option (Except FileError Text)) := do
  match config with
  | some path => return some (← readFile path)
  | none =>
      match ← readFile defaultConfig with
      | .error .missing | .error .isDirectory => return none
      | content => return some content

end TagLayers.CommandLine

open TagLayers.CommandLine in
/-- Runs the program. -/
def main (args : List String) : IO UInt32 := do
  let output ←
    match readArguments args with
    | .error stop => pure (stopped stop)
    | .ok inv => do
        let config ← readConfig inv.config
        let source ← readFile inv.file
        pure (run inv (← (← IO.getStdout).isTty) ⟨config, source⟩)
  IO.print (String.ofList output.out)
  IO.eprint (String.ofList output.err)
  return output.code.toUInt32
