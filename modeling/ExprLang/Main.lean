import ExprLang.CommandLine

/-!
# The program

Reads the arguments, the environment and the inputs, runs the command `parse`, and prints what comes of it.
-/

namespace ExprLang

/-- The bytes of an array as a text. -/
def Text.ofByteArray (bytes : ByteArray) : Text := bytes.data.toList

/-- Reads a stream to its end. -/
partial def readAll (stream : IO.FS.Stream) (sofar : ByteArray) : IO ByteArray := do
  let bytes ← stream.read 65536
  if bytes.isEmpty then return sofar else readAll stream (sofar ++ bytes)

/-- The variable of the environment with a given name, empty if it is not set. -/
def variableText (name : String) : IO Text := do
  return utf8 ((← IO.getEnv name).getD "")

/-- What an error of the system says of a file. -/
def fileError : IO.Error → FileError
  | .permissionDenied .. => .denied
  | .inappropriateType .. => .isDirectory
  | .invalidArgument .. => .invalidName
  | _ => .missing

/-- A file by its name, with its text if it can be read. -/
def readFile (name : Text) : IO (Text × Except FileError Text) := do
  match String.fromUTF8? name.toByteArray with
  | none => return (name, .error .missing)
  | some path =>
    try return (name, .ok (Text.ofByteArray (← IO.FS.readBinFile path)))
    catch e => return (name, .error (fileError e))

/-- Gathers the texts that settings refer to. -/
def gather (s : Settings) : IO Supply := do
  let files ← s.inputs.mapM readFile
  let file name := (files.lookup name).getD (.error .missing)
  if s.inputs.contains stdinName then
    try
      let bytes ← readAll (← IO.getStdin) .empty
      return ⟨file, Text.ofByteArray bytes, none, false⟩
    catch e => return ⟨file, [], some (utf8 (toString e)), false⟩
  else return ⟨file, [], none, false⟩

/-- Prints a message to standard error and fails. -/
def fail (message : Text) : IO UInt32 := do
  (← IO.getStderr).write (message ++ utf8 "\n").toByteArray
  return 1

/-- Runs the command `parse` on its arguments. -/
def runParse (args : List Text) : IO UInt32 := do
  let env := ⟨← variableText "EXPRC_FORMAT", ← variableText "EXPRC_LOG_LEVEL"⟩
  match readCommand args env with
  | .error e => fail e.message
  | .ok settings =>
    let report := settings.job.run (← gather settings) ⟨none, []⟩
    let stderr ← IO.getStderr
    for line in Event.logLines settings.logLevel report.events do
      stderr.write (line ++ utf8 "\n").toByteArray
    (← IO.getStdout).write report.written.toByteArray
    match report.error with
    | none => return 0
    | some e => fail (CommandError.run e).message

end ExprLang

/-- Runs the program. -/
def main (args : List String) : IO UInt32 :=
  match args with
  | "parse" :: args => ExprLang.runParse (args.map ExprLang.utf8)
  | _ => ExprLang.fail (ExprLang.utf8 "usage: parse [--expr TEXT] [--format FORMAT] [FILE...]")
