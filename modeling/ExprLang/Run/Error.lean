import ExprLang.Compile
import ExprLang.Tree.Json

/-!
# Errors of runs

What can go wrong when sources are selected, read, shown in a format and written.
-/

namespace ExprLang

/-- The name that stands for standard input. -/
def stdinName : Text := utf8 "-"

/-- Why a run fails. -/
inductive RunError where
  /-- The job has no source. -/
  | noInput
  /-- Standard input is named twice. -/
  | repeatedStdin
  | canceled
  /-- Reading standard input failed. -/
  | stdin (message : Text)
  /-- Reading a file failed. -/
  | file (name : Text) (e : FileError)
  | faulty (e : SourceError)
  /-- The program of the source called `name` could not be encoded. -/
  | unencodable (name : Text) (e : EncodingError)
  /-- The output could not be written. -/
  | write (message : Text)
  deriving DecidableEq

/-- The wording of a run error. -/
def RunError.message : RunError → Text
  | .noInput => utf8 "no input"
  | .repeatedStdin => utf8 "standard input " ++ quoted stdinName ++ utf8 " given more than once"
  | .canceled => utf8 "context canceled"
  | .stdin message => utf8 "read stdin: " ++ message
  | .file name e => utf8 "read source: " ++ e.message name
  | .faulty e => e.message
  | .unencodable name e => utf8 "encode " ++ name ++ utf8 ": " ++ e.message
  | .write message => utf8 "write output: " ++ message

end ExprLang
