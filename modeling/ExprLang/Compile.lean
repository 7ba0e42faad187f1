import ExprLang.Directory
import ExprLang.Grammar.Parser
import ExprLang.Log.Event

/-!
# Compiling named sources

A source has a name, which prefixes the message of each fault in it.  Compiling a source logs that it is
about to be parsed and how that went.
-/

namespace ExprLang

/-- A fault in the source called `name`. -/
structure SourceError where
  name : Text
  fault : Fault LexicalError
  deriving DecidableEq

/-- The wording of a source error. -/
def SourceError.message (e : SourceError) : Text :=
  e.name ++ utf8 ":" ++ e.fault.message

/-- The program of a named source, and what is logged on the way. -/
def compile (name src : Text) : Except SourceError Program × List Event :=
  let begun := .parsing name src.length
  match parse src with
  | .ok p => (.ok p, [begun, .parsed name p.body.length])
  | .error fault => (.error ⟨name, fault⟩, [begun, .parseFailed name fault.message])

/-- Why a source yields no program. -/
inductive CompileError where
  /-- The file could not be opened. -/
  | unopened (name : Text) (e : FileError)
  /-- The source could not be read to its end. -/
  | unreadable (name message : Text)
  | faulty (e : SourceError)
  deriving DecidableEq

/-- The wording of a compile error. -/
def CompileError.message : CompileError → Text
  | .unopened name e => utf8 "open source: " ++ e.message name
  | .unreadable name message => utf8 "read " ++ name ++ utf8 ": " ++ message
  | .faulty e => e.message

/-- Compiles a source of which `src` could be read before `failure` if there was one. -/
def compileRead (name src : Text) (failure : Option Text) :
    Except CompileError Program × List Event :=
  match failure with
  | some message => (.error (.unreadable name message), [])
  | none =>
    let (result, events) := compile name src
    (result.mapError .faulty, events)

/-- Compiles the file of a given name. -/
def compileFile (d : Directory) (name : Text) : Except CompileError Program × List Event :=
  match d.read name with
  | .ok src => compileRead name src none
  | .error e =>
    if e.isOpened then compileRead name [] (some (e.message name))
    else (.error (.unopened name e), [])

end ExprLang
