import ExprLang.Run
import ExprLang.Settings

/-!
# The command line

Flags come first.  A flag starts with one or two dashes; its value follows behind an equals sign or as the
next argument, whatever that looks like, and the last value given counts.  Flags end at the first argument
that is none, where a single dash is none, or behind two dashes that stand alone.  All arguments from there
on name inputs.
-/

namespace ExprLang

/-- The flags by name. -/
inductive FlagName where
  | expr
  | format
  | logLevel
  deriving DecidableEq

/-- The flag that goes by a name. -/
def FlagName.ofText? (t : Text) : Option FlagName :=
  if t = utf8 "expr" ∨ t = utf8 "e" then some .expr
  else if t = utf8 "format" ∨ t = utf8 "f" then some .format
  else if t = utf8 "log-level" then some .logLevel
  else none

/-- Why a command line cannot be read. -/
inductive UsageError where
  | malformed (arg : Text)
  | unknown (name : Text)
  | valueMissing (name : Text)
  deriving DecidableEq

/-- The wording of a usage error. -/
def UsageError.message : UsageError → Text
  | .malformed arg => utf8 "bad flag syntax: " ++ arg
  | .unknown name => utf8 "flag provided but not defined: -" ++ name
  | .valueMissing name => utf8 "flag needs an argument: -" ++ name

namespace Flags

/-- The flags when none is given. -/
def initial : Flags :=
  ⟨⟨none, []⟩, ⟨none, Format.sexpr.name⟩, ⟨none, utf8 "warn"⟩⟩

/-- Gives a flag a value. -/
def set (flags : Flags) (name : FlagName) (value : Text) : Flags :=
  match name with
  | .expr => { flags with expr := ⟨some value, flags.expr.default⟩ }
  | .format => { flags with format := ⟨some value, flags.format.default⟩ }
  | .logLevel => { flags with logLevel := ⟨some value, flags.logLevel.default⟩ }

end Flags

/-- What an argument in the place of a flag is. -/
inductive Argument where
  /-- A flag, by the name that was written, with the value written behind an equals sign if any. -/
  | flag (name : Text) (value : Option Text)
  /-- The end of the flags, which is no argument itself. -/
  | divider
  /-- Something else. -/
  | plain

/-- Reads an argument in the place of a flag. -/
def Argument.ofText : Text → Argument
  | [0x2D, 0x2D] => .divider
  | 0x2D :: 0x2D :: body => split body
  | 0x2D :: b :: body => split (b :: body)
  | _ => .plain
where
  /-- Splits a flag at its first equals sign. -/
  split (body : Text) : Argument :=
    match body.dropWhile (· != 0x3D) with
    | [] => .flag body none
    | _ :: value => .flag (body.takeWhile (· != 0x3D)) (some value)

/-- The flags and the arguments behind them. -/
def readArguments (flags : Flags) : List Text → Except UsageError (Flags × List Text)
  | [] => .ok (flags, [])
  | arg :: rest =>
    match Argument.ofText arg with
    | .plain => .ok (flags, arg :: rest)
    | .divider => .ok (flags, rest)
    | .flag name value =>
      match FlagName.ofText? name with
      | none =>
        .error (if name = [] ∨ name.head? = some 0x2D then .malformed arg else .unknown name)
      | some flag =>
        match value with
        | some v => readArguments (flags.set flag v) rest
        | none =>
          match rest with
          | v :: rest => readArguments (flags.set flag v) rest
          | [] => .error (.valueMissing name)

/-- Why a command fails. -/
inductive CommandError where
  | usage (e : UsageError)
  | settings (e : SettingsError)
  | run (e : RunError)
  deriving DecidableEq

/-- The wording of a command error. -/
def CommandError.message : CommandError → Text
  | .usage e => e.message
  | .settings e => utf8 "invalid config: " ++ e.message
  | .run e => utf8 "run command: " ++ e.message

/-- The settings that a command line asks for. -/
def readCommand (args : List Text) (env : Environment) : Except CommandError Settings :=
  match readArguments .initial args with
  | .error e => .error (.usage e)
  | .ok (flags, inputs) => (Settings.resolve flags inputs env).mapError .settings

/-- The job that settings ask for. -/
def Settings.job (s : Settings) : Job :=
  ⟨s.expr, s.inputs, s.format.name⟩

/-- Runs a command line: what is written, and the error if it fails. -/
def runCommand (args : List Text) (env : Environment) (supply : Supply) :
    Text × Option CommandError :=
  match readCommand args env with
  | .error e => ([], some e)
  | .ok settings =>
    let report := settings.job.run supply ⟨none, []⟩
    (report.written, report.error.map .run)

end ExprLang
