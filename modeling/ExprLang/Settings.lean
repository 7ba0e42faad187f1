import ExprLang.Format
import ExprLang.Log.Level

/-!
# Settings

The settings of a run come from flags, from the arguments behind them and from the environment.  A flag
that was given wins over the environment, and a variable that is not empty wins over the default of its
flag.  Exactly one of a source text and input names has to be given.
-/

namespace ExprLang

/-- A flag: its value if it was given, and the value it has otherwise. -/
structure Flag where
  given : Option Text
  default : Text
  deriving DecidableEq

namespace Flag

/-- The value of a flag. -/
def value (f : Flag) : Text := f.given.getD f.default

/-- The value of a setting with a flag and the value `env` in the environment. -/
def resolve (f : Flag) (env : Text) : Text :=
  match f.given with
  | some v => v
  | none => if env = [] then f.default else env

end Flag

/-- The flags of a run. -/
structure Flags where
  expr : Flag
  format : Flag
  logLevel : Flag
  deriving DecidableEq

/-- The variables of the environment that are consulted; one that is not set is empty. -/
structure Environment where
  format : Text
  logLevel : Text
  deriving DecidableEq

/-- The settings of a run. -/
structure Settings where
  expr : Text
  inputs : List Text
  format : Format
  logLevel : Level
  deriving DecidableEq

/-- Why there are no settings. -/
inductive SettingsError where
  | nothingGiven
  | bothGiven
  | format (name : Text)
  | logLevel (e : LevelError)
  deriving DecidableEq

/-- The wording of a settings error. -/
def SettingsError.message : SettingsError → Text
  | .nothingGiven => utf8 "either flag --expr or an input file is required"
  | .bothGiven => utf8 "flag --expr cannot be combined with input files"
  | .format name => utf8 "flag --format: " ++ Format.unknown name
  | .logLevel e => utf8 "flag --log-level: " ++ e.message

/-- Resolves the settings.  The source text is checked first, then the format, then the log level. -/
def Settings.resolve (flags : Flags) (args : List Text) (env : Environment) :
    Except SettingsError Settings :=
  let expr := flags.expr.value
  if expr = [] ∧ args = [] then .error .nothingGiven
  else if expr ≠ [] ∧ args ≠ [] then .error .bothGiven
  else
    let name := flags.format.resolve env.format
    match Format.ofName? name with
    | none => .error (.format name)
    | some format =>
      match Level.ofText (flags.logLevel.resolve env.logLevel) with
      | .error e => .error (.logLevel e)
      | .ok level => .ok ⟨expr, args, format, level⟩

end ExprLang
