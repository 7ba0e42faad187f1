import ExprLang.Json
import ExprLang.Log.Level

/-!
# Log events

What happens while inputs are processed, and how it is logged: each event is a JSON object on a line of
its own.  All events are of level debug.
-/

namespace ExprLang

/-- Something worth a line in the log. -/
inductive Event where
  /-- A source of `bytes` bytes is about to be parsed. -/
  | parsing (source : Text) (bytes : Nat)
  /-- A source has been parsed. -/
  | parsed (source : Text) (statements : Nat)
  /-- A source could not be parsed. -/
  | parseFailed (source error : Text)
  /-- All inputs have been rendered. -/
  | rendered (inputs : Nat) (format : Text)
  deriving DecidableEq

namespace Event

/-- The escaping of log lines: controls are escaped, and a stray byte is shown as the escape of the
replacement character. -/
def escape : Json.Escaping
  | .stray _ => Json.codeEscape replacementChar
  | .char c =>
    match Json.letterEscapes.lookup c with
    | some letter => ['\\', letter]
    | none => if c.toNat < 0x20 || c.toNat = 0x7F then Json.codeEscape c else [c]

/-- What an event is about. -/
def fields : Event → List (String × Json)
  | .parsing source bytes =>
    [("source", .string source), ("bytes", .number (Text.ofNat bytes))]
  | .parsed source statements =>
    [("source", .string source), ("statements", .number (Text.ofNat statements))]
  | .parseFailed source error => [("source", .string source), ("error", .string error)]
  | .rendered inputs format =>
    [("inputs", .number (Text.ofNat inputs)), ("format", .string format)]

/-- What an event is called. -/
def title : Event → String
  | .parsing .. => "parsing"
  | .parsed .. => "parsed"
  | .parseFailed .. => "parse failed"
  | .rendered .. => "rendered"

/-- The line of an event in the log. -/
def line (e : Event) : Text :=
  let members :=
    [("level", .string Level.debug.name)] ++ e.fields ++ [("message", .string (utf8 e.title))]
  (Json.object (members.map fun (key, value) => (utf8 key, value))).write .compact escape 0

/-- The lines that a logger with a given threshold writes. -/
def logLines (threshold : Level) (events : List Event) : List Text :=
  if threshold.admits .debug then events.map line else []

end Event

end ExprLang
