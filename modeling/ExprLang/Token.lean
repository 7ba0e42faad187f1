import ExprLang.Location

/-!
# Tokens

A token has a kind, the text it was read from and the location of its first byte.  Kinds are numbered
by one byte; the first four codes have names, the rest are free for other token sources.
-/

namespace ExprLang

/-- The kind of a token. -/
inductive Kind where
  | number
  | string
  | semicolon
  | operator
  /-- The kind with code `4 + offset`, which no grammar rule uses. -/
  | unnamed (offset : Fin 252)
  deriving DecidableEq

namespace Kind

/-- The kind with a given code. -/
def ofCode (code : UInt8) : Kind :=
  if code = 0 then .number
  else if code = 1 then .string
  else if code = 2 then .semicolon
  else if code = 3 then .operator
  else .unnamed (Fin.ofNat 252 (code.toNat - 4))

/-- The name of a kind, or its code in brackets if it has none. -/
def name : Kind → Text
  | .number => utf8 "Number"
  | .string => utf8 "String"
  | .semicolon => utf8 "Semicolon"
  | .operator => utf8 "Operator"
  | .unnamed offset => utf8 "TokenType(" ++ Text.ofNat (4 + offset) ++ utf8 ")"

end Kind

/-- A token of a source text. -/
structure Token where
  kind : Kind
  value : Text
  loc : Location
  deriving DecidableEq

/-- The location just past a token. -/
def Token.stop (t : Token) : Location :=
  t.loc.after t.value

end ExprLang
