import ExprLang.Text.Basic

/-!
# Bytes of ASCII

The classes of single bytes that lexemes and numerals are made of.
-/

namespace ExprLang

/-- A carriage return or a line feed. -/
def isLineEnd (b : UInt8) : Bool := b == 0x0A || b == 0x0D

/-- A decimal digit. -/
def isDigit (b : UInt8) : Bool := 0x30 ≤ b && b ≤ 0x39

/-- A double or a single quote. -/
def isQuote (b : UInt8) : Bool := b == 0x22 || b == 0x27

/-- A semicolon. -/
def isSemicolon (b : UInt8) : Bool := b == 0x3B

/-- One of `+`, `-`, `*` and `/`. -/
def isOperator (b : UInt8) : Bool := b == 0x2B || b == 0x2D || b == 0x2A || b == 0x2F

/-- A letter in lower case; any other byte as it is. -/
def lowerAscii (b : UInt8) : UInt8 :=
  if 0x41 ≤ b && b ≤ 0x5A then b + 0x20 else b

end ExprLang
