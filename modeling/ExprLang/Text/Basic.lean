/-!
# Texts

A text is the list of its bytes.  Source files, names, messages and everything that is printed
are texts; nothing requires their bytes to be well-formed UTF-8.  `utf8` turns fixed wording into a
text, `Text.ofNat` and `Text.ofInt` write decimal numerals.
-/

namespace ExprLang

/-- A text is the list of its bytes. -/
abbrev Text := List UInt8

namespace Text

/-- The UTF-8 bytes of a list of characters. -/
def ofChars (cs : List Char) : Text :=
  cs.flatMap String.utf8EncodeChar

@[simp] theorem ofChars_nil : ofChars [] = [] := rfl

@[simp] theorem ofChars_cons (c : Char) (cs : List Char) :
    ofChars (c :: cs) = String.utf8EncodeChar c ++ ofChars cs := by
  simp [ofChars]

@[simp] theorem ofChars_append (cs ds : List Char) :
    ofChars (cs ++ ds) = ofChars cs ++ ofChars ds := by
  simp [ofChars]

/-- The decimal numeral of a natural number, without leading zeros. -/
def ofNat (n : Nat) : Text :=
  ofChars (Nat.toDigits 10 n)

/-- The decimal numeral of an integer; a minus sign marks the negative ones. -/
def ofInt : Int → Text
  | .ofNat n => ofNat n
  | .negSucc n => ofChars ['-'] ++ ofNat (n + 1)

/-- The texts one after another, with a separator between neighbours. -/
def join (separator : Text) : List Text → Text
  | [] => []
  | [t] => t
  | t :: u :: ts => t ++ separator ++ join separator (u :: ts)

end Text

/-- The UTF-8 bytes of a string. -/
def utf8 (s : String) : Text :=
  Text.ofChars s.toList

end ExprLang
