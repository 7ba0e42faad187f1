import ExprLang.Text.Piece
import ExprLang.Text.Quoted

/-!
# JSON

Values of JSON and how they are written.  Object members keep their order.

Two things are left open.  A spacing says where line breaks and blanks stand: `Spacing.compact` writes a
value on one line without blanks, `Spacing.indented` spreads it over lines with two blanks for each level.
An escaping says how each piece of a string is written; `Json.escape` is the one for documents, where
quotes, backslashes and controls are escaped, and so are the characters that a browser or a script could
take for markup or for the end of a line, while a stray byte is replaced.

Any value can be written, but a document must not be nested deeper than `Json.depthLimit`; whoever makes
one has to see to that.

Values are written in front of a given text, so that nothing is copied on the way out of a deep value.
`Json.writeOnto_eq_append` says that this is all there is to it, and `Json.write_array` and
`Json.write_object` give the texts of arrays and objects from those of their parts.
-/

namespace ExprLang

/-- A JSON value.  A number is given by its numeral. -/
inductive Json where
  | null
  | number (numeral : Text)
  | string (value : Text)
  | array (items : List Json)
  | object (members : List (Text × Json))

namespace Json

/-! ### Nesting -/

mutual

/-- How many arrays and objects stand within one another. -/
def nesting : Json → Nat
  | .null | .number _ | .string _ => 0
  | .array items => itemsNesting items + 1
  | .object members => membersNesting members + 1

/-- The nesting of the deepest item. -/
def itemsNesting : List Json → Nat
  | [] => 0
  | j :: js => max j.nesting (itemsNesting js)

/-- The nesting of the deepest member. -/
def membersNesting : List (Text × Json) → Nat
  | [] => 0
  | (_, j) :: ms => max j.nesting (membersNesting ms)

end

/-- The greatest nesting that a document may have. -/
def depthLimit : Nat := 10000

theorem itemsNesting_eq_foldr (js : List Json) :
    itemsNesting js = (js.map nesting).foldr max 0 := by
  induction js with
  | nil => rfl
  | cons j js ih => simp [itemsNesting, ih]

theorem membersNesting_eq_foldr (ms : List (Text × Json)) :
    membersNesting ms = (ms.map (·.2.nesting)).foldr max 0 := by
  induction ms with
  | nil => rfl
  | cons m ms ih => simp [membersNesting, ih]

/-- A value with its nesting, which need not be counted again when the value becomes a part of another. -/
structure Measured where
  value : Json
  nesting : Nat
  nesting_eq : nesting = value.nesting

namespace Measured

/-- Measures a value. -/
def of (j : Json) : Measured := ⟨j, j.nesting, rfl⟩

/-- There is one way to measure a value. -/
theorem eq_of_value (m : Measured) {j : Json} (h : m.value = j) : m = .of j := by
  obtain ⟨value, nesting, rfl⟩ := m
  subst h
  rfl

/-- An array of measured items. -/
def array (items : List Measured) : Measured where
  value := .array (items.map value)
  nesting := (items.map nesting).foldr max 0 + 1
  nesting_eq := by
    have hitems : items.map nesting = (items.map value).map Json.nesting := by
      simp [nesting_eq]
    rw [Json.nesting, itemsNesting_eq_foldr, hitems]

/-- An object of measured members. -/
def object (members : List (Text × Measured)) : Measured where
  value := .object (members.map fun (key, m) => (key, m.value))
  nesting := (members.map (·.2.nesting)).foldr max 0 + 1
  nesting_eq := by
    have hmembers : members.map (·.2.nesting) =
        (members.map fun (key, m) => (key, m.value)).map (·.2.nesting) := by
      simp [nesting_eq]
    rw [Json.nesting, membersNesting_eq_foldr, hmembers]

end Measured

/-! ### Strings -/

/-- How each piece of a string is written. -/
abbrev Escaping := Piece → List Char

/-- The characters that JSON escapes by a backslash and one letter. -/
def letterEscapes : List (Char × Char) :=
  [('"', '"'), ('\\', '\\'), ('\x08', 'b'), ('\x0c', 'f'), ('\n', 'n'), ('\r', 'r'), ('\t', 't')]

/-- The escape of a character by its code. -/
def codeEscape (c : Char) : List Char :=
  ['\\', 'u'] ++ hexDigits 4 c.toNat

/-- The escaping of documents. -/
def escape : Escaping
  | .stray _ => [replacementChar]
  | .char c =>
    match letterEscapes.lookup c with
    | some letter => ['\\', letter]
    | none =>
      if c.toNat < 0x20 || [0x3C, 0x3E, 0x26, 0x2028, 0x2029].contains c.toNat then codeEscape c
      else [c]

/-- A string between double quotes. -/
def quote (esc : Escaping) (t : Text) : Text :=
  Text.ofChars ('"' :: (pieces t).flatMap esc ++ ['"'])

/-! ### Spacing -/

/-- Where line breaks and blanks stand. -/
structure Spacing where
  /-- What stands before each part of an array or object, and before its closing bracket, at the level
  of what follows. -/
  line : Nat → Text
  /-- What stands between the colon and the value of a member. -/
  gap : Text

/-- No line breaks and no blanks. -/
def Spacing.compact : Spacing := ⟨fun _ => [], []⟩

/-- Each part on a line of its own, two blanks further in for each level. -/
def Spacing.indented : Spacing :=
  ⟨fun level => utf8 "\n" ++ (List.replicate level (utf8 "  ")).flatten, utf8 " "⟩

/-! ### Values -/

/-- The parts of an array or object between its brackets, each behind a line break and all but the first
behind a comma. -/
def enclose (s : Spacing) (level : Nat) (opening closing : Text) : List Text → Text
  | [] => opening ++ closing
  | part :: parts =>
    opening ++ s.line (level + 1) ++ part ++
      parts.flatMap (fun p => utf8 "," ++ s.line (level + 1) ++ p) ++ s.line level ++ closing

mutual

/-- A value at a given level in front of a text. -/
def writeOnto (s : Spacing) (esc : Escaping) (level : Nat) : Json → Text → Text
  | .null, rest => utf8 "null" ++ rest
  | .number numeral, rest => numeral ++ rest
  | .string value, rest => quote esc value ++ rest
  | .array [], rest => utf8 "[]" ++ rest
  | .array (j :: js), rest =>
    utf8 "[" ++ (s.line (level + 1) ++ writeOnto s esc (level + 1) j
      (itemsOnto s esc (level + 1) js (s.line level ++ (utf8 "]" ++ rest))))
  | .object [], rest => utf8 "\x7b\x7d" ++ rest
  | .object ((key, j) :: ms), rest =>
    utf8 "\x7b" ++ (s.line (level + 1) ++ (quote esc key ++ (utf8 ":" ++ (s.gap ++
      writeOnto s esc (level + 1) j
        (membersOnto s esc (level + 1) ms (s.line level ++ (utf8 "\x7d" ++ rest)))))))

/-- The items behind the first one in front of a text. -/
def itemsOnto (s : Spacing) (esc : Escaping) (level : Nat) : List Json → Text → Text
  | [], rest => rest
  | j :: js, rest =>
    utf8 "," ++ (s.line level ++ writeOnto s esc level j (itemsOnto s esc level js rest))

/-- The members behind the first one in front of a text. -/
def membersOnto (s : Spacing) (esc : Escaping) (level : Nat) : List (Text × Json) → Text → Text
  | [], rest => rest
  | (key, j) :: ms, rest =>
    utf8 "," ++ (s.line level ++ (quote esc key ++ (utf8 ":" ++ (s.gap ++
      writeOnto s esc level j (membersOnto s esc level ms rest)))))

end

/-- A value at a given level. -/
def write (s : Spacing) (esc : Escaping) (level : Nat) (j : Json) : Text :=
  writeOnto s esc level j []

/-- A member of an object at a given level. -/
def writeMember (s : Spacing) (esc : Escaping) (level : Nat) (m : Text × Json) : Text :=
  quote esc m.1 ++ utf8 ":" ++ s.gap ++ write s esc level m.2

section Write

variable (s : Spacing) (esc : Escaping)

mutual

/-- A value in front of a text is the value and then the text. -/
theorem writeOnto_eq_append (level : Nat) (j : Json) (rest : Text) :
    writeOnto s esc level j rest = write s esc level j ++ rest := by
  unfold write
  match j with
  | .null | .number _ | .string _ | .array [] | .object [] => simp [writeOnto]
  | .array (j :: js) =>
    simp only [writeOnto]
    rw [writeOnto_eq_append (level + 1) j, writeOnto_eq_append (level + 1) j,
      itemsOnto_eq_append (level + 1) js, itemsOnto_eq_append (level + 1) js]
    simp
  | .object ((key, j) :: ms) =>
    simp only [writeOnto]
    rw [writeOnto_eq_append (level + 1) j, writeOnto_eq_append (level + 1) j,
      membersOnto_eq_append (level + 1) ms, membersOnto_eq_append (level + 1) ms]
    simp

/-- Further items in front of a text. -/
theorem itemsOnto_eq_append (level : Nat) (js : List Json) (rest : Text) :
    itemsOnto s esc level js rest =
      js.flatMap (fun j => utf8 "," ++ s.line level ++ write s esc level j) ++ rest := by
  match js with
  | [] => simp [itemsOnto]
  | j :: js =>
    rw [itemsOnto, writeOnto_eq_append level j, itemsOnto_eq_append level js]
    simp

/-- Further members in front of a text. -/
theorem membersOnto_eq_append (level : Nat) (ms : List (Text × Json)) (rest : Text) :
    membersOnto s esc level ms rest =
      ms.flatMap (fun m => utf8 "," ++ s.line level ++ writeMember s esc level m) ++ rest := by
  match ms with
  | [] => simp [membersOnto]
  | (key, j) :: ms =>
    rw [membersOnto, writeOnto_eq_append level j, membersOnto_eq_append level ms]
    simp [writeMember]

end

/-- An array is written as its items between brackets. -/
theorem write_array (level : Nat) (items : List Json) :
    write s esc level (.array items) =
      enclose s level (utf8 "[") (utf8 "]") (items.map (write s esc (level + 1))) := by
  cases items with
  | nil => rfl
  | cons j js =>
    rw [write, writeOnto, writeOnto_eq_append, itemsOnto_eq_append]
    simp [enclose, List.flatMap_map]

/-- An object is written as its members between brackets. -/
theorem write_object (level : Nat) (members : List (Text × Json)) :
    write s esc level (.object members) =
      enclose s level (utf8 "\x7b") (utf8 "\x7d")
        (members.map (writeMember s esc (level + 1))) := by
  cases members with
  | nil => rfl
  | cons m ms =>
    rw [write, writeOnto, writeOnto_eq_append, membersOnto_eq_append]
    simp [enclose, writeMember, List.flatMap_map]

end Write

end Json

end ExprLang
