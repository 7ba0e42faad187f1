import ExprLang.Proofs.Json.Document

/-!
# Reading written values

What `Json.write` writes for a value is read back as what the value says (`Json.document`), whatever
the spacing, if it breaks lines with blanks only and if the numbers are numerals of JSON.  The text is
cut into the lexemes of the value (`Json.lexemes?_writeOnto`), and these are put together to its
document (`Json.value?_lexemesOnto`); both are inductions along the value in front of a rest.
`Json.read?_writeOnto` joins them.  What is written is encoded in UTF-8 (`Json.isUtf8_writeOnto`).
-/

namespace ExprLang

namespace Json

open Document

/-! ## Values -/

/-- Lines are broken and gaps are left with blanks only. -/
structure Spacing.IsBlank (s : Spacing) : Prop where
  line : ∀ level, ∀ b ∈ s.line level, isSpace b
  gap : ∀ b ∈ s.gap, isSpace b

mutual

/-- What a value says. -/
def document : Json → Document
  | .null => .null
  | .number numeral => .number numeral
  | .string value => .string (scalars value)
  | .array items => .array (documents items)
  | .object members => .object (memberDocuments members)

/-- What each of some values says. -/
def documents : List Json → List Document
  | [] => []
  | j :: js => j.document :: documents js

/-- The names of some members and what their values say. -/
def memberDocuments : List (Text × Json) → List (List Char × Document)
  | [] => []
  | (key, j) :: ms => (scalars key, j.document) :: memberDocuments ms

end

mutual

/-- The numerals of the numbers in a value. -/
def numerals : Json → List Text
  | .null | .string _ => []
  | .number numeral => [numeral]
  | .array items => itemNumerals items
  | .object members => memberNumerals members

/-- The numerals in some values. -/
def itemNumerals : List Json → List Text
  | [] => []
  | j :: js => j.numerals ++ itemNumerals js

/-- The numerals in the values of some members. -/
def memberNumerals : List (Text × Json) → List Text
  | [] => []
  | (_, j) :: ms => j.numerals ++ memberNumerals ms

end

mutual

/-- The lexemes of a value in front of others. -/
def lexemesOnto : Json → List Document.Lexeme → List Document.Lexeme
  | .null, ls => .scalar .null :: ls
  | .number numeral, ls => .scalar (.number numeral) :: ls
  | .string value, ls => .scalar (.string (scalars value)) :: ls
  | .array [], ls => .openArray :: .closeArray :: ls
  | .array (j :: js), ls => .openArray :: lexemesOnto j (itemLexemesOnto js (.closeArray :: ls))
  | .object [], ls => .openObject :: .closeObject :: ls
  | .object ((key, j) :: ms), ls =>
    .openObject :: .scalar (.string (scalars key)) :: .colon ::
      lexemesOnto j (memberLexemesOnto ms (.closeObject :: ls))

/-- The lexemes of the items behind the first one in front of others. -/
def itemLexemesOnto : List Json → List Document.Lexeme → List Document.Lexeme
  | [], ls => ls
  | j :: js, ls => .comma :: lexemesOnto j (itemLexemesOnto js ls)

/-- The lexemes of the members behind the first one in front of others. -/
def memberLexemesOnto : List (Text × Json) → List Document.Lexeme → List Document.Lexeme
  | [], ls => ls
  | (key, j) :: ms, ls =>
    .comma :: .scalar (.string (scalars key)) :: .colon :: lexemesOnto j (memberLexemesOnto ms ls)

end

/-! ### Putting lexemes together -/

/-- A value does not begin with a closing bracket. -/
lemma head?_lexemesOnto_ne (j : Json) (ls : List Document.Lexeme) :
    (j.lexemesOnto ls).head? ≠ some .closeArray := by
  match j with
  | .null | .number _ | .string _ | .array [] | .array (_ :: _) | .object []
  | .object ((_, _) :: _) => simp [lexemesOnto]

/-- Unless it is closed at once, an array goes on with a value. -/
lemma value?_openArray (stack : List Frame) {ls : List Document.Lexeme}
    (h : ls.head? ≠ some .closeArray) :
    value? stack (.openArray :: ls) = value? (.array [] :: stack) ls := by
  cases ls with
  | nil => simp [value?]
  | cons l ls => cases l <;> simp_all [value?]

mutual

/-- The lexemes of a value are put together to what it says. -/
lemma value?_lexemesOnto (stack : List Frame) (j : Json) (ls : List Document.Lexeme) :
    value? stack (j.lexemesOnto ls) = resume? stack j.document ls := by
  match j with
  | .null | .number _ | .string _ | .array [] | .object [] =>
    simp [lexemesOnto, value?, document, documents, memberDocuments]
  | .array (j :: js) =>
    rw [lexemesOnto, value?_openArray stack (head?_lexemesOnto_ne j _),
      value?_lexemesOnto _ j, resume?_itemLexemesOnto stack [] j.document js, document, documents]
    rfl
  | .object ((key, j) :: ms) =>
    rw [lexemesOnto, value?, value?_lexemesOnto _ j,
      resume?_memberLexemesOnto stack [] (scalars key) j.document ms, document, memberDocuments]
    rfl

/-- Behind an item, the lexemes of the others complete the array. -/
lemma resume?_itemLexemesOnto (stack : List Frame) (items : List Document) (d : Document)
    (js : List Json) (ls : List Document.Lexeme) :
    resume? (.array items :: stack) d (itemLexemesOnto js (.closeArray :: ls)) =
      resume? stack (.array (items ++ d :: documents js)) ls := by
  match js with
  | [] => simp [itemLexemesOnto, resume?, documents]
  | j :: js =>
    rw [itemLexemesOnto, resume?, value?_lexemesOnto _ j, resume?_itemLexemesOnto stack _ _ js,
      documents, List.append_assoc]
    rfl

/-- Behind a member, the lexemes of the others complete the object. -/
lemma resume?_memberLexemesOnto (stack : List Frame) (members : List (List Char × Document))
    (key : List Char) (d : Document) (ms : List (Text × Json)) (ls : List Document.Lexeme) :
    resume? (.object members key :: stack) d (memberLexemesOnto ms (.closeObject :: ls)) =
      resume? stack (.object (members ++ (key, d) :: memberDocuments ms)) ls := by
  match ms with
  | [] => simp [memberLexemesOnto, resume?, memberDocuments]
  | (key', j) :: ms =>
    rw [memberLexemesOnto, resume?, value?_lexemesOnto _ j, resume?_memberLexemesOnto stack _ _ _ ms,
      memberDocuments, List.append_assoc]
    rfl

end

/-! ### Cutting a written value into lexemes -/

/-- Behind blanks and a byte of no word a word has ended. -/
lemma endsWord_append {t : Text} (ht : ∀ b ∈ t, isSpace b) {b : UInt8}
    (hb : isWordByte b = false) (r : Text) : EndsWord (t ++ b :: r) := by
  cases t with
  | nil =>
    intro c hc
    obtain rfl : b = c := Option.some.inj hc
    exact hb
  | cons c t =>
    intro c' hc'
    obtain rfl : c = c' := Option.some.inj hc'
    exact isWordByte_of_isSpace (ht c (by simp))

/-- Further items begin with a comma, or what is behind them begins. -/
lemma endsWord_itemsOnto (s : Spacing) (level : ℕ) (js : List Json) {r : Text} (hr : EndsWord r) :
    EndsWord (itemsOnto s escape level js r) := by
  cases js with
  | nil => exact hr
  | cons j js => exact endsWord_append (t := []) (by simp) rfl _

/-- Further members begin with a comma, or what is behind them begins. -/
lemma endsWord_membersOnto (s : Spacing) (level : ℕ) (ms : List (Text × Json)) {r : Text}
    (hr : EndsWord r) : EndsWord (membersOnto s escape level ms r) := by
  cases ms with
  | nil => exact hr
  | cons m ms => exact endsWord_append (t := []) (by simp) rfl _

section Write

variable {s : Spacing} (hs : s.IsBlank)
include hs

omit hs in
/-- Punctuation as it is written. -/
lemma lexemes?_symbol (u : String) {b : UInt8} {l : Document.Lexeme} (hu : utf8 u = [b])
    (hb : isSpace b = false) (hl : punctuation? b = some l) (r : Text) :
    lexemes? (utf8 u ++ r) = (lexemes? r).map (l :: ·) := by
  rw [hu]
  exact lexemes?_punctuation hb hl r

/-- Line breaks are passed over. -/
lemma lexemes?_line (level : ℕ) (r : Text) : lexemes? (s.line level ++ r) = lexemes? r :=
  lexemes?_append_of_isSpace (hs.line level) r

/-- The name of a member with its colon and gap. -/
lemma lexemes?_key (key r : Text) :
    lexemes? (quote escape key ++ (utf8 ":" ++ (s.gap ++ r))) =
      (lexemes? r).map (.scalar (.string (scalars key)) :: .colon :: ·) := by
  rw [lexemes?_quote, lexemes?_symbol ":" rfl rfl rfl, lexemes?_append_of_isSpace hs.gap,
    Option.map_map]
  rfl

mutual

/-- The text of a value in front of a rest is cut into the lexemes of the value. -/
lemma lexemes?_writeOnto (level : ℕ) (j : Json) (hj : ∀ t ∈ j.numerals, isNumeral t) {r : Text}
    (hr : EndsWord r) :
    lexemes? (writeOnto s escape level j r) = (lexemes? r).map j.lexemesOnto := by
  match j with
  | .null => exact lexemes?_word (List.all_eq_true.1 rfl) hr (if_pos rfl)
  | .number numeral =>
    have hnumeral := hj numeral (by simp [numerals])
    exact lexemes?_word (isWordByte_of_isNumeral hnumeral) hr (ofWord?_of_isNumeral hnumeral)
  | .string value => exact lexemes?_quote value r
  | .array [] =>
    have hbrackets : utf8 "[]" ++ r = utf8 "[" ++ (utf8 "]" ++ r) := rfl
    rw [writeOnto, hbrackets, lexemes?_symbol "[" rfl rfl rfl, lexemes?_symbol "]" rfl rfl rfl,
      Option.map_map]
    rfl
  | .array (j :: js) =>
    rw [numerals, itemNumerals, List.forall_mem_append] at hj
    have hends : EndsWord (s.line level ++ (utf8 "]" ++ r)) := endsWord_append (hs.line level) rfl r
    have hitems := endsWord_itemsOnto s (level + 1) js hends
    rw [writeOnto, lexemes?_symbol "[" rfl rfl rfl, lexemes?_line hs,
      lexemes?_writeOnto (level + 1) j hj.1 hitems, lexemes?_itemsOnto (level + 1) js hj.2 hends,
      lexemes?_line hs, lexemes?_symbol "]" rfl rfl rfl]
    simp only [Option.map_map]
    rfl
  | .object [] =>
    have hbrackets : utf8 "\x7b\x7d" ++ r = utf8 "\x7b" ++ (utf8 "\x7d" ++ r) := rfl
    rw [writeOnto, hbrackets, lexemes?_symbol "\x7b" rfl rfl rfl,
      lexemes?_symbol "\x7d" rfl rfl rfl, Option.map_map]
    rfl
  | .object ((key, j) :: ms) =>
    rw [numerals, memberNumerals, List.forall_mem_append] at hj
    have hends : EndsWord (s.line level ++ (utf8 "\x7d" ++ r)) :=
      endsWord_append (hs.line level) rfl r
    have hmembers := endsWord_membersOnto s (level + 1) ms hends
    rw [writeOnto, lexemes?_symbol "\x7b" rfl rfl rfl, lexemes?_line hs, lexemes?_key hs,
      lexemes?_writeOnto (level + 1) j hj.1 hmembers, lexemes?_membersOnto (level + 1) ms hj.2 hends,
      lexemes?_line hs, lexemes?_symbol "\x7d" rfl rfl rfl]
    simp only [Option.map_map]
    rfl

/-- Further items in front of a rest are cut into their lexemes. -/
lemma lexemes?_itemsOnto (level : ℕ) (js : List Json) (hjs : ∀ t ∈ itemNumerals js, isNumeral t)
    {r : Text} (hr : EndsWord r) :
    lexemes? (itemsOnto s escape level js r) = (lexemes? r).map (itemLexemesOnto js) := by
  match js with
  | [] => exact Option.map_id'.symm
  | j :: js =>
    rw [itemNumerals, List.forall_mem_append] at hjs
    rw [itemsOnto, lexemes?_symbol "," rfl rfl rfl, lexemes?_line hs,
      lexemes?_writeOnto level j hjs.1 (endsWord_itemsOnto s level js hr),
      lexemes?_itemsOnto level js hjs.2 hr]
    simp only [Option.map_map]
    rfl

/-- Further members in front of a rest are cut into their lexemes. -/
lemma lexemes?_membersOnto (level : ℕ) (ms : List (Text × Json))
    (hms : ∀ t ∈ memberNumerals ms, isNumeral t) {r : Text} (hr : EndsWord r) :
    lexemes? (membersOnto s escape level ms r) = (lexemes? r).map (memberLexemesOnto ms) := by
  match ms with
  | [] => exact Option.map_id'.symm
  | (key, j) :: ms =>
    rw [memberNumerals, List.forall_mem_append] at hms
    rw [membersOnto, lexemes?_symbol "," rfl rfl rfl, lexemes?_line hs, lexemes?_key hs,
      lexemes?_writeOnto level j hms.1 (endsWord_membersOnto s level ms hr),
      lexemes?_membersOnto level ms hms.2 hr]
    simp only [Option.map_map]
    rfl

end

/-- What is written for a value is read back, and nothing but blanks may stand behind it. -/
lemma read?_writeOnto (level : ℕ) (j : Json) (hj : ∀ t ∈ j.numerals, isNumeral t) {r : Text}
    (hr : ∀ b ∈ r, isSpace b) :
    Document.read? (writeOnto s escape level j r) = some j.document := by
  have hends : EndsWord r := fun b hb => isWordByte_of_isSpace (hr b (List.mem_of_mem_head? hb))
  have hnil : lexemes? r = some [] := by
    rw [← List.append_nil r, lexemes?_append_of_isSpace hr, lexemes?]
  rw [Document.read?, lexemes?_writeOnto hs level j hj hends, hnil, Option.map_some,
    Option.bind_some, value?_lexemesOnto, resume?]

end Write

/-! ### Encoding -/

/-- Blanks are encoded. -/
lemma isUtf8_of_isSpace {t : Text} (h : ∀ b ∈ t, isSpace b) : IsUtf8 t := by
  induction t with
  | nil => exact isUtf8_ofChars []
  | cons b t ih =>
    have hb : IsUtf8 [b] := by
      have hspace := h b (by simp)
      simp only [isSpace, Bool.or_eq_true, beq_iff_eq] at hspace
      rcases hspace with ((rfl | rfl) | rfl) | rfl
      · exact isUtf8_utf8 " "
      · exact isUtf8_utf8 "\t"
      · exact isUtf8_utf8 "\n"
      · exact isUtf8_utf8 "\r"
    exact hb.append (ih fun c hc => h c (by simp [hc]))

section Encoding

variable {s : Spacing} (hs : s.IsBlank)
include hs

/-- A line break keeps what is behind it encoded. -/
lemma isUtf8_line (level : ℕ) {r : Text} (hr : IsUtf8 r) : IsUtf8 (s.line level ++ r) :=
  (isUtf8_of_isSpace (hs.line level)).append hr

/-- The name of a member with its colon and gap keeps what is behind it encoded. -/
lemma isUtf8_key (key : Text) {r : Text} (hr : IsUtf8 r) :
    IsUtf8 (quote escape key ++ (utf8 ":" ++ (s.gap ++ r))) :=
  (isUtf8_ofChars _).append ((isUtf8_utf8 ":").append ((isUtf8_of_isSpace hs.gap).append hr))

mutual

/-- What is written for a value is encoded in UTF-8. -/
lemma isUtf8_writeOnto (level : ℕ) (j : Json) (hj : ∀ t ∈ j.numerals, IsUtf8 t) {r : Text}
    (hr : IsUtf8 r) : IsUtf8 (writeOnto s escape level j r) := by
  match j with
  | .null | .array [] | .object [] => exact (isUtf8_utf8 _).append hr
  | .number numeral => exact (hj numeral (by simp [numerals])).append hr
  | .string value => exact (isUtf8_ofChars _).append hr
  | .array (j :: js) =>
    rw [numerals, itemNumerals, List.forall_mem_append] at hj
    have hend := isUtf8_line hs level ((isUtf8_utf8 "]").append hr)
    have hitems := isUtf8_itemsOnto (level + 1) js hj.2 hend
    have hfirst := isUtf8_writeOnto (level + 1) j hj.1 hitems
    rw [writeOnto]
    exact (isUtf8_utf8 "[").append (isUtf8_line hs (level + 1) hfirst)
  | .object ((key, j) :: ms) =>
    rw [numerals, memberNumerals, List.forall_mem_append] at hj
    have hend := isUtf8_line hs level ((isUtf8_utf8 "\x7d").append hr)
    have hmembers := isUtf8_membersOnto (level + 1) ms hj.2 hend
    have hfirst := isUtf8_writeOnto (level + 1) j hj.1 hmembers
    rw [writeOnto]
    exact (isUtf8_utf8 "\x7b").append (isUtf8_line hs (level + 1) (isUtf8_key hs key hfirst))

/-- Further items are encoded in UTF-8. -/
lemma isUtf8_itemsOnto (level : ℕ) (js : List Json) (hjs : ∀ t ∈ itemNumerals js, IsUtf8 t)
    {r : Text} (hr : IsUtf8 r) : IsUtf8 (itemsOnto s escape level js r) := by
  match js with
  | [] => exact hr
  | j :: js =>
    rw [itemNumerals, List.forall_mem_append] at hjs
    have hfirst := isUtf8_writeOnto level j hjs.1 (isUtf8_itemsOnto level js hjs.2 hr)
    rw [itemsOnto]
    exact (isUtf8_utf8 ",").append (isUtf8_line hs level hfirst)

/-- Further members are encoded in UTF-8. -/
lemma isUtf8_membersOnto (level : ℕ) (ms : List (Text × Json))
    (hms : ∀ t ∈ memberNumerals ms, IsUtf8 t) {r : Text} (hr : IsUtf8 r) :
    IsUtf8 (membersOnto s escape level ms r) := by
  match ms with
  | [] => exact hr
  | (key, j) :: ms =>
    rw [memberNumerals, List.forall_mem_append] at hms
    have hfirst := isUtf8_writeOnto level j hms.1 (isUtf8_membersOnto level ms hms.2 hr)
    rw [membersOnto]
    exact (isUtf8_utf8 ",").append (isUtf8_line hs level (isUtf8_key hs key hfirst))

end

end Encoding

end Json

end ExprLang
