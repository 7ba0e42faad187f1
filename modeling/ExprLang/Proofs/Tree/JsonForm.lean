import ExprLang.Format
import ExprLang.Proofs.Json.Written
import ExprLang.Proofs.Number.Brevity
import ExprLang.Proofs.Parse.Depth

/-!
# The JSON form of programs

The document of a node says what its JSON form has to say: an object with the name of the kind of
the node and then its own fields in order, where texts are read as characters with a replacement
character for each stray byte, numbers are given by a shortest numeral, and what is missing, infinite
or not a number is null.

The JSON text of a node on one line is read as exactly this document, and so is what the JSON format
prints for a source, unless the JSON form is nested too deeply: then there is no text
(`compactJson_readsBack`).
-/

namespace ExprLang

/-! ## Documents of nodes -/

/-- The document of a node, from the name of its kind and its fields. -/
def Document.node (typeName : String) (fields : List (String × Document)) : Document :=
  .object ((("type", .string typeName.toList) :: fields).map fun (name, d) => (name.toList, d))

/-- The document of a number. -/
def Binary64.document : Binary64 → Document
  | .nan | .infinite _ => .null
  | .finite negative m => .number (Json.numberLayout.text negative m)

/-- The document of an expression. -/
def Expr.document : Expr → Document
  | .missing => .null
  | .number v => .node "NumericLiteral" [("value", v.document)]
  | .text v => .node "StringLiteral" [("value", .string (scalars v))]
  | .binary op l r =>
    .node "BinaryExpression"
      [("operator", .string (scalars op)), ("left", l.document), ("right", r.document)]

/-- The document of a statement. -/
def Stmt.document : Stmt → Document
  | .missing => .null
  | .expression e => .node "ExpressionStatement" [("body", e.document)]

/-- The document of a program. -/
def Program.document (p : Program) : Document :=
  .node "Program" [("body", .array (p.body.map Stmt.document))]

/-- The document of a node. -/
def Node.document : Node → Document
  | .program p => p.document
  | .statement s => s.document
  | .expression e => e.document

/-! ## What the JSON form says -/

/-- Characters are read back from their encoding. -/
lemma scalars_ofChars (cs : List Char) : scalars (Text.ofChars cs) = cs := by
  rw [scalars, pieces_ofChars, List.map_map]
  exact List.map_id cs

@[simp] lemma scalars_utf8 (s : String) : scalars (utf8 s) = s.toList := scalars_ofChars s.toList

namespace Json

/-- The documents of listed values. -/
lemma documents_map {α : Type} (f : α → Json) (xs : List α) :
    documents (xs.map f) = xs.map fun x => (f x).document := by
  induction xs with
  | nil => rw [List.map_nil, List.map_nil, documents]
  | cons x xs ih => rw [List.map_cons, List.map_cons, documents, ih]

/-- A member of a listed value's numerals is one of some value. -/
lemma mem_itemNumerals_map {α : Type} {f : α → Json} {xs : List α} {t : Text}
    (h : t ∈ itemNumerals (xs.map f)) : ∃ x ∈ xs, t ∈ (f x).numerals := by
  induction xs with
  | nil => simp [itemNumerals] at h
  | cons x xs ih =>
    rw [List.map_cons, itemNumerals, List.mem_append] at h
    rcases h with h | h
    · exact ⟨x, by simp, h⟩
    · obtain ⟨y, hy, ht⟩ := ih h
      exact ⟨y, by simp [hy], ht⟩

end Json

lemma Binary64.document_toJson (v : Binary64) : v.toJson.document = v.document := by
  cases v <;> simp [toJson, Json.document, document]

/-- The JSON form of an expression says its document. -/
lemma Expr.document_toJson (e : Expr) : e.toJson.document = e.document := by
  induction e with
  | missing => simp [toJson, Json.document, document]
  | number v =>
    simp [toJson, Json.node, Json.document, Json.memberDocuments, document, Document.node,
      v.document_toJson]
  | text v =>
    simp [toJson, Json.node, Json.document, Json.memberDocuments, document, Document.node]
  | binary op l r ihl ihr =>
    simp [toJson, Json.node, Json.document, Json.memberDocuments, document, Document.node, ihl, ihr]

/-- The JSON form of a statement says its document. -/
lemma Stmt.document_toJson (s : Stmt) : s.toJson.document = s.document := by
  cases s with
  | missing => simp [toJson, Json.document, document]
  | expression e =>
    simp [toJson, Json.node, Json.document, Json.memberDocuments, document, Document.node,
      e.document_toJson]

/-- The JSON form of a program says its document. -/
lemma Program.document_toJson (p : Program) : p.toJson.document = p.document := by
  simp [toJson, Json.node, Json.document, Json.memberDocuments, document, Document.node,
    Json.documents_map, Stmt.document_toJson]

/-- The JSON form of a node says its document. -/
lemma Node.document_toJson (n : Node) : n.toJson.document = n.document := by
  cases n with
  | program p => exact p.document_toJson
  | statement s => exact s.document_toJson
  | expression e => exact e.document_toJson

/-! ## The numerals of the JSON form -/

/-- The texts that finite numbers have in JSON. -/
def Json.IsNumberText (t : Text) : Prop := ∃ negative m, t = numberLayout.text negative m

lemma Json.IsNumberText.isNumeral {t : Text} (h : IsNumberText t) : Document.isNumeral t := by
  obtain ⟨negative, m, rfl⟩ := h
  exact Document.isNumeral_text numberLayout negative m

lemma Json.IsNumberText.isUtf8 {t : Text} (h : IsNumberText t) : IsUtf8 t := by
  obtain ⟨negative, m, rfl⟩ := h
  exact isUtf8_ofChars _

lemma Binary64.isNumberText_of_mem {v : Binary64} {t : Text} (h : t ∈ v.toJson.numerals) :
    Json.IsNumberText t := by
  cases v with
  | nan | infinite _ => simp [toJson, Json.numerals] at h
  | finite negative m => exact ⟨negative, m, List.mem_singleton.1 h⟩

/-- The numerals in the JSON form of an expression are texts of its numbers. -/
lemma Expr.isNumberText_of_mem {e : Expr} {t : Text} (h : t ∈ e.toJson.numerals) :
    Json.IsNumberText t := by
  induction e with
  | missing => simp [toJson, Json.numerals] at h
  | number v =>
    refine v.isNumberText_of_mem ?_
    simpa [toJson, Json.node, Json.numerals, Json.memberNumerals] using h
  | text v => simp [toJson, Json.node, Json.numerals, Json.memberNumerals] at h
  | binary op l r ihl ihr =>
    have hmem : t ∈ l.toJson.numerals ∨ t ∈ r.toJson.numerals := by
      simpa [toJson, Json.node, Json.numerals, Json.memberNumerals] using h
    exact hmem.elim ihl ihr

/-- The numerals in the JSON form of a statement are texts of its numbers. -/
lemma Stmt.isNumberText_of_mem {s : Stmt} {t : Text} (h : t ∈ s.toJson.numerals) :
    Json.IsNumberText t := by
  cases s with
  | missing => simp [toJson, Json.numerals] at h
  | expression e =>
    refine e.isNumberText_of_mem ?_
    simpa [toJson, Json.node, Json.numerals, Json.memberNumerals] using h

/-- The numerals in the JSON form of a node are texts of its numbers. -/
lemma Node.isNumberText_of_mem {n : Node} {t : Text} (h : t ∈ n.toJson.numerals) :
    Json.IsNumberText t := by
  cases n with
  | program p =>
    have hmem : t ∈ Json.itemNumerals (p.body.map Stmt.toJson) := by
      simpa [toJson, Program.toJson, Json.node, Json.numerals, Json.memberNumerals] using h
    obtain ⟨s, -, hs⟩ := Json.mem_itemNumerals_map hmem
    exact s.isNumberText_of_mem hs
  | statement s => exact s.isNumberText_of_mem h
  | expression e => exact e.isNumberText_of_mem h

/-! ## Reading the JSON form -/

lemma Json.Spacing.isBlank_compact : Spacing.compact.IsBlank :=
  ⟨fun _ _ h => absurd h List.not_mem_nil, fun _ h => absurd h List.not_mem_nil⟩

/-- A line feed is a blank. -/
lemma Json.isSpace_of_mem_lineFeed : ∀ b ∈ utf8 "\n", Document.isSpace b :=
  List.all_eq_true.1 rfl

lemma Json.Spacing.isBlank_indented : Spacing.indented.IsBlank := by
  refine ⟨fun level b hb => ?_, List.all_eq_true.1 rfl⟩
  rcases List.mem_append.1 hb with hb | hb
  · exact isSpace_of_mem_lineFeed b hb
  · obtain ⟨blanks, hblanks, hb⟩ := List.mem_flatten.1 hb
    obtain rfl := List.eq_of_mem_replicate hblanks
    have hall : (utf8 "  ").all Document.isSpace := rfl
    exact List.all_eq_true.1 hall b hb

/-- In every spacing of blanks a node is read back from its JSON form. -/
lemma Node.read?_writeOnto (n : Node) {s : Json.Spacing} (hs : s.IsBlank) {r : Text}
    (hr : ∀ b ∈ r, Document.isSpace b) :
    Document.read? (Json.writeOnto s Json.escape 0 n.toJson r) = some n.document := by
  rw [Json.read?_writeOnto hs 0 n.toJson (fun _ ht => (isNumberText_of_mem ht).isNumeral) hr,
    n.document_toJson]

/-- Let the JSON form of a node have at most `Json.depthLimit` arrays and objects within one another.
Then its JSON text is encoded in UTF-8 and read as one value, the document of the node, in which every
number is a shortest numeral, and what the JSON format prints for a source is read as the document of
its program.  A node that is nested deeper is refused: it has no JSON text, and the JSON format has the
same error for its source. -/
theorem compactJson_readsBack (n : Node) (outline : Program → Text) :
    (n.toJson.nesting ≤ Json.depthLimit →
      ∃ t, n.compactJson = .ok t ∧ IsUtf8 t ∧ Document.read? t = some n.document) ∧
    (Json.depthLimit < n.toJson.nesting →
      ∃ e, n.compactJson = .error e ∧ e.path.head? = n.typeName?) ∧
    (∀ negative m, IsShortestNumeral (Json.numberLayout.text negative m) negative m) ∧
    ∀ name src p, parse src = .ok p →
      (p.toJson.nesting ≤ Json.depthLimit →
        ∃ out, (Format.json.render outline name src).1 = .ok out ∧
          Document.read? out = some (Node.program p).document) ∧
      (Json.depthLimit < p.toJson.nesting →
        ∃ e, (Node.program p).compactJson = .error e ∧
          (Format.json.render outline name src).1 = .error (.unencodable name e)) := by
  refine ⟨?_, Node.exists_compactJson_eq_error, Json.numberLayout.isShortestNumeral_text, ?_⟩
  · intro hlimit
    refine ⟨_, Node.compactJson_of_le hlimit, ?_, ?_⟩
    · exact Json.isUtf8_writeOnto Json.Spacing.isBlank_compact 0 n.toJson
        (fun _ ht => (Node.isNumberText_of_mem ht).isUtf8) (isUtf8_ofChars [])
    · exact n.read?_writeOnto Json.Spacing.isBlank_compact (by simp)
  · intro name src p hparse
    rw [Format.render_of_parse (by decide) outline name hparse, Format.showProgram]
    constructor
    · intro hlimit
      refine ⟨p.toJson.write .indented Json.escape 0 ++ utf8 "\n", ?_, ?_⟩
      · rw [Program.indentedJson_of_le hlimit]
        rfl
      · rw [← Json.writeOnto_eq_append]
        exact (Node.program p).read?_writeOnto Json.Spacing.isBlank_indented
          Json.isSpace_of_mem_lineFeed
    · intro hlimit
      obtain ⟨e, he⟩ := p.isPlaced_encode.refused (by omega)
      refine ⟨e, ?_, ?_⟩
      · rw [Node.compactJson, Node.encode, he]
        rfl
      · rw [Program.indentedJson, he]
        rfl

/-- The program of a one and 9997 more ones that are added to it has no JSON text, on one line or over
lines, so nothing that is read as its document. -/
theorem compactJson_deepSum :
    parse (onesText 9997) = .ok (.onesSum 9997) ∧
      (∃ e, (Node.program (.onesSum 9997)).compactJson = .error e ∧
        e.message = utf8 "json: error calling MarshalJSON for type *exprc.Program: " ++
          utf8 "json: error calling MarshalJSON for type *exprc.ExpressionStatement: " ++
          utf8 "exceeded max depth") ∧
      (¬ ∃ t, (Node.program (.onesSum 9997)).compactJson = .ok t ∧ IsUtf8 t ∧
        Document.read? t = some (Node.program (.onesSum 9997)).document) ∧
      ∀ outline name, ¬ ∃ out, (Format.json.render outline name (onesText 9997)).1 = .ok out ∧
        Document.read? out = some (Node.program (.onesSum 9997)).document := by
  have hencode := Program.encode_onesSum (n := 9997) rfl
  have hcompact : (Node.program (.onesSum 9997)).compactJson =
      .error ⟨[utf8 "Program", utf8 "ExpressionStatement"]⟩ := by
    rw [Node.compactJson, Node.encode, hencode]
    rfl
  refine ⟨parse_onesText 9997, ⟨_, hcompact, by decide +kernel⟩, ?_, ?_⟩
  · rintro ⟨t, ht, -⟩
    rw [hcompact] at ht
    cases ht
  · rintro outline name ⟨out, hout, -⟩
    rw [Format.render_of_parse (by decide) outline name (parse_onesText 9997), Format.showProgram,
      Program.indentedJson, hencode] at hout
    cases hout

/-- An expression with a part missing, a number that is not finite, markup for an operator, and a text
that holds a quote, a backslash, a bracket, a line separator and a stray byte. -/
def brokenNode : Node :=
  .expression (.binary (utf8 "<") (.number (.infinite true))
    (.binary (utf8 "&") .missing (.text (utf8 "\"\\],\u2028" ++ [0xFF]))))

/-- A text over two lines that looks like the end of an object, less a number of many digits. -/
def bracketedSource : Text := utf8 "'\"\x7d],\n  ' - 100000000000000000000000;"

/-- The program of `bracketedSource`; the number is the one next to `10 ^ 23`. -/
def bracketedProgram : Program :=
  ⟨[.expression (.binary (utf8 "-") (.text (utf8 "\"\x7d],\n  "))
    (.number (.finite false ⟨5960464477539062, 1098, by decide⟩)))]⟩

/-- What looks like JSON within a text stays within it, and what JSON cannot say is null or
replaced. -/
theorem compactJson_readsBack_brokenNode :
    brokenNode.toJson.nesting ≤ Json.depthLimit ∧
      (∃ t, brokenNode.compactJson = .ok t ∧ IsUtf8 t ∧
        Document.read? t = some (.node "BinaryExpression"
          [("operator", .string ['<']),
            ("left", .node "NumericLiteral" [("value", .null)]),
            ("right", .node "BinaryExpression"
              [("operator", .string ['&']),
                ("left", .null),
                ("right", .node "StringLiteral"
                  [("value", .string ['"', '\\', ']', ',', '\u2028', '\uFFFD'])])])])) ∧
      parse bracketedSource = .ok bracketedProgram ∧
      bracketedProgram.toJson.nesting ≤ Json.depthLimit ∧
      ∃ out, (Format.json.render (fun _ => []) (utf8 "-") bracketedSource).1 = .ok out ∧
        Document.read? out = some (.node "Program" [("body", .array [.node "ExpressionStatement"
          [("body", .node "BinaryExpression"
            [("operator", .string ['-']),
              ("left", .node "StringLiteral"
                [("value", .string ['"', '\x7d', ']', ',', '\n', ' ', ' '])]),
              ("right", .node "NumericLiteral" [("value", .number (utf8 "1e+23"))])])]])]) := by
  have hparse : parse bracketedSource = .ok bracketedProgram := by decide +kernel
  have hlimit : brokenNode.toJson.nesting ≤ Json.depthLimit := by decide +kernel
  have hlimit' : bracketedProgram.toJson.nesting ≤ Json.depthLimit := by decide +kernel
  obtain ⟨hcompact, -, -, hformat⟩ := compactJson_readsBack brokenNode fun _ => []
  obtain ⟨t, ht, hutf8, hread⟩ := hcompact hlimit
  obtain ⟨out, hrender, hout⟩ :=
    (hformat (utf8 "-") bracketedSource bracketedProgram hparse).1 hlimit'
  refine ⟨hlimit, ⟨t, ht, hutf8, hread.trans ?_⟩, hparse, hlimit', out, hrender, hout.trans ?_⟩
  · have htext : scalars (utf8 "\"\\],\u2028" ++ [0xFF]) =
        ['"', '\\', ']', ',', '\u2028', '\uFFFD'] := by decide +kernel
    simp [brokenNode, Node.document, Expr.document, Binary64.document, htext]
  · have hnumber : Json.numberLayout.text false ⟨5960464477539062, 1098, by decide⟩ =
        utf8 "1e+23" := by decide +kernel
    simp [bracketedProgram, Node.document, Program.document, Stmt.document, Expr.document,
      Binary64.document, hnumber]

end ExprLang
