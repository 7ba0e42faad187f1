import ExprLang.Json
import ExprLang.Number.Layout
import ExprLang.Tree

/-!
# Programs as JSON

Every node is an object whose first member is the name of its kind.  A number outside the finite range
has the value `null`, and so has what is missing.  This is the JSON form of a node, and every node has
one.

A node is encoded from the inside out: each part makes a document of its own, and this is checked once
more when it is placed into the document of the node around it.  A part that does not fit there, because
of the limit on nesting, is refused, and with it all nodes around it.  So `Node.encode` gives the JSON
form of a node unless that is nested too deeply.
-/

namespace ExprLang

/-- Numbers of JSON are written positionally from `10 ^ (-6)` up to, but not including, `10 ^ 21`. -/
def Json.numberLayout : Layout := ⟨fun e => -6 ≤ e && e < 21, 1⟩

/-- A number as JSON. -/
def Binary64.toJson : Binary64 → Json
  | .nan | .infinite _ => .null
  | .finite negative m => .number (Json.numberLayout.text negative m)

/-- A node as JSON, from the name of its kind and its other members. -/
def Json.node (typeName : String) (members : List (Text × Json)) : Json :=
  .object ((utf8 "type", .string (utf8 typeName)) :: members)

/-! ## The JSON form -/

/-- An expression as JSON. -/
def Expr.toJson : Expr → Json
  | .missing => .null
  | .number v => .node "NumericLiteral" [(utf8 "value", v.toJson)]
  | .text v => .node "StringLiteral" [(utf8 "value", .string v)]
  | .binary op l r =>
    .node "BinaryExpression"
      [(utf8 "operator", .string op), (utf8 "left", l.toJson), (utf8 "right", r.toJson)]

/-- A statement as JSON. -/
def Stmt.toJson : Stmt → Json
  | .missing => .null
  | .expression e => .node "ExpressionStatement" [(utf8 "body", e.toJson)]

/-- A program as JSON. -/
def Program.toJson (p : Program) : Json :=
  .node "Program" [(utf8 "body", .array (p.body.map Stmt.toJson))]

/-- A node as JSON. -/
def Node.toJson : Node → Json
  | .program p => p.toJson
  | .statement s => s.toJson
  | .expression e => e.toJson

/-! ## Encoding -/

/-- A node has a part that is nested too deeply. -/
structure EncodingError where
  /-- The kinds of the nodes from the outermost one to the first for which there is no room. -/
  path : List Text
  deriving DecidableEq

/-- The wording of an encoding error. -/
def EncodingError.message (e : EncodingError) : Text :=
  e.path.flatMap (fun kind =>
    utf8 "json: error calling MarshalJSON for type *exprc." ++ kind ++ utf8 ": ") ++
  utf8 "exceeded max depth"

/-- A node within `outer` arrays and objects, from the name of its kind and its other members.  It is
refused if one of the members is, or if there is no room for it. -/
def Json.encodeNode (outer : Nat) (typeName : String)
    (members : Except EncodingError (List (Text × Json.Measured))) :
    Except EncodingError Json.Measured :=
  match members with
  | .error e => .error ⟨utf8 typeName :: e.path⟩
  | .ok members =>
    let j := Json.Measured.object ((utf8 "type", .of (.string (utf8 typeName))) :: members)
    if outer + j.nesting ≤ Json.depthLimit then .ok j else .error ⟨[utf8 typeName]⟩

/-- Encodes an expression within `outer` arrays and objects. -/
def Expr.encode (outer : Nat) : Expr → Except EncodingError Json.Measured
  | .missing => .ok (.of .null)
  | .number v => Json.encodeNode outer "NumericLiteral" (.ok [(utf8 "value", .of v.toJson)])
  | .text v => Json.encodeNode outer "StringLiteral" (.ok [(utf8 "value", .of (.string v))])
  | .binary op l r =>
    Json.encodeNode outer "BinaryExpression" do
      let left ← l.encode 1
      let right ← r.encode 1
      return [(utf8 "operator", .of (.string op)), (utf8 "left", left), (utf8 "right", right)]

/-- Encodes a statement within `outer` arrays and objects. -/
def Stmt.encode (outer : Nat) : Stmt → Except EncodingError Json.Measured
  | .missing => .ok (.of .null)
  | .expression e =>
    Json.encodeNode outer "ExpressionStatement" do
      let body ← e.encode 1
      return [(utf8 "body", body)]

/-- Encodes a program. -/
def Program.encode (p : Program) : Except EncodingError Json.Measured :=
  Json.encodeNode 0 "Program" do
    let body ← p.body.mapM (Stmt.encode 2)
    return [(utf8 "body", .array body)]

/-- Encodes a node that stands alone. -/
def Node.encode : Node → Except EncodingError Json.Measured
  | .program p => p.encode
  | .statement s => s.encode 0
  | .expression e => e.encode 0

/-- The JSON text of a node on one line. -/
def Node.compactJson (n : Node) : Except EncodingError Text :=
  n.encode.map (·.value.write .compact Json.escape 0)

/-- The JSON text of a program spread over lines. -/
def Program.indentedJson (p : Program) : Except EncodingError Text :=
  p.encode.map (·.value.write .indented Json.escape 0)

/-- The JSON text of a node on one line, empty if the node cannot be encoded. -/
def Node.jsonText (n : Node) : Text :=
  n.compactJson.toOption.getD []

end ExprLang
