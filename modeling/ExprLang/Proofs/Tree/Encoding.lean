import ExprLang.Tree.Json
import Mathlib.Tactic.SplitIfs

/-!
# Which nodes can be encoded

A part of a node is checked against the limit on nesting each time it is placed into the document of
the node around it.  The checks on the way in are no stronger than the outermost one: `IsPlaced` says
that a value comes out whole just when there is room for it, this is kept from the parts of a node to
the node (`IsPlaced.node`), and so a node is encoded as its JSON form just when that is within the
limit (`Node.compactJson_of_le`, `Node.exists_compactJson_eq_error`).  The error of a refused node
starts with the kind of the node itself.
-/

namespace ExprLang

/-! ## The nesting of the JSON form -/

namespace Json

/-- The name of its kind adds nothing to the nesting of a node. -/
lemma nesting_node (typeName : String) (ms : List (Text × Json)) :
    (node typeName ms).nesting = membersNesting ms + 1 := by
  simp [node, nesting, membersNesting]

end Json

@[simp] lemma Binary64.nesting_toJson (v : Binary64) : v.toJson.nesting = 0 := by
  cases v <;> simp [toJson, Json.nesting]

namespace Expr

@[simp] lemma nesting_number (v : Binary64) : (toJson (.number v)).nesting = 1 := by
  simp [toJson, Json.nesting_node, Json.membersNesting]

@[simp] lemma nesting_text (v : Text) : (toJson (.text v)).nesting = 1 := by
  simp [toJson, Json.nesting_node, Json.membersNesting, Json.nesting]

@[simp] lemma nesting_binary (op : Text) (l r : Expr) :
    (toJson (.binary op l r)).nesting = max l.toJson.nesting r.toJson.nesting + 1 := by
  simp [toJson, Json.nesting_node, Json.membersNesting, Json.nesting]

end Expr

@[simp] lemma Stmt.nesting_expression (e : Expr) :
    (toJson (.expression e)).nesting = e.toJson.nesting + 1 := by
  simp [toJson, Json.nesting_node, Json.membersNesting]

/-- A program adds its own object and the array of its statements. -/
lemma Program.nesting_toJson (p : Program) :
    p.toJson.nesting = Json.itemsNesting (p.body.map Stmt.toJson) + 2 := by
  simp [toJson, Json.nesting_node, Json.membersNesting, Json.nesting]

/-! ## Placing a value -/

namespace Json

/-- Members with their values measured. -/
def measureMembers (ms : List (Text × Json)) : List (Text × Measured) :=
  ms.map fun (key, j) => (key, .of j)

/-- What comes of placing a value within `outer` arrays and objects: the value if there is room, and an
error if there is not. -/
structure IsPlaced (outer : Nat) (j : Json) (r : Except EncodingError Measured) : Prop where
  fits : outer + j.nesting ≤ depthLimit → r = .ok (.of j)
  refused : depthLimit < outer + j.nesting → ∃ e, r = .error e

/-- The members of a node whose values fit make up the node, if there is room for that. -/
lemma encodeNode_ok (outer : Nat) (typeName : String) (ms : List (Text × Json)) :
    encodeNode outer typeName (.ok (measureMembers ms)) =
      if outer + (membersNesting ms + 1) ≤ depthLimit then .ok (.of (node typeName ms))
      else .error ⟨[utf8 typeName]⟩ := by
  have hobject : Measured.object ((utf8 "type", .of (.string (utf8 typeName))) ::
      measureMembers ms) = .of (node typeName ms) := by
    refine Measured.eq_of_value _ ?_
    simp [Measured.object, measureMembers, Measured.of, node, Function.comp_def]
  have hnesting : (Measured.of (node typeName ms)).nesting = membersNesting ms + 1 :=
    nesting_node typeName ms
  simp only [encodeNode, hobject, hnesting]

/-- The error of a refused node names the kind of that node first. -/
lemma head?_path_of_encodeNode_eq_error {outer : Nat} {typeName : String}
    {members : Except EncodingError (List (Text × Measured))} {e : EncodingError}
    (h : encodeNode outer typeName members = .error e) : e.path.head? = some (utf8 typeName) := by
  cases members with
  | error e' =>
    cases h
    rfl
  | ok members =>
    simp only [encodeNode] at h
    split_ifs at h
    cases h
    rfl

/-- A node is placed if its members are. -/
lemma IsPlaced.node {ms : List (Text × Json)}
    {members : Except EncodingError (List (Text × Measured))} (outer : Nat) (typeName : String)
    (hfits : 1 + membersNesting ms ≤ depthLimit → members = .ok (measureMembers ms))
    (hrefused : depthLimit < 1 + membersNesting ms → ∃ e, members = .error e) :
    IsPlaced outer (node typeName ms) (encodeNode outer typeName members) := by
  constructor
  · intro h
    rw [nesting_node] at h
    rw [hfits (by omega), encodeNode_ok, if_pos h]
  · intro h
    rw [nesting_node] at h
    by_cases hroom : 1 + membersNesting ms ≤ depthLimit
    · exact ⟨_, by rw [hfits hroom, encodeNode_ok, if_neg (by omega)]⟩
    · obtain ⟨e, he⟩ := hrefused (by omega)
      exact ⟨_, by rw [he, encodeNode]⟩

end Json

open Json

/-! ## Placing nodes -/

/-- An expression is placed. -/
lemma Expr.isPlaced_encode (e : Expr) {outer : Nat} (houter : outer ≤ depthLimit) :
    IsPlaced outer e.toJson (e.encode outer) := by
  have hone : 1 ≤ depthLimit := by decide
  induction e generalizing outer with
  | missing => exact ⟨fun _ => rfl, fun h => absurd h (by simpa [toJson, nesting] using houter)⟩
  | number v =>
    refine .node outer _ (fun _ => rfl) fun h => ?_
    simp [membersNesting] at h
    omega
  | text v =>
    refine .node outer _ (fun _ => rfl) fun h => ?_
    simp [membersNesting, nesting] at h
    omega
  | binary op l r ihl ihr =>
    have hl := ihl hone
    have hr := ihr hone
    have hms : membersNesting
        [(utf8 "operator", .string op), (utf8 "left", l.toJson), (utf8 "right", r.toJson)] =
          max l.toJson.nesting r.toJson.nesting := by
      simp [membersNesting, nesting]
    refine .node outer _ ?_ ?_
    · rw [hms]
      intro h
      rw [hl.fits (by omega), hr.fits (by omega)]
      rfl
    · rw [hms]
      intro h
      by_cases hleft : 1 + l.toJson.nesting ≤ depthLimit
      · obtain ⟨e, he⟩ := hr.refused (by omega)
        exact ⟨e, by rw [hl.fits hleft, he]; rfl⟩
      · obtain ⟨e, he⟩ := hl.refused (by omega)
        exact ⟨e, by rw [he]; rfl⟩

/-- A statement is placed. -/
lemma Stmt.isPlaced_encode (s : Stmt) {outer : Nat} (houter : outer ≤ depthLimit) :
    IsPlaced outer s.toJson (s.encode outer) := by
  cases s with
  | missing => exact ⟨fun _ => rfl, fun h => absurd h (by simpa [toJson, nesting] using houter)⟩
  | expression e =>
    have he : IsPlaced 1 e.toJson (e.encode 1) := e.isPlaced_encode (by decide)
    have hms : membersNesting [(utf8 "body", e.toJson)] = e.toJson.nesting := by
      simp [membersNesting]
    refine .node outer _ ?_ ?_
    · rw [hms]
      intro h
      rw [he.fits h]
      rfl
    · rw [hms]
      intro h
      obtain ⟨error, herror⟩ := he.refused h
      exact ⟨error, by rw [herror]; rfl⟩

/-- Statements that fit are placed one after another. -/
lemma Stmt.mapM_encode_of_le {body : List Stmt}
    (h : 2 + itemsNesting (body.map toJson) ≤ depthLimit) :
    body.mapM (encode 2) = .ok (body.map fun s => .of s.toJson) := by
  induction body with
  | nil => rfl
  | cons s body ih =>
    rw [List.map_cons, itemsNesting] at h
    rw [List.mapM_cons, (s.isPlaced_encode (by decide)).fits (by omega), ih (by omega)]
    rfl

/-- One of the statements is refused if there is no room for all of them. -/
lemma Stmt.exists_mapM_encode_eq_error {body : List Stmt}
    (h : depthLimit < 2 + itemsNesting (body.map toJson)) :
    ∃ e, body.mapM (encode 2) = .error e := by
  induction body with
  | nil => exact absurd h (by decide)
  | cons s body ih =>
    rw [List.map_cons, itemsNesting] at h
    rw [List.mapM_cons]
    have hplaced : IsPlaced 2 s.toJson (s.encode 2) := s.isPlaced_encode (by decide)
    by_cases hs : 2 + s.toJson.nesting ≤ depthLimit
    · obtain ⟨e, he⟩ := ih (by omega)
      exact ⟨e, by rw [hplaced.fits hs, he]; rfl⟩
    · obtain ⟨e, he⟩ := hplaced.refused (by omega)
      exact ⟨e, by rw [he]; rfl⟩

/-- A program is placed. -/
lemma Program.isPlaced_encode (p : Program) : IsPlaced 0 p.toJson p.encode := by
  have hms : membersNesting [(utf8 "body", .array (p.body.map Stmt.toJson))] =
      itemsNesting (p.body.map Stmt.toJson) + 1 := by
    simp [membersNesting, nesting]
  have harray : Measured.array (p.body.map fun s => .of s.toJson) =
      .of (.array (p.body.map Stmt.toJson)) := by
    refine Measured.eq_of_value _ ?_
    simp [Measured.array, Measured.of, Function.comp_def]
  refine .node 0 _ ?_ ?_
  · rw [hms]
    intro h
    rw [Stmt.mapM_encode_of_le (by omega)]
    change Except.ok [(utf8 "body", Measured.array _)] = _
    rw [harray]
    rfl
  · rw [hms]
    intro h
    have hbody : depthLimit < 2 + itemsNesting (p.body.map Stmt.toJson) := by omega
    obtain ⟨e, he⟩ := Stmt.exists_mapM_encode_eq_error hbody
    exact ⟨e, by rw [he]; rfl⟩

/-- A node is placed. -/
lemma Node.isPlaced_encode (n : Node) : IsPlaced 0 n.toJson n.encode := by
  cases n with
  | program p => exact p.isPlaced_encode
  | statement s => exact s.isPlaced_encode (by decide)
  | expression e => exact e.isPlaced_encode (by decide)

/-! ## Texts -/

/-- A node within the limit has the text of its JSON form. -/
lemma Node.compactJson_of_le {n : Node} (h : n.toJson.nesting ≤ depthLimit) :
    n.compactJson = .ok (n.toJson.write .compact escape 0) := by
  rw [compactJson, n.isPlaced_encode.fits (by omega)]
  rfl

lemma Node.jsonText_of_le {n : Node} (h : n.toJson.nesting ≤ depthLimit) :
    n.jsonText = n.toJson.write .compact escape 0 := by
  rw [jsonText, compactJson_of_le h]
  rfl

/-- A program within the limit has the text of its JSON form. -/
lemma Program.indentedJson_of_le {p : Program} (h : p.toJson.nesting ≤ depthLimit) :
    p.indentedJson = .ok (p.toJson.write .indented escape 0) := by
  rw [indentedJson, p.isPlaced_encode.fits (by omega)]
  rfl

/-- A program beyond the limit has no text. -/
lemma Program.exists_indentedJson_eq_error {p : Program} (h : depthLimit < p.toJson.nesting) :
    ∃ e, p.indentedJson = .error e := by
  obtain ⟨e, he⟩ := p.isPlaced_encode.refused (by omega)
  exact ⟨e, by rw [indentedJson, he]; rfl⟩

/-- What a node is refused with starts with its own kind, whatever part of it there is no room for. -/
lemma Node.head?_path_of_encode_eq_error {n : Node} {e : EncodingError}
    (h : n.encode = .error e) : e.path.head? = n.typeName? := by
  cases n with
  | program p => exact head?_path_of_encodeNode_eq_error h
  | statement s =>
    cases s with
    | missing => cases h
    | expression e => exact head?_path_of_encodeNode_eq_error h
  | expression e =>
    rw [encode] at h
    cases e with
    | missing => cases h
    | number v | text v | binary op l r =>
      rw [Expr.encode] at h
      exact head?_path_of_encodeNode_eq_error h

/-- A node beyond the limit has no text. -/
lemma Node.exists_compactJson_eq_error {n : Node} (h : depthLimit < n.toJson.nesting) :
    ∃ e, n.compactJson = .error e ∧ e.path.head? = n.typeName? := by
  obtain ⟨e, he⟩ := n.isPlaced_encode.refused (by omega)
  exact ⟨e, by rw [compactJson, he]; rfl, head?_path_of_encode_eq_error he⟩

end ExprLang
