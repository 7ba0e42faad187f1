import ExprLang.Proofs.Parse.BareForm
import ExprLang.Proofs.Tree.Encoding

/-!
# Programs of any depth

Operators of one rank group to the left, so a sum of ones is nested as deep as it is long, and every
depth is that of a program with a source text (`parse_onesText`).  There is no limit on the depth of a
program, but there is one on that of a document: the longest sums have no JSON text.  The shortest of
these is refused only when its statement, which has a JSON text of its own, is placed into the document
of the program (`Program.encode_onesSum`).
-/

namespace ExprLang

/-- The number one. -/
def Binary64.one : Binary64 := .finite false ⟨0x10000000000000, 1022, by decide⟩

/-- A one and `n` more ones that are added to it. -/
def Expr.onesSum : ℕ → Expr
  | 0 => .number .one
  | n + 1 => .binary (utf8 "+") (onesSum n) (.number .one)

/-- The program with a sum of ones for its only statement. -/
def Program.onesSum (n : ℕ) : Program := ⟨[.expression (.onesSum n)]⟩

/-- The text of a sum of ones. -/
def onesText (n : ℕ) : Text :=
  utf8 "1" ++ (List.replicate n (utf8 "+1")).flatten ++ utf8 ";"

/-! ## A text for every depth -/

lemma Binary64.plain_one : one.plain = utf8 "1" := by decide +kernel

/-- The number one is read back from its digit. -/
lemma Symbol.isReadable_one : (Symbol.number .one).IsReadable := by
  refine ⟨?_, ?_⟩
  · rw [Binary64.plain_one]
    exact ⟨by decide, List.all_eq_true.1 rfl⟩
  · rw [Binary64.plain_one]
    decide +kernel

namespace Expr

lemma bare_onesSum (n : ℕ) :
    (onesSum n).bare = utf8 "1" ++ (List.replicate n (utf8 "+1")).flatten := by
  induction n with
  | zero => rw [onesSum, bare_number, Binary64.plain_one]; rfl
  | succ n ih =>
    have hone : utf8 "+" ++ utf8 "1" = utf8 "+1" := by decide
    rw [onesSum, bare_binary, bare_number, Binary64.plain_one, ih, hone, List.replicate_succ',
      List.flatten_append, List.flatten_singleton, List.append_assoc]

lemma isReadable_of_mem_yield_onesSum {n : ℕ} {x : Symbol} (hx : x ∈ (onesSum n).yield) :
    x.IsReadable := by
  induction n with
  | zero =>
    obtain rfl : x = .number .one := by simpa [onesSum, yield] using hx
    exact Symbol.isReadable_one
  | succ n ih =>
    have hmem : x ∈ (onesSum n).yield ∨ x = .operator (utf8 "+") ∨ x = .number .one := by
      simpa [onesSum, yield] using hx
    rcases hmem with hx | rfl | rfl
    · exact ih hx
    · exact ⟨0x2B, rfl, by decide⟩
    · exact Symbol.isReadable_one

/-- A sum of ones groups to the left. -/
lemma isNormal_onesSum (n : ℕ) : (onesSum n).isNormal := by
  induction n with
  | zero => rfl
  | succ n ih =>
    have hplus : utf8 "+" ∈ sumOperators := by decide
    simp [onesSum, isNormal, hplus, ih, isProduct]

end Expr

/-- The text of a sum of ones is parsed as this sum. -/
lemma parse_onesText (n : ℕ) : parse (onesText n) = .ok (.onesSum n) := by
  have hnormal := Expr.isNormal_onesSum n
  have htext : onesText n = (Stmt.fragments (.expression (.onesSum n))).flatMap Fragment.bare := by
    rw [onesText, ← Expr.bare_onesSum]
    simp [Stmt.fragments, Expr.bare, Fragment.bare]
  have hreads := Stmt.readsAs_bare (s := .expression (.onesSum n))
    (Expr.isComplete_of_isNormal hnormal) ?_ []
  · rw [htext]
    refine ReadsAs.parse_eq_ok (p := .onesSum n) ?_ (by simp [Program.onesSum]) ?_
    · simpa [Program.onesSum, Program.yield] using hreads
    · simpa [Program.onesSum, Program.isNormal, Stmt.isNormal] using hnormal
  · intro x hx
    have hmem : x ∈ (Expr.onesSum n).yield ∨ x = .semicolon := by simpa [Stmt.yield] using hx
    rcases hmem with hx | rfl
    · exact Expr.isReadable_of_mem_yield_onesSum hx
    · trivial

/-! ## The depth that is too much -/

lemma Expr.nesting_onesSum (n : ℕ) : (onesSum n).toJson.nesting = n + 1 := by
  induction n with
  | zero => simp [onesSum]
  | succ n ih => simp [onesSum, ih]

lemma Program.nesting_onesSum (n : ℕ) : (onesSum n).toJson.nesting = n + 4 := by
  rw [nesting_toJson, onesSum, List.map_singleton, Json.itemsNesting, Json.itemsNesting,
    Stmt.nesting_expression, Expr.nesting_onesSum]
  omega

/-- The shortest sum of ones that has no JSON text: its statement has one, but does not fit into the
program. -/
lemma Program.encode_onesSum {n : ℕ} (h : n + 3 = Json.depthLimit) :
    (onesSum n).encode = .error ⟨[utf8 "Program", utf8 "ExpressionStatement"]⟩ := by
  have hbody : Json.IsPlaced 1 (Expr.onesSum n).toJson ((Expr.onesSum n).encode 1) :=
    (Expr.onesSum n).isPlaced_encode (by decide)
  have hms : Json.membersNesting [(utf8 "body", (Expr.onesSum n).toJson)] = n + 1 := by
    simp [Json.membersNesting, Expr.nesting_onesSum]
  have hstmt : (Stmt.expression (.onesSum n)).encode 2 = .error ⟨[utf8 "ExpressionStatement"]⟩ := by
    rw [Stmt.encode, hbody.fits (by rw [Expr.nesting_onesSum]; omega)]
    change Json.encodeNode 2 "ExpressionStatement"
      (.ok (Json.measureMembers [(utf8 "body", (Expr.onesSum n).toJson)])) = _
    rw [Json.encodeNode_ok, hms, if_neg (by omega)]
  rw [encode, onesSum, List.mapM_cons, hstmt]
  rfl

end ExprLang
