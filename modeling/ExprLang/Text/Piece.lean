import ExprLang.Text.Basic

/-!
# Pieces of a text

Where a text is read as characters, it is cut into pieces from left to right.  A piece is a
character, taken whenever its UTF-8 encoding stands at the front, or else a single stray byte.
So a truncated or overlong sequence and an encoded surrogate fall apart into one stray byte each.

`firstChar?` finds the character at the front of a text (`firstChar?_eq_some_iff`), `pieces` cuts
the whole text, and no byte is lost on the way (`flatMap_bytes_pieces`).
-/

namespace ExprLang

/-- A character, or a byte that is not part of the encoding of one. -/
inductive Piece where
  | char (c : Char)
  | stray (b : UInt8)
  deriving DecidableEq

/-- The bytes a piece was cut from. -/
def Piece.bytes : Piece → Text
  | .char c => String.utf8EncodeChar c
  | .stray b => [b]

/-- The replacement character U+FFFD, which stands in for a stray byte. -/
def replacementChar : Char := '\uFFFD'

/-- The character a piece is shown as. -/
def Piece.scalar : Piece → Char
  | .char c => c
  | .stray _ => replacementChar

/-- The character whose encoding stands at the front of a text.  No encoding is longer than
four bytes. -/
def firstChar? (t : Text) : Option Char :=
  (t.take 4).toByteArray.utf8DecodeChar? 0

section FirstChar

private theorem toByteArray_inj {a b : List UInt8} (h : a.toByteArray = b.toByteArray) :
    a = b := by
  have := congrArg (fun x : ByteArray => x.data.toList) h
  simpa using this

/-- A character stands at the front of a text exactly if the text starts with its encoding. -/
theorem firstChar?_eq_some_iff {t : Text} {c : Char} :
    firstChar? t = some c ↔ ∃ r, t = String.utf8EncodeChar c ++ r := by
  constructor
  · intro h
    obtain ⟨l, hl⟩ := ByteArray.exists_of_utf8DecodeChar?_eq_some h
    refine ⟨l.data.toList ++ t.drop 4, ?_⟩
    have hl' : t.take 4 = String.utf8EncodeChar c ++ l.data.toList := by
      apply toByteArray_inj
      rw [hl]
      ext1
      simp
    rw [← List.append_assoc, ← hl', List.take_append_drop]
  · rintro ⟨r, rfl⟩
    have hlen : (String.utf8EncodeChar c).length ≤ 4 := by
      rw [String.length_utf8EncodeChar]
      exact Char.utf8Size_le_four c
    unfold firstChar?
    rw [List.take_append, List.take_of_length_le hlen]
    have happ : ∀ a b : List UInt8, (a ++ b).toByteArray = a.toByteArray ++ b.toByteArray := by
      intro a b
      ext1
      simp
    rw [happ]
    exact ByteArray.utf8DecodeChar?_utf8EncodeChar_append

end FirstChar

/-- The pieces of a text, from left to right. -/
def pieces : Text → List Piece
  | [] => []
  | b :: t =>
    match firstChar? (b :: t) with
    | some c => .char c :: pieces (t.drop (c.utf8Size - 1))
    | none => .stray b :: pieces t
  termination_by t => t.length
  decreasing_by
    · rw [List.length_drop, List.length_cons]
      omega
    · exact Nat.lt_succ_self _

@[simp] theorem pieces_nil : pieces [] = [] := by
  rw [pieces]

/-- An encoded character at the front is cut off as one piece. -/
theorem pieces_utf8EncodeChar_append (c : Char) (r : Text) :
    pieces (String.utf8EncodeChar c ++ r) = .char c :: pieces r := by
  have hlen := String.length_utf8EncodeChar c
  have hpos := Char.utf8Size_pos c
  have hfirst : firstChar? (String.utf8EncodeChar c ++ r) = some c :=
    firstChar?_eq_some_iff.2 ⟨r, rfl⟩
  cases he : String.utf8EncodeChar c with
  | nil => simp [he] at hlen; omega
  | cons b u =>
    rw [he] at hfirst hlen
    simp only [List.cons_append, List.length_cons] at hfirst hlen
    rw [List.cons_append, pieces, hfirst]
    have hu : u.length = c.utf8Size - 1 := by omega
    simp [← hu]

/-- The pieces of a text hold its bytes, each once and in order. -/
@[simp] theorem flatMap_bytes_pieces (t : Text) : (pieces t).flatMap Piece.bytes = t := by
  fun_induction pieces t with
  | case1 => rfl
  | case2 b t c h ih =>
    obtain ⟨r, hr⟩ := firstChar?_eq_some_iff.1 h
    have hlen := String.length_utf8EncodeChar c
    have hpos := Char.utf8Size_pos c
    have hdrop : t.drop (c.utf8Size - 1) = r := by
      have : (b :: t).drop c.utf8Size = r := by rw [hr, ← hlen]; simp
      rw [← this]
      obtain ⟨k, hk⟩ : ∃ k, c.utf8Size = k + 1 := ⟨c.utf8Size - 1, by omega⟩
      simp [hk]
    rw [hdrop] at ih ⊢
    simp only [List.flatMap_cons, Piece.bytes, ih]
    exact hr.symm
  | case3 b t h ih => simp [Piece.bytes, ih]

/-- The characters of a text, with the replacement character for each stray byte. -/
def scalars (t : Text) : List Char :=
  (pieces t).map Piece.scalar

end ExprLang
