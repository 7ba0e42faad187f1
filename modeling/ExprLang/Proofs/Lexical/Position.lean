import ExprLang.Proofs.Lexical.Drain
import ExprLang.Proofs.Lexical.Fits

/-!
# Positions of a cursor

A location moves over a text piece by piece (`piece_induction`).  Over an encoded character it moves
by that character, whatever follows, and its line grows by the number of line feeds of the text
(`Location.line_after`).

Two facts about the drain of a cursor follow.  Blanks at the front of a text do nothing but move the
cursor, also where more blanks follow, which are then part of the same lexeme
(`Cursor.drain_ofChars_append`).  A cursor that stands further down in a file hands out the same
tokens and the same error, each as many lines further down (`Cursor.drain_down`).
-/

namespace ExprLang

/-! ## Locations piece by piece -/

/-- A byte that begins no character is cut off as a stray one. -/
lemma pieces_cons_of_none {b : UInt8} {t : Text} (h : firstChar? (b :: t) = none) :
    pieces (b :: t) = .stray b :: pieces t := by
  rw [pieces, h]

/-- A fact holds of every text if it holds of the empty one and goes back over a character and over
a stray byte. -/
@[elab_as_elim] lemma piece_induction {motive : Text → Prop} (nil : motive [])
    (char : ∀ c r, motive r → motive (String.utf8EncodeChar c ++ r))
    (stray : ∀ b t, firstChar? (b :: t) = none → motive t → motive (b :: t))
    (t : Text) : motive t := by
  induction hn : t.length using Nat.strongRecOn generalizing t with
  | ind n ih =>
    cases t with
    | nil => exact nil
    | cons b t =>
      cases hfirst : firstChar? (b :: t) with
      | none => exact stray b t hfirst (ih t.length (by simp [← hn]) t rfl)
      | some c =>
        obtain ⟨r, hr⟩ := firstChar?_eq_some_iff.1 hfirst
        have hlen : r.length < n := by
          have hsize := Char.utf8Size_pos c
          rw [← hn, hr, List.length_append, String.length_utf8EncodeChar]
          omega
        rw [hr]
        exact char c r (ih r.length hlen r rfl)

namespace Location

/-- A location moves over an encoded character as one piece. -/
lemma after_utf8EncodeChar_append (l : Location) (c : Char) (t : Text) :
    l.after (String.utf8EncodeChar c ++ t) = (l.past (.char c)).after t := by
  rw [after, pieces_utf8EncodeChar_append, List.foldl_cons]
  rfl

/-- A location moves over a stray byte as one piece. -/
lemma after_cons_of_none (l : Location) {b : UInt8} {t : Text} (h : firstChar? (b :: t) = none) :
    l.after (b :: t) = (l.past (.stray b)).after t := by
  rw [after, pieces_cons_of_none h, List.foldl_cons]
  rfl

/-- A line feed moves to the beginning of the next line. -/
lemma past_lineFeed (l : Location) : l.past (.char '\n') = ⟨l.line + 1, 1⟩ := by
  simp [past]

/-- Other pieces stay on their line. -/
lemma line_past_of_ne (l : Location) {p : Piece} (h : p ≠ .char '\n') :
    (l.past p).line = l.line := by
  simp [past, h]

end Location

/-- A line feed is always a character of its own. -/
lemma count_lineFeed_utf8EncodeChar (c : Char) :
    (String.utf8EncodeChar c).count 0x0A = if c = '\n' then 1 else 0 := by
  split
  · next hc =>
    subst hc
    decide
  · next hc =>
    refine List.count_eq_zero_of_not_mem fun hmem => hc ?_
    rcases toNat_of_mem_utf8EncodeChar hmem with hnat | hnat
    · exact Char.toNat_inj.1 hnat.symm
    · exact absurd hnat (by decide)

/-- The line of a location grows by the line feeds that it moves over. -/
lemma Location.line_after (l : Location) (t : Text) :
    (l.after t).line = l.line + Int64.ofNat (t.count 0x0A) := by
  induction t using piece_induction generalizing l with
  | nil => simp
  | char c r ih =>
    rw [after_utf8EncodeChar_append, ih, List.count_append, count_lineFeed_utf8EncodeChar,
      Int64.ofNat_add, ← Int64.add_assoc]
    congr 1
    by_cases hc : c = '\n'
    · simp [hc, past_lineFeed]
    · have hne : Piece.char c ≠ .char '\n' := by simpa using hc
      simp [hc, line_past_of_ne l hne]
  | stray b t hnone ih =>
    have hb : b ≠ 0x0A := by
      rintro rfl
      have hfirst : firstChar? (0x0A :: t) = some '\n' := firstChar?_eq_some_iff.2 ⟨t, rfl⟩
      rw [hnone] at hfirst
      cases hfirst
    have hne : Piece.stray b ≠ .char '\n' := Piece.noConfusion
    rw [after_cons_of_none l hnone, ih, line_past_of_ne l hne, List.count_cons_of_ne hb]

/-! ## Lexemes in front of a text -/

section Front

variable {rule : Rule} {l r : Text}

/-- Nothing is left to drain at the end of a text. -/
lemma Cursor.drain_nil (loc : Location) : (⟨[], loc⟩ : Cursor).drain = ([], none) :=
  Cursor.drainWith_of_none (c := ⟨[], loc⟩) (firstCut?_nil Rule.table)

/-- A lexeme that fits in front of a text and is a token comes first in the drain. -/
lemma Cursor.drain_append_of_kind (h : rule.Fits l r) {kind : Kind} (hk : rule.kind? = some kind)
    (loc : Location) :
    (⟨l ++ r, loc⟩ : Cursor).drain =
      (⟨kind, l, loc⟩ :: (⟨r, loc.after l⟩ : Cursor).drain.1,
        (⟨r, loc.after l⟩ : Cursor).drain.2) :=
  Cursor.drainWith_of_kind (c := ⟨l ++ r, loc⟩) (firstCut?_table_eq_some_iff.2 ⟨h, rfl⟩) hk

/-- A lexeme that fits in front of a text and is no token does nothing but move the cursor. -/
lemma Cursor.drain_append_of_skip (h : rule.Fits l r) (hk : rule.kind? = none) (loc : Location) :
    (⟨l ++ r, loc⟩ : Cursor).drain = (⟨r, loc.after l⟩ : Cursor).drain :=
  Cursor.drainWith_of_skip (c := ⟨l ++ r, loc⟩) (firstCut?_table_eq_some_iff.2 ⟨h, rfl⟩) hk

end Front

/-! ## Blanks in front of a text -/

/-- A blank at the front does nothing but move the cursor.  It may be the beginning of a longer run,
which is then cut off as a whole. -/
lemma Cursor.drain_blank_append {c : Char} (hc : isBlank c) (t : Text) (l : Location) :
    (⟨String.utf8EncodeChar c ++ t, l⟩ : Cursor).drain =
      (⟨t, l.past (.char c)⟩ : Cursor).drain := by
  obtain ⟨⟨cs, hcs, hblank⟩, hend⟩ := spanBlanks_spec t
  have hspan : (spanBlanks t).1 ++ (spanBlanks t).2 = t := spanBlanks_append t
  rw [hcs] at hspan
  have hfits : Rule.Fits .blanks (Text.ofChars (c :: cs)) (spanBlanks t).2 := by
    refine ⟨⟨c :: cs, by simp, rfl, ?_⟩, hend⟩
    intro d hd
    rcases List.mem_cons.1 hd with rfl | hd
    · exact hc
    · exact hblank d hd
  have hwhole := Cursor.drain_append_of_skip hfits rfl l
  rw [Text.ofChars_cons, List.append_assoc, hspan, Location.after_utf8EncodeChar_append] at hwhole
  rw [hwhole]
  by_cases hne : cs = []
  · subst hne
    have ht : (spanBlanks t).2 = t := hspan
    rw [ht]
    simp
  · have hblanks : Rule.blanks.Fits (Text.ofChars cs) (spanBlanks t).2 :=
      ⟨⟨cs, hne, rfl, hblank⟩, hend⟩
    have hrest := Cursor.drain_append_of_skip hblanks rfl (l.past (.char c))
    rw [hspan] at hrest
    exact hrest.symm

/-- Blanks at the front do nothing but move the cursor, whatever follows them. -/
lemma Cursor.drain_ofChars_append {cs : List Char} (hcs : ∀ c ∈ cs, isBlank c) (t : Text)
    (l : Location) :
    (⟨Text.ofChars cs ++ t, l⟩ : Cursor).drain =
      (⟨t, l.after (Text.ofChars cs)⟩ : Cursor).drain := by
  induction cs generalizing l with
  | nil => simp
  | cons c cs ih =>
    have hc : isBlank c := hcs c (by simp)
    have hcs' : ∀ d ∈ cs, isBlank d := fun d hd => hcs d (List.mem_cons_of_mem c hd)
    rw [Text.ofChars_cons, List.append_assoc, Cursor.drain_blank_append hc, ih hcs',
      Location.after_utf8EncodeChar_append]

/-! ## Further down -/

/-- The location `d` lines further down, in the same column. -/
def Location.down (d : Nat) (l : Location) : Location := ⟨l.line + Int64.ofNat d, l.column⟩

/-- The token `d` lines further down. -/
def Token.down (d : Nat) (t : Token) : Token := ⟨t.kind, t.value, t.loc.down d⟩

/-- The lexical error `d` lines further down. -/
def LexicalError.down (d : Nat) (e : LexicalError) : LexicalError := ⟨e.loc.down d, e.near⟩

/-- A location moves the same way further down. -/
lemma Location.past_down (d : Nat) (l : Location) (p : Piece) :
    (l.down d).past p = (l.past p).down d := by
  have hcomm : l.line + Int64.ofNat d + 1 = l.line + 1 + Int64.ofNat d := by
    rw [Int64.add_assoc, Int64.add_comm (Int64.ofNat d), Int64.add_assoc]
  by_cases hp : p = .char '\n' <;> simp [past, down, hp, hcomm]

/-- A location moves over a text the same way further down. -/
lemma Location.after_down (d : Nat) (l : Location) (t : Text) :
    (l.down d).after t = (l.after t).down d := by
  unfold after
  induction pieces t generalizing l with
  | nil => rfl
  | cons p ps ih => rw [List.foldl_cons, List.foldl_cons, Location.past_down, ih]

/-- A token that is further down ends further down. -/
lemma Token.stop_down (d : Nat) (t : Token) : (t.down d).stop = t.stop.down d :=
  Location.after_down d t.loc t.value

/-- A cursor further down hands out the same tokens and the same error, further down. -/
lemma Cursor.drain_down (d : Nat) (c : Cursor) :
    (⟨c.rest, c.loc.down d⟩ : Cursor).drain =
      (c.drain.1.map (Token.down d), c.drain.2.map (LexicalError.down d)) := by
  unfold Cursor.drain
  induction c using Cursor.cut_induction Rule.table with
  | stuck c hnone =>
    have hnone' : firstCut? Rule.table (⟨c.rest, c.loc.down d⟩ : Cursor).rest = none := hnone
    rw [Cursor.drainWith_of_none hnone, Cursor.drainWith_of_none hnone']
    by_cases hrest : c.rest = [] <;> simp [hrest, LexicalError.down]
  | step c rule l r hfirst ih =>
    have hfirst' : firstCut? Rule.table (⟨c.rest, c.loc.down d⟩ : Cursor).rest =
      some (rule, l, r) := hfirst
    have hpast : (⟨c.rest, c.loc.down d⟩ : Cursor).past l r =
        ⟨(c.past l r).rest, (c.past l r).loc.down d⟩ := by
      simp [Cursor.past, Location.after_down]
    cases hk : rule.kind? with
    | none =>
      rw [Cursor.drainWith_of_skip hfirst hk, Cursor.drainWith_of_skip hfirst' hk, hpast, ih]
    | some kind =>
      rw [Cursor.drainWith_of_kind hfirst hk, Cursor.drainWith_of_kind hfirst' hk, hpast, ih]
      simp [Token.down]

end ExprLang
