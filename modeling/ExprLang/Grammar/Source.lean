import ExprLang.Lexical.Cursor

/-!
# Token sources

A token source hands out tokens one by one until it has no more, and may fail at any time.  Whatever it
answers, it can be asked again.  A source has a size that every token it hands out makes smaller, so
reading to the first answer that is no token comes to an end.

Sources are the cursors of source texts, and streams, whose answers are laid down in advance.  A counted
source also knows how often it has been asked.
-/

namespace ExprLang

/-- What a source answers: a token, that there is none left, or that it failed. -/
abbrev Fetch (ε : Type) := Except ε (Option Token)

/-- A type of token sources whose failures are of type `ε`. -/
class TokenSource (σ : Type) (ε : outParam Type) where
  /-- The answer of a source, and the source afterwards. -/
  next : σ → Fetch ε × σ
  /-- A bound on the number of tokens left. -/
  size : σ → Nat
  size_next_lt {s : σ} {t : Token} : (next s).1 = .ok (some t) → size (next s).2 < size s

instance : TokenSource Cursor LexicalError where
  next := Cursor.next
  size c := c.rest.length
  size_next_lt h := Cursor.length_nextWith_lt h

/-- One answer of a stream. -/
inductive Item where
  | token (t : Token)
  | failure (message : Text)
  /-- No token, although some may follow. -/
  | pause
  deriving DecidableEq

/-- A source whose answers are laid down; after them it has no tokens left. -/
structure TokenStream where
  items : List Item
  deriving DecidableEq

namespace TokenStream

/-- The first answer of a stream, and the stream behind it. -/
def next : TokenStream → Fetch Text × TokenStream
  | ⟨[]⟩ => (.ok none, ⟨[]⟩)
  | ⟨.token t :: items⟩ => (.ok (some t), ⟨items⟩)
  | ⟨.failure message :: items⟩ => (.error message, ⟨items⟩)
  | ⟨.pause :: items⟩ => (.ok none, ⟨items⟩)

theorem length_next_lt {s : TokenStream} {t : Token} (h : s.next.1 = .ok (some t)) :
    s.next.2.items.length < s.items.length := by
  unfold next at *
  split at h <;> simp_all

end TokenStream

instance : TokenSource TokenStream Text where
  next := TokenStream.next
  size s := s.items.length
  size_next_lt h := TokenStream.length_next_lt h

/-- A source and how often it has been asked. -/
structure Counted (σ : Type) where
  source : σ
  calls : Nat

instance {σ ε : Type} [TokenSource σ ε] : TokenSource (Counted σ) ε where
  next s := ((TokenSource.next s.source).1, ⟨(TokenSource.next s.source).2, s.calls + 1⟩)
  size s := TokenSource.size s.source
  size_next_lt h := TokenSource.size_next_lt h

end ExprLang
