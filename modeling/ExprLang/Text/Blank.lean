/-!
# Blank characters

The characters that separate tokens: every character with the Unicode property White_Space except
U+0085, and the byte order mark U+FEFF besides.
-/

namespace ExprLang

/-- Whether a character is blank. -/
def isBlank (c : Char) : Bool :=
  let n := c.toNat
  (0x09 ≤ n && n ≤ 0x0D) || (0x2000 ≤ n && n ≤ 0x200A) ||
    [0x20, 0xA0, 0x1680, 0x2028, 0x2029, 0x202F, 0x205F, 0x3000, 0xFEFF].contains n

end ExprLang
