import Dialogue.Character.Ranges

/-!
# White space

The characters with the property `White_Space`. The zero width space U+200B and the byte order
mark U+FEFF do not have it, while U+0085 and the no-break space U+00A0 do.
-/

namespace Dialogue.Character

/-- The code points from U+0080 on with the property `White_Space`. -/
def whiteSpace : Ranges :=
  [(0x85, 0x85), (0xA0, 0xA0), (0x1680, 0x1680), (0x2000, 0x200A), (0x2028, 0x2029),
    (0x202F, 0x202F), (0x205F, 0x205F), (0x3000, 0x3000)]

/-- Is `c` white space? -/
def isBlank (c : Char) : Bool :=
  if c.toNat < 128 then c == ' ' || (9 ≤ c.toNat && c.toNat ≤ 13)
  else whiteSpace.contains c.toNat

end Dialogue.Character
