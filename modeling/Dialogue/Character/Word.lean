import Dialogue.Character.Alphabetic
import Dialogue.Character.Edition
import Dialogue.Character.Mark
import Dialogue.Character.Numeric

/-!
# Word characters

Two notions of a character that belongs to a word. `isWord` is the one that word edges are made
of: letters, marks, decimal digits, connectors such as `_` and the joiners. `isAlphanumeric`
leaves out marks, connectors and joiners and has all numeric characters, so that `²` and `½` are
alphanumeric without being word characters. Besides, `isWord` knows the characters of edition 16
only and `isAlphanumeric` those of edition 17.
-/

namespace Dialogue.Character

/-- The code points from U+0080 on of the general category `Pc`. -/
def connector : Ranges :=
  [(0x203F, 0x2040), (0x2054, 0x2054), (0xFE33, 0xFE34), (0xFE4D, 0xFE4F), (0xFF3F, 0xFF3F)]

/-- The code points with the property `Join_Control`. -/
def joinControl : Ranges := [(0x200C, 0x200D)]

/-- Is `c` a letter, a mark, a decimal digit, a connector or a joiner of edition 16? -/
def isWord (c : Char) : Bool :=
  if c.toNat < 128 then c.isAlphanum || c == '_'
  else
    (alphabetic.contains c.toNat || mark.contains c.toNat || decimalDigit.contains c.toNat
      || connector.contains c.toNat || joinControl.contains c.toNat) && !isRecent c

/-- Is `c` a letter or a numeric character of edition 17? -/
def isAlphanumeric (c : Char) : Bool :=
  if c.toNat < 128 then c.isAlphanum
  else alphabetic.contains c.toNat || numeric.contains c.toNat

end Dialogue.Character
