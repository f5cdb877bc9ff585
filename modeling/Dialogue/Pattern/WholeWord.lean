import Dialogue.Pattern.Table

/-!
# Whole words

A keyword is found where it stands as a word of its own. At an end of the keyword that is a
letter, a number or `_`, the text has a word edge; at any other end, such as an emoji, it has a
blank or ends there.
-/

namespace Dialogue.Pattern

/-- May a word edge bound a keyword that ends in `c`? -/
def bounds (c : Char) : Bool := Character.isAlphanumeric c || c == '_'

/-- The pattern of a keyword as a whole word. -/
def wholeWord (key : List Char) : Pattern :=
  [if key.head?.any bounds then .wordEdge else .startOrBlank,
    .literal key,
    if key.getLast?.any bounds then .wordEdge else .blankOrEnd]

end Dialogue.Pattern
