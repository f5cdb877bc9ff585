import Dialogue.Character.Casing
import Dialogue.Character.CaseContext

/-!
# Lower case of a text

Each character is replaced by its own lower case, with two exceptions. The dotted capital `İ`
becomes the letter `i` with a combining dot. A capital sigma becomes the final form `ς` where it
ends a word of at least two letters and `σ` elsewhere, so its lower case depends on what stands
on either side.
-/

namespace Dialogue.Text

open Character (lower isCased isCaseIgnorable)

/-- Is the nearest character that is not transparent to case a letter with case? Read from a
position outwards. -/
def facesLetter (s : List Char) : Bool :=
  ((s.dropWhile isCaseIgnorable).head?).any isCased

/-- The lower case of `c` between the reversed text `before` and the text `after`. -/
def lowerBetween (before : List Char) (c : Char) (after : List Char) : List Char :=
  if c == 'Σ' then [if facesLetter before && !facesLetter after then 'ς' else 'σ']
  else if c == 'İ' then ['i', '\u0307']
  else [lower c]

/-- The lower case of a text that stands after the reversed text `before`. -/
def lowercaseAfter (before : List Char) : List Char → List Char
  | [] => []
  | c :: s => lowerBetween before c s ++ lowercaseAfter (c :: before) s

/-- The lower case of a text. -/
def lowercase (s : List Char) : List Char := lowercaseAfter [] s

end Dialogue.Text
