import Dialogue.Json.Reader
import Dialogue.Text.Basic
import Dialogue.Text.Words

/-!
# The authoring format

Scripts are written by hand as documents with three liberties: a whole line may be a comment that
starts with `//`, a comma may stand before a closing bracket, and the document may be wrapped in
`export default ... ;`. Cleaning a text takes the liberties back, in this order; what remains is
read as a document.
-/

namespace Dialogue.Authoring

open Character (isBlank)
open Text (trim trimStart trimEnd)

/-- Is a line a comment? -/
def isComment (line : Text) : Bool := "//".toList.isPrefixOf (trimStart line)

/-- The text with every comment line emptied. Its line feeds stay. -/
def blankComments (s : Text) : Text :=
  ['\n'].intercalate ((s.splitOn '\n').map fun line ↦ if isComment line then [] else line)

/-- The text behind a word and at least one blank, if it starts with these. -/
def afterWord? (word s : Text) : Option Text := do
  match ← word.isPrefixOf? s with
  | c :: rest => if isBlank c then return trimStart rest else failure
  | [] => failure

/-- The text behind `export default`, if it starts with these words. -/
def afterExport? (s : Text) : Option Text := do
  afterWord? "default".toList (← afterWord? "export".toList (trimStart s))

/-- The text without its semicolons at the end. -/
def dropSemicolons (s : Text) : Text := (s.reverse.dropWhile (· == ';')).reverse

/-- The text without a wrapper of `export default` and final semicolons. -/
def unwrap (s : Text) : Text := trim (dropSemicolons (trimEnd ((afterExport? s).getD s)))

/-- Whether a character stands in a string, and there behind a backslash. -/
inductive Place where
  | outside
  | inside
  | escaped
deriving Repr, DecidableEq

/-- The place behind a character. -/
def Place.next : Place → Char → Place
  | outside, c => if c == '"' then inside else outside
  | inside, c => if c == '\\' then escaped else if c == '"' then outside else inside
  | escaped, _ => inside

/-- Is the next character that is not blank a closing bracket? -/
def closes (s : Text) : Bool := ((trimStart s).head?).any fun c ↦ c == ']' || c == '\x7d'

/-- The text that stands at some place without the commas before closing brackets. -/
def dropCommasFrom : Place → Text → Text
  | _, [] => []
  | place, c :: s =>
    if place == .outside && c == ',' && closes s then dropCommasFrom .outside s
    else c :: dropCommasFrom (place.next c) s

/-- The text without the commas before closing brackets. Strings stay as they are. -/
def dropTrailingCommas (s : Text) : Text := dropCommasFrom .outside s

/-- The document text of an authored script. -/
def clean (s : Text) : Text := dropTrailingCommas (unwrap (blankComments s))

/-- The document of an authored script. -/
def read? (s : String) : Option Json := Json.read? (String.ofList (clean s.toList))

end Dialogue.Authoring
