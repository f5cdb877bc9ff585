import Dialogue.Pattern.Library
import Dialogue.Text.Scan
import Dialogue.Text.Words

/-!
# Decomposition templates

A template such as `* i #belief you *` says how an input is taken apart. It is read as a sequence
of tokens: wildcards, tags and the text between them. Tags are read first, so a wildcard marker in
the name of a tag belongs to the name. A tag that the script does not declare stands for its own
name, as plain text.

The pattern of a template has one piece for each token. Next to a wildcard, wherever the template
goes on, it asks for a word edge, so that a wildcard never takes half a word.
-/

namespace Dialogue

open Character (isBlank)
open Text (trimEnd)

/-- The declared tags, each with its words. -/
abbrev Tags := List (List Char × List (List Char))

namespace Tags

/-- The words of the tag `name`; a later declaration hides an earlier one. -/
def wordsOf? (tags : Tags) (name : List Char) : Option (List (List Char)) :=
  (tags.reverse.find? (·.1 == name)).map (·.2)

end Tags

namespace Template

/-- What a template is made of. -/
inductive Token where
  | text (s : List Char)
  | wildcard
  | tag (words : List (List Char))
deriving Repr, DecidableEq

/-- The marks of a template. An empty marker marks nothing. -/
structure Markers where
  tag : List Char
  wildcard : List Char

/-- The expression that finds tags. -/
def tagExpression (marker : List Char) : Expression :=
  ⟨Piece.escape marker ++ ['(', '\\', 'S', '+', ')'], false⟩

/-- The expression that finds wildcards. -/
def wildcardExpression (marker : List Char) : Expression :=
  ⟨['\\', 's', '*'] ++ Piece.escape marker ++ ['\\', 's', '*'], false⟩

/-- The markers that the library lets one look for. Any other one marks nothing. -/
def Markers.known (library : Library) (markers : Markers) : Markers where
  tag := if library.Builds (tagExpression markers.tag) then markers.tag else []
  wildcard :=
    if library.Builds (wildcardExpression markers.wildcard) then markers.wildcard else []

/-- The name of a tag at the front of a text, with the length of the marker and the name. -/
def tagAt? (marker s : List Char) : Option (List Char × Nat) := do
  if marker.isEmpty then failure
  let name := (← marker.isPrefixOf? s).takeWhile (! isBlank ·)
  if name.isEmpty then failure
  return (name, marker.length + name.length)

/-- The length of a wildcard at the front of a text: its marker with all white space behind it. -/
def wildcardAt? (marker s : List Char) : Option (Unit × Nat) := do
  if marker.isEmpty then failure
  let rest ← marker.isPrefixOf? s
  return ((), marker.length + (rest.takeWhile isBlank).length)

/-- The template with each declared tag replaced by its words and the marker of any other tag
dropped. -/
def expandTags (marker : List Char) (tags : Tags) (template : List Char) :
    List (Char ⊕ List (List Char)) :=
  (Text.scan (tagAt? marker) template).flatMap fun
    | .inl c => [.inl c]
    | .inr name =>
      match tags.wordsOf? name with
      | some words => [.inr words]
      | none => name.map .inl

/-- The tokens of wildcards and the runs of text between them. White space in front of a wildcard
belongs to it. -/
def closeUp : List (List Char ⊕ Unit) → List Token
  | [] => []
  | .inr () :: rest => .wildcard :: closeUp rest
  | .inl run :: rest =>
    let run := if rest.isEmpty then run else trimEnd run
    if run.isEmpty then closeUp rest else .text run :: closeUp rest

/-- The tokens of a text without tags. -/
def textTokens (marker s : List Char) : List Token :=
  closeUp (Text.gather (Text.scan (wildcardAt? marker) s))

/-- The tokens of a template. -/
def tokens (markers : Markers) (tags : Tags) (template : List Char) : List Token :=
  (Text.gather (expandTags markers.tag tags template)).flatMap fun
    | .inl run => textTokens markers.wildcard run
    | .inr words => [.tag words]

/-- The pieces of some tokens. `inside` says whether other tokens stand before them. -/
def pieces (inside : Bool) : List Token → Pattern
  | [] => []
  | .text s :: rest => .literal s :: pieces true rest
  | .tag words :: rest => .oneOf words :: pieces true rest
  | .wildcard :: rest =>
    (if inside then [.wordEdge] else []) ++ .wildcard
      :: (if rest.isEmpty then [] else [.wordEdge]) ++ pieces true rest

/-- The pattern of a template, which takes a whole text apart. -/
def pattern (markers : Markers) (tags : Tags) (template : List Char) : Pattern :=
  .textStart :: pieces false (tokens markers tags template) ++ [.textEnd]

end Template

end Dialogue
