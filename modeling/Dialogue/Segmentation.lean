import Dialogue.Character.Emoji
import Dialogue.Options
import Dialogue.Pattern.Library
import Dialogue.Pattern.Replace
import Dialogue.Text.Lowercase
import Dialogue.Text.Words

/-!
# Segmentation

An input is brought into a plain form and cut into parts, each of which is answered on its own.
The plain form has lower case letters (if the options ask for it), only characters that the
options allow, single spaces, and a full stop for each stop character and each stop word. The
parts are what stands between the full stops.
-/

namespace Dialogue

open Character (isEmoji)
open Text (lowercase contract trim)

/-- The text with a space on either side of each emoji. -/
def Text.spaceEmoji (s : Text) : Text := s.flatMap fun c ↦ if isEmoji c then [' ', c, ' '] else [c]

namespace Options

/-- Does the options' plain form keep this character? -/
def allows (o : Options) (c : Char) : Bool :=
  c.isAlphanum || c == ' ' || o.allowChars.toList.contains c || o.stopChars.toList.contains c
    || (o.allowEmoji && isEmoji c)

/-- The pattern that captures a stop word where it stands between word edges. -/
def stopPattern (o : Options) : Pattern :=
  let words := (o.stopWords.map (contract ·.toList)).filter (! ·.isEmpty)
  [.wordEdge, .oneOf words, .wordEdge]

/-- Are there stop words? -/
def hasStopWords (o : Options) : Bool := o.stopWords.any fun word ↦ ! (contract word.toList).isEmpty

/-- The class of emoji in an expression. -/
def emojiClass : List Char := "\\p\x7bEmoji_Presentation\x7d".toList

/-- The expression that finds what is not kept in the plain form. -/
def strippedExpression (o : Options) : Expression where
  text := "[^a-zA-Z0-9 ".toList ++ Piece.escape o.allowChars.toList ++
    Piece.escape o.stopChars.toList ++ (if o.allowEmoji then emojiClass else []) ++ [']']
  anyCase := false

/-- The expression that finds stop characters. -/
def stopCharsExpression (o : Options) : Expression :=
  ⟨'[' :: Piece.escape o.stopChars.toList ++ [']'], false⟩

/-- The expression that finds stop words. -/
def stopWordsExpression (o : Options) : Expression :=
  let words := (o.stopWords.map (contract ·.toList)).filter (! ·.isEmpty)
  ⟨"\\b(?:".toList ++ ['|'].intercalate (words.map Piece.escape) ++ ")\\b".toList, true⟩

/-- The expressions by which a text is brought into its plain form, in the order in which they are
built. -/
def plainExpressions (o : Options) : List Expression :=
  [o.strippedExpression] ++ (if o.allowEmoji then [⟨emojiClass, false⟩] else []) ++
    (if o.stopChars.isEmpty then [] else [o.stopCharsExpression]) ++
    if o.hasStopWords then [o.stopWordsExpression] else []

/-- The text with a full stop for each stop word. -/
def replaceStopWords (o : Options) (s : Text) : Text :=
  if o.hasStopWords then o.stopPattern.replaceAll (fun _ ↦ ['.']) s else s

/-- The plain form of a text. -/
def normalize (o : Options) (s : Text) : Text :=
  let s := if o.lowercaseInput then lowercase s else s
  let s := s.map fun c ↦ if o.allows c then c else ' '
  let s := if o.allowEmoji then Text.spaceEmoji s else s
  let s := (contract s).map fun c ↦ if o.stopChars.toList.contains c then '.' else c
  o.replaceStopWords s

end Options

/-- The parts of a plain form, without blanks at their ends. There are no empty parts. -/
def Text.parts (s : Text) : List Text := ((s.splitOn '.').map trim).filter (! ·.isEmpty)

end Dialogue
