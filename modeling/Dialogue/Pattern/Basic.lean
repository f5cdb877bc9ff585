import Dialogue.Character.Blank
import Dialogue.Character.Casing
import Dialogue.Character.Word

/-!
# Patterns

A pattern is a sequence of pieces, matched from left to right without regard to case. Pieces never
nest, and that is all a script can ask for: literal text, a run of anything, one of several words,
and conditions on where a word may begin or end.

`Pattern.match?` is what a pattern means. Each piece lists the positions where it may end, in
order of preference, and the first choice that lets the remaining pieces match is taken. It is
written for reading and proving and tries choices one after the other;
`Dialogue.Pattern.Table` computes the same answers in time proportional to the text.

`Pattern.render` writes a pattern in the usual notation of regular expressions.
-/

namespace Dialogue

open Character (isBlank isWord sameFold)

/-- One piece of a pattern. The pieces `wildcard` and `oneOf` capture what they match. -/
inductive Piece where
  /-- This text, in any case. -/
  | literal (text : List Char)
  /-- Any text without a line feed, as long as possible. -/
  | wildcard
  /-- The first of these words, in any case, that lets the rest match; no words stand for the
  empty word. -/
  | oneOf (words : List (List Char))
  /-- An edge between a word character and something else. -/
  | wordEdge
  /-- The start of the text. -/
  | textStart
  /-- The end of the text. -/
  | textEnd
  /-- The start of the text, or one blank. -/
  | startOrBlank
  /-- One blank, or the end of the text. -/
  | blankOrEnd
deriving Repr, DecidableEq

/-- A pattern: pieces that follow one another. -/
abbrev Pattern := List Piece

/-- The spans of the capturing pieces, in order, each from its first position to the one behind
its last. -/
abbrev Captures := List (Nat × Nat)

namespace Piece

/-! ## Where a piece may end -/

/-- Does `word` stand at position `i`, in any case? -/
def standsAt (t : Array Char) : List Char → Nat → Bool
  | [], _ => true
  | c :: word, i => (t[i]?).any (sameFold c) && standsAt t word (i + 1)

/-- Is the character at position `i` a word character? -/
def wordAt (t : Array Char) (i : Nat) : Bool := (t[i]?).any isWord

/-- Is exactly one of the characters before and at position `i` a word character? -/
def isEdge (t : Array Char) (i : Nat) : Bool :=
  (0 < i && wordAt t (i - 1)) != wordAt t i

/-- The number of characters from position `i` to the next line feed, or to the end. -/
def lineLength (t : Array Char) (i : Nat) : Nat :=
  ((t.toList.drop i).takeWhile (· != '\n')).length

/-- The positions where a piece that starts at `i` may end, the preferred one first. -/
def ends (t : Array Char) (i : Nat) : Piece → List Nat
  | literal text => if standsAt t text i then [i + text.length] else []
  | wildcard => (List.range (lineLength t i + 1)).reverse.map (i + ·)
  | oneOf words =>
    let choices := if words.isEmpty then [[]] else words
    (choices.filter (standsAt t · i)).map (i + ·.length)
  | wordEdge => if isEdge t i then [i] else []
  | textStart => if i = 0 then [i] else []
  | textEnd => if i = t.size then [i] else []
  | startOrBlank => (if i = 0 then [i] else []) ++ if (t[i]?).any isBlank then [i + 1] else []
  | blankOrEnd => (if (t[i]?).any isBlank then [i + 1] else []) ++ if i = t.size then [i] else []

/-- Does the piece capture what it matches? -/
def captures : Piece → Bool
  | wildcard | oneOf _ => true
  | _ => false

/-- The captures of a match in which this piece spans `i` to `j` and the rest captures `cs`. -/
def capture (p : Piece) (i j : Nat) (cs : Captures) : Captures :=
  if p.captures then (i, j) :: cs else cs

/-! ## Notation -/

/-- The characters that have a meaning of their own in the notation. -/
def special : List Char :=
  ['\\', '.', '+', '*', '?', '(', ')', '|', '[', ']', '\x7b', '\x7d', '^', '$', '#', '&', '-', '~']

/-- Text in the notation: a backslash stands before each special character. -/
def escape (text : List Char) : List Char :=
  text.flatMap fun c ↦ if special.contains c then ['\\', c] else [c]

/-- A piece in the notation. -/
def render : Piece → List Char
  | literal text => escape text
  | wildcard => ['(', '.', '*', ')']
  | oneOf words => '(' :: ['|'].intercalate (words.map escape) ++ [')']
  | wordEdge => ['\\', 'b']
  | textStart => ['^']
  | textEnd => ['$']
  | startOrBlank => ['(', '?', ':', '^', '|', '\\', 's', ')']
  | blankOrEnd => ['(', '?', ':', '\\', 's', '|', '$', ')']

end Piece

namespace Pattern

/-- A pattern in the notation: its pieces one after the other. -/
def render (p : Pattern) : String := String.ofList (p.flatMap Piece.render)

/-- The preferred way to match a pattern from position `i` on, if there is one. -/
def match? (t : Array Char) : Pattern → Nat → Option Captures
  | [], _ => some []
  | p :: ps, i => (p.ends t i).findSome? fun j ↦ (match? t ps j).map (p.capture i j)

end Pattern

end Dialogue
