import Dialogue.Options
import Dialogue.Substitution
import Dialogue.Template

/-!
# Scripts

A script is all that one side of a conversation knows. Its keywords say which words of the input
it reacts to; the rules of a keyword say how an input is taken apart and which replies may be made
from the pieces. Besides there are pools of ready replies for turns without a keyword, words that
end the conversation, and two tables of substitutions.

A script does not change while it is in use, so any number of conversations can share one.
-/

namespace Dialogue

/-- A way to take an input apart, and the replies that can be made from the pieces. -/
structure Rule where
  /-- The decomposition as declared, without its memory marker. -/
  decomposition : Text
  /-- The pattern of the decomposition. -/
  pattern : Pattern
  /-- The replies, with references to captures, in the order of declaration. -/
  replies : List Text
  /-- Are the replies kept for a later turn? -/
  memorized : Bool
deriving Repr, DecidableEq

namespace Rule

/-- What the pieces of an input capture, if the rule fits it. -/
def decompose (rule : Rule) (part : Text) : Option (List Text) := rule.pattern.capture? part

end Rule

/-- A word or phrase that the script reacts to. -/
structure Keyword where
  key : Text
  /-- Keywords of higher rank are tried first. -/
  rank : Int
  /-- Are all replies kept for a later turn? -/
  memorized : Bool
  /-- The rules in the order of declaration. -/
  rules : List Rule
  /-- The position among the declared keywords, which decides between equal ranks. -/
  position : Nat
  /-- The pattern that finds the keyword in an input. -/
  matcher : Pattern
deriving Repr, DecidableEq

namespace Keyword

/-- Does the keyword occur in a part of the input? -/
def isIn (keyword : Keyword) (part : Text) : Bool := keyword.matcher.occursIn part.toArray

/-- Is `k` tried before `l`, or are they the same? -/
def precedes (k l : Keyword) : Bool :=
  l.rank < k.rank || (k.rank == l.rank && k.position ≤ l.position)

end Keyword

/-- What one side of a conversation knows. -/
structure Script where
  options : Options
  /-- Replies that open a conversation. -/
  greetings : List Text
  /-- Replies that close a conversation. -/
  farewells : List Text
  /-- The parts of an input that end the conversation. -/
  quitParts : List Text
  /-- The phrases that end the conversation wherever they stand. -/
  quitPhrases : List Text
  /-- Replies for inputs that nothing else answers. -/
  evasions : List Text
  /-- Replies for empty inputs. -/
  prompts : List Text
  /-- What is substituted in an input before keywords are looked for. -/
  pre : Substitution
  /-- What is substituted in captures before they enter a reply. -/
  post : Substitution
  tags : Tags
  /-- The keywords in the order in which they are tried. -/
  keywords : List Keyword

namespace Script

/-- The place of the first keyword with some key. -/
def keywordIndex? (script : Script) (key : Text) : Option Nat :=
  script.keywords.findIdx? (·.key == key)

end Script

end Dialogue
