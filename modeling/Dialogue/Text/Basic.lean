/-!
# Text

What is said in a conversation, and what a script says about it, is text: a list of characters.
Documents and options hold strings, which become text where a script is compiled.
-/

namespace Dialogue

/-- A text as its characters. -/
abbrev Text := List Char

end Dialogue
