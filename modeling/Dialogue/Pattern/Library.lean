import Dialogue.Pattern.Basic

/-!
# The library that builds patterns

A pattern is matched by a program that a library of regular expressions builds from its notation.
The library may refuse to. Text is escaped, so every notation here is well formed, but a library
also limits the memory that one program may take, and only the library knows how much that is. So
a `Library` is known here by the expressions that it refuses and by what it says of them.
-/

namespace Dialogue

/-- A regular expression, as it is handed to a library. -/
structure Expression where
  text : List Char
  /-- Are letters matched in any case? -/
  anyCase : Bool
deriving Repr, DecidableEq

/-- The expression that a pattern is matched by. -/
def Pattern.expression (p : Pattern) : Expression := ⟨p.flatMap Piece.render, true⟩

/-- A library of regular expressions. -/
structure Library where
  /-- What the library says of an expression that it refuses to build. -/
  refusal? : Expression → Option String

namespace Library

/-- The library builds the expression. -/
def Builds (library : Library) (e : Expression) : Prop := library.refusal? e = none

instance (library : Library) (e : Expression) : Decidable (library.Builds e) :=
  inferInstanceAs (Decidable (_ = none))

/-- The library that builds every expression. -/
def boundless : Library where
  refusal? _ := none

/-- A library that builds an expression if its program, which takes some number of bytes, is within
a limit. -/
def limited (size : Expression → Nat) (limit : Nat) : Library where
  refusal? e :=
    if size e ≤ limit then none else some s!"Compiled regex exceeds size limit of {limit} bytes."

end Library

end Dialogue
