/-!
# Sets of characters as ranges of code points

A property of characters is given as a list of ranges. The tables list the code points from
U+0080 on only, because each property is stated directly for ASCII, where nearly all text lies.
-/

namespace Dialogue.Character

/-- A set of code points, as ascending ranges with both ends included. -/
abbrev Ranges := List (Nat × Nat)

/-- Does one of the ranges hold `n`? -/
def Ranges.contains (rs : Ranges) (n : Nat) : Bool :=
  rs.any fun r ↦ r.1 ≤ n && n ≤ r.2

theorem Ranges.contains_iff {rs : Ranges} {n : Nat} :
    rs.contains n = true ↔ ∃ r ∈ rs, r.1 ≤ n ∧ n ≤ r.2 := by
  simp [Ranges.contains]

end Dialogue.Character
