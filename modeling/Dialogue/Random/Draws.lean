/-!
# Drawing random numbers

A conversation takes its random numbers from a `Source`, an endless sequence of floating-point
numbers that is fixed from the start, and `Draws` says how many of them it has taken. So the only
thing that a random choice changes is a position, and two conversations with equal sources and
positions make the same choices.

The numbers of a source should be at least 0 and below 1, but nothing here relies on it:
`Draws.below` brings every number into range, even those that are not numbers at all.
-/

namespace Dialogue

/-- An endless sequence of numbers. -/
abbrev Source := Nat → Float

/-- The source that hands out the numbers of a list over and over, or zeros if it is empty. -/
def Source.repeating (numbers : List Float) : Source :=
  let numbers := numbers.toArray
  fun n ↦ numbers.getD (n % numbers.size) 0.0

/-- A source and how many of its numbers have been drawn. -/
structure Draws where
  source : Source
  drawn : Nat := 0

namespace Draws

/-- The next number. -/
def next (d : Draws) : Float × Draws := (d.source d.drawn, { d with drawn := d.drawn + 1 })

/-- The whole number that a number stands for among those below `n + 1`: numbers from 0 to 1 are
divided evenly, and others count as the nearest of them. -/
def toBelow (n : Nat) (x : Float) : Nat :=
  min ((x * (UInt64.ofNat (n + 1)).toFloat).floor.toUInt64.toNat) n

/-- A whole number below `n`. If there is none it is zero, and nothing is drawn. -/
def below (n : Nat) (d : Draws) : Nat × Draws :=
  match n with
  | 0 => (0, d)
  | n + 1 => (toBelow n d.next.1, d.next.2)

theorem below_lt {n : Nat} (h : 0 < n) (d : Draws) : (d.below n).1 < n := by
  obtain ⟨m, rfl⟩ : ∃ m, n = m + 1 := ⟨n - 1, by omega⟩
  exact Nat.lt_succ_of_le (Nat.min_le_right _ _)

end Draws

end Dialogue
