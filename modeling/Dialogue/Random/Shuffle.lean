import Dialogue.Random.Draws

/-!
# Shuffling

`shuffleFrom` goes through the places to be shuffled from the last to the first and exchanges each
with a place drawn from those up to it. Every number drawn below a bound serves one place, so each
arrangement comes from exactly one sequence of draws.
-/

namespace Dialogue.Draws

variable {α : Type}

/-- Shuffles the first `n` places behind the first `keep`. -/
def shuffleFrom (d : Draws) (keep : Nat) : Nat → Array α → Array α × Draws
  | 0, items => (items, d)
  | n + 1, items =>
    let (place, d) := d.below (n + 1)
    shuffleFrom d keep n (items.swapIfInBounds (keep + n) (keep + place))

/-- Shuffles everything behind the first `keep` places. -/
def shuffleTail (d : Draws) (keep : Nat) (items : Array α) : Array α × Draws :=
  d.shuffleFrom keep (items.size - keep) items

/-- Shuffles a sequence. -/
def shuffle (d : Draws) (items : Array α) : Array α × Draws := d.shuffleTail 0 items

theorem size_shuffleFrom (d : Draws) (keep n : Nat) (items : Array α) :
    (d.shuffleFrom keep n items).1.size = items.size := by
  induction n generalizing items d with
  | zero => rfl
  | succ n ih => rw [shuffleFrom, ih, Array.size_swapIfInBounds]

theorem swapIfInBounds_perm (items : Array α) (p q : Nat) :
    (items.swapIfInBounds p q).Perm items := by
  rw [Array.swapIfInBounds_def]
  split
  · split
    · exact Array.swap_perm _ _
    · exact .refl _
  · exact .refl _

/-- Shuffling loses nothing and adds nothing. -/
theorem shuffleFrom_perm (d : Draws) (keep n : Nat) (items : Array α) :
    (d.shuffleFrom keep n items).1.Perm items := by
  induction n generalizing items d with
  | zero => exact .refl _
  | succ n ih =>
    rw [shuffleFrom]
    exact (ih _ _).trans (swapIfInBounds_perm items _ _)

end Dialogue.Draws
