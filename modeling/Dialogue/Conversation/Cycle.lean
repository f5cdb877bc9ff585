import Dialogue.Random.Shuffle

/-!
# Cycles

The replies of a pool, and those of a rule, are used in turn. A `Cycle` says in which order and
which one was used last; it knows the replies by their indices only. When a cycle starts, its
order may be shuffled behind the first few indices, which stay where they are.
-/

namespace Dialogue

/-- An order of some indices, and the place in it that was used last. -/
structure Cycle where
  order : Array Nat
  last : Option Nat := none
deriving Repr, DecidableEq

namespace Cycle

/-- The unused cycle of the indices below `n`. -/
def ofSize (n : Nat) : Cycle := { order := Array.range n }

/-- The number of indices. -/
def size (c : Cycle) : Nat := c.order.size

/-- The cycle as if it had never been used: every place holds its own index again. -/
def reset (c : Cycle) : Cycle := { order := c.order.mapIdx fun place _ ↦ place }

/-- The place that is due: the one behind the last, or the first when the cycle starts. -/
def due (c : Cycle) : Nat :=
  match c.last with
  | none => 0
  | some place => if place + 1 < c.size then place + 1 else 0

/-- The next index. When the cycle starts and `shuffle` is a number, all places but that many at
the front are shuffled first. A cycle without indices has none to give. -/
def advance (c : Cycle) (shuffle : Option Nat) (d : Draws) : Option Nat × Cycle × Draws :=
  if c.size = 0 then (none, c, d)
  else
    let place := c.due
    let (order, d) :=
      match shuffle with
      | some keep => if place = 0 then d.shuffleTail keep c.order else (c.order, d)
      | none => (c.order, d)
    (order[place]?, { order, last := some place }, d)

/-- An index drawn at random. -/
def pick (c : Cycle) (d : Draws) : Option Nat × Cycle × Draws :=
  if c.size = 0 then (none, c, d)
  else
    let (place, d) := d.below c.size
    (c.order[place]?, { c with last := some place }, d)

theorem due_lt {c : Cycle} (h : 0 < c.size) : c.due < c.size := by
  rw [due]
  split
  · exact h
  · split <;> omega

end Cycle

end Dialogue
