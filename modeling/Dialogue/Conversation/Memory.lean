import Dialogue.Random.Draws
import Dialogue.Text.Basic

/-!
# Memory

Replies that are kept for a later turn, the oldest first. Memory is bounded: a reply that does not
fit any more pushes out the oldest one, which is the new reply itself if there is no room at all.
-/

namespace Dialogue

/-- The replies kept, from the oldest to the newest, and how many of them there may be. -/
structure Memory where
  capacity : Nat
  replies : List Text := []
deriving Repr, DecidableEq

namespace Memory

/-- The number of replies kept. -/
def size (m : Memory) : Nat := m.replies.length

/-- Is no reply kept? -/
def isEmpty (m : Memory) : Bool := m.replies.isEmpty

/-- Keeps a reply, and of all only the newest that there is room for. -/
def push (m : Memory) (reply : Text) : Memory :=
  let replies := m.replies ++ [reply]
  { m with replies := replies.drop (replies.length - m.capacity) }

/-- Takes out the oldest reply, or one drawn at random. -/
def pop (m : Memory) (random : Bool) (d : Draws) : Option Text × Memory × Draws :=
  match m.replies with
  | [] => (none, m, d)
  | oldest :: rest =>
    if random then
      let (place, d) := d.below m.replies.length
      (m.replies[place]?, { m with replies := m.replies.eraseIdx place }, d)
    else (some oldest, { m with replies := rest }, d)

/-- Forgets everything. -/
def clear (m : Memory) : Memory := { m with replies := [] }

theorem size_push_le (m : Memory) (reply : Text) : (m.push reply).size ≤ m.capacity := by
  simp [push, size]
  omega

/-- Unless memory is empty, popping takes out the reply at some place, without randomness the first
one. -/
theorem pop_cases (m : Memory) (random : Bool) (d : Draws) :
    m.replies = [] ∧ m.pop random d = (none, m, d) ∨
    ∃ place reply d', m.replies[place]? = some reply ∧ (random = false → place = 0 ∧ d' = d) ∧
      m.pop random d = (some reply, { m with replies := m.replies.eraseIdx place }, d') := by
  rw [pop]
  split
  · rename_i hreplies
    exact .inl ⟨hreplies, rfl⟩
  · rename_i oldest rest hreplies
    refine .inr ?_
    by_cases hrandom : random = true
    · have hplace : (d.below m.replies.length).1 < m.replies.length := by
        refine Draws.below_lt ?_ d
        rw [hreplies]
        exact Nat.succ_pos _
      refine ⟨(d.below m.replies.length).1, _, (d.below m.replies.length).2,
        List.getElem?_eq_getElem hplace, by simp [hrandom], ?_⟩
      rw [if_pos hrandom]
      dsimp only
      rw [List.getElem?_eq_getElem hplace]
    · refine ⟨0, oldest, d, ?_, fun _ ↦ ⟨rfl, rfl⟩, ?_⟩
      · rw [hreplies]
        rfl
      · rw [if_neg hrandom, hreplies]
        rfl

end Memory

end Dialogue
