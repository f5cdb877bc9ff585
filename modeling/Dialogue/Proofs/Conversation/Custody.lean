import Dialogue.Conversation.Memory
import Mathlib.Data.List.Perm.Basic

/-!
# What becomes of the replies in memory

Replies go into memory one by one, and they leave it in three ways: one is given back, the oldest is
pushed out by a new one, or all are forgotten. A `Custody` is a memory in use that records which
reply went which way, so that the books can be balanced at any time: what was pushed is what has
left memory and what is still there.

The order in which replies are given back is up to the random numbers. But taking one out does not
move the others, so those that stay are in the order in which they were pushed.

The main statement, `Memory.loses_by_eviction_only`, is about all ways to use a memory.
-/

namespace Dialogue.Memory

/-! ## Uses -/

/-- What can be done with a memory. -/
inductive Use where
  | push (reply : Text)
  | pop (random : Bool)
  | clear
deriving Repr, DecidableEq

/-- The replies that make room for a new one: those in front that are no longer there when it has
been pushed. -/
def evictedBy (m : Memory) (reply : Text) : List Text :=
  (m.replies ++ [reply]).take (m.size + 1 - (m.push reply).size)

/-- A memory in use, with the random numbers for it, and a record of its replies. -/
structure Custody where
  memory : Memory
  draws : Draws
  /-- Those that were pushed. -/
  pushed : List Text := []
  /-- Those that were pushed since memory was last cleared. -/
  recent : List Text := []
  /-- Those that were given back. -/
  given : List Text := []
  /-- Those that made room for others. -/
  evicted : List Text := []
  /-- Those that were forgotten when memory was cleared. -/
  cleared : List Text := []

namespace Custody

/-- Uses the memory once. -/
def use (c : Custody) : Use → Custody
  | .push reply =>
    { c with
      memory := c.memory.push reply
      pushed := c.pushed ++ [reply]
      recent := c.recent ++ [reply]
      evicted := c.evicted ++ c.memory.evictedBy reply }
  | .pop random =>
    let (reply, memory, draws) := c.memory.pop random c.draws
    { c with memory, draws, given := c.given ++ reply.toList }
  | .clear =>
    { c with
      memory := c.memory.clear
      recent := []
      cleared := c.cleared ++ c.memory.replies }

/-- A new memory, used some times. -/
def run (capacity : Nat) (source : Source) (uses : List Use) : Custody :=
  uses.foldl use { memory := { capacity }, draws := { source } }

end Custody

/-! ## One use -/

theorem push_replies (m : Memory) (reply : Text) :
    m.evictedBy reply ++ (m.push reply).replies = m.replies ++ [reply] := by
  have hplaces : m.size + 1 - (m.push reply).size =
      (m.replies ++ [reply]).length - m.capacity := by
    simp only [size, push, List.length_drop, List.length_append, List.length_singleton]
    omega
  rw [evictedBy, hplaces, push, List.take_append_drop]

/-- A reply is evicted only if memory is full. It is the oldest, or the new one if memory holds
none. -/
theorem evictedBy_eq {m : Memory} (h : m.size ≤ m.capacity) (reply : Text) :
    m.evictedBy reply = if m.size < m.capacity then [] else [m.replies.headD reply] := by
  have hlength : (m.push reply).size = min (m.size + 1) m.capacity := by
    simp only [size, push, List.length_drop, List.length_append, List.length_singleton]
    omega
  split
  · rename_i hroom
    have hplaces : m.size + 1 - (m.push reply).size = 0 := by omega
    rw [evictedBy, hplaces, List.take_zero]
  · have hplaces : m.size + 1 - (m.push reply).size = 1 := by omega
    rw [evictedBy, hplaces]
    rcases m.replies with _ | ⟨oldest, rest⟩ <;> rfl

/-- Without randomness the oldest reply is given back, if there is one. -/
theorem pop_false (m : Memory) (d : Draws) :
    m.pop false d = (m.replies.head?, { m with replies := m.replies.tail }, d) := by
  obtain ⟨capacity, replies⟩ := m
  rcases replies with _ | ⟨oldest, rest⟩ <;> rfl

theorem pop_eq_none_iff (m : Memory) (random : Bool) (d : Draws) :
    (m.pop random d).1 = none ↔ m.replies = [] := by
  rcases m.pop_cases random d with ⟨hnil, hpop⟩ | ⟨place, reply, d', hreply, -, hpop⟩
  · simp [hpop, hnil]
  · rw [hpop]
    refine iff_of_false (Option.some_ne_none reply) fun hnil ↦ ?_
    rw [hnil] at hreply
    cases hreply

/-- What is popped was there, and all else stays as it is. -/
theorem pop_replies (m : Memory) (random : Bool) (d : Draws) :
    ((m.pop random d).1.toList ++ (m.pop random d).2.1.replies).Perm m.replies ∧
      (m.pop random d).2.1.replies.Sublist m.replies ∧
      (m.pop random d).2.1.capacity = m.capacity := by
  rcases m.pop_cases random d with ⟨-, hpop⟩ | ⟨place, reply, d', hreply, -, hpop⟩
  · rw [hpop]
    exact ⟨.refl _, .refl _, rfl⟩
  · obtain ⟨hplace, rfl⟩ := List.getElem?_eq_some_iff.1 hreply
    rw [hpop]
    exact ⟨List.getElem_cons_eraseIdx_perm hplace, List.eraseIdx_sublist _ _, rfl⟩

/-! ## All uses -/

namespace Custody

/-- The record of a memory is in order. -/
structure Balanced (capacity : Nat) (c : Custody) : Prop where
  capacity_eq : c.memory.capacity = capacity
  bounded : c.memory.size ≤ capacity
  /-- Memory holds replies that were pushed of late, in the order in which they were. -/
  ordered : c.memory.replies.Sublist c.recent
  /-- Every reply that was pushed went one way, or is still there. -/
  account : c.pushed.Perm (c.given ++ c.evicted ++ c.cleared ++ c.memory.replies)

variable {capacity : Nat} {c : Custody}

theorem use_pop (c : Custody) (random : Bool) :
    c.use (.pop random) =
      { c with
        memory := (c.memory.pop random c.draws).2.1
        draws := (c.memory.pop random c.draws).2.2
        given := c.given ++ (c.memory.pop random c.draws).1.toList } := rfl

theorem Balanced.push (h : c.Balanced capacity) (reply : Text) :
    (c.use (.push reply)).Balanced capacity where
  capacity_eq := h.capacity_eq
  bounded := h.capacity_eq ▸ c.memory.size_push_le reply
  ordered := (List.drop_sublist _ _).trans (h.ordered.append_right [reply])
  account := by
    have hsplit := c.memory.push_replies reply
    rw [List.perm_iff_count]
    intro text
    have haccount := h.account.count_eq text
    have hcount := congrArg (List.count text) hsplit
    simp only [use, List.count_append] at haccount hcount ⊢
    omega

theorem Balanced.pop (h : c.Balanced capacity) (random : Bool) :
    (c.use (.pop random)).Balanced capacity := by
  obtain ⟨hperm, hsublist, hcapacity⟩ := c.memory.pop_replies random c.draws
  rw [use_pop]
  refine ⟨hcapacity.trans h.capacity_eq, Nat.le_trans hsublist.length_le h.bounded,
    hsublist.trans h.ordered, List.perm_iff_count.2 fun text ↦ ?_⟩
  have haccount := h.account.count_eq text
  have hcount := hperm.count_eq text
  simp only [List.count_append] at haccount hcount ⊢
  omega

theorem Balanced.clear (h : c.Balanced capacity) : (c.use .clear).Balanced capacity where
  capacity_eq := h.capacity_eq
  bounded := Nat.zero_le _
  ordered := .refl _
  account := by
    refine h.account.trans (.of_eq ?_)
    simp only [use, Memory.clear, List.append_nil, List.append_assoc]

theorem Balanced.use (h : c.Balanced capacity) (u : Use) : (c.use u).Balanced capacity := by
  cases u with
  | push reply => exact h.push reply
  | pop random => exact h.pop random
  | clear => exact h.clear

/-- **The books are balanced** however a memory was used. -/
theorem balanced_run (capacity : Nat) (source : Source) (uses : List Use) :
    (run capacity source uses).Balanced capacity :=
  List.foldlRecOn _ _ ⟨rfl, Nat.zero_le _, .refl _, .refl _⟩ fun _ hc u _ ↦ hc.use u

end Custody

/-- **Memory loses replies by eviction only.** However a new memory was used, it holds no more
replies than there is room for, and they are some of those that were pushed since it was last
cleared, in the same order. What was pushed at all is, each reply as often as it was pushed, what
was given back, evicted, cleared, and what is still there. Whatever is pushed next evicts nothing if
there is room, and else only the oldest reply, or itself if there is none. Popping gives the oldest
reply if it is not to be random, and it gives none only if memory is empty. -/
theorem loses_by_eviction_only (capacity : Nat) (source : Source) (uses : List Use) :
    let c := Custody.run capacity source uses
    let m := c.memory
    (m.size ≤ capacity ∧ m.replies.Sublist c.recent ∧
      c.pushed.Perm (c.given ++ c.evicted ++ c.cleared ++ m.replies)) ∧
    (∀ reply, m.evictedBy reply ++ (m.push reply).replies = m.replies ++ [reply] ∧
      m.evictedBy reply = if m.size < capacity then [] else [m.replies.headD reply]) ∧
    (∀ d, m.pop false d = (m.replies.head?, { m with replies := m.replies.tail }, d)) ∧
    ∀ random d, (m.pop random d).1 = none ↔ m.replies = [] := by
  intro c m
  have h : c.Balanced capacity := Custody.balanced_run capacity source uses
  refine ⟨⟨h.bounded, h.ordered, h.account⟩, fun reply ↦ ⟨m.push_replies reply, ?_⟩, m.pop_false,
    m.pop_eq_none_iff⟩
  rw [evictedBy_eq (h.capacity_eq.symm ▸ h.bounded), h.capacity_eq]

/-- With room for two, the third reply evicts the first one, and the second is given back. -/
example (source : Source) :
    let c := Custody.run 2 source [.push ['a'], .push ['b'], .push ['c'], .pop false, .clear]
    c.evicted = [['a']] ∧ c.given = [['b']] ∧ c.cleared = [['c']] := ⟨rfl, rfl, rfl⟩

end Dialogue.Memory
