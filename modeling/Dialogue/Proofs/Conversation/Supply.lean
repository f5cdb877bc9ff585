import Dialogue.Proofs.Conversation.Fairness
import Dialogue.Proofs.Conversation.Restart

/-!
# Rules never run out of replies

In a conversation, the cycle of a rule always goes over the replies of the rule, each of which has
one place in it, even if replies are chosen at random. So a rule that has replies gives one of them
whenever it is asked, and a rule without any leaves the state as it is.
-/

namespace Dialogue

namespace Cycle

variable {n : Nat} {c : Cycle}

/-- The cycle goes over the indices below `n`. -/
def Over (n : Nat) (c : Cycle) : Prop := c.order.toList.Perm (List.range n)

theorem over_ofSize (n : Nat) : (ofSize n).Over n := by
  rw [Over, ofSize, Array.toList_range]

theorem Over.size_eq (h : c.Over n) : c.size = n := by
  rw [size, ← Array.length_toList, h.length_eq, List.length_range]

/-- What stands at a place is an index. -/
theorem Over.exists_lt (h : c.Over n) {place : Nat} (hplace : place < n) :
    ∃ index < n, c.order[place]? = some index := by
  have hlt : place < c.order.size := hplace.trans_eq h.size_eq.symm
  refine ⟨c.order[place], ?_, Array.getElem?_eq_getElem hlt⟩
  exact List.mem_range.1 (h.mem_iff.1 (Array.getElem_mem_toList hlt))

theorem Over.reset (h : c.Over n) : c.reset.Over n := by
  rw [reset_eq_ofSize, h.size_eq]
  exact over_ofSize n

/-- A cycle goes on over the same indices, and gives one if there is one. -/
theorem Over.advance (h : c.Over n) (shuffle : Option Nat) (d : Draws) :
    (c.advance shuffle d).2.1.Over n ∧
      (0 < n → ∃ index < n, (c.advance shuffle d).1 = some index) := by
  have hgoes {order : Array Nat} (horder : order.toList.Perm c.order.toList) :
      Over n { order, last := some c.due } ∧ (0 < n → ∃ index < n, order[c.due]? = some index) := by
    have hover : Over n { order, last := some c.due } := horder.trans h
    refine ⟨hover, fun hn ↦ hover.exists_lt ?_⟩
    rw [← h.size_eq] at hn ⊢
    exact due_lt hn
  rw [Cycle.advance]
  split
  · rename_i hsize
    exact ⟨h, fun hn ↦ absurd (h.size_eq.symm.trans hsize) (Nat.ne_of_gt hn)⟩
  · rcases shuffle with _ | keep
    · exact hgoes (.refl _)
    · have hshuffled : (d.shuffleTail keep c.order).1.toList.Perm c.order.toList :=
        (d.shuffleFrom_perm keep _ c.order).toList
      by_cases hdue : c.due = 0
      · simpa only [hdue, if_true] using hgoes hshuffled
      · simpa only [hdue, if_false] using hgoes (.refl _)

theorem Over.pick (h : c.Over n) (d : Draws) :
    (c.pick d).2.1.Over n ∧ (0 < n → ∃ index < n, (c.pick d).1 = some index) := by
  rw [Cycle.pick]
  split
  · rename_i hsize
    exact ⟨h, fun hn ↦ absurd (h.size_eq.symm.trans hsize) (Nat.ne_of_gt hn)⟩
  · refine ⟨h, fun hn ↦ h.exists_lt ?_⟩
    rw [← h.size_eq] at hn ⊢
    exact Draws.below_lt hn d

end Cycle

/-- A pool chooses from a cycle over its replies if it has any. -/
theorem Pool.over_choose {script : Script} {n : Nat} {c : Cycle} (h : c.Over n) (pool : Pool)
    (d : Draws) : (pool.choose script c d).2.1.Over n ∧
      (0 < n → ∃ index < n, (pool.choose script c d).1 = some index) := by
  rcases pool with _ | _ | _ | _ | ⟨k, i⟩
  · exact h.advance _ d
  · exact h.advance _ d
  · exact h.advance _ d
  · exact h.advance _ d
  · rw [choose]
    split
    · exact h.pick d
    · exact h.advance _ d

namespace State

variable {script : Script} {s : State} {k i : Nat} {rule : Rule}

/-- Every rule has a cycle over its replies. -/
def Supplied (script : Script) (s : State) : Prop :=
  ∀ k i rule, script.rule? k i = some rule →
    ∃ c, s.cycle? script (.rule k i) = some c ∧ c.Over rule.replies.length

theorem supplied_start (source : Source) : (start script source).Supplied script := by
  intro k i rule hrule
  rw [cycle?_start, hrule]
  exact ⟨_, rfl, Cycle.over_ofSize _⟩

theorem Supplied.nextReply (h : s.Supplied script) (hrule : script.rule? k i = some rule) :
    (s.nextReply script k i rule).2.Supplied script := by
  intro l j other hother
  obtain ⟨c, hcycle, hover⟩ := h l j other hother
  rw [cycle?_nextReply hrule, hcycle]
  split
  · exact ⟨_, rfl, (Pool.over_choose hover _ _).1⟩
  · exact ⟨c, rfl, hover⟩

theorem Supplied.restart (h : s.Supplied script) (source : Source) :
    (s.restart source).Supplied script := by
  intro k i rule hrule
  obtain ⟨c, hcycle, hover⟩ := h k i rule hrule
  rw [cycle?_restart, hcycle]
  exact ⟨_, rfl, hover.reset⟩

/-- **Whatever is done in a conversation, its rules are supplied.** -/
theorem kept_supplied (script : Script) : script.Kept (Supplied script) where
  nextReply hk hi h := h.nextReply (Option.bind_eq_some_iff.2 ⟨_, hk, hi⟩)
  remember h := h
  recollect h := h
  evade h := h
  prompt h := h
  greet h := h
  bidFarewell h := h
  quit h := h
  restart h := h.restart _

theorem Supplied.exists_cycle (h : s.Supplied script) (hrule : script.rule? k i = some rule) :
    ∃ c, s.rules[k]?.bind (·[i]?) = some c ∧ c.Over rule.replies.length := by
  obtain ⟨c, hcycle, hover⟩ := h k i rule hrule
  rw [cycle?, hrule, Option.bind_some] at hcycle
  exact ⟨c, hcycle, hover⟩

/-- A rule that has replies gives one of them. -/
theorem Supplied.exists_template (h : s.Supplied script) (hrule : script.rule? k i = some rule)
    (hne : rule.replies ≠ []) : ∃ template t, s.nextReply script k i rule = (some template, t) := by
  obtain ⟨c, hcycle, hover⟩ := h.exists_cycle hrule
  obtain ⟨index, hlt, hindex⟩ :=
    (Pool.over_choose hover (.rule k i) s.draws).2 (List.length_pos_of_ne_nil hne)
  have hreply : rule.replies[index]? = some rule.replies[index] := List.getElem?_eq_getElem hlt
  refine ⟨rule.replies[index], (s.nextReply script k i rule).2, Prod.ext ?_ rfl⟩
  rw [nextReply_eq hcycle]
  dsimp only
  rw [hindex, Option.bind_some, hreply]

/-- A rule without replies changes nothing. -/
theorem Supplied.nextReply_of_nil (h : s.Supplied script) (hrule : script.rule? k i = some rule)
    (hnil : rule.replies = []) : s.nextReply script k i rule = (none, s) := by
  obtain ⟨c, hcycle, hover⟩ := h.exists_cycle hrule
  have hsize : c.size = 0 := by rw [hover.size_eq, hnil, List.length_nil]
  have hchoose : (Pool.rule k i).choose script c s.draws = (none, c, s.draws) := by
    rw [Pool.choose, Cycle.pick, Cycle.advance, if_pos hsize, if_pos hsize, ite_self]
  have hrules : s.rules.modify k (·.set i c) = s.rules := by
    obtain ⟨cycles, hk, hi⟩ := Option.bind_eq_some_iff.1 hcycle
    have hset : cycles.set i c = cycles := by
      obtain ⟨hlt, rfl⟩ := List.getElem?_eq_some_iff.1 hi
      exact List.set_getElem_self hlt
    refine List.ext_getElem? fun l ↦ ?_
    rw [List.getElem?_modify]
    split
    · rename_i hl
      rw [← hl, hk, Option.map_eq_map, Option.map_some, hset]
    · exact Option.map_id_apply
  rw [nextReply_eq hcycle, hchoose]
  dsimp only
  rw [hrules]
  rfl

end State

end Dialogue
