import Dialogue.Conversation.Cycle
import Dialogue.Proofs.Conversation.Restart
import Dialogue.Proofs.Random.Shuffle
import Mathlib.Data.List.Infix

/-!
# Cycles go in rounds

A cycle gives its indices in rounds. In each round every index has its turn once, and those that
keep their places come first and in order. Shuffling at the start of a round arranges the round
anew, so it never touches one that has begun.

What a cycle has given since it was unused is its *log*. A cycle that `Follows` its log stands at
the end of it: the log is some complete rounds and the part of the current order up to the last
place used. Advancing keeps this, and cutting such a log into blocks gives the rounds back.
-/

namespace Dialogue

/-! ## Arrangements -/

/-- The list has every index below `n` once, and it starts with the first `keep` of them in
order. -/
structure Arrangement (n keep : Nat) (order : List Nat) : Prop where
  perm : order.Perm (List.range n)
  ordered : order.take keep <+: List.range n

namespace Arrangement

variable {n keep : Nat} {order : List Nat}

theorem length_eq (h : Arrangement n keep order) : order.length = n := by
  rw [h.perm.length_eq, List.length_range]

theorem range (n keep : Nat) : Arrangement n keep (List.range n) where
  perm := .refl _
  ordered := List.take_prefix _ _

end Arrangement

namespace Draws

theorem arrangement_shuffleTail {d : Draws} {n keep : Nat} {items : Array Nat}
    (h : Arrangement n keep items.toList) :
    Arrangement n keep (d.shuffleTail keep items).1.toList where
  perm := (d.shuffleFrom_perm keep _ items).toList.trans h.perm
  ordered := by
    rw [take_shuffleTail]
    exact h.ordered

end Draws

/-! ## Blocks -/

/-- The block of the given number, if the list is cut into blocks of `n`. -/
def block (n number : Nat) (log : List Nat) : List Nat := (log.drop (number * n)).take n

/-- Cut into blocks of `n`, the list has every index below `n` once in each complete block, and
none twice in the last one. Each block starts with the first `keep` indices in order, as far as it
goes. -/
structure Fair (n keep : Nat) (log : List Nat) : Prop where
  lt : ∀ index ∈ log, index < n
  nodup (number : Nat) : (block n number log).Nodup
  perm (number : Nat) : (block n number log).length = n →
    (block n number log).Perm (List.range n)
  ordered (number : Nat) : (block n number log).take keep <+: List.range n

namespace Fair

variable {α : Type} {n keep number index : Nat} {log : List Nat}

/-- A complete round meets every entry of a list once. -/
theorem countP_block {entries : List α} (h : Fair entries.length keep log) (p : α → Bool)
    (hcomplete : (block entries.length number log).length = entries.length) :
    (block entries.length number log).countP (fun index ↦ entries[index]?.any p) =
      entries.countP p := by
  have hentries : (List.range entries.length).map (entries[·]?) = entries.map some := by
    apply List.ext_getElem?
    intro index
    by_cases hindex : index < entries.length
    · simp [hindex]
    · simp [hindex]
  calc (block entries.length number log).countP (fun index ↦ entries[index]?.any p)
      = (List.range entries.length).countP (fun index ↦ entries[index]?.any p) :=
        (h.perm number hcomplete).countP_eq _
    _ = ((List.range entries.length).map (entries[·]?)).countP (Option.any p) := by
        rw [List.countP_map]
        rfl
    _ = entries.countP p := by
        rw [hentries, List.countP_map]
        rfl

/-- Where every index keeps its place, the next one is known from how many there were. -/
theorem eq_length_mod (h : Fair n n (log ++ [index])) : index = log.length % n := by
  have hn : 0 < n := Nat.zero_lt_of_lt (h.lt index (by simp))
  have hlength := Nat.div_add_mod' log.length n
  have hmod := Nat.mod_lt log.length hn
  -- the round that has begun, up to this index
  have hround : (block n (log.length / n) (log ++ [index])).take n =
      log.drop (log.length / n * n) ++ [index] := by
    rw [block, List.take_take, Nat.min_self, List.drop_append_of_le_length (by omega),
      List.take_of_length_le]
    rw [List.length_append, List.length_drop, List.length_singleton]
    omega
  have hprefix := h.ordered (log.length / n)
  rw [hround] at hprefix
  have hlast := hprefix.getElem (i := log.length % n)
    (by rw [List.length_append, List.length_drop, List.length_singleton]; omega)
  rw [List.getElem_range, List.getElem_append_right] at hlast
  · simpa using hlast
  · rw [List.length_drop]
    omega

end Fair

section Rounds

variable {n keep : Nat} {rounds : List (List Nat)} {order begun : List Nat}

/-- Each block of complete rounds and one that has begun is a round or the beginning of one. -/
theorem exists_block_prefix (hrounds : ∀ round ∈ rounds, Arrangement n keep round)
    (horder : Arrangement n keep order) (hbegun : begun <+: order) (number : Nat) :
    ∃ round, Arrangement n keep round ∧ block n number (rounds.flatten ++ begun) <+: round := by
  induction rounds generalizing number with
  | nil =>
    refine ⟨order, horder, ?_⟩
    rw [List.flatten_nil, List.nil_append, block]
    cases number with
    | zero =>
      rw [Nat.zero_mul, List.drop_zero]
      exact (List.take_prefix _ _).trans hbegun
    | succ number =>
      have hlength : begun.length ≤ (number + 1) * n := by
        rw [Nat.succ_mul]
        exact (hbegun.length_le.trans horder.length_eq.le).trans (Nat.le_add_left _ _)
      rw [List.drop_eq_nil_of_le hlength, List.take_nil]
      exact List.nil_prefix
  | cons round rounds ih =>
    have hround := hrounds round List.mem_cons_self
    have hlength := hround.length_eq
    rw [List.flatten_cons, List.append_assoc]
    cases number with
    | zero =>
      refine ⟨round, hround, ?_⟩
      rw [block, Nat.zero_mul, List.drop_zero, List.take_left' hlength]
    | succ number =>
      have hdrop : (round ++ (rounds.flatten ++ begun)).drop ((number + 1) * n) =
          (rounds.flatten ++ begun).drop (number * n) := by
        rw [Nat.succ_mul, Nat.add_comm, ← List.drop_drop, List.drop_left' hlength]
      rw [block, hdrop]
      exact ih (fun r hr ↦ hrounds r (List.mem_cons_of_mem _ hr)) number

/-- **Rounds are fair.** -/
theorem fair_flatten_append (hrounds : ∀ round ∈ rounds, Arrangement n keep round)
    (horder : Arrangement n keep order) (hbegun : begun <+: order) :
    Fair n keep (rounds.flatten ++ begun) where
  lt index hindex := by
    have hrange {round : List Nat} (hround : Arrangement n keep round) (hmem : index ∈ round) :
        index < n := List.mem_range.1 (hround.perm.mem_iff.1 hmem)
    rcases List.mem_append.1 hindex with hflatten | hlast
    · obtain ⟨round, hround, hmem⟩ := List.mem_flatten.1 hflatten
      exact hrange (hrounds round hround) hmem
    · exact hrange horder (hbegun.subset hlast)
  nodup number := by
    obtain ⟨round, hround, hbegins⟩ := exists_block_prefix hrounds horder hbegun number
    exact (hround.perm.nodup_iff.2 List.nodup_range).sublist hbegins.sublist
  perm number hlength := by
    obtain ⟨round, hround, hbegins⟩ := exists_block_prefix hrounds horder hbegun number
    rw [hbegins.eq_of_length (hlength.trans hround.length_eq.symm)]
    exact hround.perm
  ordered number := by
    obtain ⟨round, hround, hbegins⟩ := exists_block_prefix hrounds horder hbegun number
    exact (hbegins.take keep).trans hround.ordered

end Rounds

/-! ## Advancing -/

namespace Cycle

variable {n keep : Nat} {c : Cycle} {log : List Nat}

/-- The part of the round that has had its turn. -/
def begun (c : Cycle) : List Nat :=
  match c.last with
  | none => []
  | some place => c.order.toList.take (place + 1)

theorem begun_used (order : Array Nat) (place : Nat) :
    begun { order, last := some place } = order.toList.take (place + 1) := rfl

theorem begun_prefix (c : Cycle) : c.begun <+: c.order.toList := by
  rw [begun]
  split
  · exact List.nil_prefix
  · exact List.take_prefix _ _

/-- When the first place is due, the round has not begun or is complete. -/
theorem begun_of_due_eq_zero (h : c.due = 0) : c.begun = [] ∨ c.begun = c.order.toList := by
  rw [begun]
  rw [due] at h
  rcases hlast : c.last with _ | place
  · exact .inl rfl
  · rw [hlast] at h
    have hlt : ¬ place + 1 < c.order.size := by
      intro hlt
      exact absurd ((if_pos hlt).symm.trans h) (Nat.succ_ne_zero place)
    refine .inr (List.take_of_length_le ?_)
    rw [Array.length_toList]
    exact Nat.le_of_not_lt hlt

/-- When another place is due, those in front of it have had their turn. -/
theorem begun_of_due_ne_zero (h : c.due ≠ 0) : c.begun = c.order.toList.take c.due := by
  rw [begun]
  rw [due] at h ⊢
  rcases hlast : c.last with _ | place
  · rw [hlast] at h
    exact absurd rfl h
  · rw [hlast] at h
    have hlt : place + 1 < c.size := by
      refine Classical.not_not.1 fun hge ↦ h ?_
      exact if_neg hge
    dsimp only
    rw [if_pos hlt]

/-- A cycle that has indices gives one of them. -/
theorem exists_advance {c : Cycle} (h : 0 < c.size) (shuffle : Option Nat) (d : Draws) :
    ∃ index, (c.advance shuffle d).1 = some index := by
  have hgive {order : Array Nat} (hsize : order.size = c.size) :
      ∃ index, order[c.due]? = some index :=
    ⟨_, Array.getElem?_eq_getElem (hsize ▸ due_lt h)⟩
  rw [advance, if_neg (Nat.ne_of_gt h)]
  rcases shuffle with _ | keep
  · exact hgive rfl
  · by_cases hdue : c.due = 0
    · simp only [hdue, if_true]
      rw [← hdue]
      exact hgive (Draws.size_shuffleFrom d keep _ c.order)
    · simp only [hdue, if_false]
      exact hgive rfl

/-- The cycle has given the indices of a log, in rounds. -/
structure Follows (n keep : Nat) (c : Cycle) (log : List Nat) : Prop where
  arranged : Arrangement n keep c.order.toList
  rounds : ∃ rounds : List (List Nat), (∀ round ∈ rounds, Arrangement n keep round) ∧
    log = rounds.flatten ++ c.begun

theorem Follows.fair (h : c.Follows n keep log) : Fair n keep log := by
  obtain ⟨rounds, hrounds, rfl⟩ := h.rounds
  exact fair_flatten_append hrounds h.arranged c.begun_prefix

/-- An unused cycle has given nothing. -/
theorem follows_ofSize (n keep : Nat) : (ofSize n).Follows n keep [] where
  arranged := by
    rw [ofSize, Array.toList_range]
    exact .range n keep
  rounds := ⟨[], by simp, rfl⟩

theorem Follows.reset (h : c.Follows n keep log) : c.reset.Follows n keep [] := by
  have hsize : c.size = n := by rw [size, ← Array.length_toList, h.arranged.length_eq]
  rw [reset_eq_ofSize, hsize]
  exact follows_ofSize n keep

/-- A round starts behind complete ones, perhaps in another order than the last. -/
theorem Follows.start (h : c.Follows n keep log) (hdue : c.due = 0) {order : Array Nat}
    (horder : Arrangement n keep order.toList) :
    Follows n keep { order, last := some 0 } (log ++ order[0]?.toList) where
  arranged := horder
  rounds := by
    obtain ⟨rounds, hrounds, hlog⟩ := h.rounds
    have hbegun : begun { order, last := some 0 } = order[0]?.toList := by
      rw [begun_used, List.take_add_one, Array.getElem?_toList]
      rfl
    rcases begun_of_due_eq_zero hdue with hnone | hall
    · refine ⟨rounds, hrounds, ?_⟩
      rw [hlog, hnone, hbegun, List.append_nil]
    · refine ⟨rounds ++ [c.order.toList], ?_, ?_⟩
      · intro round hround
        rcases List.mem_append.1 hround with hround | hround
        · exact hrounds round hround
        · exact List.mem_singleton.1 hround ▸ h.arranged
      · rw [hlog, hall, hbegun, List.flatten_append, List.flatten_singleton]

/-- A round that has begun goes on in its order. -/
theorem Follows.goOn (h : c.Follows n keep log) (hdue : c.due ≠ 0) :
    Follows n keep { c with last := some c.due } (log ++ c.order[c.due]?.toList) where
  arranged := h.arranged
  rounds := by
    obtain ⟨rounds, hrounds, hlog⟩ := h.rounds
    refine ⟨rounds, hrounds, ?_⟩
    rw [hlog, begun_used, begun_of_due_ne_zero hdue, List.append_assoc, List.take_add_one,
      Array.getElem?_toList]

/-- **Advancing gives the next index of the round**, and of a new round when one is complete. At the
start of a round all but the places that are kept are shuffled, or nothing is. -/
theorem Follows.advance (h : c.Follows n keep log) {shuffle : Option Nat}
    (hshuffle : ∀ places ∈ shuffle, places = keep) (d : Draws) :
    (c.advance shuffle d).2.1.Follows n keep (log ++ (c.advance shuffle d).1.toList) := by
  rw [Cycle.advance]
  split
  · rw [Option.toList_none, List.append_nil]
    exact h
  · by_cases hdue : c.due = 0
    · cases shuffle with
      | none => simpa only [hdue] using h.start hdue h.arranged
      | some places =>
        obtain rfl := hshuffle places rfl
        simpa only [hdue, if_true] using h.start hdue (Draws.arrangement_shuffleTail h.arranged)
    · cases shuffle with
      | none => exact h.goOn hdue
      | some places => simpa only [hdue, if_false] using h.goOn hdue

end Cycle

end Dialogue
