import Dialogue.Random.Shuffle
import Mathlib.Data.List.Nodup
import Mathlib.Data.Set.Function

/-!
# Shuffling reaches every arrangement

Shuffling looks at random numbers only through the places that it draws: one below `n`, then one
below `n - 1`, and so on down to one below 1. Such places are `Choices`, and `exchange` makes of
them what shuffling makes, without any random numbers (`Draws.shuffleFrom_eq`).

No exchange touches a place that was settled by an earlier one. So the element that comes to stand
in the last place tells which place was chosen first, and this is undone place by place: different
choices make different arrangements, and every arrangement is made by some
(`Draws.bijOn_exchange`).
-/

namespace Dialogue

namespace Draws

variable {α : Type}

/-- The random numbers behind the next `n`. -/
def skip (n : Nat) (d : Draws) : Draws := { d with drawn := d.drawn + n }

/-- A choice takes one number, whatever it is. -/
theorem below_draws {n : Nat} (h : 0 < n) (d : Draws) : (d.below n).2 = d.skip 1 := by
  obtain ⟨m, rfl⟩ : ∃ m, n = m + 1 := ⟨n - 1, by omega⟩
  rfl

/-! ## Choices -/

/-- Places below `n`, below `n - 1` and so on down to below 1. -/
inductive Choices : Nat → List Nat → Prop
  | nil : Choices 0 []
  | cons {n place : Nat} {places : List Nat} (lt : place < n + 1) (rest : Choices n places) :
      Choices (n + 1) (place :: places)

theorem Choices.length_eq {n : Nat} {places : List Nat} (h : Choices n places) :
    places.length = n := by
  induction h with
  | nil => rfl
  | cons _ _ ih => rw [List.length_cons, ih]

/-- The places below `n`, below `n - 1` and so on that are drawn. -/
def choices (d : Draws) : Nat → List Nat
  | 0 => []
  | n + 1 => (d.below (n + 1)).1 :: (d.skip 1).choices n

theorem choices_choices (d : Draws) (n : Nat) : Choices n (d.choices n) := by
  induction n generalizing d with
  | zero => exact .nil
  | succ n ih => exact .cons (below_lt n.succ_pos d) (ih (d.skip 1))

/-! ## Exchanging -/

/-- Exchanges the last place behind the first `keep` with the one that was chosen for it, then the
last but one, and so on. -/
def exchange (keep : Nat) : List Nat → Array α → Array α
  | [], items => items
  | place :: places, items =>
    exchange keep places (items.swapIfInBounds (keep + places.length) (keep + place))

/-- **Shuffling is exchanging** as the random numbers choose. It takes one of them for each place
that is shuffled. -/
theorem shuffleFrom_eq (d : Draws) (keep n : Nat) (items : Array α) :
    d.shuffleFrom keep n items = (exchange keep (d.choices n) items, d.skip n) := by
  induction n generalizing d items with
  | zero => rfl
  | succ n ih =>
    have hlength : ((d.skip 1).choices n).length = n := ((d.skip 1).choices_choices n).length_eq
    have hskip : (d.skip 1).skip n = d.skip (n + 1) := by
      rw [skip, skip, skip, Nat.add_assoc, Nat.add_comm 1]
    have hnext : (d.below (n + 1)).2 = d.skip 1 := below_draws n.succ_pos d
    rw [shuffleFrom]
    dsimp only
    rw [hnext, ih, choices, exchange, hlength, hskip]

theorem shuffleFrom_draws (d : Draws) (keep n : Nat) (items : Array α) :
    (d.shuffleFrom keep n items).2 = d.skip n := by
  rw [shuffleFrom_eq]

theorem exchange_perm (keep : Nat) (places : List Nat) (items : Array α) :
    (exchange keep places items).Perm items := by
  induction places generalizing items with
  | nil => exact .refl _
  | cons place places ih => exact (ih _).trans (swapIfInBounds_perm _ _ _)

variable {keep n p : Nat} {places : List Nat} {items : Array α}

/-- Only the places for which others were chosen take part in the exchange. -/
theorem getElem?_exchange (h : Choices n places) (hp : p < keep ∨ keep + n ≤ p) :
    (exchange keep places items)[p]? = items[p]? := by
  induction h generalizing items with
  | nil => rfl
  | @cons n place places hlt hrest ih =>
    have hlength := hrest.length_eq
    rw [exchange, ih (by omega)]
    grind

/-- The element in the last place tells which place was chosen for it. -/
theorem getElem?_exchange_last {place : Nat} (h : Choices (n + 1) (place :: places))
    (hfit : keep + (n + 1) ≤ items.size) :
    (exchange keep (place :: places) items)[keep + n]? = items[keep + place]? := by
  obtain - | ⟨hlt, hrest⟩ := h
  rw [exchange, hrest.length_eq, getElem?_exchange hrest (.inr le_rfl)]
  grind

theorem take_shuffleTail (d : Draws) (keep : Nat) (items : Array α) :
    (d.shuffleTail keep items).1.toList.take keep = items.toList.take keep := by
  apply List.ext_getElem?
  intro p
  rw [List.getElem?_take, List.getElem?_take]
  by_cases hp : p < keep
  · rw [if_pos hp, if_pos hp, Array.getElem?_toList, Array.getElem?_toList, shuffleTail,
      shuffleFrom_eq]
    exact getElem?_exchange (d.choices_choices _) (.inl hp)
  · rw [if_neg hp, if_neg hp]

theorem drop_shuffleTail_perm (d : Draws) (keep : Nat) (items : Array α) :
    ((d.shuffleTail keep items).1.toList.drop keep).Perm (items.toList.drop keep) := by
  have hall := (d.shuffleFrom_perm keep (items.size - keep) items).toList
  rw [← shuffleTail, ← List.take_append_drop keep (d.shuffleTail keep items).1.toList,
    ← List.take_append_drop keep items.toList, take_shuffleTail] at hall
  exact (List.perm_append_left_iff _).1 hall

/-! ## Undoing exchanges -/

/-- **Different choices make different arrangements** of elements that differ. -/
theorem injOn_exchange (hnodup : items.toList.Nodup) (hfit : keep + n ≤ items.size) :
    Set.InjOn (exchange keep · items) {places | Choices n places} := by
  intro places h places' h' heq
  rw [Set.mem_ofPred_eq] at h h'
  dsimp only at heq
  induction h generalizing places' items with
  | nil => exact (List.length_eq_zero_iff.1 h'.length_eq).symm
  | @cons n place places hlt hrest ih =>
    rcases h' with _ | @⟨_, place', places', hlt', hrest'⟩
    have hlast : items[keep + place]? = items[keep + place']? := by
      rw [← getElem?_exchange_last (.cons hlt hrest) hfit, heq,
        getElem?_exchange_last (.cons hlt' hrest') hfit]
    have hplace : keep + place = keep + place' := by
      rw [← Array.getElem?_toList, ← Array.getElem?_toList] at hlast
      refine (List.getElem?_inj ?_ hnodup).1 hlast
      rw [Array.length_toList]
      omega
    obtain rfl : place = place' := Nat.add_left_cancel hplace
    -- the rest of the choices starts from the same array
    rw [exchange, exchange, hrest.length_eq, hrest'.length_eq] at heq
    have hperm := (swapIfInBounds_perm items (keep + n) (keep + place)).toList
    rw [ih (hperm.nodup_iff.2 hnodup) (by rw [Array.size_swapIfInBounds]; omega) hrest' heq]

/-- **Every arrangement is made by some choices**, if it leaves alone the places that do not take
part. -/
theorem exists_exchange_eq (hnodup : items.toList.Nodup) (hfit : keep + n ≤ items.size)
    {arrangement : Array α} (hperm : arrangement.Perm items)
    (hsame : ∀ p, p < keep ∨ keep + n ≤ p → arrangement[p]? = items[p]?) :
    ∃ places, Choices n places ∧ exchange keep places items = arrangement := by
  induction n generalizing items with
  | zero =>
    refine ⟨[], .nil, Array.ext_getElem? fun p ↦ (hsame p ?_).symm⟩
    omega
  | succ n ih =>
    have hsize : arrangement.size = items.size := hperm.size_eq
    have hlast : keep + n < arrangement.size := by omega
    -- the element that is to stand in the last place stands among those that take part
    obtain ⟨q, hq⟩ := Array.mem_iff_getElem?.1 (hperm.mem_iff.1 (Array.getElem_mem hlast))
    have hinside : ¬ (q < keep ∨ keep + (n + 1) ≤ q) := by
      intro houtside
      have hgoal : arrangement[q]? = arrangement[keep + n]? := by
        rw [hsame q houtside, hq, Array.getElem?_eq_getElem hlast]
      rw [← Array.getElem?_toList, ← Array.getElem?_toList] at hgoal
      have hplace : q = keep + n := by
        refine ((List.getElem?_inj ?_ (hperm.toList.nodup_iff.2 hnodup)).1 hgoal.symm).symm
        rwa [Array.length_toList]
      omega
    obtain ⟨place, rfl⟩ : ∃ place, q = keep + place := ⟨q - keep, by omega⟩
    have hswap := swapIfInBounds_perm items (keep + n) (keep + place)
    have hsame' (p : Nat) (hp : p < keep ∨ keep + n ≤ p) :
        arrangement[p]? = (items.swapIfInBounds (keep + n) (keep + place))[p]? := by grind
    obtain ⟨places, hplaces, heq⟩ := ih (hswap.toList.nodup_iff.2 hnodup)
      (by rw [Array.size_swapIfInBounds]; omega) (hperm.trans hswap.symm) hsame'
    refine ⟨place :: places, .cons (by omega) hplaces, ?_⟩
    rw [exchange, hplaces.length_eq, heq]

/-- **Exchanging is a bijection** from choices to the arrangements that leave the first `keep`
places alone. -/
theorem bijOn_exchange (hnodup : items.toList.Nodup) (hfit : keep + n = items.size) :
    Set.BijOn (exchange keep · items) {places | Choices n places}
      {arrangement | arrangement.Perm items ∧ ∀ p < keep, arrangement[p]? = items[p]?} := by
  refine ⟨fun places hplaces ↦ ⟨exchange_perm keep places items, fun p hp ↦ ?_⟩,
    injOn_exchange hnodup hfit.le, fun arrangement harrangement ↦ ?_⟩
  · exact getElem?_exchange hplaces (.inl hp)
  · obtain ⟨hperm, hsame⟩ := harrangement
    refine exists_exchange_eq hnodup hfit.le hperm fun p hp ↦ ?_
    rcases hp with hp | hp
    · exact hsame p hp
    · have hsize : arrangement.size = items.size := hperm.size_eq
      rw [Array.getElem?_eq_none (by omega), Array.getElem?_eq_none (by omega)]

/-! ## Shuffling -/

/-- **Shuffling is fair, whatever the numbers are.** What is drawn below a bound is below it.
Shuffling takes one number for each element and arranges the elements anew; if it keeps some at the
front, these stay as they are, the others are arranged, and there is one number for each of them.
It looks at nothing but the places that are chosen below the number of elements, below one less, and
so on; and if no two elements are equal, each arrangement of them is made by exactly one sequence of
such choices. -/
theorem shuffles_to_each_arrangement_once (d : Draws) (keep : Nat) (items : Array α) :
    (∀ n, 0 < n → (d.below n).1 < n) ∧
    ((d.shuffle items).1.Perm items ∧ (d.shuffle items).2 = d.skip items.size) ∧
    ((d.shuffleTail keep items).1.toList.take keep = items.toList.take keep ∧
      ((d.shuffleTail keep items).1.toList.drop keep).Perm (items.toList.drop keep) ∧
      (d.shuffleTail keep items).2 = d.skip (items.size - min keep items.size)) ∧
    (Choices items.size (d.choices items.size) ∧
      (d.shuffle items).1 = exchange 0 (d.choices items.size) items) ∧
    (items.toList.Nodup → Set.BijOn (exchange 0 · items) {places | Choices items.size places}
      {arrangement | arrangement.Perm items}) := by
  have hplaces : items.size - keep = items.size - min keep items.size := by omega
  refine ⟨fun n hn ↦ below_lt hn d, ⟨d.shuffleFrom_perm 0 _ items, d.shuffleFrom_draws 0 _ items⟩,
    ⟨d.take_shuffleTail keep items, d.drop_shuffleTail_perm keep items, ?_⟩,
    ⟨d.choices_choices _, ?_⟩, fun hnodup ↦ ?_⟩
  · rw [shuffleTail, shuffleFrom_draws, hplaces]
  · rw [shuffle, shuffleTail, shuffleFrom_eq, Nat.sub_zero]
  · have hall : Set.BijOn (exchange 0 · items) {places | Choices items.size places}
        {arrangement | arrangement.Perm items ∧ ∀ p < 0, arrangement[p]? = items[p]?} :=
      bijOn_exchange hnodup (Nat.zero_add items.size)
    simpa only [Nat.not_lt_zero, false_imp_iff, implies_true, and_true] using hall

/-- Numbers that are none choose places all the same, and one sequence of choices puts the last of
three letters first. -/
theorem last_comes_first_once :
    let items := #['a', 'b', 'c']
    0 < 3 ∧ (below 3 { source := fun _ ↦ 0.0 / 0.0 }).1 < 3 ∧ items.toList.Nodup ∧
      Choices 3 [1, 0, 0] ∧ exchange 0 [1, 0, 0] items = #['c', 'a', 'b'] ∧
      ∀ places, Choices 3 places → exchange 0 places items = #['c', 'a', 'b'] →
        places = [1, 0, 0] := by
  intro items
  obtain ⟨hbelow, -, -, -, hbijective⟩ :=
    shuffles_to_each_arrangement_once { source := fun _ ↦ 0.0 / 0.0 } 0 items
  have hnodup : items.toList.Nodup := by decide
  have hchoices : Choices 3 [1, 0, 0] :=
    .cons (by decide) (.cons (by decide) (.cons (by decide) .nil))
  have hexchange : exchange 0 [1, 0, 0] items = #['c', 'a', 'b'] := by decide
  exact ⟨by decide, hbelow 3 (by decide), hnodup, hchoices, hexchange,
    fun places hplaces heq ↦ (hbijective hnodup).injOn hplaces hchoices (heq.trans hexchange.symm)⟩

end Draws

end Dialogue
