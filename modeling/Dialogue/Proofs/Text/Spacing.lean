import Dialogue.Proofs.Text.Pieces
import Mathlib.Data.List.Chain

/-!
# Characters that stand alone

Some characters, such as emoji, are given a space on either side before white space is contracted.
After that neighbours in the text obey a rule, `Text.Parted`, and so do neighbours in every piece of
it. A piece without separators of its own that obeys the rule, and has no white space at its ends,
has nothing left to space out or contract (`Text.contract_spaceOut`).
-/

namespace Dialogue.Text

open Character (isBlank)

/-- The text with a space on either side of some characters. -/
def spaceOut (alone : Char → Bool) (s : Text) : Text :=
  s.flatMap fun c ↦ if alone c then [' ', c, ' '] else [c]

/-- The two may be neighbours in a contracted text: they are not both spaces, and beside a character
that stands alone there is a space or a full stop. -/
structure Parted (alone : Char → Bool) (a b : Char) : Prop where
  spaces : ¬ (a = ' ' ∧ b = ' ')
  left : alone a = true → b = ' ' ∨ b = '.'
  right : alone b = true → a = ' ' ∨ a = '.'

/-- A piece of a contracted text: it is not empty, holds no white space, and a character that stands
alone is all of it. -/
structure Compact (alone : Char → Bool) (w : Text) : Prop where
  ne_nil : w ≠ []
  solid : ∀ c ∈ w, isBlank c = false
  single : ∀ c ∈ w, alone c = true → w = [c]

variable {alone : Char → Bool} {s : Text}

theorem eq_singleton_of_isChain {R : Char → Char → Prop} {w : Text} (h : w.IsChain R) {c : Char}
    (hc : c ∈ w) (hleft : ∀ d ∈ w, ¬ R c d) (hright : ∀ d ∈ w, ¬ R d c) : w = [c] := by
  obtain ⟨x, y, rfl⟩ := List.append_of_mem hc
  rw [List.isChain_append] at h
  have hy : y = [] := by
    rcases y with _ | ⟨d, y⟩
    · rfl
    · exact absurd (List.isChain_cons_cons.1 h.2.1).1 (hleft d (by simp))
  have hx : x = [] := by
    rcases List.eq_nil_or_concat x with rfl | ⟨x, d, rfl⟩
    · rfl
    · exact absurd (h.2.2 d (by simp) c rfl) (hright d (by simp))
  rw [hx, hy, List.nil_append]

/-! ## Spacing out and contracting -/

section Contract

variable (hspace : alone ' ' = false)
include hspace

theorem head?_spaceOut (s : Text) : ∀ c ∈ (spaceOut alone s).head?, alone c = false := by
  rcases s with _ | ⟨c, s⟩
  · simp [spaceOut]
  · by_cases hc : alone c = true
    · simp [spaceOut, hc, hspace]
    · simp [spaceOut, hc]

/-- Beside a character that stands alone there is a space. -/
theorem isChain_spaceOut (s : Text) : (spaceOut alone s).IsChain fun a b ↦
    (alone a = true → b = ' ') ∧ (alone b = true → a = ' ') := by
  induction s with
  | nil => exact List.isChain_nil
  | cons c s ih =>
    have hcons : spaceOut alone (c :: s) =
        (if alone c then [' ', c, ' '] else [c]) ++ spaceOut alone s := List.flatMap_cons
    rw [hcons]
    by_cases hc : alone c = true
    · rw [if_pos hc]
      simp [List.isChain_cons, hspace, ih]
    · rw [if_neg hc, List.singleton_append, List.isChain_cons]
      refine ⟨fun d hd ↦ ⟨fun h ↦ absurd h hc, fun h ↦ ?_⟩, ih⟩
      rw [head?_spaceOut hspace s d hd] at h
      cases h

theorem compact_of_mem_words {w : Text} (h : w ∈ words (spaceOut alone s)) : Compact alone w := by
  obtain ⟨hne, hsolid⟩ := nonblank_of_mem_words h
  refine ⟨hne, hsolid, fun c hc halone ↦ ?_⟩
  have hchain := List.IsChain.infix (isChain_spaceOut hspace s) (infix_of_mem_words h)
  refine eq_singleton_of_isChain hchain hc ?_ ?_
  · rintro d hd ⟨hleft, -⟩
    rw [hleft halone] at hd
    exact absurd (hsolid ' ' hd) (by decide)
  · rintro d hd ⟨-, hright⟩
    rw [hright halone] at hd
    exact absurd (hsolid ' ' hd) (by decide)

end Contract

theorem Compact.isChain {w : Text} (h : Compact alone w) : w.IsChain (Parted alone) := by
  by_cases hw : ∃ c ∈ w, alone c = true
  · obtain ⟨c, hc, halone⟩ := hw
    rw [h.single c hc halone]
    exact List.isChain_singleton c
  · have hparted : ∀ a ∈ w, ∀ b ∈ w, Parted alone a b := by
      refine fun a ha b hb ↦ ⟨?_, fun h ↦ absurd ⟨a, ha, h⟩ hw, fun h ↦ absurd ⟨b, hb, h⟩ hw⟩
      rintro ⟨rfl, -⟩
      exact absurd (h.solid ' ' ha) (by decide)
    exact (List.pairwise_of_forall_mem_list hparted).isChain

/-- Words joined with single spaces obey the rule for neighbours. -/
theorem isChain_intercalate {ws : List Text} (h : ∀ w ∈ ws, Compact alone w)
    (hspace : alone ' ' = false) : ([' '].intercalate ws).IsChain (Parted alone) := by
  induction ws with
  | nil => exact List.isChain_nil
  | cons w ws ih =>
    rw [List.forall_mem_cons] at h
    rcases ws with _ | ⟨v, ws⟩
    · rw [List.intercalate_singleton]
      exact h.1.isChain
    · have htidy : Tidy ([' '].intercalate (v :: ws)) :=
        tidy_intercalate fun u hu ↦ ⟨(h.2 u hu).ne_nil, (h.2 u hu).solid⟩
      rw [List.intercalate_cons_cons, List.append_assoc, List.singleton_append, List.isChain_append,
        List.isChain_cons]
      refine ⟨h.1.isChain, ⟨fun d hd ↦ ⟨?_, ?_, fun _ ↦ .inl rfl⟩, ih h.2⟩, fun d hd b hb ↦ ?_⟩
      · rintro ⟨-, rfl⟩
        exact absurd (htidy.head ' ' hd) (by decide)
      · rw [hspace]
        exact nofun
      · obtain rfl : b = ' ' := by simpa using hb.symm
        refine ⟨?_, fun _ ↦ .inl rfl, ?_⟩
        · rintro ⟨rfl, -⟩
          exact absurd (h.1.solid ' ' (List.mem_of_mem_getLast? hd)) (by decide)
        · rw [hspace]
          exact nofun

theorem tidy_contract (s : Text) : Tidy (contract s) :=
  tidy_intercalate fun _ ↦ nonblank_of_mem_words

theorem isChain_contract_spaceOut (hspace : alone ' ' = false) (s : Text) :
    (contract (spaceOut alone s)).IsChain (Parted alone) :=
  isChain_intercalate (fun _ ↦ compact_of_mem_words hspace) hspace

theorem mem_contract {c : Char} (h : c ∈ contract s) : c = ' ' ∨ c ∈ s := by
  have hwords (ws : List Text) (h : c ∈ [' '].intercalate ws) : c = ' ' ∨ ∃ w ∈ ws, c ∈ w := by
    induction ws with
    | nil => exact absurd h List.not_mem_nil
    | cons w ws ih =>
      rcases ws with _ | ⟨v, ws⟩
      · exact .inr ⟨w, List.mem_cons_self, by rwa [List.intercalate_singleton] at h⟩
      · rw [List.intercalate_cons_cons, List.append_assoc, List.mem_append, List.mem_append,
          List.mem_singleton] at h
        rcases h with h | h | h
        · exact .inr ⟨w, List.mem_cons_self, h⟩
        · exact .inl h
        · refine (ih h).imp_right ?_
          rintro ⟨u, hu, hc⟩
          exact ⟨u, List.mem_cons_of_mem _ hu, hc⟩
  refine (hwords _ h).imp_right ?_
  rintro ⟨w, hw, hc⟩
  exact (infix_of_mem_words hw).subset hc

theorem mem_spaceOut {c : Char} (h : c ∈ spaceOut alone s) : c = ' ' ∨ c ∈ s := by
  obtain ⟨d, hd, hc⟩ := List.mem_flatMap.1 h
  split at hc
  · simp only [List.mem_cons, List.not_mem_nil, or_false] at hc
    rcases hc with rfl | rfl | rfl
    · exact .inl rfl
    · exact .inr hd
    · exact .inl rfl
  · exact .inr (List.mem_singleton.1 hc ▸ hd)

/-! ## Nothing left to space out -/

theorem words_spaceOut {w : Text} (h : Compact alone w) : words (spaceOut alone w) = [w] := by
  by_cases hw : ∃ c ∈ w, alone c = true
  · obtain ⟨c, hc, halone⟩ := hw
    have hout : spaceOut alone [c] = ' ' :: ([c] ++ [' ']) := by simp [spaceOut, halone]
    rw [h.single c hc halone, hout, words_cons_of_blank rfl, words_append_cons rfl, words_nil,
      List.append_nil, words_of_forall (by simp)]
    simpa using h.solid c hc
  · have hout : spaceOut alone w = w := by
      have hsame : ∀ c ∈ w, (if alone c then [' ', c, ' '] else [c]) = [c] :=
        fun c hc ↦ if_neg fun h ↦ hw ⟨c, hc, h⟩
      rw [spaceOut, List.flatMap_congr hsame, List.flatMap_singleton']
    rw [hout, words_of_forall h.ne_nil h.solid]

theorem words_spaceOut_intercalate {ws : List Text} (h : ∀ w ∈ ws, Compact alone w)
    (hspace : alone ' ' = false) : words (spaceOut alone ([' '].intercalate ws)) = ws := by
  induction ws with
  | nil => exact words_nil
  | cons w ws ih =>
    rw [List.forall_mem_cons] at h
    rcases ws with _ | ⟨v, ws⟩
    · rw [List.intercalate_singleton, words_spaceOut h.1]
    · have hout (rest : Text) : spaceOut alone (w ++ ' ' :: rest) =
          spaceOut alone w ++ ' ' :: spaceOut alone rest := by
        simp [spaceOut, hspace]
      rw [List.intercalate_cons_cons, List.append_assoc, List.singleton_append, hout,
        words_append_cons rfl, words_spaceOut h.1, ih h.2, List.singleton_append]

/-- The pieces between single spaces are not empty. -/
theorem ne_nil_of_mem_splitOn_space (hne : s ≠ []) (hs : Tidy s)
    (hchain : s.IsChain (Parted alone)) : ∀ w ∈ s.splitOn ' ', w ≠ [] := by
  -- the property that passes on to both sides of a space
  let P (a : Text) : Prop := a ≠ [] ∧ a.head? ≠ some ' ' ∧ a.getLast? ≠ some ' ' ∧
    a.IsChain (Parted alone)
  have hclosed (a b : Text) (h : P (a ++ ' ' :: b)) : P a ∧ P b := by
    obtain ⟨-, hhead, hlast, hchain⟩ := h
    rw [List.isChain_append, List.isChain_cons] at hchain
    obtain ⟨ha, ⟨hnext, hb⟩, hbefore⟩ := hchain
    have ha_ne : a ≠ [] := by
      rintro rfl
      exact hhead rfl
    have hb_ne : b ≠ [] := by
      rintro rfl
      exact hlast (by simp)
    refine ⟨⟨ha_ne, ?_, fun h ↦ (hbefore ' ' h ' ' rfl).spaces ⟨rfl, rfl⟩, ha⟩,
      ⟨hb_ne, fun h ↦ (hnext ' ' h).spaces ⟨rfl, rfl⟩, ?_, hb⟩⟩
    · rwa [List.head?_append_of_ne_nil _ ha_ne] at hhead
    · rwa [List.getLast?_append_of_ne_nil _ (List.cons_ne_nil _ _),
        List.getLast?_cons_of_ne_nil hb_ne] at hlast
  have hP : P s :=
    ⟨hne, fun h ↦ absurd (hs.head ' ' h) (by decide), fun h ↦ absurd (hs.last ' ' h) (by decide),
      hchain⟩
  exact fun w hw ↦ (forall_mem_splitOn hclosed hP w hw).1

/-- **A piece that obeys the rule for neighbours** has nothing left to space out or contract. -/
theorem contract_spaceOut (hspace : alone ' ' = false) (hne : s ≠ []) (hs : Tidy s)
    (hchain : s.IsChain (Parted alone)) (hstop : '.' ∉ s) : contract (spaceOut alone s) = s := by
  have hcompact : ∀ w ∈ s.splitOn ' ', Compact alone w := by
    intro w hw
    have hinside := infix_of_mem_splitOn hw
    have hapart : ∀ d ∈ w, ¬ (d = ' ' ∨ d = '.') := by
      rintro d hd (rfl | rfl)
      · exact notMem_of_mem_splitOn hw hd
      · exact hstop (hinside.subset hd)
    refine ⟨ne_nil_of_mem_splitOn_space hne hs hchain w hw, fun c hc ↦ ?_, fun c hc halone ↦ ?_⟩
    · by_contra hblank
      refine hapart c hc (.inl (hs.space c (hinside.subset hc) ?_))
      simpa using hblank
    · have hchain := List.IsChain.infix hchain hinside
      refine eq_singleton_of_isChain hchain hc ?_ ?_
      · exact fun d hd h ↦ hapart d hd (h.left halone)
      · exact fun d hd h ↦ hapart d hd (h.right halone)
  have hwords := words_spaceOut_intercalate hcompact hspace
  rw [List.intercalate_splitOn] at hwords
  rw [contract, joinWords, hwords, List.intercalate_splitOn]

end Dialogue.Text
