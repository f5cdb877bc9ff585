import Dialogue.Proofs.Segmentation.Ink
import Dialogue.Proofs.Text.Lowercase

/-!
# Two ways to ignore case

Patterns ignore case by folding, one character for one, while tables are looked up by lower case.
For most characters, and for all of ASCII, both are the same. They part company at a few *rivals*:
small letters that fold to another small letter, such as `ſ` to `s`, and the letters that they
fold to. A letter with a rival can be written in two ways that differ in lower case but not for a
pattern, and so can every text that contains one (`Text.exists_lowercase_ne`). Of a text without
such letters, all ways to write it have the same lower case (`Text.lowercase_eq_of_sameFold`).
-/

namespace Dialogue

namespace Character

/-! ## Single characters -/

/-- Is there another small letter that folds to the same letter as `c`? -/
def hasRival (c : Char) : Bool := foldExceptions.any fun p ↦ fold c == Char.ofNat p.2

/-- Two small letters fold to what a letter with a rival folds to. -/
theorem exists_rivals {c : Char} (h : hasRival c = true) :
    ∃ x y, x ≠ y ∧ IsLow x ∧ IsLow y ∧ fold x = fold c ∧ fold y = fold c := by
  have rivals : ∀ p ∈ foldExceptions, Char.ofNat p.1 ≠ Char.ofNat p.2 ∧
      IsLow (Char.ofNat p.1) ∧ IsLow (Char.ofNat p.2) ∧ fold (Char.ofNat p.1) = Char.ofNat p.2 ∧
      fold (Char.ofNat p.2) = Char.ofNat p.2 := by
    decide +kernel
  obtain ⟨p, hp, hfold⟩ := List.any_eq_true.1 h
  rw [beq_iff_eq] at hfold
  rw [hfold]
  exact ⟨_, _, rivals p hp⟩

/-- A character without rivals folds to its lower case, unless it is recent. -/
theorem fold_cases {c : Char} (h : hasRival c = false) :
    (isRecent c = true ∧ fold c = c) ∨ (isRecent c = false ∧ fold c = lower c) := by
  by_cases hascii : c.toNat < 128
  · refine .inr ⟨?_, ?_⟩
    · rw [isRecent, decide_eq_false (Nat.not_le.2 hascii), Bool.false_and]
    · rw [fold, lower, if_pos hascii, if_pos hascii]
  · by_cases hrecent : isRecent c = true
    · refine .inl ⟨hrecent, ?_⟩
      rw [fold, if_neg hascii, if_pos hrecent]
    · have hnone : foldExceptions.lookup c.toNat = none := by
        refine Option.eq_none_iff_forall_ne_some.2 fun m hlookup ↦ ?_
        obtain ⟨l₁, l₂, hsplit, -⟩ := List.lookup_eq_some_iff.1 hlookup
        have hmem : (c.toNat, m) ∈ foldExceptions := by
          rw [hsplit]
          exact List.mem_append_right _ List.mem_cons_self
        have hfold : fold c = Char.ofNat m := by
          rw [fold, if_neg hascii, if_neg hrecent, hlookup]
          rfl
        exact List.any_eq_false.1 h _ hmem (beq_iff_eq.2 hfold)
      refine .inr ⟨by simpa using hrecent, ?_⟩
      rw [fold, if_neg hascii, if_neg hrecent, hnone]
      rfl

theorem isRecent_of_isWord {c : Char} (h : isWord c = true) : isRecent c = false := by
  rw [isWord] at h
  split at h
  · rename_i hascii
    rw [isRecent, decide_eq_false (Nat.not_le.2 hascii), Bool.false_and]
  · rw [Bool.and_eq_true, Bool.not_eq_true'] at h
    exact h.2

/-- No older character has a recent one for its lower case. -/
theorem isRecent_lower {c : Char} (h : isRecent c = false) : isRecent (lower c) = false := by
  by_cases hascii : c.toNat < 128
  · exact @forall_ascii (fun c ↦ isRecent (lower c) = false) (by decide +kernel) c hascii
  · rw [lower, if_neg hascii]
    rcases hfind : caseRuns.findSome? (·.lower? c.toNat) with _ | m
    · rw [hfind]
      exact h
    · obtain ⟨r, hr, hm⟩ := List.exists_of_findSome?_eq_some hfind
      rw [hfind]
      rw [isRecent, decide_eq_true (Nat.not_lt.1 hascii), Bool.true_and] at h
      exact isRecent_of_isWord (isWord_of_lower? hr hm h).2

theorem hasRival_eq_of_fold_eq {c d : Char} (h : fold c = fold d) : hasRival c = hasRival d := by
  rw [hasRival, hasRival, h]

theorem ne_sigma_of_hasRival {c : Char} (h : hasRival c = false) : c ≠ 'Σ' := by
  rintro rfl
  exact absurd h (by decide +kernel)

/-- Nothing else folds like a recent character, or like the dotted capital. -/
theorem eq_of_fold_eq {c d : Char} (hodd : isRecent c = true ∨ c = 'İ')
    (h : hasRival c = false) (hfold : fold d = fold c) : d = c := by
  have hself : fold c = c := by
    rcases hodd with hrecent | rfl
    · obtain ⟨-, hc⟩ | ⟨hold, -⟩ := fold_cases h
      · exact hc
      · exact absurd hrecent (by rw [hold]; exact Bool.false_ne_true)
    · decide +kernel
  obtain ⟨-, hd⟩ | ⟨hold, hd⟩ := fold_cases (hasRival_eq_of_fold_eq hfold ▸ h)
  · exact (hd.symm.trans hfold).trans hself
  · rw [hfold, hself] at hd
    rcases hodd with hrecent | rfl
    · rw [hd, isRecent_lower hold] at hrecent
      exact absurd hrecent Bool.false_ne_true
    · by_contra hne
      exact (isLow_lower hne).notDotted hd.symm

/-- Lower case and folding come to the same for a character, wherever it stands. -/
structure Agrees (c : Char) : Prop where
  lower : lower c = fold c
  notSigma : c ≠ 'Σ'
  notDotted : c ≠ 'İ'

instance (c : Char) : Decidable (Agrees c) :=
  decidable_of_iff (Character.lower c = fold c ∧ c ≠ 'Σ' ∧ c ≠ 'İ')
    ⟨fun h ↦ ⟨h.1, h.2.1, h.2.2⟩, fun h ↦ ⟨h.1, h.2, h.3⟩⟩

theorem agrees_of_ascii {c : Char} (h : c.toNat < 128) : Agrees c :=
  forall_ascii (by decide +kernel) h

theorem agrees_of_hasRival {c : Char} (h : hasRival c = false)
    (hodd : ¬ (isRecent c = true ∨ c = 'İ')) : Agrees c where
  lower := by
    obtain ⟨hrecent, -⟩ | ⟨-, hlower⟩ := fold_cases h
    · exact absurd (.inl hrecent) hodd
    · exact hlower.symm
  notSigma := ne_sigma_of_hasRival h
  notDotted hdotted := hodd (.inr hdotted)

end Character

open Character

namespace Text

variable {c d : Char} {s t before after before' after' : Text}

/-! ## Texts -/

/-- Only the lower case of a capital sigma depends on what stands around it. -/
theorem lowerBetween_congr (h : c ≠ 'Σ') :
    lowerBetween before c after = lowerBetween before' c after' := by
  have hsigma : ¬ (c == 'Σ') = true := by simpa using h
  rw [lowerBetween, lowerBetween, if_neg hsigma, if_neg hsigma]

theorem lowerBetween_of_agrees (h : Agrees c) : lowerBetween before c after = [fold c] := by
  rw [lowerBetween, if_neg (by simpa using h.notSigma), if_neg (by simpa using h.notDotted),
    h.lower]

/-- Letters without rivals that fold to the same have the same lower case. -/
theorem lowerBetween_eq_of_fold_eq (h : hasRival c = false) (hfold : fold c = fold d) :
    lowerBetween before c after = lowerBetween before' d after' := by
  have hd : hasRival d = false := hasRival_eq_of_fold_eq hfold ▸ h
  by_cases hcodd : isRecent c = true ∨ c = 'İ'
  · rw [eq_of_fold_eq hcodd h hfold.symm]
    exact lowerBetween_congr (ne_sigma_of_hasRival h)
  · by_cases hdodd : isRecent d = true ∨ d = 'İ'
    · rw [eq_of_fold_eq hdodd hd hfold]
      exact lowerBetween_congr (ne_sigma_of_hasRival hd)
    · rw [lowerBetween_of_agrees (agrees_of_hasRival h hcodd),
        lowerBetween_of_agrees (agrees_of_hasRival hd hdodd), hfold]

/-- Without a capital sigma, each character is lowercased on its own. -/
theorem lowercaseAfter_eq_flatMap (h : ∀ c ∈ s, c ≠ 'Σ') (before : Text) :
    lowercaseAfter before s = s.flatMap (lowerBetween [] · []) := by
  induction s generalizing before with
  | nil => rfl
  | cons c s ih =>
    obtain ⟨hc, hs⟩ := List.forall_mem_cons.1 h
    rw [lowercaseAfter, ih hs, List.flatMap_cons, lowerBetween_congr hc]

theorem lowercase_eq_flatMap (h : ∀ c ∈ s, c ≠ 'Σ') :
    lowercase s = s.flatMap (lowerBetween [] · []) := lowercaseAfter_eq_flatMap h []

/-- Where all characters agree, the lower case of a text is what it folds to. -/
theorem lowercase_eq_map_fold (h : ∀ c ∈ s, Agrees c) : lowercase s = s.map fold := by
  rw [lowercase_eq_flatMap fun c hc ↦ (h c hc).notSigma, List.map_eq_flatMap]
  exact List.flatMap_congr fun c hc ↦ lowerBetween_of_agrees (h c hc)

/-- **Texts without rivals that a pattern takes for the same have the same lower case.** -/
theorem lowercase_eq_of_sameFold (h : ∀ c ∈ s, hasRival c = false) (hsame : SameFold s t) :
    lowercase t = lowercase s := by
  have hrivals {d : Char} (hd : d ∈ t) : hasRival d = false := by
    have hmem : fold d ∈ s.map fold := hsame ▸ List.mem_map_of_mem hd
    obtain ⟨c, hc, hfold⟩ := List.mem_map.1 hmem
    exact hasRival_eq_of_fold_eq hfold ▸ h c hc
  rw [lowercase_eq_flatMap fun c hc ↦ ne_sigma_of_hasRival (h c hc),
    lowercase_eq_flatMap fun d hd ↦ ne_sigma_of_hasRival (hrivals hd)]
  clear hrivals
  induction s generalizing t with
  | nil => rw [sameFold_nil_iff.1 hsame]
  | cons c s ih =>
    obtain ⟨d, t, rfl⟩ : ∃ d u, t = d :: u :=
      List.exists_cons_of_ne_nil (hsame.ne_nil (List.cons_ne_nil c s))
    obtain ⟨hfold, hsame⟩ := sameFold_cons_iff.1 hsame
    obtain ⟨hc, hs⟩ := List.forall_mem_cons.1 h
    rw [List.flatMap_cons, List.flatMap_cons, ih hs hsame, lowerBetween_eq_of_fold_eq hc hfold]

/-- A small sigma in place of a capital one. -/
def withoutSigma (s : Text) : Text := s.map fun c ↦ if c = 'Σ' then 'σ' else c

theorem ne_sigma_of_mem_withoutSigma (h : c ∈ withoutSigma s) : c ≠ 'Σ' := by
  obtain ⟨d, -, rfl⟩ := List.mem_map.1 h
  split
  · decide
  · assumption

theorem map_fold_withoutSigma (s : Text) : (withoutSigma s).map fold = s.map fold := by
  rw [withoutSigma, List.map_map]
  refine List.map_congr_left fun c _ ↦ ?_
  rw [Function.comp_apply]
  split
  · rename_i hsigma
    rw [hsigma]
    decide +kernel
  · rfl

/-- A letter between two texts; without sigmas, what is in front of it and behind has one lower
case. -/
def around (u v : Text) (c : Char) : Text := withoutSigma u ++ c :: withoutSigma v

theorem sameFold_around (u v : Text) (h : fold d = fold c) :
    SameFold (u ++ c :: v) (around u v d) := by
  rw [SameFold, around, List.map_append, List.map_append, List.map_cons, List.map_cons,
    map_fold_withoutSigma, map_fold_withoutSigma, h]

theorem lowercase_around (u v : Text) (h : IsLow c) : lowercase (around u v c) =
    (withoutSigma u).flatMap (lowerBetween [] · []) ++
      c :: (withoutSigma v).flatMap (lowerBetween [] · []) := by
  have hsigma : ∀ d ∈ around u v c, d ≠ 'Σ' := by
    rw [around, List.forall_mem_append, List.forall_mem_cons]
    exact ⟨fun _ ↦ ne_sigma_of_mem_withoutSigma, h.ne_sigma,
      fun _ ↦ ne_sigma_of_mem_withoutSigma⟩
  rw [lowercase_eq_flatMap hsigma, around, List.flatMap_append, List.flatMap_cons,
    lowerBetween_of_isLow h, List.singleton_append]

/-- **A text that contains a letter with a rival can be written in another way**, with another lower
case, that a pattern takes for the same. -/
theorem exists_lowercase_ne (hc : c ∈ s) (h : hasRival c = true) :
    ∃ t, SameFold s t ∧ lowercase t ≠ lowercase s := by
  obtain ⟨u, v, rfl⟩ := List.append_of_mem hc
  obtain ⟨x, y, hne, hx, hy, hfoldx, hfoldy⟩ := exists_rivals h
  by_contra hall
  push Not at hall
  -- both rivals would give the text the same lower case
  have hequal := (hall _ (sameFold_around u v hfoldx)).trans
    (hall _ (sameFold_around u v hfoldy)).symm
  rw [lowercase_around u v hx, lowercase_around u v hy] at hequal
  exact hne (List.cons_eq_cons.1 (List.append_cancel_left hequal)).1

end Text

end Dialogue
