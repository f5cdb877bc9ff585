import Dialogue.Proofs.Character.Word
import Dialogue.Text.Basic
import Dialogue.Text.Lowercase

/-!
# Lower case is final

No small letter is the capital of another one, so a text in lower case stays as it is when it is
lowercased once more (`Text.lowercase_lowercase`). More is true: whatever is cut out of such a text,
or put together from its characters, is in lower case (`Text.lowercase_eq_self`), although the lower
case of a capital sigma depends on what stands around it; there is no capital sigma any more.
-/

namespace Dialogue

namespace Character

/-! ## Characters -/

/-- Is no small letter of the run `r` a capital of the run `t`? -/
def CaseRun.apart (r t : CaseRun) : Bool :=
  Nat.blt (r.target + (r.last - r.first)) t.first || Nat.blt t.last r.target ||
    (t.stride == 2 && (r.stride == 2 || r.first == r.last) && (r.target + t.first) % 2 == 1)

theorem apart_of_mem_caseRuns : ∀ r ∈ caseRuns, ∀ t ∈ caseRuns, r.apart t = true := by
  have : caseRuns.all (fun r ↦ caseRuns.all r.apart) = true := by decide +kernel
  intro r hr t ht
  exact List.all_eq_true.1 (List.all_eq_true.1 this r hr) t ht

/-- The small letters of all runs are letters from `a` on and other than the dotted capital. -/
theorem target_of_mem_caseRuns : ∀ r ∈ caseRuns, 97 ≤ r.target ∧
    (r.target + (r.last - r.first) < 0x130 ∨ 0x130 < r.target) := by
  decide +kernel

/-- A small letter is not the capital of another one. -/
theorem lower?_target_eq_none {r t : CaseRun} (hr : r ∈ caseRuns) (ht : t ∈ caseRuns) {n m : Nat}
    (hm : r.lower? n = some m) : t.lower? m = none := by
  have hapart := apart_of_mem_caseRuns r hr t ht
  simp only [CaseRun.apart, Bool.or_eq_true, Bool.and_eq_true, Nat.blt_eq, beq_iff_eq] at hapart
  rw [CaseRun.lower?, Option.ite_none_right_eq_some, Option.some_inj] at hm
  obtain ⟨hin, rfl⟩ := hm
  simp only [Bool.and_eq_true, decide_eq_true_eq, beq_iff_eq] at hin
  obtain ⟨⟨hfirst, hlast⟩, hstride⟩ := hin
  rw [CaseRun.lower?, if_neg]
  simp only [Bool.and_eq_true, decide_eq_true_eq, beq_iff_eq]
  rintro ⟨⟨hfirst', hlast'⟩, hstride'⟩
  rcases hapart with (h | h) | ⟨⟨ht2, hr2⟩, hodd⟩
  · omega
  · omega
  · -- capitals of `t` stand at every second place, and small letters of `r` between them
    rw [ht2] at hstride'
    rcases hr2 with hr2 | hr2
    · rw [hr2] at hstride
      omega
    · omega

/-- A character without a lower case of its own. The lower case of the dotted capital is not one
character. -/
structure IsLow (c : Char) : Prop where
  lower : lower c = c
  notDotted : c ≠ 'İ'

instance (c : Char) : Decidable (IsLow c) :=
  decidable_of_iff (Character.lower c = c ∧ c ≠ 'İ') ⟨fun h ↦ ⟨h.1, h.2⟩, fun h ↦ ⟨h.1, h.2⟩⟩

theorem IsLow.ne_sigma {c : Char} (h : IsLow c) : c ≠ 'Σ' := by
  rintro rfl
  exact absurd h (by decide +kernel)

/-- A small letter of a run is in lower case. -/
theorem isLow_of_lower? {r : CaseRun} (hr : r ∈ caseRuns) {n m : Nat} (hm : r.lower? n = some m) :
    IsLow (Char.ofNat m) := by
  by_cases hvalid : m.isValidChar
  · have hbounds : 97 ≤ m ∧ m ≠ 0x130 := by
      have := target_of_mem_caseRuns r hr
      rw [CaseRun.lower?, Option.ite_none_right_eq_some, Option.some_inj] at hm
      simp only [Bool.and_eq_true, decide_eq_true_eq] at hm
      omega
    by_cases hascii : m < 128
    · have small : ∀ m < 128, 97 ≤ m → IsLow (Char.ofNat m) := by decide +kernel
      exact small m hascii hbounds.1
    · constructor
      · have hnone : caseRuns.findSome? (·.lower? m) = none :=
          List.findSome?_eq_none_iff.2 fun t ht ↦ lower?_target_eq_none hr ht hm
        rw [Character.lower, toNat_ofNat hvalid, if_neg hascii, hnone]
        rfl
      · intro hdotted
        have := congrArg Char.toNat hdotted
        rw [toNat_ofNat hvalid] at this
        exact hbounds.2 this
  · rw [Char.ofNat, dif_neg hvalid]
    decide +kernel

/-- **The lower case of a character has no other lower case.** -/
theorem isLow_lower {c : Char} (h : c ≠ 'İ') : IsLow (lower c) := by
  by_cases hascii : c.toNat < 128
  · exact forall_ascii (P := fun c ↦ IsLow (lower c)) (by decide +kernel) hascii
  · rcases hfind : caseRuns.findSome? (·.lower? c.toNat) with _ | m
    · have hlower : lower c = c := by
        rw [lower, if_neg hascii, hfind]
        rfl
      rw [hlower]
      exact ⟨hlower, h⟩
    · obtain ⟨r, hr, hm⟩ := List.exists_of_findSome?_eq_some hfind
      rw [lower, if_neg hascii, hfind]
      exact isLow_of_lower? hr hm

end Character

namespace Text

open Character (IsLow isLow_lower)

/-! ## Texts -/

theorem lowerBetween_of_isLow {c : Char} (h : IsLow c) (before after : List Char) :
    lowerBetween before c after = [c] := by
  rw [lowerBetween, if_neg (by simpa using h.ne_sigma), if_neg (by simpa using h.notDotted),
    h.lower]

theorem isLow_of_mem_lowerBetween {before after : List Char} {c d : Char}
    (h : d ∈ lowerBetween before c after) : IsLow d := by
  rw [lowerBetween] at h
  split at h
  · rw [List.mem_singleton] at h
    split at h
    · exact h ▸ (by decide +kernel : IsLow 'ς')
    · exact h ▸ (by decide +kernel : IsLow 'σ')
  · split at h
    · rw [List.mem_cons, List.mem_singleton] at h
      rcases h with rfl | rfl
      · decide +kernel
      · decide +kernel
    · rename_i hdotted
      rw [List.mem_singleton] at h
      exact h ▸ isLow_lower (by simpa using hdotted)

theorem isLow_of_mem_lowercaseAfter {before s : Text} {d : Char}
    (h : d ∈ lowercaseAfter before s) : IsLow d := by
  induction s generalizing before with
  | nil => exact absurd h List.not_mem_nil
  | cons c s ih =>
    rw [lowercaseAfter, List.mem_append] at h
    exact h.elim isLow_of_mem_lowerBetween ih

/-- A text in lower case has characters without a lower case of their own only. -/
theorem isLow_of_mem_lowercase {s : Text} {d : Char} (h : d ∈ lowercase s) : IsLow d :=
  isLow_of_mem_lowercaseAfter h

theorem lowercaseAfter_eq_self {s : Text} (h : ∀ c ∈ s, IsLow c) (before : Text) :
    lowercaseAfter before s = s := by
  induction s generalizing before with
  | nil => rfl
  | cons c s ih =>
    rw [List.forall_mem_cons] at h
    rw [lowercaseAfter, lowerBetween_of_isLow h.1, ih h.2, List.singleton_append]

/-- A text of such characters is in lower case. -/
theorem lowercase_eq_self {s : Text} (h : ∀ c ∈ s, IsLow c) : lowercase s = s :=
  lowercaseAfter_eq_self h []

/-- **Lowercasing a second time changes nothing.** -/
theorem lowercase_lowercase (s : Text) : lowercase (lowercase s) = lowercase s :=
  lowercase_eq_self fun _ ↦ isLow_of_mem_lowercase

end Text

end Dialogue
