import Dialogue.Character.Blank
import Dialogue.Character.Casing
import Dialogue.Character.Word

/-!
# Word characters, case and white space

A word edge does not depend on case: folding takes word characters to word characters and leaves
all others alone (`Character.isWord_fold`). And white space never belongs to a word
(`Character.isWord_of_isBlank`).

Both are facts about tables. The capitals come in runs, and nearly every run lies within one range
of letters, as do the small letters that belong to it; so a run is checked by its ends, and only the
few others are checked letter by letter.
-/

namespace Dialogue.Character

/-- What holds of each ASCII character by its code point holds of all of them. -/
theorem forall_ascii {P : Char → Prop} (h : ∀ n < 128, P (Char.ofNat n)) {c : Char}
    (hc : c.toNat < 128) : P c := Char.ofNat_toNat c ▸ h c.toNat hc

/-! ## Ranges -/

/-- Does one of the ranges hold all code points from `a` to `b`? -/
def Ranges.spans (rs : Ranges) (a b : Nat) : Bool :=
  rs.any fun r ↦ Nat.ble r.1 a && Nat.ble b r.2

/-- Does one of the ranges hold a code point from `a` to `b`? -/
def Ranges.meets (rs : Ranges) (a b : Nat) : Bool :=
  rs.any fun r ↦ Nat.ble r.1 b && Nat.ble a r.2

theorem Ranges.contains_of_spans {rs : Ranges} {a b n : Nat} (h : rs.spans a b = true)
    (ha : a ≤ n) (hb : n ≤ b) : rs.contains n = true := by
  simp only [spans, List.any_eq_true, Bool.and_eq_true, Nat.ble_eq] at h
  obtain ⟨r, hr, hra, hrb⟩ := h
  exact contains_iff.2 ⟨r, hr, Nat.le_trans hra ha, Nat.le_trans hb hrb⟩

theorem Ranges.contains_of_meets {rs : Ranges} {a b n : Nat} (h : rs.meets a b = false)
    (ha : a ≤ n) (hb : n ≤ b) : rs.contains n = false := by
  simp only [meets, List.any_eq_false, Bool.and_eq_true, Nat.ble_eq, not_and] at h
  rw [Bool.eq_false_iff, ne_eq, contains_iff]
  rintro ⟨r, hr, hra, hrb⟩
  exact h r hr (Nat.le_trans hra hb) (Nat.le_trans ha hrb)

/-! ## Case -/

/-- Does one range of letters hold all code points from `a` to `b`, none of them recent? -/
def lettersFrom (a b : Nat) : Bool :=
  (Nat.ble 97 a && Nat.ble b 122) ||
    (Nat.ble 128 a && (Nat.ble b 0xD7FF || (Nat.ble 0xE000 a && Nat.ble b 0x10FFFF)) &&
      !recent.meets a b && alphabetic.spans a b)

/-- Does a run take word characters to word characters, except for those that are recent? -/
def CaseRun.keepsWords (r : CaseRun) : Bool :=
  (lettersFrom r.first r.last && lettersFrom r.target (r.target + (r.last - r.first))) ||
    (List.range (r.last - r.first + 1)).all fun k ↦
      k % r.stride != 0 || recent.contains (r.first + k) ||
        (lettersFrom (r.first + k) (r.first + k) && lettersFrom (r.target + k) (r.target + k))

theorem toNat_ofNat {n : Nat} (h : n.isValidChar) : (Char.ofNat n).toNat = n := by
  rw [Char.ofNat, dif_pos h]
  rfl

theorem isWord_of_lettersFrom {a b n : Nat} (h : lettersFrom a b = true) (ha : a ≤ n)
    (hb : n ≤ b) : isWord (Char.ofNat n) = true := by
  simp only [lettersFrom, Bool.or_eq_true, Bool.and_eq_true, Nat.ble_eq,
    Bool.not_eq_eq_eq_not, Bool.not_true] at h
  rcases h with ⟨ha', hb'⟩ | ⟨⟨⟨ha', hvalid⟩, hrecent⟩, hletters⟩
  · have small : ∀ n < 123, 97 ≤ n → isWord (Char.ofNat n) = true := by decide +kernel
    exact small n (by omega) (by omega)
  · have hn : (Char.ofNat n).toNat = n := by
      refine toNat_ofNat ?_
      rw [Nat.isValidChar]
      omega
    rw [isWord, isRecent, hn, if_neg (by omega), Ranges.contains_of_spans hletters ha hb,
      Ranges.contains_of_meets hrecent ha hb]
    simp

theorem keepsWords_of_mem_caseRuns : ∀ r ∈ caseRuns, r.keepsWords = true := by
  have : caseRuns.all CaseRun.keepsWords = true := by decide +kernel
  exact List.all_eq_true.1 this

/-- A capital that is not recent is a word character, as is its lower case. -/
theorem isWord_of_lower? {r : CaseRun} {n m : Nat} (hr : r ∈ caseRuns) (hm : r.lower? n = some m)
    (hn : recent.contains n = false) :
    isWord (Char.ofNat n) = true ∧ isWord (Char.ofNat m) = true := by
  rw [CaseRun.lower?, Option.ite_none_right_eq_some, Option.some_inj] at hm
  obtain ⟨hin, rfl⟩ := hm
  simp only [Bool.and_eq_true, decide_eq_true_eq, beq_iff_eq] at hin
  obtain ⟨⟨hfirst, hlast⟩, hstride⟩ := hin
  have h := keepsWords_of_mem_caseRuns r hr
  rw [CaseRun.keepsWords, Bool.or_eq_true, Bool.and_eq_true] at h
  rcases h with ⟨hsource, htarget⟩ | h
  · exact ⟨isWord_of_lettersFrom hsource hfirst hlast,
      isWord_of_lettersFrom htarget (by omega) (by omega)⟩
  · -- one of the runs that are checked letter by letter
    have hk := List.all_eq_true.1 h (n - r.first) (List.mem_range.2 (by omega))
    rw [Nat.add_sub_cancel' hfirst] at hk
    simp only [hstride, hn, bne_self_eq_false, Bool.false_or, Bool.and_eq_true] at hk
    exact ⟨isWord_of_lettersFrom hk.1 (Nat.le_refl _) (Nat.le_refl _),
      isWord_of_lettersFrom hk.2 (Nat.le_refl _) (Nat.le_refl _)⟩

theorem isWord_of_mem_foldExceptions {n m : Nat} (h : (n, m) ∈ foldExceptions) :
    isWord (Char.ofNat n) = true ∧ isWord (Char.ofNat m) = true := by
  have letters :
      foldExceptions.all (fun p ↦ lettersFrom p.1 p.1 && lettersFrom p.2 p.2) = true := by
    decide +kernel
  obtain ⟨hn, hm⟩ := Bool.and_eq_true_iff.1 (List.all_eq_true.1 letters _ h)
  exact ⟨isWord_of_lettersFrom hn (Nat.le_refl _) (Nat.le_refl _),
    isWord_of_lettersFrom hm (Nat.le_refl _) (Nat.le_refl _)⟩

/-- A character stays as it is when it is folded, or it and what it folds to belong to words. -/
theorem fold_eq_or_isWord (c : Char) : fold c = c ∨ isWord c = true ∧ isWord (fold c) = true := by
  rw [fold]
  split
  · rename_i hascii
    exact forall_ascii (P := fun c ↦ c.toLower = c ∨ isWord c = true ∧ isWord c.toLower = true)
      (by decide +kernel) hascii
  rename_i hascii
  split
  · exact .inl rfl
  rename_i hrecent
  have hn : recent.contains c.toNat = false := by
    simpa [isRecent, Nat.le_of_not_lt hascii] using hrecent
  cases hlookup : foldExceptions.lookup c.toNat with
  | some m =>
    have hmem : (c.toNat, m) ∈ foldExceptions := by
      obtain ⟨l₁, l₂, hsplit, -⟩ := List.lookup_eq_some_iff.1 hlookup
      simp [hsplit]
    have hwords := isWord_of_mem_foldExceptions hmem
    rw [Char.ofNat_toNat] at hwords
    exact .inr hwords
  | none =>
    rw [Option.map_none, Option.getD_none, lower, if_neg hascii]
    cases hfind : caseRuns.findSome? (·.lower? c.toNat) with
    | none => exact .inl rfl
    | some m =>
      obtain ⟨r, hr, hm⟩ := List.exists_of_findSome?_eq_some hfind
      have hwords := isWord_of_lower? hr hm hn
      rw [Char.ofNat_toNat] at hwords
      exact .inr hwords

/-- **Folding keeps word characters.** -/
theorem isWord_fold (c : Char) : isWord (fold c) = isWord c := by
  rcases fold_eq_or_isWord c with h | ⟨hc, hfold⟩
  · rw [h]
  · rw [hfold, hc]

theorem isWord_eq_of_fold_eq {c d : Char} (h : fold c = fold d) : isWord c = isWord d := by
  rw [← isWord_fold c, h, isWord_fold]

/-- Folding changes word characters only. -/
theorem fold_of_not_isWord {c : Char} (h : isWord c = false) : fold c = c :=
  (fold_eq_or_isWord c).resolve_right fun hword ↦ absurd hword.1 (by rw [h]; exact nofun)

/-- Only the character itself folds to one that belongs to no word. -/
theorem eq_of_fold_eq_of_not_isWord {c d : Char} (hd : isWord d = false) (h : fold c = fold d) :
    c = d := by
  rw [← fold_of_not_isWord ((isWord_eq_of_fold_eq h).trans hd), h, fold_of_not_isWord hd]

/-! ## White space -/

/-- **White space belongs to no word.** -/
theorem isWord_of_isBlank {c : Char} (h : isBlank c = true) : isWord c = false := by
  rw [isBlank] at h
  split at h
  · rename_i hascii
    have ascii : ∀ n < 128, isBlank (Char.ofNat n) = true → isWord (Char.ofNat n) = false := by
      decide +kernel
    have := ascii c.toNat hascii
    rw [Char.ofNat_toNat, isBlank, if_pos hascii] at this
    exact this h
  · rename_i hascii
    have apart : ∀ rs ∈ [alphabetic, mark, decimalDigit, connector, joinControl], ∀ r ∈ whiteSpace,
        rs.meets r.1 r.2 = false := by
      decide +kernel
    obtain ⟨r, hr, hlow, hhigh⟩ := Ranges.contains_iff.1 h
    have absent (rs : Ranges)
        (hrs : rs ∈ [alphabetic, mark, decimalDigit, connector, joinControl]) :
        rs.contains c.toNat = false :=
      Ranges.contains_of_meets (apart rs hrs r hr) hlow hhigh
    rw [isWord, if_neg hascii, absent alphabetic (by simp), absent mark (by simp),
      absent decimalDigit (by simp), absent connector (by simp), absent joinControl (by simp)]
    rfl

/-- White space beside a place, or nothing, is no word character. -/
theorem any_isWord_of_blank {o : Option Char} (h : ∀ c ∈ o, isBlank c = true) :
    o.any isWord = false := by
  rcases o with _ | c
  · rfl
  · exact isWord_of_isBlank (h c rfl)

end Dialogue.Character
