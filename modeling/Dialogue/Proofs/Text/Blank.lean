import Dialogue.Proofs.Character.Word
import Dialogue.Text.Lowercase
import Dialogue.Text.Words

/-!
# Blank texts

A text is blank if it is white space throughout. Blank texts are what contracting makes empty, and
a trimmed text is blank only if it is empty. Lower case does not matter: no letter has a lower case
that is white space, and none has an empty one.
-/

namespace Dialogue

namespace Character

/-! ## The lower case of white space -/

/-- Do neither the capitals of a run nor their small letters meet white space? -/
def CaseRun.avoidsBlanks (r : CaseRun) : Bool :=
  !whiteSpace.meets r.first r.last &&
    Nat.ble 33 r.target && !whiteSpace.meets r.target (r.target + (r.last - r.first))

theorem avoidsBlanks_of_mem_caseRuns : ∀ r ∈ caseRuns, r.avoidsBlanks = true := by
  have : caseRuns.all CaseRun.avoidsBlanks = true := by decide +kernel
  exact List.all_eq_true.1 this

theorem isBlank_ofNat {n : Nat} (hn : 33 ≤ n) (h : whiteSpace.contains n = false) :
    isBlank (Char.ofNat n) = false := by
  by_cases hascii : n < 128
  · have ascii : ∀ n < 128, 33 ≤ n → isBlank (Char.ofNat n) = false := by decide +kernel
    exact ascii n hascii hn
  · by_cases hvalid : n.isValidChar
    · rw [isBlank, toNat_ofNat hvalid, if_neg hascii, h]
    · rw [Char.ofNat, dif_neg hvalid]
      rfl

/-- **The lower case of a character is white space exactly if the character is.** -/
theorem isBlank_lower (c : Char) : isBlank (lower c) = isBlank c := by
  rw [lower]
  split
  · rename_i hascii
    exact @forall_ascii (fun c ↦ isBlank c.toLower = isBlank c) (by decide +kernel) c hascii
  · rename_i hascii
    cases hfind : caseRuns.findSome? (·.lower? c.toNat) with
    | none => rfl
    | some m =>
      obtain ⟨r, hr, hm⟩ := List.exists_of_findSome?_eq_some hfind
      rw [CaseRun.lower?, Option.ite_none_right_eq_some, Option.some_inj] at hm
      obtain ⟨hin, rfl⟩ := hm
      simp only [Bool.and_eq_true, decide_eq_true_eq, beq_iff_eq] at hin
      obtain ⟨⟨hfirst, hlast⟩, -⟩ := hin
      have h := avoidsBlanks_of_mem_caseRuns r hr
      simp only [CaseRun.avoidsBlanks, Bool.and_eq_true, Nat.ble_eq, Bool.not_eq_true'] at h
      obtain ⟨⟨hsource, hlarge⟩, htarget⟩ := h
      have hcapital : whiteSpace.contains c.toNat = false :=
        Ranges.contains_of_meets hsource hfirst hlast
      have hsmall : isBlank (Char.ofNat (r.target + (c.toNat - r.first))) = false :=
        isBlank_ofNat (by omega) (Ranges.contains_of_meets htarget (by omega) (by omega))
      rw [Option.map_some, Option.getD_some, hsmall, isBlank, if_neg hascii, hcapital]

end Character

namespace Text

open Character (isBlank isBlank_lower)

/-- The text is white space throughout. -/
def Blank (s : Text) : Prop := ∀ c ∈ s, isBlank c = true

instance (s : Text) : Decidable (Blank s) := decidable_of_iff (s.all isBlank) List.all_eq_true

theorem blank_nil : Blank [] := by simp [Blank]

theorem blank_cons_iff {c : Char} {s : Text} : Blank (c :: s) ↔ isBlank c = true ∧ Blank s :=
  List.forall_mem_cons

theorem blank_append_iff {s t : Text} : Blank (s ++ t) ↔ Blank s ∧ Blank t :=
  List.forall_mem_append

/-! ## Contracting and trimming -/

theorem words_cons_of_blank {c : Char} (hc : isBlank c = true) (s : Text) :
    words (c :: s) = words s := by
  rw [← List.nil_append (c :: s), words_append_cons hc, words_nil, List.nil_append]

theorem words_append_of_blank {gap : Text} (h : Blank gap) (s : Text) :
    words (gap ++ s) = words s := by
  induction gap with
  | nil => rfl
  | cons c gap ih =>
    obtain ⟨hc, hgap⟩ := blank_cons_iff.1 h
    rw [List.cons_append, words_cons_of_blank hc, ih hgap]

/-- A character that is not white space begins a word. -/
theorem words_cons_ne_nil {c : Char} (hc : isBlank c = false) (s : Text) :
    words (c :: s) ≠ [] := by
  obtain ⟨first, rest, hs⟩ := List.exists_cons_of_ne_nil (List.splitOnP_ne_nil isBlank s)
  rw [words, List.splitOnP_cons_eq_if_modifyHead, hc, if_neg Bool.false_ne_true, hs,
    List.modifyHead_cons]
  simp

theorem words_eq_nil_iff {s : Text} : words s = [] ↔ Blank s := by
  induction s with
  | nil => simp [words_nil, blank_nil]
  | cons c s ih =>
    rw [blank_cons_iff]
    cases hc : isBlank c with
    | true => rw [words_cons_of_blank hc, ih, eq_self_iff_true, true_and]
    | false => simp [words_cons_ne_nil hc]

/-- Contracting makes empty exactly the blank texts. -/
theorem contract_eq_nil_iff {s : Text} : contract s = [] ↔ Blank s := by
  rw [contract, joinWords, ← words_eq_nil_iff]
  constructor
  · intro h
    cases hwords : words s with
    | nil => rfl
    | cons w ws =>
      have hw : w ≠ [] := (nonblank_of_mem_words (hwords ▸ List.mem_cons_self)).1
      rw [hwords] at h
      cases ws <;> simp_all
  · intro h
    rw [h, List.intercalate_nil]

/-- A trimmed text is blank only if it is empty. -/
theorem trim_eq_nil_of_blank {s : Text} (h : Blank (trim s)) : trim s = [] := by
  rw [trim, trimEnd, List.reverse_eq_nil_iff]
  have hhead := List.head?_dropWhile_not isBlank (trimStart s).reverse
  cases hrest : (trimStart s).reverse.dropWhile isBlank with
  | nil => rfl
  | cons c rest =>
    -- its last character would be white space
    rw [hrest, List.head?_cons] at hhead
    have hc : c ∈ trim s := by
      rw [trim, trimEnd, hrest]
      simp
    exact absurd (h c hc) (by simpa using hhead)

/-! ## Lower case -/

theorem lowerBetween_ne_nil (before : List Char) (c : Char) (after : List Char) :
    lowerBetween before c after ≠ [] := by
  rw [lowerBetween]
  split
  · simp
  · split <;> simp

theorem blank_lowerBetween_iff {before : List Char} {c : Char} {after : List Char} :
    Blank (lowerBetween before c after) ↔ isBlank c = true := by
  rw [lowerBetween]
  split
  · rename_i hc
    obtain rfl : c = 'Σ' := by simpa using hc
    split <;> decide
  · split
    · rename_i hc
      obtain rfl : c = 'İ' := by simpa using hc
      decide
    · rw [blank_cons_iff, isBlank_lower]
      simp [blank_nil]

theorem blank_lowercaseAfter_iff {before s : Text} : Blank (lowercaseAfter before s) ↔ Blank s := by
  induction s generalizing before with
  | nil => rfl
  | cons c s ih =>
    rw [lowercaseAfter, blank_append_iff, blank_lowerBetween_iff, ih, blank_cons_iff]

/-- Lower case neither makes nor removes white space. -/
theorem blank_lowercase_iff {s : Text} : Blank (lowercase s) ↔ Blank s := blank_lowercaseAfter_iff

theorem lowercase_eq_nil_iff {s : Text} : lowercase s = [] ↔ s = [] := by
  cases s with
  | nil => simp [lowercase, lowercaseAfter]
  | cons c s => simp [lowercase, lowercaseAfter, lowerBetween_ne_nil]

end Text

end Dialogue
