import Dialogue.Text.Words
import Mathlib.Data.List.Basic
import Mathlib.Data.List.TakeWhile

/-!
# Tidy texts

A name that was cut out of a declaration has no white space at its ends and none but spaces inside.
Here it is shown where such texts come from: they are words joined with single spaces, or what is
left of one behind a marker. A word is found at the front of a text as what stands before the first
white space.
-/

namespace Dialogue.Text

open Character (isBlank)

/-- No white space at the ends, and none but spaces inside. -/
structure Tidy (s : List Char) : Prop where
  head : ∀ c ∈ s.head?, isBlank c = false
  last : ∀ c ∈ s.getLast?, isBlank c = false
  space : ∀ c ∈ s, isBlank c = true → c = ' '

theorem Tidy.nil : Tidy [] := ⟨by simp, by simp, by simp⟩

theorem Tidy.notMem_lineFeed {s : List Char} (h : Tidy s) : '\n' ∉ s :=
  fun hn ↦ absurd (h.space _ hn rfl) (by decide)

theorem Tidy.of_nonblank {s : List Char} (h : ∀ c ∈ s, isBlank c = false) : Tidy s where
  head c hc := h c (List.mem_of_mem_head? hc)
  last c hc := h c (List.mem_of_mem_getLast? hc)
  space c hc hb := absurd hb (by rw [h c hc]; decide)

/-- Words joined with single spaces are tidy. -/
theorem tidy_intercalate {ws : List (List Char)}
    (h : ∀ w ∈ ws, w ≠ [] ∧ ∀ c ∈ w, isBlank c = false) : Tidy ([' '].intercalate ws) := by
  induction ws with
  | nil => exact .nil
  | cons w ws ih =>
    obtain ⟨hne, hw⟩ := h w List.mem_cons_self
    cases ws with
    | nil =>
      rw [List.intercalate_singleton]
      exact .of_nonblank hw
    | cons v ws =>
      have hrest := ih fun u hu ↦ h u (List.mem_cons_of_mem _ hu)
      have hv : [' '].intercalate (v :: ws) ≠ [] := by
        have := (h v (by simp)).1
        cases ws <;> simp [this]
      rw [List.intercalate_cons_cons]
      refine ⟨fun c hc ↦ ?_, fun c hc ↦ ?_, fun c hc hb ↦ ?_⟩
      · obtain ⟨d, w, rfl⟩ := List.exists_cons_of_ne_nil hne
        exact hw c (List.mem_of_mem_head? hc)
      · rw [List.getLast?_append_of_ne_nil _ hv] at hc
        exact hrest.last c hc
      · rcases List.mem_append.1 hc with hc | hc
        · rcases List.mem_append.1 hc with hc | hc
          · exact absurd hb (by rw [hw c hc]; decide)
          · exact List.mem_singleton.1 hc
        · exact hrest.space c hc hb

theorem trimStart_eq_self {s : List Char} (h : ∀ c ∈ s.head?, isBlank c = false) :
    trimStart s = s := by
  cases s with
  | nil => rfl
  | cons c s => rw [trimStart, List.dropWhile_cons_of_neg (by rw [h c rfl]; decide)]

theorem Tidy.trimStart_suffix {s t : List Char} (h : Tidy s) (ht : t <:+ s) :
    Tidy (trimStart t) := by
  have hsuffix : trimStart t <:+ s := (List.dropWhile_suffix _).trans ht
  obtain ⟨early, rfl⟩ := hsuffix
  refine ⟨fun c hc ↦ ?_, fun c hc ↦ ?_, fun c hc ↦ h.space c (List.mem_append_right _ hc)⟩
  · have := List.head?_dropWhile_not isBlank t
    rw [trimStart] at hc
    rw [Option.mem_def.1 hc] at this
    exact this
  · refine h.last c ?_
    have hne : trimStart t ≠ [] := by
      rintro hnil
      rw [hnil] at hc
      simp at hc
    rwa [List.getLast?_append_of_ne_nil _ hne]

/-- The first word of a text goes up to the first white space. -/
theorem takeWhile_nonblank {w after : List Char} (hw : ∀ c ∈ w, isBlank c = false)
    (hafter : ∀ c ∈ after.head?, isBlank c = true) : (w ++ after).takeWhile (! isBlank ·) = w := by
  have hnil : after.takeWhile (! isBlank ·) = [] := by
    cases after with
    | nil => rfl
    | cons c after => rw [List.takeWhile_cons, hafter c rfl]; rfl
  rw [List.takeWhile_append_of_pos fun c hc ↦ by rw [hw c hc]; rfl, hnil, List.append_nil]

end Dialogue.Text
