import Dialogue.Proofs.Text.Trim
import Mathlib.Data.List.Basic
import Mathlib.Data.List.Infix

/-!
# Pieces of texts

What is cut out of a text at separators, and trimmed, is a stretch of the text. If a property of
texts passes on to both sides of a separator, all pieces have it (`Text.forall_mem_splitOn`); so
nothing about positions is needed to show that parts of an input are as plain as the input.
-/

namespace Dialogue.Text

open Character (isBlank)

variable {s : Text} {sep : Char}

/-! ## Splitting -/

/-- A property that passes on to both sides of a separator holds of all pieces. -/
theorem forall_mem_splitOn {P : Text → Prop} (hP : ∀ a b, P (a ++ sep :: b) → P a ∧ P b)
    (h : P s) : ∀ piece ∈ s.splitOn sep, P piece := by
  have hpieces (pieces : List Text) (h : P ([sep].intercalate pieces)) :
      ∀ piece ∈ pieces, P piece := by
    induction pieces with
    | nil => exact List.forall_mem_nil P
    | cons piece pieces ih =>
      rcases pieces with _ | ⟨next, pieces⟩
      · rw [List.intercalate_singleton] at h
        simpa using h
      · rw [List.intercalate_cons_cons, List.append_assoc, List.singleton_append] at h
        exact List.forall_mem_cons.2 ⟨(hP _ _ h).1, ih (hP _ _ h).2⟩
  refine hpieces _ ?_
  rwa [List.intercalate_splitOn]

theorem notMem_of_mem_splitOn {piece : Text} (h : piece ∈ s.splitOn sep) : sep ∉ piece := by
  intro hmem
  have := not_of_mem_splitOnP h sep hmem
  simp at this

/-- The first piece stands at the front of the text, and all others in it. -/
theorem infix_of_mem_splitOnP {p : Char → Bool} {piece : Text} (h : piece ∈ s.splitOnP p) :
    piece <:+: s := by
  have hfirst (s : Text) : ∃ first rest, s.splitOnP p = first :: rest ∧ first <+: s ∧
      ∀ piece ∈ rest, piece <:+: s := by
    induction s with
    | nil => exact ⟨[], [], rfl, List.nil_prefix, List.forall_mem_nil _⟩
    | cons c s ih =>
      obtain ⟨first, rest, hs, hprefix, hrest⟩ := ih
      have hinside {piece : Text} (h : piece <:+: s) : piece <:+: c :: s :=
        h.trans (List.suffix_cons c s).isInfix
      rw [List.splitOnP_cons_eq_if_modifyHead, hs]
      split
      · exact ⟨[], first :: rest, rfl, List.nil_prefix,
          List.forall_mem_cons.2 ⟨hinside hprefix.isInfix, fun piece hp ↦ hinside (hrest piece hp)⟩⟩
      · exact ⟨c :: first, rest, rfl, List.cons_prefix_cons.2 ⟨rfl, hprefix⟩,
          fun piece hp ↦ hinside (hrest piece hp)⟩
  obtain ⟨first, rest, hs, hprefix, hrest⟩ := hfirst s
  rw [hs] at h
  rcases List.mem_cons.1 h with rfl | h
  · exact hprefix.isInfix
  · exact hrest piece h

theorem infix_of_mem_splitOn {piece : Text} (h : piece ∈ s.splitOn sep) : piece <:+: s :=
  infix_of_mem_splitOnP h

theorem infix_of_mem_words {w : Text} (h : w ∈ words s) : w <:+: s :=
  infix_of_mem_splitOnP (List.mem_filter.1 h).1

/-- Texts joined by the separator fall apart again, and each of them for itself. -/
theorem splitOn_intercalate_eq_flatMap {texts : List Text} (h : texts ≠ []) :
    ([sep].intercalate texts).splitOn sep = texts.flatMap (·.splitOn sep) := by
  induction texts with
  | nil => exact absurd rfl h
  | cons text texts ih =>
    rcases texts with _ | ⟨next, texts⟩
    · simp
    · rw [List.intercalate_cons_cons, List.append_assoc, List.singleton_append,
        List.splitOn_append_cons_self, ih (List.cons_ne_nil _ _)]
      rfl

/-! ## Trimming -/

/-- Trimming takes white space away and nothing else. -/
theorem exists_blank_trim (s : Text) :
    ∃ before after, s = before ++ trim s ++ after ∧ Blank before ∧ Blank after := by
  refine ⟨s.takeWhile isBlank, (trimStart s).rtakeWhile isBlank, ?_, ?_, ?_⟩
  · have hend : trim s ++ (trimStart s).rtakeWhile isBlank = trimStart s :=
      List.rdropWhile_append_rtakeWhile
    rw [List.append_assoc, hend]
    exact (List.takeWhile_append_dropWhile).symm
  · exact fun c hc ↦ List.mem_takeWhile_imp hc
  · exact fun c hc ↦ List.mem_rtakeWhile_imp hc

theorem trim_isInfix (s : Text) : trim s <:+: s := by
  obtain ⟨before, after, h, -, -⟩ := exists_blank_trim s
  exact ⟨before, after, h.symm⟩

theorem Tidy.trim_eq_self (h : Tidy s) : trim s = s := by
  have hreverse : trimStart s.reverse = s.reverse := by
    refine trimStart_eq_self ?_
    rw [List.head?_reverse]
    exact h.last
  rw [trim, trimStart_eq_self h.head, trimEnd, ← trimStart, hreverse, List.reverse_reverse]

/-- A text with no white space but spaces is tidy once it is trimmed. -/
theorem tidy_trim (h : ∀ c ∈ s, isBlank c = true → c = ' ') : Tidy (trim s) where
  head c hc := by
    obtain ⟨rest, hrest⟩ := trimEnd_prefix_self (trimStart s)
    have hhead : (trimStart s).head? = some c := by
      rw [← hrest, List.head?_append, ← trim, Option.mem_def.1 hc, Option.some_or]
    have := List.head?_dropWhile_not isBlank s
    rw [← trimStart, hhead] at this
    exact this
  last c hc := by
    have := List.head?_dropWhile_not isBlank (trimStart s).reverse
    rw [trim, trimEnd, List.getLast?_reverse] at hc
    rw [Option.mem_def.1 hc] at this
    exact this
  space c hc := h c ((trim_isInfix s).subset hc)

end Dialogue.Text
