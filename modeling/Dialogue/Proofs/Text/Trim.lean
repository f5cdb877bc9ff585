import Dialogue.Proofs.Text.Blank
import Dialogue.Proofs.Text.Tidy
import Mathlib.Data.List.DropRight

/-!
# Trimming

White space at the ends of a text is what trimming takes away: putting some there changes nothing,
and a character that is not white space keeps everything on its other side.
-/

namespace Dialogue.Text

open Character (isBlank)

variable {s t gap : Text}

/-! ## In front -/

theorem trimStart_append_of_blank (h : Blank gap) (s : Text) :
    trimStart (gap ++ s) = trimStart s := List.dropWhile_append_of_pos h

theorem trimStart_cons {c : Char} (hc : isBlank c = false) (s : Text) :
    trimStart (c :: s) = c :: s := trimStart_eq_self fun _ hd ↦ Option.some.inj hd ▸ hc

theorem trimStart_eq_nil_iff : trimStart s = [] ↔ Blank s := List.dropWhile_eq_nil_iff

theorem trimStart_append (h : trimStart s ≠ []) (t : Text) :
    trimStart (s ++ t) = trimStart s ++ t := by
  rw [trimStart, List.dropWhile_append, if_neg, trimStart]
  rwa [List.isEmpty_iff]

theorem trimStart_trimStart (s : Text) : trimStart (trimStart s) = trimStart s :=
  List.dropWhile_idempotent isBlank s

/-! ## Behind -/

theorem trimEnd_eq_nil_iff : trimEnd s = [] ↔ Blank s := List.rdropWhile_eq_nil_iff

theorem trimEnd_append_of_blank (h : Blank gap) (s : Text) : trimEnd (s ++ gap) = trimEnd s := by
  rw [trimEnd, List.reverse_append, List.dropWhile_append_of_pos, trimEnd]
  intro c hc
  exact h c (List.mem_reverse.1 hc)

theorem trimEnd_append (h : trimEnd t ≠ []) (s : Text) : trimEnd (s ++ t) = s ++ trimEnd t := by
  have hrest : ¬ (t.reverse.dropWhile isBlank).isEmpty = true := by
    rw [List.isEmpty_iff]
    exact mt List.reverse_eq_nil_iff.2 h
  rw [trimEnd, List.reverse_append, List.dropWhile_append, if_neg hrest, List.reverse_append,
    List.reverse_reverse, trimEnd]

/-- A character that is not white space keeps what is in front of it. -/
theorem trimEnd_append_cons {c : Char} (hc : isBlank c = false) (s t : Text) :
    trimEnd (s ++ c :: t) = s ++ c :: trimEnd t := by
  have hone : trimEnd [c] = [c] :=
    List.rdropWhile_concat_neg isBlank [] c (by rw [hc]; exact Bool.false_ne_true)
  have hcons : trimEnd (c :: t) = c :: trimEnd t := by
    by_cases ht : trimEnd t = []
    · rw [← List.singleton_append, trimEnd_append_of_blank (trimEnd_eq_nil_iff.1 ht), hone, ht]
    · rw [← List.singleton_append, trimEnd_append ht, List.singleton_append]
  rw [trimEnd_append, hcons]
  rw [hcons]
  exact List.cons_ne_nil c _

theorem trimEnd_prefix_self (s : Text) : trimEnd s <+: s := List.rdropWhile_prefix isBlank s

/-! ## At both ends -/

theorem trim_trimStart (s : Text) : trim (trimStart s) = trim s := by
  rw [trim, trimStart_trimStart, trim]

theorem trim_append_of_blank (h : Blank gap) (s : Text) : trim (s ++ gap) = trim s := by
  by_cases hs : trimStart s = []
  · have hblank : Blank (s ++ gap) := blank_append_iff.2 ⟨trimStart_eq_nil_iff.1 hs, h⟩
    rw [trim, trimStart_eq_nil_iff.2 hblank, trim, hs]
  · rw [trim, trimStart_append hs, trimEnd_append_of_blank h, trim]

theorem trim_trimEnd (s : Text) : trim (trimEnd s) = trim s := by
  have hsplit : trimEnd s ++ s.rtakeWhile isBlank = s := List.rdropWhile_append_rtakeWhile
  have hblank : Blank (s.rtakeWhile isBlank) := fun c hc ↦ List.mem_rtakeWhile_imp hc
  rw [← trim_append_of_blank hblank, hsplit]

end Dialogue.Text
