import Dialogue.Character.Blank
import Dialogue.Text.Basic

/-!
# Words and blanks

Text as a list of characters, cut at white space. A *word* is a maximal run of characters that are
not blank; contracting a text keeps its words and puts one space between neighbours. Splitting is
`List.splitOnP` throughout, whose laws then hold here as well.
-/

namespace Dialogue.Text

open Character (isBlank)

/-- The maximal runs of non-blank characters, in order. -/
def words (s : Text) : List Text :=
  (s.splitOnP isBlank).filter (! ·.isEmpty)

/-- The words of a text with `sep` between neighbours, and nothing around them. -/
def joinWords (sep : Text) (s : Text) : Text := sep.intercalate (words s)

/-- Every run of white space becomes one space; none is left at the ends. -/
def contract (s : Text) : Text := joinWords [' '] s

/-- A text without the white space in front. -/
def trimStart (s : Text) : Text := s.dropWhile isBlank

/-- A text without the white space at its end. -/
def trimEnd (s : Text) : Text := (s.reverse.dropWhile isBlank).reverse

/-- A text without white space at its ends. -/
def trim (s : Text) : Text := trimEnd (trimStart s)

/-- Does `phrase` stand anywhere in the text? -/
def holds (phrase : Text) : Text → Bool
  | [] => phrase.isEmpty
  | c :: s => phrase.isPrefixOf (c :: s) || holds phrase s

/-- No piece of a split holds a character at which it was split. -/
theorem not_of_mem_splitOnP {p : Char → Bool} {s piece : Text} (h : piece ∈ s.splitOnP p) :
    ∀ c ∈ piece, p c = false := by
  induction s generalizing piece with
  | nil => simp_all
  | cons d s ih =>
    rw [List.splitOnP_cons_eq_if_modifyHead] at h
    split at h
    · rcases List.mem_cons.1 h with rfl | h
      · simp
      · exact ih h
    · rename_i hd
      obtain ⟨first, rest, hs⟩ := List.exists_cons_of_ne_nil (List.splitOnP_ne_nil p s)
      rw [hs, List.modifyHead_cons] at h
      rcases List.mem_cons.1 h with rfl | h
      · intro c hc
        rcases List.mem_cons.1 hc with rfl | hc
        · simpa using hd
        · exact ih (hs ▸ List.mem_cons_self) c hc
      · exact ih (hs ▸ List.mem_cons_of_mem _ h)

theorem words_nil : words [] = [] := by simp [words]

/-- A word is not empty and holds no blank. -/
theorem nonblank_of_mem_words {s w : Text} (h : w ∈ words s) :
    w ≠ [] ∧ ∀ c ∈ w, isBlank c = false := by
  obtain ⟨hw, hne⟩ := List.mem_filter.1 h
  exact ⟨by simpa using hne, not_of_mem_splitOnP hw⟩

/-- The words on either side of a blank are found separately. -/
theorem words_append_cons {c : Char} (hc : isBlank c = true) (s t : Text) :
    words (s ++ c :: t) = words s ++ words t := by
  rw [words, List.splitOnP_append_cons s t hc, List.filter_append]
  rfl

/-- A text without blanks is one word. -/
theorem words_of_forall {s : Text} (hne : s ≠ []) (h : ∀ c ∈ s, isBlank c = false) :
    words s = [s] := by
  rw [words, List.splitOnP_eq_singleton h]
  simpa using hne

theorem holds_iff {phrase s : Text} : holds phrase s = true ↔ phrase <:+: s := by
  induction s with
  | nil => simp [holds]
  | cons c s ih => rw [holds, Bool.or_eq_true, ih, List.isPrefixOf_iff_prefix, List.infix_cons_iff]

end Dialogue.Text
