import Dialogue.Pattern.WholeWord
import Dialogue.Proofs.Pattern.Meaning

/-!
# Where a whole word stands

The pattern of a keyword occurs in a text where the keyword stands in any case, and where on either
side of it there is what its own end there asks for: a word edge beside a letter, a number or `_`,
and white space or an end of the text beside any other character
(`Pattern.occursIn_wholeWord_iff`). The white space belongs to the match, but it does not matter for
the place of the keyword.
-/

namespace Dialogue.Pattern

open Character (isBlank isWord)
open Text (SameFold Edge)

/-- The key stands as a whole word, in the form `word`, between two texts. -/
structure StandsAlone (key before word after : List Char) : Prop where
  same : SameFold key word
  left : if key.head?.any bounds then Edge before (word ++ after)
    else ∀ c ∈ before.getLast?, isBlank c = true
  right : if key.getLast?.any bounds then Edge (before ++ word) after
    else ∀ c ∈ after.head?, isBlank c = true

variable {key before word after text : List Char} {xs : List (List Char)}

/-- The two sides of a whole word are alike. -/
theorem StandsAlone.reverse (h : StandsAlone key before word after) :
    StandsAlone key.reverse after.reverse word.reverse before.reverse := by
  refine ⟨h.same.reverse, ?_, ?_⟩
  · rw [List.head?_reverse, List.getLast?_reverse, ← List.reverse_append, Text.edge_reverse_iff]
    exact h.right
  · rw [List.head?_reverse, List.getLast?_reverse, ← List.reverse_append, Text.edge_reverse_iff]
    exact h.left

private theorem exists_takes_left_iff {b : Prop} [Decidable b] :
    (∃ early x, before = early ++ x ∧
      (if b then Piece.wordEdge else .startOrBlank).Takes early x after) ↔
      if b then Edge before after else ∀ c ∈ before.getLast?, isBlank c = true := by
  split
  · constructor
    · rintro ⟨early, x, rfl, rfl, hedge⟩
      rwa [List.append_nil]
    · intro hedge
      exact ⟨before, [], (List.append_nil _).symm, rfl, hedge⟩
  · constructor
    · rintro ⟨early, x, rfl, ⟨rfl, rfl⟩ | ⟨c, rfl, hc⟩⟩
      · simp
      · simpa using hc
    · intro h
      rcases List.eq_nil_or_concat before with rfl | ⟨early, c, rfl⟩
      · exact ⟨[], [], rfl, .inl ⟨rfl, rfl⟩⟩
      · exact ⟨early, [c], List.concat_eq_append, .inr ⟨c, rfl, h c (by simp)⟩⟩

/-- White space or the end of the text follows. -/
theorem exists_takes_blankOrEnd_iff (before : List Char) :
    (∃ x late, after = x ++ late ∧ Piece.blankOrEnd.Takes before x late) ↔
      ∀ c ∈ after.head?, isBlank c = true := by
  constructor
  · rintro ⟨x, late, rfl, ⟨rfl, rfl⟩ | ⟨c, rfl, hc⟩⟩
    · simp
    · simpa using hc
  · intro h
    cases after with
    | nil => exact ⟨[], [], rfl, .inl ⟨rfl, rfl⟩⟩
    | cons c late => exact ⟨[c], late, rfl, .inr ⟨c, rfl, h c rfl⟩⟩

private theorem exists_takes_right_iff {b : Prop} [Decidable b] :
    (∃ x late, after = x ++ late ∧
      (if b then Piece.wordEdge else .blankOrEnd).Takes before x late) ↔
      if b then Edge before after else ∀ c ∈ after.head?, isBlank c = true := by
  split
  · constructor
    · rintro ⟨x, late, rfl, rfl, hedge⟩
      exact hedge
    · intro hedge
      exact ⟨[], after, rfl, rfl, hedge⟩
  · exact exists_takes_blankOrEnd_iff before

/-- **A keyword occurs where it stands as a whole word.** -/
theorem occursIn_wholeWord_iff :
    (wholeWord key).occursIn text.toArray = true ↔
      ∃ before word after, text = before ++ word ++ after ∧ StandsAlone key before word after := by
  rw [occursIn_iff, wholeWord]
  simp only [cuts_cons_iff, cuts_nil_iff]
  constructor
  · -- the blanks that are matched before and behind the key count as text around it
    rintro ⟨early, _, _, rfl, x, _, _, rfl, rfl, hleft, word, _, _, rfl, rfl, hsame,
      y, late, _, rfl, rfl, hright, rfl⟩
    refine ⟨early ++ x, word, y ++ late, by simp, hsame, ?_, ?_⟩
    · exact exists_takes_left_iff.1 ⟨early, x, rfl, hleft⟩
    · exact exists_takes_right_iff.1 ⟨y, late, rfl, hright⟩
  · rintro ⟨before, word, after, rfl, hsame, hleft, hright⟩
    obtain ⟨early, x, rfl, hx⟩ := exists_takes_left_iff.2 hleft
    obtain ⟨y, late, rfl, hy⟩ := exists_takes_right_iff.2 hright
    exact ⟨early, x ++ (word ++ (y ++ late)), _, by simp, x, _, _, rfl, rfl, hx, word, _, _, rfl,
      rfl, hsame, y, late, _, rfl, rfl, hy, rfl⟩

end Dialogue.Pattern
