import Dialogue.Proofs.Character.Word
import Dialogue.Proofs.Pattern.WholeWord
import Dialogue.Text.Basic

/-!
# Which keywords are found where they stand

A keyword that stands between white space, or at an end of the text, ought to be found there. At an
end of the keyword that is no letter, number or `_`, the white space itself is asked for. At any
other end a word edge is asked for, and beside white space there is one only if the end is a word
character. Nearly every letter and number is one; but fractions, superscripts and other numbers that
are no digits are not, nor are the letters that edition 17 has added.

So there are two kinds of keywords. The *findable* ones are found wherever they stand between white
space, and all others are found at no such place (`Pattern.found_where_it_stands_iff`).
-/

namespace Dialogue.Pattern

open Character (isBlank isWord)
open Text (SameFold Edge)

/-- An end of a key that asks for a word edge is a word character. -/
def Findable (key : Text) : Prop :=
  ∀ c, key.head? = some c ∨ key.getLast? = some c → bounds c = true → isWord c = true

variable {key word before after : Text}

/-! ## The ends of a key -/

/-- Among the ASCII characters, those that ask for a word edge are the word characters. -/
theorem isWord_eq_bounds {c : Char} (h : c.toNat < 128) : isWord c = bounds c := by
  rw [isWord, bounds, Character.isAlphanumeric, if_pos h, if_pos h]

theorem findable_of_ascii
    (h : ∀ c, key.head? = some c ∨ key.getLast? = some c → c.toNat < 128) : Findable key := by
  intro c hc hbounds
  rwa [isWord_eq_bounds (h c hc)]

/-- Beside white space, as at an end of the text, there is a word edge at word characters only. -/
theorem any_isWord_ne_iff {o : Option Char} {c : Char} (h : ∀ d ∈ o, isBlank d = true) :
    o.any isWord ≠ isWord c ↔ isWord c = true := by
  rw [Character.any_isWord_of_blank h, ne_eq, eq_comm, Bool.not_eq_false]

/-- Behind white space, a key has what its first end asks for unless this asks for a word edge
without being a word character. -/
theorem left_of_blank_iff (hbefore : ∀ c ∈ before.getLast?, isBlank c = true) :
    (if key.head?.any bounds then Edge before (key ++ after)
      else ∀ c ∈ before.getLast?, isBlank c = true) ↔
      ∀ c, key.head? = some c → bounds c = true → isWord c = true := by
  rcases key with _ | ⟨c, key⟩
  · simpa using hbefore
  · have hend : (∀ d, (c :: key).head? = some d → bounds d = true → isWord d = true) ↔
        (bounds c = true → isWord c = true) := by simp
    rw [hend]
    split
    · rename_i hbounds
      exact (any_isWord_ne_iff hbefore).trans ⟨fun h _ ↦ h, fun h ↦ h hbounds⟩
    · rename_i hbounds
      exact iff_of_true hbefore fun h ↦ absurd h hbounds

/-- **Between white space, a key stands alone exactly if it is findable.** -/
theorem standsAlone_of_blank_iff (hbefore : ∀ c ∈ before.getLast?, isBlank c = true)
    (hafter : ∀ c ∈ after.head?, isBlank c = true) :
    StandsAlone key before key after ↔ Findable key := by
  have hleft := @left_of_blank_iff key before after hbefore
  -- the other side is the first one of the text read from its end
  have hright := @left_of_blank_iff key.reverse after.reverse before.reverse
    (by rwa [List.getLast?_reverse])
  rw [← List.reverse_append, Text.edge_reverse_iff, List.head?_reverse, List.getLast?_reverse]
    at hright
  constructor
  · rintro ⟨-, hl, hr⟩ c (hc | hc)
    · exact hleft.1 hl c hc
    · exact hright.1 hr c hc
  · intro h
    exact ⟨rfl, hleft.2 fun c hc ↦ h c (.inl hc), hright.2 fun c hc ↦ h c (.inr hc)⟩

/-! ## Finding keys -/

/-- A key that is found in itself is found there as a whole. -/
theorem standsAlone_of_eq_append (h : key = before ++ word ++ after)
    (halone : StandsAlone key before word after) : StandsAlone key [] key [] := by
  have hlength := congrArg List.length h
  simp only [List.length_append, halone.same.length_eq] at hlength
  obtain rfl : before = [] := List.length_eq_zero_iff.1 (by omega)
  obtain rfl : after = [] := List.length_eq_zero_iff.1 (by omega)
  rw [List.nil_append, List.append_nil] at h
  rwa [← h] at halone

/-- **A key is found wherever it stands between white space** or at an end of the text, exactly if
an end that asks for a word edge is a word character. Such a key stands alone at every such place,
and any other key at none, so that it is not even found in a text that is the key itself. Keys that
begin and end with ASCII characters are found. -/
theorem found_where_it_stands_iff (key : Text) :
    ((∀ before after : Text, (∀ c ∈ before.getLast?, isBlank c = true) →
        (∀ c ∈ after.head?, isBlank c = true) →
        (wholeWord key).occursIn (before ++ key ++ after).toArray = true) ↔ Findable key) ∧
      ((wholeWord key).occursIn key.toArray = true ↔ Findable key) ∧
      (∀ before after : Text, (∀ c ∈ before.getLast?, isBlank c = true) →
        (∀ c ∈ after.head?, isBlank c = true) →
        (StandsAlone key before key after ↔ Findable key)) ∧
      ((∀ c, key.head? = some c ∨ key.getLast? = some c → c.toNat < 128) → Findable key) := by
  have hself : (wholeWord key).occursIn key.toArray = true → Findable key := by
    intro h
    obtain ⟨before, word, after, heq, halone⟩ := occursIn_wholeWord_iff.1 h
    exact (standsAlone_of_blank_iff (by simp) (by simp)).1 (standsAlone_of_eq_append heq halone)
  have hfound (h : Findable key) (before after : Text)
      (hbefore : ∀ c ∈ before.getLast?, isBlank c = true)
      (hafter : ∀ c ∈ after.head?, isBlank c = true) :
      (wholeWord key).occursIn (before ++ key ++ after).toArray = true := by
    have halone := (standsAlone_of_blank_iff hbefore hafter).2 h
    exact occursIn_wholeWord_iff.2 ⟨before, key, after, rfl, halone⟩
  refine ⟨⟨fun h ↦ hself ?_, hfound⟩, ⟨hself, fun h ↦ ?_⟩, ?_, findable_of_ascii⟩
  · simpa using h [] [] (by simp) (by simp)
  · simpa using hfound h [] [] (by simp) (by simp)
  · intro before after hbefore hafter
    exact standsAlone_of_blank_iff hbefore hafter

/-- One half is a number and asks for a word edge, but it is no word character: it is not found in
a text of its own. -/
theorem half_is_not_found :
    bounds '½' = true ∧ isWord '½' = false ∧ ¬ Findable ['½'] ∧
      (wholeWord ['½']).occursIn ['½'].toArray = false := by
  have hfindable : ¬ Findable ['½'] := by
    intro h
    have hword := h '½' (.inl rfl) (by decide +kernel)
    exact absurd hword (by decide +kernel)
  refine ⟨by decide +kernel, by decide +kernel, hfindable, ?_⟩
  rw [← Bool.not_eq_true, (found_where_it_stands_iff ['½']).2.1]
  exact hfindable

end Dialogue.Pattern
