import Dialogue.Proofs.Script.Naming
import Mathlib.Data.Nat.Digits.Defs

/-!
# The rank at the end of a name

What a declaration says about its rank is a matter of its last word alone: the word is a numeral of
the range of a signed machine word, or it belongs to the name. A numeral is described here by what
it denotes, place by place (`Keyword.Numeral`), and not by how it is read, which is one pass over
the digits from the left. The two agree on every word (`Keyword.rank?_eq_some_iff`).

Every number of the range has a numeral, its usual decimal one, so a name with any rank written
behind it is taken apart again into the name and the rank, whatever the name ends with.
-/

namespace Dialogue

namespace Character

theorem isBlank_of_isDigit {c : Char} (hc : c.isDigit = true) : isBlank c = false := by
  have hrange : 48 ≤ c.toNat ∧ c.toNat ≤ 57 := by
    simpa [Char.isDigit, UInt32.le_iff_toNat_le] using hc
  have hspace : c ≠ ' ' := by
    rintro rfl
    cases hc
  rw [isBlank, if_pos (by omega), beq_eq_false_iff_ne.2 hspace]
  simp
  omega

end Character

open Character (isBlank isBlank_of_isDigit)
open Text (words contract Blank)

namespace Keyword

/-! ## Numerals -/

/-- The number that digits denote. The last one counts units, the one before it tens. -/
def decimal (digits : Text) : Nat :=
  Nat.ofDigits 10 (digits.reverse.map fun c ↦ c.toNat - '0'.toNat)

/-- A word denotes a number if it is that number's digits, or a minus and the digits of its
negative. The digits may begin with zeros, but there is at least one. -/
inductive Numeral : Text → Int → Prop
  | digits {word : Text} (hne : word ≠ []) (hdigit : ∀ c ∈ word, c.isDigit = true) :
      Numeral word (decimal word)
  | minus {word : Text} (hne : word ≠ []) (hdigit : ∀ c ∈ word, c.isDigit = true) :
      Numeral ('-' :: word) (-(decimal word : Int))

variable {word digits : Text} {rank : Int}

theorem numeral_minus_iff : Numeral ('-' :: digits) rank ↔
    (digits ≠ [] ∧ ∀ c ∈ digits, c.isDigit = true) ∧ rank = -(decimal digits : Int) := by
  constructor
  · rintro (⟨-, hdigit⟩ | ⟨hne, hdigit⟩)
    · exact absurd (hdigit '-' List.mem_cons_self) (by decide)
    · exact ⟨⟨hne, hdigit⟩, rfl⟩
  · rintro ⟨⟨hne, hdigit⟩, rfl⟩
    exact .minus hne hdigit

theorem numeral_iff_of_unsigned (hword : ∀ digits, word ≠ '-' :: digits) : Numeral word rank ↔
    (word ≠ [] ∧ ∀ c ∈ word, c.isDigit = true) ∧ rank = decimal word := by
  constructor
  · rintro (⟨hne, hdigit⟩ | ⟨-, -⟩)
    · exact ⟨⟨hne, hdigit⟩, rfl⟩
    · exact absurd rfl (hword _)
  · rintro ⟨⟨hne, hdigit⟩, rfl⟩
    exact .digits hne hdigit

/-- A pass from the left multiplies by ten what came before, which puts each digit in its place. -/
theorem foldl_eq_decimal (digits : Text) :
    digits.foldl (fun n c ↦ n * 10 + (c.toNat - '0'.toNat)) 0 = decimal digits := by
  rw [decimal, Nat.ofDigits_eq_foldr, List.foldr_map, List.foldr_reverse]
  simp only [Nat.cast_id, Nat.add_comm, Nat.mul_comm]

/-- **A word is read as a rank exactly if it denotes a number of the range.** -/
theorem rank?_eq_some_iff :
    rank? word = some rank ↔ Numeral word rank ∧ -2 ^ 63 ≤ rank ∧ rank < 2 ^ 63 := by
  have hdigits (word : Text) : (word.isEmpty || !word.all Char.isDigit) = false ↔
      word ≠ [] ∧ ∀ c ∈ word, c.isDigit = true := by
    simp
  by_cases hsign : ∃ digits, word = '-' :: digits
  · obtain ⟨digits, rfl⟩ := hsign
    rw [numeral_minus_iff, ← hdigits, rank?]
    simp only [foldl_eq_decimal]
    cases hbad : digits.isEmpty || !digits.all Char.isDigit
    · have hrange : decimal digits ≤ 0x8000000000000000 ∧ -(decimal digits : Int) = rank ↔
          rank = -(decimal digits : Int) ∧ -2 ^ 63 ≤ rank ∧ rank < 2 ^ 63 := by omega
      simpa using hrange
    · simp
  · have hplain := not_exists.1 hsign
    rw [numeral_iff_of_unsigned hplain, ← hdigits, rank?]
    · simp only [foldl_eq_decimal]
      cases hbad : word.isEmpty || !word.all Char.isDigit
      · have hrange : decimal word < 0x8000000000000000 ∧ (decimal word : Int) = rank ↔
            rank = decimal word ∧ -2 ^ 63 ≤ rank ∧ rank < 2 ^ 63 := by omega
        simpa using hrange
      · simp
    · exact hplain

/-! ## The usual numeral of a number -/

theorem decimal_toDigits (n : Nat) : decimal (Nat.toDigits 10 n) = n := by
  rw [← foldl_eq_decimal]
  simpa only [Nat.ofDigitChars, Nat.mul_comm] using @Nat.ofDigitChars_ten_toDigits n

/-- Every number has its usual numeral: no sign but a minus, and no zeros in front. -/
theorem numeral_toString (rank : Int) : Numeral (toString rank).toList rank := by
  have hdigit (n : Nat) : ∀ c ∈ Nat.toDigits 10 n, c.isDigit = true := fun c hc ↦
    Nat.isDigit_of_mem_toDigits (by decide) (by decide) hc
  cases rank with
  | ofNat n =>
    have hnumeral := Numeral.digits Nat.toDigits_ne_nil (hdigit n)
    rw [decimal_toDigits] at hnumeral
    rwa [Int.toString_eq_repr, Int.repr, Nat.toList_repr]
  | negSucc n =>
    have hnumeral := Numeral.minus Nat.toDigits_ne_nil (hdigit (n + 1))
    rw [decimal_toDigits] at hnumeral
    rw [Int.toString_eq_repr, Int.repr, String.toList_append, Nat.toList_repr]
    exact hnumeral

/-- A numeral is a word. -/
theorem Numeral.words_eq (h : Numeral word rank) : words word = [word] := by
  rcases h with ⟨hne, hdigit⟩ | ⟨-, hdigit⟩
  · exact Text.words_of_forall hne fun c hc ↦ isBlank_of_isDigit (hdigit c hc)
  · refine Text.words_of_forall (List.cons_ne_nil _ _) ?_
    exact List.forall_mem_cons.2 ⟨rfl, fun c hc ↦ isBlank_of_isDigit (hdigit c hc)⟩

/-! ## Names and ranks -/

/-- The words of a declaration are those of a name, at least one, and a numeral of the range of a
signed machine word. -/
def EndsInRank (declared : Text) (name : List Text) (rank : Int) : Prop :=
  name ≠ [] ∧ -2 ^ 63 ≤ rank ∧ rank < 2 ^ 63 ∧
    ∃ numeral, words declared = name ++ [numeral] ∧ Numeral numeral rank

theorem parseName_of_endsInRank {declared : Text} {name : List Text}
    (h : EndsInRank declared name rank) : parseName declared = ([' '].intercalate name, rank) := by
  obtain ⟨hname, hlower, hupper, numeral, hwords, hnumeral⟩ := h
  rw [parseName_eq, hwords, nameOf_concat hname, rank?_eq_some_iff.2 ⟨hnumeral, hlower, hupper⟩]
  rfl

theorem parseName_of_not_endsInRank {declared : Text}
    (h : ∀ name rank, ¬ EndsInRank declared name rank) :
    parseName declared = ([' '].intercalate (words declared), 0) := by
  rw [parseName_eq]
  rcases List.eq_nil_or_concat' (words declared) with hwords | ⟨name, last, hwords⟩
  · rw [hwords]
    rfl
  · rw [hwords]
    by_cases hname : name = []
    · subst hname
      rw [List.nil_append, nameOf_singleton, List.intercalate_singleton]
    · have hnone : rank? last = none := by
        refine Option.eq_none_iff_forall_ne_some.2 fun rank hrank ↦ ?_
        obtain ⟨hnumeral, hlower, hupper⟩ := rank?_eq_some_iff.1 hrank
        exact h name rank ⟨hname, hlower, hupper, last, hwords, hnumeral⟩
      rw [nameOf_concat hname, hnone]
      rfl

/-- A number behind a name is its rank, whatever the name ends with. -/
theorem endsInRank_append {name gap : Text} (hname : ¬ Blank name) (hne : gap ≠ [])
    (hgap : Blank gap) (hlower : -2 ^ 63 ≤ rank) (hupper : rank < 2 ^ 63) :
    EndsInRank (name ++ gap ++ (toString rank).toList) (words name) rank := by
  have hnumeral := numeral_toString rank
  obtain ⟨c, gap, rfl⟩ := List.exists_cons_of_ne_nil hne
  obtain ⟨hc, hgap⟩ := Text.blank_cons_iff.1 hgap
  refine ⟨mt Text.words_eq_nil_iff.1 hname, hlower, hupper, (toString rank).toList, ?_, hnumeral⟩
  rw [List.append_assoc, List.cons_append, Text.words_append_cons hc,
    Text.words_append_of_blank hgap, hnumeral.words_eq]

/-- **Exactly a trailing rank is split off.** If the last of several words is a numeral of the
range, the words before it are the name and its number is the rank. In all other cases all words
are the name, and the rank is 0. So a name and any rank of the range behind it, with any white space
between them, are read as that name and that rank. -/
theorem parseName_splits_trailing_rank (declared : Text) :
    (∀ name rank, EndsInRank declared name rank →
      parseName declared = ([' '].intercalate name, rank)) ∧
    ((∀ name rank, ¬ EndsInRank declared name rank) →
      parseName declared = ([' '].intercalate (words declared), 0)) ∧
    ∀ (gap : Text) (rank : Int), ¬ Blank declared → gap ≠ [] → Blank gap →
      -2 ^ 63 ≤ rank → rank < 2 ^ 63 →
      parseName (declared ++ gap ++ (toString rank).toList) = (contract declared, rank) :=
  ⟨fun _ _ ↦ parseName_of_endsInRank, parseName_of_not_endsInRank,
    fun _ _ hname hne hgap hlower hupper ↦
      parseName_of_endsInRank (endsInRank_append hname hne hgap hlower hupper)⟩

/-- Behind a name that is a number itself stands the lowest rank. Zeros in front of a rank say
nothing, and a number below the lowest rank belongs to the name. -/
theorem lowest_rank_behind_number :
    parseName "-1 \t -9223372036854775808".toList = ("-1".toList, -2 ^ 63) ∧
      parseName "  the   -007 ".toList = ("the".toList, -7) ∧
      parseName "-1  -9223372036854775809".toList = ("-1 -9223372036854775809".toList, 0) := by
  refine ⟨?_, ?_, ?_⟩
  · have htext : "-1 \t -9223372036854775808".toList =
        "-1".toList ++ " \t ".toList ++ (toString (-2 ^ 63 : Int)).toList := by
      decide +kernel
    rw [htext]
    exact (parseName_splits_trailing_rank _).2.2 " \t ".toList (-2 ^ 63) (by decide +kernel)
      (by decide +kernel) (by decide +kernel) le_rfl (by omega)
  · have hdigit : ∀ c ∈ "007".toList, c.isDigit = true := List.all_eq_true.1 rfl
    have hnumeral : Numeral "-007".toList (-7) :=
      numeral_minus_iff.2 ⟨⟨by decide, hdigit⟩, by decide +kernel⟩
    have hwords : words "  the   -007 ".toList = ["the".toList] ++ ["-007".toList] := by
      decide +kernel
    exact (parseName_splits_trailing_rank _).1 ["the".toList] (-7)
      ⟨List.cons_ne_nil _ _, by omega, by omega, _, hwords, hnumeral⟩
  · have hwords : words "-1  -9223372036854775809".toList =
        ["-1".toList] ++ ["-9223372036854775809".toList] := by
      decide +kernel
    have hnumber : rank? "-9223372036854775809".toList = none := by decide +kernel
    have hnone := (parseName_splits_trailing_rank "-1  -9223372036854775809".toList).2.1 ?_
    · rw [hnone, hwords]
      decide +kernel
    rintro name rank ⟨-, hlower, hupper, numeral, hends, hnumeral⟩
    obtain ⟨-, hlast⟩ := List.append_inj' (hwords.symm.trans hends) rfl
    rw [← List.singleton_inj.1 hlast] at hnumeral
    have hrank := rank?_eq_some_iff.2 ⟨hnumeral, hlower, hupper⟩
    exact Option.some_ne_none rank (hrank.symm.trans hnumber)

end Keyword

end Dialogue
