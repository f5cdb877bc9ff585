import Dialogue.Pattern.Replace
import Dialogue.Proofs.Pattern.Meaning

/-!
# Replacing in one pass

`Pattern.replaceAll` collects the places of all matches first and puts the replacements in
afterwards, with positions that count from the start of the text. Here the same is said without
positions: a `Pass` goes through the text from left to right, keeps a character at which no match
starts, replaces what the first match from there captures, and goes on behind the capture.

This is shown for patterns that look for one of some words between two conditions, which is all that
is ever replaced (`Pattern.pass_replaceAll`). What is put in is behind the pass and not searched.
-/

namespace Dialogue.Pattern

open Text (SameFold)

/-- Going through `rest`, which stands behind `before`, gives `out`. -/
inductive Pass (p : Pattern) (f : List Char → List Char) :
    List Char → List Char → List Char → Prop
  | done {before : List Char} : Pass p f before [] []
  | keep {before rest out : List Char} {c : Char} (free : ∀ xs, ¬ p.Cuts before (c :: rest) xs)
      (later : Pass p f (before ++ [c]) rest out) : Pass p f before (c :: rest) (c :: out)
  | replace {before lead x y after out : List Char}
      (first : p.CutsFirst before (lead ++ (x ++ after)) [lead, x, y])
      (later : Pass p f (before ++ lead ++ x) after out) :
      Pass p f before (lead ++ (x ++ after)) (lead ++ f x ++ out)

theorem Pass.cases {p : Pattern} {f : List Char → List Char} {before rest out : List Char}
    (h : Pass p f before rest out) :
    (rest = [] ∧ out = []) ∨
    (∃ c t late, rest = c :: t ∧ out = c :: late ∧ (∀ xs, ¬ p.Cuts before rest xs) ∧
      Pass p f (before ++ [c]) t late) ∨
    ∃ lead x y after late, rest = lead ++ (x ++ after) ∧ out = lead ++ f x ++ late ∧
      p.CutsFirst before rest [lead, x, y] ∧ Pass p f (before ++ lead ++ x) after late := by
  rcases h with _ | ⟨free, later⟩ | ⟨first, later⟩
  · exact .inl ⟨rfl, rfl⟩
  · exact .inr (.inl ⟨_, _, _, rfl, rfl, free, later⟩)
  · exact .inr (.inr ⟨_, _, _, _, _, rfl, rfl, first, later⟩)

/-! ## Matches and their spans -/

/-- The preferred matches from the positions of `rest`, which stands behind `before`. -/
def rowsFrom (p : Pattern) (before rest : List Char) : List (Option Captures) :=
  (List.range' before.length (rest.length + 1)).map (p.match? (before ++ rest).toArray)

variable {p : Pattern} {f : List Char → List Char} {before rest : List Char}

theorem rowsFrom_nil (p : Pattern) (s : List Char) :
    p.rowsFrom [] s = (p.table s.toArray).toList := by
  rw [table_eq, Array.toList_map, Array.toList_range, rowsFrom, List.range_eq_range']
  rfl

theorem rowsFrom_cons (p : Pattern) (before rest : List Char) (c : Char) :
    p.rowsFrom before (c :: rest) =
      p.match? (before ++ c :: rest).toArray before.length :: p.rowsFrom (before ++ [c]) rest := by
  rw [rowsFrom, List.length_cons, List.range'_succ, List.map_cons, rowsFrom]
  simp

theorem drop_rowsFrom (p : Pattern) (before x after : List Char) :
    (p.rowsFrom before (x ++ after)).drop x.length = p.rowsFrom (before ++ x) after := by
  induction x generalizing before with
  | nil => simp
  | cons c x ih => simpa [rowsFrom_cons] using ih (before ++ [c])

/-- A captured section lies behind the place where the match starts. -/
theorem le_of_mem_places {i : Nat} {xs : List (List Char)} {span : Nat × Nat}
    (h : span ∈ p.places i xs) : i ≤ span.1 ∧ span.1 ≤ span.2 := by
  induction p generalizing i xs with
  | nil => simp [places] at h
  | cons p ps ih =>
    rcases xs with _ | ⟨x, xs⟩
    · simp [places] at h
    · have hrest (h : span ∈ places ps (i + x.length) xs) : i ≤ span.1 ∧ span.1 ≤ span.2 := by
        have := ih h
        omega
      rw [places, Piece.capture] at h
      split at h
      · rcases List.mem_cons.1 h with rfl | h
        · exact ⟨Nat.le_refl _, Nat.le_add_right _ _⟩
        · exact hrest h
      · exact hrest h

theorem le_of_mem_rowsFrom {captures : Captures} {span : Nat × Nat}
    (h : some captures ∈ p.rowsFrom before rest) (hspan : span ∈ captures) :
    before.length ≤ span.1 ∧ span.1 ≤ span.2 := by
  obtain ⟨i, hi, hmatch⟩ := List.mem_map.1 h
  obtain ⟨k, hk, rfl⟩ : ∃ k ≤ rest.length, i = before.length + k := by
    rw [List.mem_range'_1] at hi
    exact ⟨i - before.length, by omega, by omega⟩
  have hlength : (before ++ rest.take k).length = before.length + k := by simp [hk]
  have hcases := match?_cases p (before ++ rest.take k) (rest.drop k)
  rw [List.append_assoc, List.take_append_drop, hlength, hmatch] at hcases
  rcases hcases with ⟨xs, -, hplaces⟩ | ⟨-, hnone⟩
  · rw [Option.some.inj hplaces] at hspan
    have := le_of_mem_places hspan
    omega
  · cases hnone

/-- Where the previous capture ended does not matter once the search is beyond it. -/
theorem spansFrom_of_le {resume i : Nat} (h : resume ≤ i) (rows : List (Option Captures)) :
    spansFrom resume i rows = spansFrom i i rows := by
  have any {r r' i : Nat} (hr : r ≤ i) (hr' : r' ≤ i) :
      spansFrom r i rows = spansFrom r' i rows := by
    induction rows generalizing i with
    | nil => rfl
    | cons row rows ih =>
      rcases row with _ | _ | ⟨span, captures⟩
      · exact ih (by omega) (by omega)
      · exact ih (by omega) (by omega)
      · rw [spansFrom, spansFrom, if_pos hr, if_pos hr']
  exact any h (Nat.le_refl i)

/-- Matches that start before the end of the previous capture are passed over. -/
theorem spansFrom_add (i n : Nat) (rows : List (Option Captures)) :
    spansFrom (i + n) i rows = spansFrom (i + n) (i + n) (rows.drop n) := by
  induction n generalizing i rows with
  | zero => rfl
  | succ n ih =>
    rcases rows with _ | ⟨row, rows⟩
    · rfl
    · have hlater : spansFrom (i + (n + 1)) i (row :: rows) =
          spansFrom (i + (n + 1)) (i + 1) rows := by
        rcases row with _ | _ | ⟨span, captures⟩
        · rfl
        · rfl
        · rw [spansFrom, if_neg (by omega)]
      have := ih (i + 1) rows
      rw [show i + 1 + n = i + (n + 1) by omega] at this
      rw [hlater, this, List.drop_succ_cons]

theorem mem_rows_of_mem_spansFrom {resume i : Nat} {rows : List (Option Captures)}
    {span : Nat × Nat} (h : span ∈ spansFrom resume i rows) :
    ∃ captures, some captures ∈ rows ∧ span ∈ captures := by
  induction rows generalizing resume i with
  | nil => exact absurd h List.not_mem_nil
  | cons row rows ih =>
    have hlater {r j : Nat} (h : span ∈ spansFrom r j rows) :
        ∃ captures, some captures ∈ row :: rows ∧ span ∈ captures := by
      obtain ⟨captures, hmem, hspan⟩ := ih h
      exact ⟨captures, List.mem_cons_of_mem _ hmem, hspan⟩
    rcases row with _ | _ | ⟨first, captures⟩
    · exact hlater h
    · exact hlater h
    · rw [spansFrom] at h
      split at h
      · rcases List.mem_cons.1 h with rfl | h
        · exact ⟨_, List.mem_cons_self, List.mem_cons_self⟩
        · exact hlater h
      · exact hlater h

/-- Text before all spans stays. -/
theorem replaceSpans_append (f : List Char → List Char) (lead rest : List Char) (i : Nat)
    {spans : List (Nat × Nat)}
    (h : ∀ span ∈ spans, i + lead.length ≤ span.1 ∧ span.1 ≤ span.2) :
    replaceSpans f (lead ++ rest) i spans =
      lead ++ replaceSpans f rest (i + lead.length) spans := by
  rcases spans with _ | ⟨⟨a, b⟩, spans⟩
  · rfl
  · obtain ⟨hab, hb⟩ : i + lead.length ≤ a ∧ a ≤ b := h (a, b) List.mem_cons_self
    obtain ⟨k, rfl⟩ := Nat.exists_eq_add_of_le hab
    obtain ⟨l, rfl⟩ := Nat.exists_eq_add_of_le hb
    have hk : i + lead.length + k - i = lead.length + k := by omega
    have hk' : i + lead.length + k - (i + lead.length) = k := by omega
    have hl : i + lead.length + k + l - i = lead.length + (k + l) := by omega
    have hl' : i + lead.length + k + l - (i + lead.length) = k + l := by omega
    rw [replaceSpans, replaceSpans, hk, hk', hl, hl', Nat.add_sub_cancel_left,
      List.take_length_add_append, List.drop_length_add_append, List.drop_length_add_append]
    simp only [List.append_assoc]

/-! ## One pass -/

/-- What `replaceAll` makes of `rest`, behind `before`. -/
def replaceFrom (p : Pattern) (f : List Char → List Char) (before rest : List Char) : List Char :=
  replaceSpans f rest before.length (spansFrom before.length before.length (p.rowsFrom before rest))

theorem replaceAll_eq (s : List Char) : p.replaceAll f s = p.replaceFrom f [] s := by
  rw [replaceAll, spans, replaceFrom, rowsFrom_nil, List.length_nil]

theorem replaceFrom_of_nil (h : p.match? (before ++ []).toArray before.length = none) :
    p.replaceFrom f before [] = [] := by
  rw [replaceFrom, rowsFrom, List.length_nil, List.range'_one, List.map_singleton, h]
  rfl

/-- A character at which no match starts stays. -/
theorem replaceFrom_of_none {c : Char}
    (h : p.match? (before ++ c :: rest).toArray before.length = none) :
    p.replaceFrom f before (c :: rest) = c :: p.replaceFrom f (before ++ [c]) rest := by
  have hspans : spansFrom before.length before.length (p.rowsFrom before (c :: rest)) =
      spansFrom (before ++ [c]).length (before ++ [c]).length
        (p.rowsFrom (before ++ [c]) rest) := by
    rw [rowsFrom_cons, h, List.length_append, List.length_singleton]
    exact spansFrom_of_le (Nat.le_succ _) _
  rw [replaceFrom, replaceFrom, hspans]
  have hbehind : ∀ span ∈ spansFrom (before ++ [c]).length (before ++ [c]).length
      (p.rowsFrom (before ++ [c]) rest), before.length + [c].length ≤ span.1 ∧ span.1 ≤ span.2 := by
    intro span hspan
    obtain ⟨captures, hmem, hcaptures⟩ := mem_rows_of_mem_spansFrom hspan
    rw [← List.length_append]
    exact le_of_mem_rowsFrom hmem hcaptures
  have happend := replaceSpans_append f [c] rest before.length hbehind
  rwa [← List.length_append] at happend

/-- The first captured text is replaced, and the pass goes on behind it. -/
theorem replaceFrom_of_some {lead x after : List Char} {captures : Captures} (hx : x ≠ [])
    (h : p.match? (before ++ (lead ++ (x ++ after))).toArray before.length =
      some ((before.length + lead.length, before.length + lead.length + x.length) :: captures)) :
    p.replaceFrom f before (lead ++ (x ++ after)) =
      lead ++ f x ++ p.replaceFrom f (before ++ lead ++ x) after := by
  have hlength : (before ++ lead ++ x).length = before.length + lead.length + x.length := by
    simp only [List.length_append]
  have hspans : spansFrom before.length before.length (p.rowsFrom before (lead ++ (x ++ after))) =
      (before.length + lead.length, before.length + lead.length + x.length) ::
        spansFrom (before ++ lead ++ x).length (before ++ lead ++ x).length
          (p.rowsFrom (before ++ lead ++ x) after) := by
    have hdrop := drop_rowsFrom p before (lead ++ x) after
    obtain ⟨n, hn⟩ : ∃ n, (lead ++ x).length = n + 1 :=
      Nat.exists_eq_add_one.2 (List.length_pos_of_ne_nil (List.append_ne_nil_of_right_ne_nil _ hx))
    have hnext : before.length + lead.length + x.length = before.length + 1 + n := by
      rw [List.length_append] at hn
      omega
    have hrows : p.rowsFrom before (lead ++ (x ++ after)) =
        some ((before.length + lead.length, before.length + lead.length + x.length) :: captures) ::
          (p.rowsFrom before (lead ++ (x ++ after))).tail := by
      rw [← h, rowsFrom, List.range'_succ]
      rfl
    rw [List.append_assoc lead, hn, hrows, List.drop_succ_cons,
      ← List.append_assoc before] at hdrop
    rw [hrows, spansFrom, if_pos (Nat.le_refl _), hnext, spansFrom_add, hlength, hnext, ← hdrop]
  have hend : before.length + lead.length + x.length - before.length = (lead ++ x).length := by
    rw [List.length_append]
    omega
  rw [replaceFrom, hspans, replaceSpans, replaceFrom, hlength, Nat.add_sub_cancel_left,
    Nat.add_sub_cancel_left, hend, List.take_left, List.drop_left, List.take_left,
    ← List.append_assoc, List.drop_left]

/-! ## One of some words between two conditions -/

variable {left right : Piece} {words : List (List Char)}

theorem cuts_framed_iff (hwords : words ≠ []) {xs : List (List Char)} :
    Cuts [left, .oneOf words, right] before rest xs ↔ ∃ lead x y after, xs = [lead, x, y] ∧
      rest = lead ++ (x ++ (y ++ after)) ∧ left.Takes before lead (x ++ (y ++ after)) ∧
      (∃ word ∈ words, SameFold word x) ∧ right.Takes (before ++ lead ++ x) y after := by
  simp only [cuts_cons_iff, cuts_nil_iff, Piece.Takes, hwords, false_and, false_or]
  constructor
  · rintro ⟨lead, _, _, rfl, rfl, hleft, x, _, _, rfl, rfl, hx, y, after, _, rfl, rfl, hright, rfl⟩
    exact ⟨lead, x, y, after, rfl, rfl, hleft, hx, hright⟩
  · rintro ⟨lead, x, y, after, rfl, rfl, hleft, hx, hright⟩
    exact ⟨lead, _, _, rfl, rfl, hleft, x, _, _, rfl, rfl, hx, y, after, _, rfl, rfl, hright, rfl⟩

/-- **Replacing is one pass** if the pattern looks for one of some words between two conditions,
and none of the words is empty. -/
theorem pass_replaceAll (hleft : left.captures = false) (hwords : words ≠ [])
    (hne : ∀ word ∈ words, word ≠ []) (f : List Char → List Char) (s : List Char) :
    Pass [left, .oneOf words, right] f [] s (replaceAll [left, .oneOf words, right] f s) := by
  have hpass (before rest : List Char) : Pass [left, .oneOf words, right] f before rest
      (replaceFrom [left, .oneOf words, right] f before rest) := by
    induction hlength : rest.length using Nat.strongRecOn generalizing before rest with
    | _ n ih =>
      rcases match?_cases [left, .oneOf words, right] before rest with
        ⟨xs, hfirst, hmatch⟩ | ⟨hfree, hmatch⟩
      · obtain ⟨lead, x, y, after, rfl, rfl, -, ⟨word, hword, hsame⟩, -⟩ :=
          (cuts_framed_iff hwords).1 hfirst.cuts
        have hx : x ≠ [] := hsame.ne_nil (hne word hword)
        have hplaces : match? (before ++ (lead ++ (x ++ (y ++ after)))).toArray
            [left, .oneOf words, right] before.length =
            some ((before.length + lead.length, before.length + lead.length + x.length) ::
              places [right] (before.length + lead.length + x.length) [y]) := by
          rw [hmatch, places, Piece.capture, hleft]
          rfl
        rw [replaceFrom_of_some hx hplaces]
        refine .replace hfirst (ih _ ?_ _ _ rfl)
        have := List.length_pos_of_ne_nil hx
        simp only [List.length_append] at hlength ⊢
        omega
      · rcases rest with _ | ⟨c, rest⟩
        · rw [replaceFrom_of_nil hmatch]
          exact .done
        · rw [replaceFrom_of_none hmatch]
          refine .keep hfree (ih _ ?_ _ _ rfl)
          rw [← hlength, List.length_cons]
          exact Nat.lt_succ_self _
  rw [replaceAll_eq]
  exact hpass [] s

end Dialogue.Pattern
