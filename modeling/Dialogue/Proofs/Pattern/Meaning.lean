import Dialogue.Pattern.Table
import Mathlib.Data.List.Basic

/-!
# What a pattern matches

`Pattern.match?` tries the choices of one piece after the other, with positions in an array. Here
the same is said of texts, and without a search: a match cuts a text into one section for each
piece, and of two ways to cut, the one that is preferred at the first difference *precedes* the
other.

The search finds a match if there is one, and then the one that precedes all others
(`Pattern.match?_cases`). So the captures of a pattern that is bound to the start of the text are
those sections of the first match whose pieces capture (`Pattern.capture?_eq_some_iff`).
-/

namespace Dialogue

open Character (isBlank isWord fold sameFold)

namespace Text

/-- The texts differ in case at most. -/
def SameFold (s t : List Char) : Prop := s.map fold = t.map fold

instance (s t : List Char) : Decidable (SameFold s t) := inferInstanceAs (Decidable (_ = _))

/-- Exactly one of the characters on either side of a place is a word character. -/
def Edge (before after : List Char) : Prop :=
  before.getLast?.any isWord ≠ after.head?.any isWord

instance (before after : List Char) : Decidable (Edge before after) :=
  inferInstanceAs (Decidable (_ ≠ _))

theorem SameFold.length_eq {s t : List Char} (h : SameFold s t) : s.length = t.length := by
  simpa using congrArg List.length h

theorem SameFold.ne_nil {s t : List Char} (h : SameFold s t) (hs : s ≠ []) : t ≠ [] := by
  rintro rfl
  exact hs (List.length_eq_zero_iff.1 h.length_eq)

theorem sameFold_nil_iff {s : List Char} : SameFold [] s ↔ s = [] := by
  simp [SameFold, eq_comm]

theorem sameFold_cons_iff {c d : Char} {s t : List Char} :
    SameFold (c :: s) (d :: t) ↔ fold c = fold d ∧ SameFold s t := by
  simp [SameFold]

theorem SameFold.reverse {s t : List Char} (h : SameFold s t) : SameFold s.reverse t.reverse := by
  rw [SameFold, List.map_reverse, List.map_reverse, h]

/-- What does not depend on case is said alike of the ends of such texts. -/
theorem SameFold.any_ends {P : Char → Bool} (hP : ∀ c, P (fold c) = P c) {s t : List Char}
    (h : SameFold s t) : s.head?.any P = t.head?.any P ∧ s.getLast?.any P = t.getLast?.any P := by
  have hany (o : Option Char) : o.any P = (o.map fold).any P := by
    rcases o with _ | c
    · rfl
    · exact (hP c).symm
  constructor
  · rw [hany, hany t.head?, ← List.head?_map, ← List.head?_map, h]
  · rw [hany, hany t.getLast?, ← List.getLast?_map, ← List.getLast?_map, h]

theorem edge_reverse_iff {before after : List Char} :
    Edge after.reverse before.reverse ↔ Edge before after := by
  rw [Edge, Edge, List.getLast?_reverse, List.head?_reverse]
  exact ne_comm

end Text

open Text (SameFold Edge)

namespace Piece

/-! ## The meaning of a piece -/

/-- The piece matches `x` between the texts `before` and `after`. -/
def Takes (before x after : List Char) : Piece → Prop
  | literal text => SameFold text x
  | wildcard => '\n' ∉ x
  | oneOf words => (words = [] ∧ x = []) ∨ ∃ word ∈ words, SameFold word x
  | wordEdge => x = [] ∧ Edge before after
  | textStart => x = [] ∧ before = []
  | textEnd => x = [] ∧ after = []
  | startOrBlank => (x = [] ∧ before = []) ∨ ∃ c, x = [c] ∧ isBlank c
  | blankOrEnd => (x = [] ∧ after = []) ∨ ∃ c, x = [c] ∧ isBlank c

/-- The piece would match `x` rather than `y`. -/
def Prefers (x y : List Char) : Piece → Prop
  | wildcard | blankOrEnd => y.length < x.length
  | startOrBlank => x.length < y.length
  | oneOf words => words.findIdx (SameFold · x) < words.findIdx (SameFold · y)
  | _ => False

/-! ## Positions and texts -/

theorem getElem?_length (before rest : List Char) :
    (before ++ rest).toArray[before.length]? = rest.head? := by
  rw [List.getElem?_toArray, List.getElem?_append_right (Nat.le_refl _), Nat.sub_self,
    List.head?_eq_getElem?]

theorem sameFold_iff {c d : Char} : sameFold c d = true ↔ fold c = fold d := by
  rw [sameFold, Bool.or_eq_true, beq_iff_eq, beq_iff_eq]
  exact ⟨fun h ↦ h.elim (congrArg fold) id, Or.inr⟩

theorem standsAt_iff {before rest word : List Char} :
    standsAt (before ++ rest).toArray word before.length = true ↔
      ∃ x after, rest = x ++ after ∧ SameFold word x := by
  induction word generalizing before rest with
  | nil => simp [standsAt, Text.sameFold_nil_iff]
  | cons c word ih =>
    rw [standsAt, getElem?_length, Bool.and_eq_true]
    cases rest with
    | nil => simp [SameFold]
    | cons d rest =>
      have hsplit : before ++ d :: rest = (before ++ [d]) ++ rest := by simp
      have hlength : before.length + 1 = (before ++ [d]).length := by simp
      rw [hsplit, hlength, ih, List.head?_cons, Option.any_some, sameFold_iff]
      constructor
      · rintro ⟨hc, x, after, rfl, hx⟩
        exact ⟨d :: x, after, rfl, Text.sameFold_cons_iff.2 ⟨hc, hx⟩⟩
      · rintro ⟨x, after, hrest, hx⟩
        cases x with
        | nil => simp [SameFold] at hx
        | cons e x =>
          obtain ⟨rfl, rfl⟩ := List.cons_eq_cons.1 hrest
          obtain ⟨hc, hx⟩ := Text.sameFold_cons_iff.1 hx
          exact ⟨hc, x, after, rfl, hx⟩

theorem isEdge_iff {before rest : List Char} :
    isEdge (before ++ rest).toArray before.length = true ↔ Edge before rest := by
  have hbefore : (decide (0 < before.length) &&
      wordAt (before ++ rest).toArray (before.length - 1)) = before.getLast?.any isWord := by
    rcases List.eq_nil_or_concat before with rfl | ⟨before, c, rfl⟩
    · rfl
    · simp [wordAt]
  rw [isEdge, hbefore, wordAt, getElem?_length, bne_iff_ne, Edge]

theorem lineLength_eq (before rest : List Char) :
    lineLength (before ++ rest).toArray before.length =
      (rest.takeWhile (· != '\n')).length := by
  rw [lineLength, List.drop_left]

theorem length_le_takeWhile_iff (x after : List Char) :
    x.length ≤ ((x ++ after).takeWhile (· != '\n')).length ↔ '\n' ∉ x := by
  induction x with
  | nil => simp
  | cons c x ih =>
    rw [List.cons_append, List.takeWhile_cons]
    by_cases hc : c = '\n'
    · simp [hc]
    · simp [hc, ih, Ne.symm hc]

section Ends

variable {before rest : List Char} {j : Nat}

private theorem mem_ends_literal {text : List Char} :
    j ∈ (literal text).ends (before ++ rest).toArray before.length ↔
      ∃ x after, rest = x ++ after ∧ SameFold text x ∧ j = before.length + x.length := by
  rw [ends]
  split
  · rename_i h
    obtain ⟨x, after, rfl, hx⟩ := standsAt_iff.1 h
    rw [List.mem_singleton]
    constructor
    · rintro rfl
      exact ⟨x, after, rfl, hx, by rw [hx.length_eq]⟩
    · rintro ⟨y, after', -, hy, rfl⟩
      rw [hy.length_eq]
  · rename_i h
    simp only [List.not_mem_nil, false_iff]
    rintro ⟨x, after, hrest, hx, -⟩
    exact h (standsAt_iff.2 ⟨x, after, hrest, hx⟩)

private theorem mem_ends_wildcard :
    j ∈ wildcard.ends (before ++ rest).toArray before.length ↔
      ∃ x after, rest = x ++ after ∧ '\n' ∉ x ∧ j = before.length + x.length := by
  simp only [ends, List.mem_map, List.mem_reverse, List.mem_range, lineLength_eq, Nat.lt_succ_iff]
  constructor
  · rintro ⟨n, hn, rfl⟩
    have hlength : (rest.take n).length = n :=
      List.length_take_of_le (Nat.le_trans hn (List.takeWhile_sublist _).length_le)
    refine ⟨rest.take n, rest.drop n, (List.take_append_drop n rest).symm, ?_, by rw [hlength]⟩
    rwa [← length_le_takeWhile_iff _ (rest.drop n), List.take_append_drop, hlength]
  · rintro ⟨x, after, rfl, hx, rfl⟩
    exact ⟨x.length, (length_le_takeWhile_iff x after).2 hx, rfl⟩

/-- The words among which a piece chooses; no words stand for the empty word. -/
def choices (words : List (List Char)) : List (List Char) :=
  if words.isEmpty then [[]] else words

theorem ends_oneOf (t : Array Char) (i : Nat) (words : List (List Char)) :
    (oneOf words).ends t i = ((choices words).filter (standsAt t · i)).map (i + ·.length) := rfl

theorem exists_mem_choices_iff {words : List (List Char)} {x : List Char} :
    (∃ word ∈ choices words, SameFold word x) ↔
      (words = [] ∧ x = []) ∨ ∃ word ∈ words, SameFold word x := by
  cases words with
  | nil => simp [choices, Text.sameFold_nil_iff]
  | cons word words => simp [choices]

private theorem mem_ends_oneOf {words : List (List Char)} :
    j ∈ (oneOf words).ends (before ++ rest).toArray before.length ↔
      ∃ x after, rest = x ++ after ∧ (∃ word ∈ choices words, SameFold word x) ∧
        j = before.length + x.length := by
  simp only [ends_oneOf, List.mem_map, List.mem_filter, standsAt_iff]
  constructor
  · rintro ⟨word, ⟨hword, x, after, rfl, hx⟩, rfl⟩
    exact ⟨x, after, rfl, ⟨word, hword, hx⟩, by rw [hx.length_eq]⟩
  · rintro ⟨x, after, rfl, ⟨word, hword, hx⟩, rfl⟩
    exact ⟨word, ⟨hword, x, after, rfl, hx⟩, by rw [hx.length_eq]⟩

private theorem mem_ends_condition {b : Prop} [Decidable b] {P : List Char → Prop}
    (h : b ↔ P rest) : (j ∈ if b then [before.length] else []) ↔
      ∃ x after, rest = x ++ after ∧ (x = [] ∧ P after) ∧ j = before.length + x.length := by
  rw [List.mem_ite_nil_right, List.mem_singleton, h]
  constructor
  · rintro ⟨hP, rfl⟩
    exact ⟨[], rest, rfl, ⟨rfl, hP⟩, rfl⟩
  · rintro ⟨x, after, rfl, ⟨rfl, hP⟩, rfl⟩
    exact ⟨hP, rfl⟩

private theorem mem_ends_blank :
    (j ∈ if (rest.head?).any isBlank then [before.length + 1] else []) ↔
      ∃ x after, rest = x ++ after ∧ (∃ c, x = [c] ∧ isBlank c) ∧ j = before.length + x.length := by
  rw [List.mem_ite_nil_right, List.mem_singleton]
  cases rest with
  | nil => simp
  | cons d rest =>
    constructor
    · rintro ⟨hd, rfl⟩
      exact ⟨[d], rest, rfl, ⟨d, rfl, hd⟩, rfl⟩
    · rintro ⟨x, after, hrest, ⟨c, rfl, hc⟩, rfl⟩
      obtain ⟨rfl, rfl⟩ := List.cons_eq_cons.1 hrest
      exact ⟨hc, rfl⟩

private theorem length_eq_size_iff : before.length = (before ++ rest).toArray.size ↔ rest = [] := by
  simp

/-- **The ends of a piece are the ends of what it matches.** -/
theorem mem_ends_iff {p : Piece} :
    j ∈ p.ends (before ++ rest).toArray before.length ↔
      ∃ x after, rest = x ++ after ∧ p.Takes before x after ∧ j = before.length + x.length := by
  cases p with
  | literal text => exact mem_ends_literal
  | wildcard => exact mem_ends_wildcard
  | oneOf words => simp only [mem_ends_oneOf, exists_mem_choices_iff, Takes]
  | wordEdge => exact mem_ends_condition isEdge_iff
  | textStart => exact mem_ends_condition (P := fun _ ↦ before = []) List.length_eq_zero_iff
  | textEnd => exact mem_ends_condition length_eq_size_iff
  | startOrBlank =>
    have hstart : (j ∈ if before.length = 0 then [before.length] else []) ↔ ∃ x after,
        rest = x ++ after ∧ (x = [] ∧ before = []) ∧ j = before.length + x.length :=
      mem_ends_condition (P := fun _ ↦ before = []) List.length_eq_zero_iff
    rw [ends, List.mem_append, getElem?_length, mem_ends_blank, hstart]
    simp only [Takes, or_and_right, and_or_left, exists_or]
  | blankOrEnd =>
    rw [ends, List.mem_append, getElem?_length, mem_ends_blank,
      mem_ends_condition (P := fun after ↦ after = []) length_eq_size_iff]
    simp only [Takes, or_and_right, and_or_left, exists_or]
    exact or_comm

/-! ## The order of the ends -/

private theorem mem_or_of_pairwise {r : Nat → Nat → Prop} {k : Nat} {l₁ l₂ : List Nat}
    (hr : (l₁ ++ j :: l₂).Pairwise r) (hk : k ∈ l₁ ++ j :: l₂) : k ∈ l₁ ∨ k = j ∨ r j k := by
  rcases List.mem_append.1 hk with h | h
  · exact .inl h
  · rcases List.mem_cons.1 h with rfl | h
    · exact .inr (.inl rfl)
    · exact .inr (.inr ((List.pairwise_cons.1 (List.pairwise_append.1 hr).2.1).1 k h))

private theorem pairwise_ends_wildcard (t : Array Char) (i : Nat) :
    (wildcard.ends t i).Pairwise (· > ·) := by
  rw [ends, List.pairwise_map, List.pairwise_reverse]
  exact List.pairwise_lt_range.imp fun h ↦ Nat.add_lt_add_left h i

private theorem pairwise_ends_startOrBlank (t : Array Char) (i : Nat) :
    (startOrBlank.ends t i).Pairwise (· < ·) := by
  rw [ends]
  split <;> split <;> simp

private theorem pairwise_ends_blankOrEnd (t : Array Char) (i : Nat) :
    (blankOrEnd.ends t i).Pairwise (· > ·) := by
  rw [ends]
  split <;> split <;> simp

/-- If the choice falls on a word for `x`, then `y` matches an earlier word or the same one, or `x`
is preferred. -/
private theorem prefers_oneOf {words l₁ l₂ : List (List Char)} {word x y : List Char}
    (hsplit : words = l₁ ++ word :: l₂) (hx : SameFold word x) :
    (∃ w ∈ l₁, SameFold w y) ∨ SameFold word y ∨ (oneOf words).Prefers x y := by
  by_cases hl : ∃ w ∈ l₁, SameFold w y
  · exact .inl hl
  by_cases hword : SameFold word y
  · exact .inr (.inl hword)
  have hfirst : words.findIdx (SameFold · x) ≤ l₁.length := by
    rw [hsplit, List.findIdx_append]
    split
    · omega
    · simp [List.findIdx_cons, hx]
  have hlast : l₁.length < words.findIdx (SameFold · y) := by
    have : ¬ l₁.findIdx (SameFold · y) < l₁.length := by
      simpa [List.findIdx_lt_length] using hl
    rw [hsplit, List.findIdx_append, if_neg this, List.findIdx_cons]
    simp [hword]
  exact .inr (.inr (Nat.lt_of_le_of_lt hfirst hlast))

private theorem prefers_of_ends_oneOf {words : List (List Char)} {x y after after' : List Char}
    {l₁ l₂ : List Nat}
    (hends : (oneOf words).ends (before ++ rest).toArray before.length =
      l₁ ++ (before.length + x.length) :: l₂)
    (hwords : choices words = words) (hx : rest = x ++ after) (hy : rest = y ++ after') :
    before.length + y.length ∈ l₁ ∨ x = y ∨ (oneOf words).Prefers x y := by
  rw [ends_oneOf, hwords] at hends
  obtain ⟨ws₁, ws, hfilter, rfl, hws⟩ := List.map_eq_append_iff.1 hends
  obtain ⟨word, _, rfl, hlength, -⟩ := List.map_eq_cons_iff.1 hws
  obtain ⟨early, late, hsplit, rfl, hlate⟩ := List.filter_eq_append_iff.1 hfilter
  obtain ⟨between, late, rfl, hbetween, hstands, -⟩ := List.filter_eq_cons_iff.1 hlate
  have hword : SameFold word x := by
    obtain ⟨z, after, hz, hwordz⟩ := standsAt_iff.1 hstands
    have := hwordz.length_eq
    obtain ⟨rfl, -⟩ := List.append_inj (hx.symm.trans hz) (by omega)
    exact hwordz
  rw [← List.append_assoc] at hsplit
  rcases prefers_oneOf (y := y) hsplit hword with ⟨w, hw, hwy⟩ | hwordy | h
  · -- a word that matches `y` stands here as well, so it is among those that were kept
    have hwstands : standsAt (before ++ rest).toArray w before.length = true :=
      standsAt_iff.2 ⟨y, after', hy, hwy⟩
    have hearly : w ∈ early := (List.mem_append.1 hw).resolve_right fun h ↦ hbetween w h hwstands
    rw [← hwy.length_eq]
    exact .inl (List.mem_map.2 ⟨w, List.mem_filter.2 ⟨hearly, hwstands⟩, rfl⟩)
  · exact .inr (.inl (List.append_inj (hx.symm.trans hy)
      (hword.length_eq.symm.trans hwordy.length_eq)).1)
  · exact .inr (.inr h)

/-- **The ends of a piece are ordered by preference.** If some end belongs to `x`, then what else
the piece matches has the same end or an earlier one, or the piece prefers `x`. -/
theorem prefers_of_ends {p : Piece} {x y after after' : List Char} {l₁ l₂ : List Nat}
    (hends : p.ends (before ++ rest).toArray before.length =
      l₁ ++ (before.length + x.length) :: l₂)
    (hx : rest = x ++ after) (hxt : p.Takes before x after)
    (hy : rest = y ++ after') (hyt : p.Takes before y after') :
    before.length + y.length ∈ l₁ ∨ x = y ∨ p.Prefers x y := by
  have same (h : x.length = y.length) : x = y := (List.append_inj (hx.symm.trans hy) h).1
  have sorted {r : Nat → Nat → Prop}
      (hr : (p.ends (before ++ rest).toArray before.length).Pairwise r) :
      before.length + y.length ∈ l₁ ∨ x = y ∨
        r (before.length + x.length) (before.length + y.length) := by
    have hmem : before.length + y.length ∈ l₁ ++ (before.length + x.length) :: l₂ :=
      hends ▸ mem_ends_iff.2 ⟨y, after', hy, hyt, rfl⟩
    -- an end says how long the section is, and so which one
    refine (mem_or_of_pairwise (hends ▸ hr) hmem).imp_right (.imp_left fun h ↦ same ?_)
    omega
  cases p with
  | literal text => exact .inr (.inl (same (hxt.length_eq.symm.trans hyt.length_eq)))
  | wildcard =>
    exact (sorted (pairwise_ends_wildcard _ _)).imp_right (.imp_right Nat.lt_of_add_lt_add_left)
  | oneOf words =>
    cases words with
    | nil =>
      have empty {z after : List Char} (h : (oneOf []).Takes before z after) : z = [] := by
        simpa [Takes] using h
      exact .inr (.inl ((empty hxt).trans (empty hyt).symm))
    | cons word words => exact prefers_of_ends_oneOf hends rfl hx hy
  | wordEdge => exact .inr (.inl (hxt.1.trans hyt.1.symm))
  | textStart => exact .inr (.inl (hxt.1.trans hyt.1.symm))
  | textEnd => exact .inr (.inl (hxt.1.trans hyt.1.symm))
  | startOrBlank =>
    exact (sorted (pairwise_ends_startOrBlank _ _)).imp_right (.imp_right Nat.lt_of_add_lt_add_left)
  | blankOrEnd =>
    exact (sorted (pairwise_ends_blankOrEnd _ _)).imp_right (.imp_right Nat.lt_of_add_lt_add_left)

theorem Prefers.asymm {p : Piece} {x y : List Char} (h : p.Prefers x y) : ¬ p.Prefers y x := by
  cases p <;> simp only [Prefers] at h ⊢ <;> omega

end Ends

end Piece

/-! ## The meaning of a pattern -/

namespace Pattern

/-- The pattern matches the front of `rest`, behind `before`, with one section for each piece. -/
inductive Cuts : Pattern → List Char → List Char → List (List Char) → Prop
  | nil {before rest : List Char} : Cuts [] before rest []
  | cons {p : Piece} {ps : Pattern} {before x after : List Char} {xs : List (List Char)}
      (takes : p.Takes before x after) (rest : Cuts ps (before ++ x) after xs) :
      Cuts (p :: ps) before (x ++ after) (x :: xs)

/-- At the first difference between two ways to cut, the first of them is preferred. -/
inductive Precedes : Pattern → List (List Char) → List (List Char) → Prop
  | here {p : Piece} {ps : Pattern} {x y : List Char} {xs ys : List (List Char)}
      (prefers : p.Prefers x y) : Precedes (p :: ps) (x :: xs) (y :: ys)
  | later {p : Piece} {ps : Pattern} {x : List Char} {xs ys : List (List Char)}
      (rest : Precedes ps xs ys) : Precedes (p :: ps) (x :: xs) (x :: ys)

/-- Of all ways in which the pattern matches the front of `rest`, this one precedes the others. -/
structure CutsFirst (p : Pattern) (before rest : List Char) (xs : List (List Char)) : Prop where
  cuts : p.Cuts before rest xs
  precedes {ys : List (List Char)} : p.Cuts before rest ys → xs = ys ∨ p.Precedes xs ys

/-- The captured sections. -/
def captured (p : Pattern) (xs : List (List Char)) : List (List Char) :=
  ((p.zip xs).filter (·.1.captures)).map (·.2)

/-- The places of the captured sections, if the first section starts at `i`. -/
def places : Pattern → Nat → List (List Char) → Captures
  | p :: ps, i, x :: xs => p.capture i (i + x.length) (places ps (i + x.length) xs)
  | _, _, _ => []

theorem cuts_nil_iff {before rest : List Char} {xs : List (List Char)} :
    Cuts [] before rest xs ↔ xs = [] :=
  ⟨fun h ↦ by cases h; rfl, fun h ↦ h ▸ .nil⟩

theorem cuts_cons_iff {p : Piece} {ps : Pattern} {before rest : List Char}
    {xs : List (List Char)} :
    Cuts (p :: ps) before rest xs ↔ ∃ x after ys, xs = x :: ys ∧ rest = x ++ after ∧
      p.Takes before x after ∧ Cuts ps (before ++ x) after ys := by
  constructor
  · intro h
    cases h with
    | cons takes rest => exact ⟨_, _, _, rfl, rfl, takes, rest⟩
  · rintro ⟨x, after, ys, rfl, rfl, takes, rest⟩
    exact .cons takes rest

/-- **The search finds the match that precedes all others, if there is a match.** -/
theorem match?_cases (p : Pattern) (before rest : List Char) :
    (∃ xs, p.CutsFirst before rest xs ∧
      p.match? (before ++ rest).toArray before.length = some (p.places before.length xs)) ∨
    ((∀ xs, ¬ p.Cuts before rest xs) ∧
      p.match? (before ++ rest).toArray before.length = none) := by
  induction p generalizing before rest with
  | nil => exact .inl ⟨[], ⟨.nil, fun h ↦ .inl (cuts_nil_iff.1 h).symm⟩, rfl⟩
  | cons p ps ih =>
    -- the pieces behind `x` are matched in the same array
    have later (x after : List Char) (h : rest = x ++ after) := by
      have := ih (before ++ x) after
      rwa [List.append_assoc, ← h, List.length_append] at this
    have mem {y after : List Char} (hy : rest = y ++ after) (takes : p.Takes before y after) :
        before.length + y.length ∈ p.ends (before ++ rest).toArray before.length :=
      Piece.mem_ends_iff.2 ⟨y, after, hy, takes, rfl⟩
    rw [match?]
    cases hfind : (p.ends (before ++ rest).toArray before.length).findSome? fun j ↦
        (match? (before ++ rest).toArray ps j).map (p.capture before.length j) with
    | none =>
      rw [List.findSome?_eq_none_iff] at hfind
      -- a match would begin with an end from which the search goes through
      refine .inr ⟨fun xs hxs ↦ ?_, rfl⟩
      obtain ⟨x, after, xs, rfl, hx, takes, hcuts⟩ := cuts_cons_iff.1 hxs
      have hnone := hfind _ (mem hx takes)
      rcases later x after hx with ⟨ys, -, hys⟩ | ⟨hnot, -⟩
      · simp [hys] at hnone
      · exact hnot xs hcuts
    | some captures =>
      obtain ⟨early, j, late, hends, hj, hearly⟩ := List.findSome?_eq_some_iff.1 hfind
      have hmem : j ∈ p.ends (before ++ rest).toArray before.length := by
        rw [hends]
        exact List.mem_append_right _ List.mem_cons_self
      obtain ⟨x, after, hx, takes, rfl⟩ := Piece.mem_ends_iff.1 hmem
      rcases later x after hx with ⟨xs, hfirst, hmatch⟩ | ⟨-, hnone⟩
      · rw [hmatch, Option.map_some] at hj
        refine .inl ⟨x :: xs, ⟨hx ▸ .cons takes hfirst.cuts, fun {ys} hys ↦ ?_⟩, hj.symm⟩
        obtain ⟨y, after', ys, rfl, hy, takes', hcuts⟩ := cuts_cons_iff.1 hys
        rcases Piece.prefers_of_ends hends hx takes hy takes' with h | rfl | h
        · -- from the ends tried before, the search did not go through
          have hnone := hearly _ h
          rcases later y after' hy with ⟨zs, -, hzs⟩ | ⟨hnot, -⟩
          · simp [hzs] at hnone
          · exact absurd hcuts (hnot ys)
        · obtain rfl : after = after' := List.append_cancel_left (hx.symm.trans hy)
          exact (hfirst.precedes hcuts).imp (congrArg _) .later
        · exact .inr (.here h)
      · simp [hnone] at hj

/-! ## Search and captures -/

theorem match?_isSome_iff {p : Pattern} {before rest : List Char} :
    (p.match? (before ++ rest).toArray before.length).isSome = true ↔
      ∃ xs, p.Cuts before rest xs := by
  rcases match?_cases p before rest with ⟨xs, hfirst, h⟩ | ⟨hnot, h⟩
  · simp only [h, Option.isSome_some, true_iff]
    exact ⟨xs, hfirst.cuts⟩
  · simpa [h] using hnot

theorem table_eq (t : Array Char) (p : Pattern) :
    p.table t = (Array.range (t.size + 1)).map (p.match? t) := by
  apply Array.ext
  · simp [size_table]
  · intro i hi _
    have hget := getElem?_table (p := p) (Nat.le_of_lt_succ (size_table t p ▸ hi))
    rw [Array.getElem?_eq_getElem hi, Option.some_inj] at hget
    simpa using hget

/-- A pattern occurs in a text if it matches the front of some rest of the text. -/
theorem occursIn_iff {p : Pattern} {s : List Char} :
    p.occursIn s.toArray = true ↔ ∃ before rest xs, s = before ++ rest ∧ p.Cuts before rest xs := by
  rw [occursIn, table_eq, Array.any_map, Array.any_eq_true']
  simp only [Array.mem_range, Function.comp_apply, List.size_toArray, Nat.lt_succ_iff]
  constructor
  · rintro ⟨i, hi, h⟩
    have hsome : (p.match? (s.take i ++ s.drop i).toArray (s.take i).length).isSome = true := by
      rwa [List.take_append_drop, List.length_take_of_le hi]
    obtain ⟨xs, hxs⟩ := match?_isSome_iff.1 hsome
    exact ⟨s.take i, s.drop i, xs, (List.take_append_drop i s).symm, hxs⟩
  · rintro ⟨before, rest, xs, rfl, hxs⟩
    exact ⟨before.length, by simp, match?_isSome_iff.2 ⟨xs, hxs⟩⟩

/-- Only the start of the text is the place of a match that is bound to it. -/
theorem find?_textStart (p : Pattern) (s : List Char) :
    Pattern.find? (.textStart :: p) s.toArray = match? s.toArray (.textStart :: p) 0 := by
  have later (i : Nat) : match? s.toArray (.textStart :: p) (i + 1) = none := by
    simp [match?, Piece.ends]
  have none (l : List Nat) :
      (l.map Nat.succ).findSome? (match? s.toArray (.textStart :: p)) = none :=
    List.findSome?_eq_none_iff.2 fun i hi ↦ by
      obtain ⟨j, -, rfl⟩ := List.mem_map.1 hi
      exact later j
  rw [find?, table_eq, Array.findSome?_map, Function.id_comp, ← Array.findSome?_toList,
    Array.toList_range, List.range_succ_eq_map, List.findSome?_cons, none]
  cases match? s.toArray (.textStart :: p) 0 <;> rfl

theorem captured_cons {p : Piece} {ps : Pattern} {x : List Char} {xs : List (List Char)} :
    captured (p :: ps) (x :: xs) = if p.captures then x :: captured ps xs else captured ps xs := by
  rw [captured, List.zip_cons_cons, List.filter_cons]
  cases p.captures <;> rfl

theorem map_places {p : Pattern} {before rest : List Char} {xs : List (List Char)}
    (h : p.Cuts before rest xs) :
    (p.places before.length xs).map (fun (a, b) ↦ ((before ++ rest).drop a).take (b - a)) =
      p.captured xs := by
  induction h with
  | nil => rfl
  | @cons p ps before x after xs takes rest ih =>
    rw [List.append_assoc, List.length_append] at ih
    rw [places, Piece.capture, captured_cons]
    cases p.captures <;> simp [ih]

theorem Precedes.asymm {p : Pattern} {xs ys : List (List Char)} (h : p.Precedes xs ys) :
    ¬ p.Precedes ys xs := by
  induction h with
  | here hprefers =>
    rintro (hprefers' | _)
    · exact hprefers.asymm hprefers'
    · exact hprefers.asymm hprefers
  | later _ ih =>
    rintro (hprefers | h)
    · exact hprefers.asymm hprefers
    · exact ih h

/-- At most one match precedes all others. -/
theorem CutsFirst.eq {p : Pattern} {before rest : List Char} {xs ys : List (List Char)}
    (hx : p.CutsFirst before rest xs) (hy : p.CutsFirst before rest ys) : xs = ys := by
  rcases hx.precedes hy.cuts with h | h
  · exact h
  · exact ((hy.precedes hx.cuts).resolve_right h.asymm).symm

/-- The first of all matches is the first wherever there are the same matches. -/
theorem CutsFirst.congr {p : Pattern} {before rest before' rest' : List Char}
    {xs : List (List Char)} (h : ∀ ys, p.Cuts before rest ys ↔ p.Cuts before' rest' ys)
    (hfirst : p.CutsFirst before rest xs) : p.CutsFirst before' rest' xs where
  cuts := (h xs).1 hfirst.cuts
  precedes hys := hfirst.precedes ((h _).2 hys)

theorem isSome_capture?_iff {p : Pattern} {s : List Char} :
    (Pattern.capture? (.textStart :: p) s).isSome = true ↔
      ∃ xs, Cuts (.textStart :: p) [] s xs := by
  rw [capture?, find?_textStart, Option.isSome_map, ← match?_isSome_iff]
  rfl

/-- **The captures of a pattern that is bound to the start of the text** are the captured sections
of the match that precedes all others. -/
theorem capture?_eq_some_iff {p : Pattern} {s : List Char} {captures : List (List Char)} :
    Pattern.capture? (.textStart :: p) s = some captures ↔
      ∃ xs, CutsFirst (.textStart :: p) [] s xs ∧
        captures = captured (.textStart :: p) xs := by
  rw [capture?, find?_textStart]
  rcases match?_cases (.textStart :: p) [] s with ⟨xs, hfirst, h⟩ | ⟨hnot, h⟩
  · rw [List.nil_append, List.length_nil] at h
    have hplaces := map_places hfirst.cuts
    rw [List.nil_append, List.length_nil] at hplaces
    rw [h, Option.map_some, hplaces, Option.some_inj]
    constructor
    · rintro rfl
      exact ⟨xs, hfirst, rfl⟩
    · rintro ⟨ys, hys, rfl⟩
      rw [hfirst.eq hys]
  · rw [List.nil_append, List.length_nil] at h
    rw [h, Option.map_none]
    simp only [reduceCtorEq, false_iff]
    rintro ⟨xs, hxs, -⟩
    exact hnot xs hxs.cuts

end Pattern

end Dialogue
