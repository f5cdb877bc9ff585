import Dialogue.Proofs.Segmentation.Parts
import Dialogue.Proofs.Text.Blank

/-!
# What bringing a text into plain form can lose

The passes that bring an input into plain form replace characters and stop words, but none adds
anything that can be seen. How much there is to be seen is the *ink* of a text: the number of
characters in its lower case that are not white space. Lowercasing, contracting and spacing out keep
the ink, and the other passes keep it or lose some.

So a text that is found again in its own plain form has lost nothing: apart from case and white
space, it is its plain form (`Options.lowercase_normalize_eq_of_isInfix`).
-/

namespace Dialogue

open Character (isBlank isBlank_lower isLow_lower fold)
open Text (lowercase lowerBetween lowercaseAfter contract words Blank SameFold)

namespace Character

/-- **Folding keeps white space apart from other characters.** -/
theorem isBlank_fold (c : Char) : isBlank (fold c) = isBlank c := by
  rw [fold]
  split
  · rename_i hascii
    exact @forall_ascii (fun c ↦ isBlank c.toLower = isBlank c) (by decide +kernel) c hascii
  split
  · rfl
  rcases hlookup : foldExceptions.lookup c.toNat with _ | n
  · exact isBlank_lower c
  · have hmem : (c.toNat, n) ∈ foldExceptions := by
      obtain ⟨l₁, l₂, hsplit, -⟩ := List.lookup_eq_some_iff.1 hlookup
      simp [hsplit]
    have solid : ∀ p ∈ foldExceptions,
        isBlank (Char.ofNat p.1) = false ∧ isBlank (Char.ofNat p.2) = false := by
      decide +kernel
    obtain ⟨hc, hn⟩ := solid _ hmem
    rw [Char.ofNat_toNat] at hc
    rw [hc]
    exact hn

/-- The number of characters in the lower case of a character that are not white space. -/
def ink (c : Char) : Nat := if isBlank c then 0 else if c = 'İ' then 2 else 1

theorem ink_eq_zero_iff {c : Char} : ink c = 0 ↔ isBlank c = true := by
  rw [ink]
  split
  · simp [*]
  · rename_i hblank
    split <;> simpa using hblank

theorem ink_lower {c : Char} (h : c ≠ 'İ') : ink (lower c) = ink c := by
  rw [ink, ink, isBlank_lower, if_neg (isLow_lower h).notDotted, if_neg h]

end Character

namespace Text

/-- The number of characters in the lower case of a text that are not white space. -/
def ink : Text → Nat
  | [] => 0
  | c :: s => Character.ink c + ink s

variable {s t : Text}

theorem ink_cons (c : Char) (s : Text) : ink (c :: s) = Character.ink c + ink s := rfl

theorem ink_append (s t : Text) : ink (s ++ t) = ink s + ink t := by
  induction s with
  | nil => rw [List.nil_append, ink, Nat.zero_add]
  | cons c s ih => rw [List.cons_append, ink_cons, ih, ink_cons, Nat.add_assoc]

theorem ink_eq_zero_iff : ink s = 0 ↔ Blank s := by
  induction s with
  | nil => simp [ink, blank_nil]
  | cons c s ih => rw [ink_cons, Nat.add_eq_zero_iff, Character.ink_eq_zero_iff, ih, blank_cons_iff]

/-! ## Passes that keep the ink -/

theorem ink_lowerBetween (before : Text) (c : Char) (after : Text) :
    ink (lowerBetween before c after) = Character.ink c := by
  rw [lowerBetween]
  split
  · rename_i hsigma
    obtain rfl : c = 'Σ' := by simpa using hsigma
    split <;> decide +kernel
  split
  · rename_i hdotted
    obtain rfl : c = 'İ' := by simpa using hdotted
    decide +kernel
  · rename_i hdotted
    rw [ink_cons, Character.ink_lower (by simpa using hdotted)]
    rfl

theorem ink_lowercase (s : Text) : ink (lowercase s) = ink s := by
  have hafter (before : Text) : ink (lowercaseAfter before s) = ink s := by
    induction s generalizing before with
    | nil => rfl
    | cons c s ih => rw [lowercaseAfter, ink_append, ink_lowerBetween, ih, ink_cons]
  exact hafter []

theorem ink_intercalate_space (texts : List Text) :
    ink ([' '].intercalate texts) = ink texts.flatten := by
  induction texts with
  | nil => rfl
  | cons text texts ih =>
    rcases texts with _ | ⟨next, texts⟩
    · simp
    · have hspace : ink [' '] = 0 := rfl
      rw [List.intercalate_cons_cons, ink_append, ink_append, ih, hspace, Nat.add_zero,
        ← ink_append, ← List.flatten_cons]

theorem ink_flatten_words (s : Text) : ink (words s).flatten = ink s := by
  rw [words, List.flatten_filter_not_isEmpty]
  induction s with
  | nil => rfl
  | cons c s ih =>
    obtain ⟨first, rest, hs⟩ := List.exists_cons_of_ne_nil (List.splitOnP_ne_nil isBlank s)
    rw [hs] at ih
    rw [List.splitOnP_cons_eq_if_modifyHead, hs, ink_cons, ← ih]
    split
    · rename_i hblank
      rw [Character.ink_eq_zero_iff.2 hblank, Nat.zero_add, List.flatten_cons, List.nil_append]
    · rfl

theorem ink_contract (s : Text) : ink (contract s) = ink s := by
  rw [contract, joinWords, ink_intercalate_space, ink_flatten_words]

theorem ink_spaceOut (alone : Char → Bool) (s : Text) : ink (spaceOut alone s) = ink s := by
  induction s with
  | nil => rfl
  | cons c s ih =>
    have hspaced : ink (if alone c then [' ', c, ' '] else [c]) = Character.ink c := by
      split
      · have hspace : Character.ink ' ' = 0 := rfl
        simp [ink, hspace]
      · rfl
    rw [spaceOut, List.flatMap_cons, ← spaceOut, ink_append, ih, ink_cons, hspaced]

/-- Lower case keeps white space where it is. -/
theorem isBlank_of_mem_lowerBetween {before after : Text} {c d : Char}
    (h : d ∈ lowerBetween before c after) : isBlank d = isBlank c := by
  rw [lowerBetween] at h
  split at h
  · rename_i hsigma
    obtain rfl : c = 'Σ' := by simpa using hsigma
    rw [List.mem_singleton.1 h]
    split <;> decide
  split at h
  · rename_i hdotted
    obtain rfl : c = 'İ' := by simpa using hdotted
    rcases List.mem_pair.1 h with rfl | rfl <;> decide
  · rw [List.mem_singleton.1 h, isBlank_lower]

theorem head_lowercase (hhead : ∀ c ∈ s.head?, isBlank c = false) :
    ∀ c ∈ (lowercase s).head?, isBlank c = false := by
  rcases s with _ | ⟨c, s⟩
  · exact hhead
  · intro d hd
    rw [lowercase, lowercaseAfter, List.head?_append_of_ne_nil _ (lowerBetween_ne_nil _ _ _)] at hd
    rw [isBlank_of_mem_lowerBetween (List.mem_of_mem_head? hd)]
    exact hhead c rfl

theorem last_lowercase (hlast : ∀ c ∈ s.getLast?, isBlank c = false) :
    ∀ c ∈ (lowercase s).getLast?, isBlank c = false := by
  have hafter (before : Text) : ∀ c ∈ (lowercaseAfter before s).getLast?, isBlank c = false := by
    induction s generalizing before with
    | nil => exact hlast
    | cons c s ih =>
      intro d hd
      rw [lowercaseAfter] at hd
      by_cases hs : s = []
      · rw [hs, lowercaseAfter, List.append_nil] at hd
        rw [hs] at hlast
        rw [isBlank_of_mem_lowerBetween (List.mem_of_mem_getLast? hd)]
        exact hlast c rfl
      · have hne : lowercaseAfter (c :: before) s ≠ [] := by
          obtain ⟨e, t, rfl⟩ := List.exists_cons_of_ne_nil hs
          simp [lowercaseAfter, lowerBetween_ne_nil]
        rw [List.getLast?_append_of_ne_nil _ hne] at hd
        rw [List.getLast?_cons_of_ne_nil hs] at hlast
        exact ih hlast _ d hd
  exact hafter []

/-! ## Passes that may lose ink -/

theorem ink_map_le {f : Char → Char} (h : ∀ c ∈ s, Character.ink (f c) ≤ Character.ink c) :
    ink (s.map f) ≤ ink s := by
  induction s with
  | nil => exact Nat.le_refl _
  | cons c s ih =>
    rw [List.forall_mem_cons] at h
    rw [List.map_cons, ink_cons, ink_cons]
    exact Nat.add_le_add h.1 (ih h.2)

/-- Texts that differ in case only are blank together. -/
theorem blank_of_sameFold (h : SameFold s t) (ht : Blank t) : Blank s := by
  intro c hc
  have hmem : fold c ∈ t.map fold := h ▸ List.mem_map_of_mem hc
  obtain ⟨d, hd, hfold⟩ := List.mem_map.1 hmem
  rw [← Character.isBlank_fold, ← hfold, Character.isBlank_fold]
  exact ht d hd

end Text

/-! ## Stop words -/

namespace Pattern

open Text (ink ink_append ink_cons)

variable {words : List Text} {before rest out : Text}

/-- A word that is replaced by a full stop has at least as much ink. -/
theorem Pass.ink_le (hwords : words ≠ []) (hsolid : ∀ word ∈ words, ¬ Blank word)
    (h : Pass [.wordEdge, .oneOf words, .wordEdge] (fun _ ↦ ['.']) before rest out) :
    ink out ≤ ink rest := by
  induction h with
  | done => exact Nat.le_refl _
  | keep free later ih =>
    rw [ink_cons, ink_cons]
    exact Nat.add_le_add_left ih _
  | @replace before lead x y after out first later ih =>
    obtain ⟨w, _, hxs, -, ⟨word, hword, hsame⟩, -, -⟩ := (cuts_edges_iff hwords).1 first.cuts
    obtain ⟨rfl, rfl, -⟩ : lead = [] ∧ x = w ∧ y = [] := by simpa using hxs
    have hx : 0 < ink x := by
      refine Nat.pos_of_ne_zero fun hzero ↦ hsolid word hword ?_
      exact Text.blank_of_sameFold hsame (Text.ink_eq_zero_iff.1 hzero)
    have hstop : ink ['.'] = 1 := by decide +kernel
    rw [List.nil_append, List.nil_append, ink_append, ink_append, hstop]
    exact Nat.add_le_add hx ih

/-- A text does not begin with white space because full stops replace words of it. -/
theorem Pass.head (hwords : words ≠ [])
    (h : Pass [.wordEdge, .oneOf words, .wordEdge] (fun _ ↦ ['.']) before rest out)
    (hhead : ∀ c ∈ rest.head?, isBlank c = false) : ∀ c ∈ out.head?, isBlank c = false := by
  rcases h with _ | ⟨free, later⟩ | ⟨first, later⟩
  · exact hhead
  · exact hhead
  · obtain ⟨w, _, hxs, -⟩ := (cuts_edges_iff hwords).1 first.cuts
    obtain ⟨rfl, -⟩ := List.cons_eq_cons.1 hxs
    intro c hc
    obtain rfl : '.' = c := by simpa using hc
    decide

theorem Pass.eq_nil_of_out (h : Pass p f before rest out) (hf : ∀ x, f x ≠ []) (hout : out = []) :
    rest = [] := by
  rcases h with _ | ⟨free, later⟩ | ⟨first, later⟩
  · rfl
  · exact absurd hout (List.cons_ne_nil _ _)
  · simp [hf] at hout

/-- Nor does it end with white space. -/
theorem Pass.last (h : Pass p (fun _ ↦ ['.']) before rest out)
    (hlast : ∀ c ∈ rest.getLast?, isBlank c = false) : ∀ c ∈ out.getLast?, isBlank c = false := by
  induction h with
  | done => exact hlast
  | @keep before rest out c free later ih =>
    intro d hd
    by_cases hout : out = []
    · rw [later.eq_nil_of_out (fun _ ↦ List.cons_ne_nil _ _) hout] at hlast
      rw [hout] at hd
      exact hlast d hd
    · rw [List.getLast?_cons_of_ne_nil hout] at hd
      exact ih (fun e he ↦ hlast e (List.mem_getLast?_cons he)) d hd
  | @replace before lead x y after out first later ih =>
    intro d hd
    by_cases hout : out = []
    · rw [hout, List.append_nil, List.getLast?_append_of_ne_nil _ (List.cons_ne_nil _ _)] at hd
      obtain rfl : '.' = d := by simpa using hd
      decide
    · rw [List.getLast?_append_of_ne_nil _ hout] at hd
      refine ih (fun e he ↦ hlast e ?_) d hd
      exact List.mem_getLast?_append_of_mem_getLast?
        (List.mem_getLast?_append_of_mem_getLast? he)

end Pattern

/-! ## The plain form -/

namespace Options

open Text (ink)

variable {o : Options} {s phrase : Text}

theorem not_blank_of_mem_stops {word : Text} (h : word ∈ o.stops) : ¬ Blank word := by
  obtain ⟨hne, stop, -, rfl⟩ := mem_stops_iff.1 h
  obtain ⟨c, rest, hcontract⟩ := List.exists_cons_of_ne_nil hne
  have hc : isBlank c = false := (Text.tidy_contract stop.toList).head c (by simp [hcontract])
  rw [hcontract, Text.blank_cons_iff, hc]
  simp

theorem ink_replaceStopWords_le (o : Options) (s : Text) :
    ink (o.replaceStopWords s) ≤ ink s := by
  by_cases hstops : o.stops = []
  · rw [replaceStopWords_of_stops_eq_nil hstops]
  · exact (pass_replaceStopWords hstops s).ink_le hstops fun _ ↦ not_blank_of_mem_stops

/-- The plain form shows no more than the text, unless spaces become full stops. -/
theorem ink_normalize_le (hspace : ' ' ∉ o.stopChars.toList) (s : Text) :
    ink (o.normalize s) ≤ ink s := by
  have hstop : ∀ c ∈ contract (Text.spaceOut o.spaces ((if o.lowercaseInput then lowercase s
      else s).map fun c ↦ if o.allows c then c else ' ')),
      Character.ink (if o.stopChars.toList.contains c then '.' else c) ≤ Character.ink c := by
    intro c hc
    split
    · rename_i hmem
      refine Nat.pos_of_ne_zero fun hzero ↦ hspace ?_
      rw [← (Text.tidy_contract _).space c hc (Character.ink_eq_zero_iff.1 hzero)]
      exact List.contains_iff_mem.1 hmem
    · exact Nat.le_refl _
  rw [normalize_eq, withStopWords]
  refine (ink_replaceStopWords_le o _).trans ((Text.ink_map_le hstop).trans ?_)
  rw [Text.ink_contract, Text.ink_spaceOut]
  refine (Text.ink_map_le fun c _ ↦ ?_).trans ?_
  · split
    · exact Nat.le_refl _
    · exact Nat.zero_le _
  · split
    · rw [Text.ink_lowercase]
    · exact Nat.le_refl _

/-- The plain form has no white space at its ends. -/
theorem ends_normalize (o : Options) (s : Text) :
    (∀ c ∈ (o.normalize s).head?, isBlank c = false) ∧
      ∀ c ∈ (o.normalize s).getLast?, isBlank c = false := by
  have hstop (c : Char) (hc : isBlank c = false) :
      isBlank (if o.stopChars.toList.contains c then '.' else c) = false := by
    split
    · decide
    · exact hc
  have hhead : ∀ c ∈ (o.withStopWords s).head?, isBlank c = false := by
    intro c hc
    rw [withStopWords, List.head?_map] at hc
    obtain ⟨d, hd, rfl⟩ := Option.map_eq_some_iff.1 hc
    exact hstop d ((Text.tidy_contract _).head d hd)
  have hlast : ∀ c ∈ (o.withStopWords s).getLast?, isBlank c = false := by
    intro c hc
    rw [withStopWords, List.getLast?_map] at hc
    obtain ⟨d, hd, rfl⟩ := Option.map_eq_some_iff.1 hc
    exact hstop d ((Text.tidy_contract _).last d hd)
  rw [normalize_eq]
  by_cases hstops : o.stops = []
  · rw [replaceStopWords_of_stops_eq_nil hstops]
    exact ⟨hhead, hlast⟩
  · have hpass := pass_replaceStopWords hstops (o.withStopWords s)
    exact ⟨hpass.head hstops hhead, hpass.last hlast⟩

/-- **A text found in its own plain form is its plain form**, apart from case and white space. -/
theorem lowercase_normalize_eq_of_isInfix (hspace : ' ' ∉ o.stopChars.toList)
    (h : lowercase (contract phrase) <:+: lowercase (o.normalize phrase)) :
    lowercase (o.normalize phrase) = lowercase (contract phrase) := by
  obtain ⟨before, after, hsplit⟩ := h
  have hink : ink (before ++ lowercase (contract phrase) ++ after) ≤
      ink (lowercase (contract phrase)) := by
    rw [hsplit, Text.ink_lowercase, Text.ink_lowercase, Text.ink_contract]
    exact ink_normalize_le hspace phrase
  rw [Text.ink_append, Text.ink_append] at hink
  obtain ⟨hhead, hlast⟩ := ends_normalize o phrase
  have hbefore : before = [] := by
    have hblank : Blank before := Text.ink_eq_zero_iff.1 (by omega)
    rcases before with _ | ⟨c, before⟩
    · rfl
    · have hc := Text.head_lowercase hhead c (by simp [← hsplit])
      rw [hblank c List.mem_cons_self] at hc
      exact absurd hc (by simp)
  have hafter : after = [] := by
    have hblank : Blank after := Text.ink_eq_zero_iff.1 (by omega)
    rcases List.eq_nil_or_concat after with rfl | ⟨after, c, rfl⟩
    · rfl
    · have hc := Text.last_lowercase hlast c (by simp [← hsplit])
      rw [hblank c (by simp)] at hc
      exact absurd hc (by simp)
  rw [← hsplit, hbefore, hafter, List.nil_append, List.append_nil]

end Options

end Dialogue
