import Dialogue.Proofs.Text.Scan
import Dialogue.Proofs.Text.Tidy
import Dialogue.Template
import Mathlib.Data.List.Basic
import Mathlib.Data.List.TakeWhile

/-!
# Reading a template

`Template.tokens` scans a template for tags, joins what is left to runs of text, and scans these
for wildcards. Here the reading is described from left to right, without scans: `ReadsText` says
what a text without tags is read as, and `Reads` says the same of a template. Both leave no choice,
so the tokens of a template are the ones it is read as and no others (`Template.reads_iff`).
-/

namespace Dialogue.Template

open Character (isBlank)
open Text (trimStart trimEnd scan scan_cons scan_append gather gather_map gather_map_append_inr)

/-- At the front of a text stand a tag with this name, which is as long as possible, and then
the text `after`. -/
structure TagAt (marker name after s : List Char) : Prop where
  eq : s = marker ++ name ++ after
  marker_ne : marker ≠ []
  name_ne : name ≠ []
  nonblank : ∀ c ∈ name, isBlank c = false
  maximal : ∀ c ∈ after.head?, isBlank c = true

/-- The token of a text between other tokens; the empty text is none. -/
def textToken (s : List Char) : List Token := if s = [] then [] else [.text s]

/-- A text without tags is read as some tokens. Its first wildcard takes the white space on both
sides; behind it, the text is read in the same way. -/
inductive ReadsText (marker : List Char) : List Char → List Token → Prop
  | plain {s : List Char} (absent : marker = [] ∨ ¬ marker <:+: s) :
      ReadsText marker s (textToken s)
  | wildcard {before after : List Char} {ts : List Token} (marker_ne : marker ≠ [])
      (first : ∀ a b, before ++ marker ++ after = a ++ marker ++ b → before.length ≤ a.length)
      (rest : ReadsText marker (trimStart after) ts) :
      ReadsText marker (before ++ marker ++ after) (textToken (trimEnd before) ++ .wildcard :: ts)

/-- A template is read as some tokens, behind a text `run` in which tags have been looked for
already. A declared tag ends that text; the name of any other tag belongs to it. -/
inductive Reads (markers : Markers) (tags : Tags) : List Char → List Char → List Token → Prop
  | nil {run : List Char} {ts : List Token} (text : ReadsText markers.wildcard run ts) :
      Reads markers tags run [] ts
  | char {run : List Char} {c : Char} {s : List Char} {ts : List Token}
      (none : ∀ name after, ¬ TagAt markers.tag name after (c :: s))
      (rest : Reads markers tags (run ++ [c]) s ts) : Reads markers tags run (c :: s) ts
  | unknown {run name after s : List Char} {ts : List Token} (tag : TagAt markers.tag name after s)
      (undeclared : tags.wordsOf? name = none) (rest : Reads markers tags (run ++ name) after ts) :
      Reads markers tags run s ts
  | tag {run name after s : List Char} {words : List (List Char)} {us ts : List Token}
      (tag : TagAt markers.tag name after s) (declared : tags.wordsOf? name = some words)
      (text : ReadsText markers.wildcard run us) (rest : Reads markers tags [] after ts) :
      Reads markers tags run s (us ++ .tag words :: ts)

/-! ## Texts without tags -/

theorem wildcardAt?_eq_none {marker s : List Char} (h : marker = [] ∨ ¬ marker <+: s) :
    wildcardAt? marker s = none := by
  rcases h with rfl | h
  · rfl
  · have hnone : marker.isPrefixOf? s = none := by
      refine Option.eq_none_iff_forall_ne_some.2 fun rest hrest ↦ h ⟨rest, ?_⟩
      exact List.isPrefixOf?_eq_some_iff_append_eq.1 hrest
    rw [wildcardAt?, hnone]
    split <;> rfl

theorem wildcardAt?_append {marker : List Char} (h : marker ≠ []) (after : List Char) :
    wildcardAt? marker (marker ++ after) =
      some ((), marker.length + (after.takeWhile isBlank).length) := by
  rw [wildcardAt?, List.isPrefixOf?_eq_some_iff_append_eq.2 rfl, if_neg (by simpa using h)]
  rfl

theorem drop_length_takeWhile (p : Char → Bool) (s : List Char) :
    s.drop (s.takeWhile p).length = s.dropWhile p := by
  calc s.drop (s.takeWhile p).length
      = (s.takeWhile p ++ s.dropWhile p).drop (s.takeWhile p).length := by
        rw [List.takeWhile_append_dropWhile]
    _ = s.dropWhile p := List.drop_left

theorem textTokens_plain {marker s : List Char} (h : marker = [] ∨ ¬ marker <:+: s) :
    textTokens marker s = textToken s := by
  have hscan : scan (wildcardAt? marker) (s ++ []) = s.map .inl ++ [] := by
    refine scan_append fun a c b hs ↦ wildcardAt?_eq_none (h.imp_right fun h hp ↦ h ?_)
    rw [List.append_nil] at hp
    exact hs ▸ hp.isInfix.trans (List.suffix_append a _).isInfix
  rw [List.append_nil, List.append_nil] at hscan
  rw [textTokens, hscan, gather_map]
  split
  · rename_i hs
    simp [closeUp, textToken, hs]
  · rename_i hs
    simp [closeUp, textToken, hs]

theorem textTokens_wildcard {marker before after : List Char} (hm : marker ≠ [])
    (hfirst : ∀ a b, before ++ marker ++ after = a ++ marker ++ b → before.length ≤ a.length) :
    textTokens marker (before ++ marker ++ after) =
      textToken (trimEnd before) ++ .wildcard :: textTokens marker (trimStart after) := by
  have hscan : scan (wildcardAt? marker) (before ++ marker ++ after) =
      before.map .inl ++ .inr () :: scan (wildcardAt? marker) (trimStart after) := by
    rw [List.append_assoc, scan_append]
    · congr 1
      obtain ⟨c, marker, rfl⟩ := List.exists_cons_of_ne_nil hm
      rw [List.cons_append, scan_cons, ← List.cons_append, wildcardAt?_append hm]
      dsimp only
      rw [trimStart, ← drop_length_takeWhile, List.length_cons, Nat.add_right_comm,
        Nat.add_sub_cancel, ← List.drop_drop, List.drop_left]
    · intro a c b hb
      refine wildcardAt?_eq_none (.inr ?_)
      rintro ⟨rest, hrest⟩
      have := hfirst a rest (by rw [hb]; simp [hrest])
      simp only [hb, List.length_append, List.length_cons] at this
      omega
  rw [textTokens, hscan, gather_map_append_inr]
  by_cases hb : before = []
  · simp [hb, closeUp, textTokens, textToken, trimEnd]
  · rw [if_neg hb, List.singleton_append, closeUp]
    simp only [List.isEmpty_cons, Bool.false_eq_true, if_false, List.isEmpty_iff, closeUp,
      textToken]
    split <;> rfl

/-- A text that occurs in another one has a first place there. -/
theorem exists_first {marker s : List Char} (h : marker <:+: s) :
    ∃ before after, s = before ++ marker ++ after ∧
      ∀ a b, s = a ++ marker ++ b → before.length ≤ a.length := by
  induction s with
  | nil =>
    obtain rfl := List.infix_nil.1 h
    exact ⟨[], [], rfl, fun _ _ _ ↦ Nat.zero_le _⟩
  | cons c s ih =>
    by_cases hp : marker <+: c :: s
    · obtain ⟨after, hafter⟩ := hp
      exact ⟨[], after, hafter.symm, fun _ _ _ ↦ Nat.zero_le _⟩
    · obtain ⟨before, after, rfl, hfirst⟩ := ih ((List.infix_cons_iff.1 h).resolve_left hp)
      refine ⟨c :: before, after, rfl, fun a b hab ↦ ?_⟩
      cases a with
      | nil => exact absurd ⟨b, hab.symm⟩ hp
      | cons d a =>
        rw [List.cons_append, List.cons_append] at hab
        exact Nat.succ_le_succ (hfirst a b (List.cons.inj hab).2)

theorem length_trimStart_le (s : List Char) : (trimStart s).length ≤ s.length :=
  (List.dropWhile_sublist _).length_le

theorem readsText_textTokens (marker s : List Char) :
    ReadsText marker s (textTokens marker s) := by
  induction hn : s.length using Nat.strongRecOn generalizing s with
  | _ n ih =>
    by_cases h : marker = [] ∨ ¬ marker <:+: s
    · rw [textTokens_plain h]
      exact .plain h
    · rw [not_or, Decidable.not_not] at h
      obtain ⟨before, after, rfl, hfirst⟩ := exists_first h.2
      rw [textTokens_wildcard h.1 hfirst]
      -- the marker is not empty, so less text is left behind it
      have hlt : (trimStart after).length < n := by
        have := length_trimStart_le after
        have := List.length_pos_of_ne_nil h.1
        simp only [List.length_append] at hn
        omega
      exact .wildcard h.1 hfirst (ih _ hlt _ rfl)

/-- **The tokens of a text without tags are what it is read as.** -/
theorem readsText_iff {marker s : List Char} {ts : List Token} :
    ReadsText marker s ts ↔ ts = textTokens marker s := by
  constructor
  · intro h
    induction h with
    | plain absent => exact (textTokens_plain absent).symm
    | wildcard hm hfirst _ ih => rw [textTokens_wildcard hm hfirst, ih]
  · rintro rfl
    exact readsText_textTokens marker s

/-! ## Templates -/

theorem tagAt?_eq_some {marker s name : List Char} {n : Nat} :
    tagAt? marker s = some (name, n) ↔ marker ≠ [] ∧ ∃ rest, marker ++ rest = s ∧
      rest.takeWhile (! isBlank ·) = name ∧ name ≠ [] ∧ marker.length + name.length = n := by
  have failed {α : Type} : (failure : Option α) = none := rfl
  by_cases hm : marker = []
  · simp only [tagAt?, hm, List.isEmpty_nil, if_true, failed, Option.bind_eq_bind,
      Option.bind_none, reduceCtorEq, ne_eq, not_true_eq_false, false_and]
  · simp only [tagAt?, List.isEmpty_iff, hm, if_false, Option.pure_def, Option.bind_eq_bind,
      Option.bind_eq_some_iff, List.isPrefixOf?_eq_some_iff_append_eq, failed, Option.bind_none,
      Option.ite_none_left_eq_some, Option.some_inj, Prod.mk.injEq, ne_eq,
      not_false_eq_true, true_and]
    refine exists_congr fun rest ↦ and_congr_right fun _ ↦ ?_
    constructor
    · rintro ⟨hne, rfl, hn⟩
      exact ⟨rfl, hne, hn⟩
    · rintro ⟨rfl, hne, hn⟩
      exact ⟨hne, rfl, hn⟩

/-- A tag is recognized where one stands. -/
theorem tagAt?_eq_some_iff {marker s name : List Char} {n : Nat} :
    tagAt? marker s = some (name, n) ↔
      n = marker.length + name.length ∧ ∃ after, TagAt marker name after s := by
  rw [tagAt?_eq_some]
  constructor
  · rintro ⟨hm, rest, rfl, rfl, hne, rfl⟩
    refine ⟨rfl, rest.dropWhile (! isBlank ·), ?_, hm, hne, fun c hc ↦ ?_, fun c hc ↦ ?_⟩
    · rw [List.append_assoc, List.takeWhile_append_dropWhile]
    · simpa using List.mem_takeWhile_imp hc
    · have := List.head?_dropWhile_not (! isBlank ·) rest
      rw [Option.mem_def.1 hc] at this
      simpa using this
  · rintro ⟨rfl, after, rfl, hm, hne, hname, hafter⟩
    exact ⟨hm, name ++ after, (List.append_assoc _ _ _).symm, Text.takeWhile_nonblank hname hafter,
      hne, rfl⟩

theorem tagAt?_eq_none_iff {marker s : List Char} :
    tagAt? marker s = none ↔ ∀ name after, ¬ TagAt marker name after s := by
  rw [Option.eq_none_iff_forall_ne_some]
  constructor
  · intro h name after htag
    exact h (name, _) (tagAt?_eq_some_iff.2 ⟨rfl, after, htag⟩)
  · rintro h ⟨name, n⟩ hn
    obtain ⟨-, after, htag⟩ := tagAt?_eq_some_iff.1 hn
    exact h name after htag

section

variable {markers : Markers} {tags : Tags}

theorem expandTags_char {marker : List Char} {c : Char} {s : List Char}
    (h : ∀ name after, ¬ TagAt marker name after (c :: s)) :
    expandTags marker tags (c :: s) = .inl c :: expandTags marker tags s := by
  rw [expandTags, scan_cons, tagAt?_eq_none_iff.2 h]
  rfl

theorem expandTags_tag {marker name after s : List Char} (h : TagAt marker name after s) :
    expandTags marker tags s =
      (match tags.wordsOf? name with
        | some words => [.inr words]
        | none => name.map .inl) ++ expandTags marker tags after := by
  have hscan : scan (tagAt? marker) s = .inr name :: scan (tagAt? marker) after := by
    obtain ⟨c, rest, hs⟩ := List.exists_cons_of_ne_nil (l := s) (by simp [h.eq, h.marker_ne])
    have hdrop : rest.drop (marker.length + name.length - 1) = after := by
      have hpos := List.length_pos_of_ne_nil h.marker_ne
      calc rest.drop (marker.length + name.length - 1)
          = (c :: rest).drop (marker.length + name.length - 1 + 1) := List.drop_succ_cons.symm
        _ = (marker ++ name ++ after).drop (marker ++ name).length := by
          rw [← hs, h.eq, List.length_append]
          congr 1
          omega
        _ = after := List.drop_left
    rw [hs, scan_cons, ← hs, tagAt?_eq_some_iff.2 ⟨rfl, after, h⟩]
    dsimp only
    rw [hdrop]
  rw [expandTags, hscan]
  rfl

/-- The tokens of a template behind a text in which tags have been looked for already. -/
def tokensBehind (markers : Markers) (run : List Char) (s : List (Char ⊕ List (List Char))) :
    List Token :=
  (gather (run.map .inl ++ s)).flatMap fun
    | .inl run => textTokens markers.wildcard run
    | .inr words => [.tag words]

theorem tokensBehind_nil (run : List Char) :
    tokensBehind markers run [] = textTokens markers.wildcard run := by
  rw [tokensBehind, List.append_nil, gather_map]
  split
  · rename_i h
    rw [h]
    rfl
  · simp

theorem tokensBehind_inr (run : List Char) (words : List (List Char))
    (s : List (Char ⊕ List (List Char))) :
    tokensBehind markers run (.inr words :: s) =
      textTokens markers.wildcard run ++ .tag words :: tokensBehind markers [] s := by
  rw [tokensBehind, gather_map_append_inr]
  split
  · rename_i h
    rw [h]
    rfl
  · simp [tokensBehind]

theorem tokensBehind_inl (run name : List Char) (s : List (Char ⊕ List (List Char))) :
    tokensBehind markers run (name.map .inl ++ s) = tokensBehind markers (run ++ name) s := by
  rw [tokensBehind, tokensBehind, List.map_append, List.append_assoc]

theorem reads_tokensBehind (run s : List Char) :
    Reads markers tags run s (tokensBehind markers run (expandTags markers.tag tags s)) := by
  induction hn : s.length using Nat.strongRecOn generalizing run s with
  | _ n ih =>
    by_cases h : ∃ name after, TagAt markers.tag name after s
    · obtain ⟨name, after, htag⟩ := h
      -- nor is the marker of a tag
      have hlt : after.length < n := by
        have := List.length_pos_of_ne_nil htag.marker_ne
        rw [← hn, htag.eq, List.length_append, List.length_append]
        omega
      rw [expandTags_tag htag]
      cases hname : tags.wordsOf? name with
      | some words =>
        rw [List.singleton_append, tokensBehind_inr]
        exact .tag htag hname (readsText_textTokens _ _) (ih _ hlt _ _ rfl)
      | none =>
        rw [tokensBehind_inl]
        exact .unknown htag hname (ih _ hlt _ _ rfl)
    · simp only [not_exists] at h
      cases s with
      | nil =>
        have := readsText_textTokens markers.wildcard run
        rw [← tokensBehind_nil] at this
        exact .nil this
      | cons c s =>
        have hrest := ih s.length (by simp [← hn]) (run ++ [c]) s rfl
        rw [← tokensBehind_inl] at hrest
        rw [expandTags_char h]
        exact .char h hrest

theorem Reads.eq_tokensBehind {run s : List Char} {ts : List Token}
    (h : Reads markers tags run s ts) :
    ts = tokensBehind markers run (expandTags markers.tag tags s) := by
  induction h with
  | @nil run ts text => exact (readsText_iff.1 text).trans (tokensBehind_nil run).symm
  | @char run c s ts none _ ih =>
    rw [expandTags_char none, ih]
    exact (tokensBehind_inl run [c] _).symm
  | unknown htag hname _ ih =>
    rw [expandTags_tag htag, hname, ih]
    exact (tokensBehind_inl _ _ _).symm
  | tag htag hname text _ ih =>
    rw [expandTags_tag htag, hname, ih, readsText_iff.1 text]
    exact (tokensBehind_inr _ _ _).symm

/-- **The tokens of a template are what it is read as.** -/
theorem reads_iff {template : List Char} {ts : List Token} :
    Reads markers tags [] template ts ↔ ts = tokens markers tags template :=
  ⟨Reads.eq_tokensBehind, fun h ↦ h ▸ reads_tokensBehind [] template⟩

end

end Dialogue.Template
