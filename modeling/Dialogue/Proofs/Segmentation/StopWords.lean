import Dialogue.Proofs.Character.Word
import Dialogue.Proofs.Pattern.Replace
import Dialogue.Proofs.Text.Pieces
import Dialogue.Segmentation

/-!
# What stop words leave behind

Each stop word between word edges becomes a full stop, in one pass over the text. Between the full
stops that are put in there are *gaps*, stretches of the text in which no match starts. A gap might
still hold a stop word once it is looked at on its own, because cutting a text changes where word
edges are. It does not (`Pattern.Pass.exists_gaps`): a gap ends where a match begins or ended, so
there were word edges before it was cut out.

A text without stop words (`Text.FreeOf`) stays so if it is cut further at characters that belong to
no word.
-/

namespace Dialogue

open Character (isBlank isWord)
open Text (SameFold Edge)

/-! ## Texts without stop words -/

namespace Text

/-- None of the words stands in the text, in any case, between word edges. -/
def FreeOf (words : List Text) (s : Text) : Prop :=
  ∀ before w after, s = before ++ w ++ after → (∃ word ∈ words, SameFold word w) →
    Edge before (w ++ after) → ¬ Edge (before ++ w) after

variable {words : List Text} {s t before after : Text}

/-- What is not part of a word makes no difference to word edges, be it there or not. -/
theorem edge_append_iff (hbefore : before.getLast?.any isWord = false)
    (hafter : after.head?.any isWord = false) (x y : Text) :
    Edge (before ++ x) (y ++ after) ↔ Edge x y := by
  have hlast : (before ++ x).getLast?.any isWord = x.getLast?.any isWord := by
    rw [List.getLast?_append]
    rcases x.getLast? with _ | c
    · exact hbefore
    · rfl
  have hhead : (y ++ after).head?.any isWord = y.head?.any isWord := by
    rw [List.head?_append]
    rcases y.head? with _ | c
    · exact hafter
    · rfl
  rw [Edge, hlast, hhead, Edge]

/-- Stop words do not appear when a text is cut at characters that belong to no word. -/
theorem FreeOf.of_append (h : FreeOf words (before ++ t ++ after))
    (hbefore : before.getLast?.any isWord = false) (hafter : after.head?.any isWord = false) :
    FreeOf words t := by
  rintro x w y rfl hword hleft hright
  refine h (before ++ x) w (y ++ after) (by simp) hword ?_ ?_
  · rw [← List.append_assoc]
    exact (edge_append_iff hbefore hafter x (w ++ y)).2 hleft
  · rw [List.append_assoc]
    exact (edge_append_iff hbefore hafter (x ++ w) y).2 hright

theorem FreeOf.of_append_cons {c : Char} (hc : isWord c = false) (h : FreeOf words (s ++ c :: t)) :
    FreeOf words s ∧ FreeOf words t := by
  have hfirst : FreeOf words ([] ++ s ++ c :: t) := h
  have hsecond : FreeOf words (s ++ [c] ++ t ++ []) := by simpa using h
  exact ⟨hfirst.of_append rfl hc, hsecond.of_append (by simpa using hc) rfl⟩

theorem FreeOf.trim (h : FreeOf words s) : FreeOf words (trim s) := by
  obtain ⟨before, after, hs, hbefore, hafter⟩ := exists_blank_trim s
  rw [hs] at h
  refine h.of_append (Character.any_isWord_of_blank fun c hc ↦ ?_)
    (Character.any_isWord_of_blank fun c hc ↦ ?_)
  · exact hbefore c (List.mem_of_mem_getLast? hc)
  · exact hafter c (List.mem_of_mem_head? hc)

end Text

/-! ## Gaps between matches -/

namespace Pattern

open Text (FreeOf)

variable {words : List Text} {f : Text → Text} {before rest out gap tail : Text}

/-- Looking for one of some words between word edges. -/
theorem cuts_edges_iff (hwords : words ≠ []) {xs : List Text} :
    Cuts [.wordEdge, .oneOf words, .wordEdge] before rest xs ↔
      ∃ w after, xs = [[], w, []] ∧ rest = w ++ after ∧ (∃ word ∈ words, SameFold word w) ∧
        Edge before (w ++ after) ∧ Edge (before ++ w) after := by
  rw [cuts_framed_iff hwords]
  constructor
  · rintro ⟨_, w, _, after, rfl, rfl, ⟨rfl, hleft⟩, hw, rfl, hright⟩
    exact ⟨w, after, rfl, rfl, hw, hleft, by simpa using hright⟩
  · rintro ⟨w, after, rfl, rfl, hw, hleft, hright⟩
    exact ⟨[], w, [], after, rfl, rfl, ⟨rfl, hleft⟩, hw, rfl, by simpa using hright⟩

/-- No match starts in the gap, and the text ends behind it or there is a word edge. -/
structure Gap (words : List Text) (before gap tail : Text) : Prop where
  free : ∀ x y, gap = x ++ y → y ≠ [] →
    ∀ xs, ¬ Cuts [.wordEdge, .oneOf words, .wordEdge] (before ++ x) (y ++ tail) xs
  last : tail = [] ∨ Edge (before ++ gap) tail

/-- A gap that begins with the text or at a word edge holds no stop word of its own. -/
theorem Gap.freeOf (h : Gap words before gap tail) (hwords : words ≠ [])
    (hne : ∀ word ∈ words, word ≠ []) (hfirst : before = [] ∨ Edge before (gap ++ tail)) :
    FreeOf words gap := by
  rintro u w v rfl ⟨word, hword, hsame⟩ hleft hright
  have hw : w ≠ [] := hsame.ne_nil (hne word hword)
  -- the word edges of `w` in the gap are word edges in the whole text
  have hleft' : Edge (before ++ u) (w ++ (v ++ tail)) := by
    rcases List.eq_nil_or_concat u with rfl | ⟨u, c, rfl⟩
    · rcases hfirst with rfl | hedge
      · rw [Edge, List.head?_append_of_ne_nil _ hw] at hleft ⊢
        exact hleft
      · simpa using hedge
    · rw [Edge, List.head?_append_of_ne_nil _ hw] at hleft ⊢
      simpa using hleft
  have hright' : Edge (before ++ u ++ w) (v ++ tail) := by
    rcases v with _ | ⟨c, v⟩
    · rcases h.last with rfl | hedge
      · rw [Edge, List.getLast?_append_of_ne_nil _ hw] at hright ⊢
        exact hright
      · simpa using hedge
    · rw [Edge, List.getLast?_append_of_ne_nil _ hw] at hright ⊢
      simpa using hright
  refine h.free u (w ++ v) (List.append_assoc u w v) (by simp [hw]) [[], w, []] ?_
  rw [List.append_assoc]
  exact (cuts_edges_iff hwords).2 ⟨w, v ++ tail, rfl, rfl, ⟨word, hword, hsame⟩, hleft', hright'⟩

/-- **What is left of a text are gaps without stop words**, with a full stop between neighbours. -/
theorem Pass.exists_gaps (hwords : words ≠ []) (hne : ∀ word ∈ words, word ≠ [])
    (h : Pass [.wordEdge, .oneOf words, .wordEdge] (fun _ ↦ ['.']) before rest out) :
    ∃ gap tail gaps, rest = gap ++ tail ∧ Gap words before gap tail ∧
      out = ['.'].intercalate (gap :: gaps) ∧ ∀ g ∈ gaps, FreeOf words g ∧ g <:+: rest := by
  induction h with
  | @done before =>
    refine ⟨[], [], [], rfl, ⟨fun x y hxy hy ↦ ?_, .inl rfl⟩, rfl, List.forall_mem_nil _⟩
    exact absurd (List.append_eq_nil_iff.1 hxy.symm).2 hy
  | @keep before rest out c free later ih =>
    obtain ⟨gap, tail, gaps, rfl, hgap, rfl, hgaps⟩ := ih
    refine ⟨c :: gap, tail, gaps, rfl, ⟨fun x y hxy hy ↦ ?_, ?_⟩, ?_, fun g hg ↦ ?_⟩
    · rcases List.cons_eq_append_iff.1 hxy with ⟨rfl, rfl⟩ | ⟨x, rfl, rfl⟩
      · simpa using free
      · simpa using hgap.free x y rfl hy
    · simpa using hgap.last
    · rcases gaps with _ | ⟨g, gaps⟩
      · simp
      · rw [List.intercalate_cons_cons, List.intercalate_cons_cons]
        rfl
    · exact ⟨(hgaps g hg).1, (hgaps g hg).2.trans (List.suffix_cons c _).isInfix⟩
  | @replace before lead x y after out first later ih =>
    obtain ⟨gap, tail, gaps, rfl, hgap, rfl, hgaps⟩ := ih
    obtain ⟨w, after, hxs, hrest, -, hleft, hright⟩ := (cuts_edges_iff hwords).1 first.cuts
    obtain ⟨rfl, rfl, rfl⟩ : lead = [] ∧ x = w ∧ y = [] := by simpa using hxs
    obtain rfl : gap ++ tail = after := by simpa using hrest
    refine ⟨[], x ++ (gap ++ tail), gap :: gaps, rfl, ⟨fun x y hxy hy ↦ ?_, ?_⟩, ?_,
      List.forall_mem_cons.2 ⟨⟨?_, ?_⟩, fun g hg ↦ ⟨(hgaps g hg).1, (hgaps g hg).2.trans ?_⟩⟩⟩
    · exact absurd (List.append_eq_nil_iff.1 hxy.symm).2 hy
    · exact .inr (by simpa using hleft)
    · rw [List.intercalate_cons_cons]
    · exact hgap.freeOf hwords hne (.inr (by simpa using hright))
    · exact ⟨x, tail, by simp⟩
    · exact (List.suffix_append x _).isInfix

/-- A pass over a text in which no match starts leaves it as it is. -/
theorem Pass.eq_of_free {p : Pattern} (h : p.Pass f before rest out)
    (hfree : ∀ x y, rest = x ++ y → ∀ xs, ¬ p.Cuts (before ++ x) y xs) : out = rest := by
  induction h with
  | done => rfl
  | keep free later ih =>
    rw [ih fun x y hxy ↦ by simpa using hfree (_ :: x) y (by rw [hxy, List.cons_append])]
  | replace first later ih =>
    exact absurd first.cuts (by simpa using hfree [] _ rfl _)

end Pattern

/-! ## Stop words of options -/

namespace Options

open Text (FreeOf contract)

variable {o : Options} {s : Text}

/-- The stop words that are not blank. -/
def stops (o : Options) : List Text :=
  (o.stopWords.map (contract ·.toList)).filter (! ·.isEmpty)

theorem mem_stops_iff {word : Text} :
    word ∈ o.stops ↔ word ≠ [] ∧ ∃ stop ∈ o.stopWords, contract stop.toList = word := by
  simp [stops, and_comm]

theorem ne_nil_of_mem_stops {word : Text} (h : word ∈ o.stops) : word ≠ [] := (mem_stops_iff.1 h).1

theorem hasStopWords_iff : o.hasStopWords = true ↔ o.stops ≠ [] := by
  simp [hasStopWords, stops, List.filter_eq_nil_iff]

theorem replaceStopWords_of_stops_eq_nil (h : o.stops = []) : o.replaceStopWords s = s := by
  rw [replaceStopWords, if_neg]
  rw [hasStopWords_iff]
  exact fun hne ↦ hne h

theorem pass_replaceStopWords (h : o.stops ≠ []) (s : Text) :
    Pattern.Pass [.wordEdge, .oneOf o.stops, .wordEdge] (fun _ ↦ ['.']) [] s
      (o.replaceStopWords s) := by
  rw [replaceStopWords, if_pos (hasStopWords_iff.2 h)]
  exact Pattern.pass_replaceAll rfl h (fun _ ↦ ne_nil_of_mem_stops) _ s

/-- **The pieces between full stops hold no stop word**, and are stretches of the text. -/
theorem freeOf_of_mem_splitOn {piece : Text} (h : piece ∈ (o.replaceStopWords s).splitOn '.') :
    FreeOf o.stops piece ∧ piece <:+: s := by
  by_cases hstops : o.stops = []
  · rw [replaceStopWords_of_stops_eq_nil hstops] at h
    refine ⟨?_, Text.infix_of_mem_splitOn h⟩
    rintro before w after - ⟨word, hword, -⟩
    rw [hstops] at hword
    exact absurd hword List.not_mem_nil
  · have hne : ∀ word ∈ o.stops, word ≠ [] := fun _ ↦ ne_nil_of_mem_stops
    obtain ⟨gap, tail, gaps, hs, hgap, hout, hgaps⟩ :=
      (pass_replaceStopWords hstops s).exists_gaps hstops hne
    rw [hout, Text.splitOn_intercalate_eq_flatMap (List.cons_ne_nil _ _)] at h
    obtain ⟨g, hg, hpiece⟩ := List.mem_flatMap.1 h
    have hg : FreeOf o.stops g ∧ g <:+: s := by
      rcases List.mem_cons.1 hg with rfl | hg
      · exact ⟨hgap.freeOf hstops hne (.inl rfl), ⟨[], tail, by simp [hs]⟩⟩
      · exact hgaps g hg
    exact ⟨Text.forall_mem_splitOn (fun _ _ ↦ FreeOf.of_append_cons (by decide +kernel)) hg.1 piece
      hpiece, (Text.infix_of_mem_splitOn hpiece).trans hg.2⟩

/-- A text without stop words stays as it is. -/
theorem replaceStopWords_of_freeOf (h : FreeOf o.stops s) : o.replaceStopWords s = s := by
  by_cases hstops : o.stops = []
  · exact replaceStopWords_of_stops_eq_nil hstops
  · refine (pass_replaceStopWords hstops s).eq_of_free fun x y hxy xs hcuts ↦ ?_
    obtain ⟨w, after, -, rfl, hword, hleft, hright⟩ :=
      (Pattern.cuts_edges_iff hstops).1 hcuts
    exact h x w after (by simp [hxy]) hword hleft hright

end Options

end Dialogue
