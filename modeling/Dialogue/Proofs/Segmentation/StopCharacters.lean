import Dialogue.Proofs.Character.Folding
import Dialogue.Proofs.Segmentation.Parts

/-!
# Stop characters separate

An input is brought into plain form as a whole, and only the last pass cuts it, so what stands on
one side of a stop character could make a difference to the parts on the other side. It makes none
(`Options.stop_character_separates`). For most passes this is plain, as they look at one character
at a time. Contracting looks at neighbours, and leaves a space beside the stop character at most
(`Text.exists_contract_append_cons`). The pass for stop words looks at stretches of the text. The
full stop for the stop character is a *barrier* to it (`Text.Barrier`): no stop word reaches across,
and for word edges it is as good as an end of the text. So the pass does on both sides what it does
there alone (`Pattern.Pass.append_cons`). The space that is left is a barrier as well, since it
stands where one side ends and stop words have no space at their ends.
-/

namespace Dialogue

open Character (isBlank isWord fold)
open Text (SameFold Edge Tidy contract lowercase lowerBetween parts trim words)

namespace Text

variable {a s t : Text} {c d : Char}

/-! ## Contracting on either side of a character -/

/-- A text is split on either side of a character that is not split at as if it were not there, but
the two pieces next to it are one. -/
theorem exists_splitOnP_append_cons {p : Char → Bool} (hc : p c = false) (a b : Text) :
    ∃ early x y late, a.splitOnP p = early ++ [x] ∧ b.splitOnP p = y :: late ∧
      (a ++ c :: b).splitOnP p = early ++ (x ++ c :: y) :: late := by
  induction a with
  | nil =>
    obtain ⟨y, late, hb⟩ := List.exists_cons_of_ne_nil (List.splitOnP_ne_nil p b)
    refine ⟨[], [], y, late, rfl, hb, ?_⟩
    rw [List.nil_append, List.splitOnP_cons_eq_if_modifyHead, hc, if_neg Bool.false_ne_true, hb]
    rfl
  | cons e a ih =>
    obtain ⟨early, x, y, late, ha, hb, hab⟩ := ih
    rw [List.cons_append, List.splitOnP_cons_eq_if_modifyHead, List.splitOnP_cons_eq_if_modifyHead,
      ha, hab]
    by_cases he : p e = true
    · rw [if_pos he, if_pos he]
      exact ⟨[] :: early, x, y, late, rfl, hb, rfl⟩
    · rw [if_neg he, if_neg he]
      rcases early with _ | ⟨first, early⟩
      · exact ⟨[], e :: x, y, late, rfl, hb, rfl⟩
      · exact ⟨(e :: first) :: early, x, y, late, rfl, hb, rfl⟩

/-- What is joined can be cut inside of a piece. -/
theorem intercalate_append_cons (sep : Text) (early late : List Text) (x y : Text) :
    sep.intercalate (early ++ (x ++ y) :: late) =
      sep.intercalate (early ++ [x]) ++ sep.intercalate (y :: late) := by
  induction early with
  | nil =>
    rcases late with _ | ⟨next, late⟩
    · simp
    · simp [List.intercalate_cons_cons]
  | cons first early ih =>
    have hcons {rest : List Text} (hrest : rest ≠ []) :
        sep.intercalate (first :: rest) = first ++ sep ++ sep.intercalate rest := by
      obtain ⟨next, rest, rfl⟩ := List.exists_cons_of_ne_nil hrest
      exact List.intercalate_cons_cons
    rw [List.cons_append, List.cons_append, hcons (by simp), ih, hcons (by simp)]
    exact (List.append_assoc _ _ _).symm

/-- A last word that is empty leaves a space behind, if there are other words. -/
theorem exists_intercalate_concat (early : List Text) (x : Text) :
    ∃ gap, (gap = [] ∨ gap = [' ']) ∧ [' '].intercalate (early ++ [x]) =
      [' '].intercalate (early ++ [x].filter (! ·.isEmpty)) ++ gap := by
  by_cases hx : x = []
  · rcases List.eq_nil_or_concat' early with rfl | ⟨early, last, rfl⟩
    · exact ⟨[], .inl rfl, by simp [hx]⟩
    · refine ⟨[' '], .inr rfl, ?_⟩
      have hcut := intercalate_append_cons [' '] early [[]] last []
      rw [List.append_nil] at hcut
      rw [hx, List.append_assoc, List.singleton_append, hcut]
      simp
  · exact ⟨[], .inl rfl, by simp [hx]⟩

/-- A first word that is empty leaves a space in front, if there are other words. -/
theorem exists_intercalate_cons (y : Text) (late : List Text) :
    ∃ gap, (gap = [] ∨ gap = [' ']) ∧ [' '].intercalate (y :: late) =
      gap ++ [' '].intercalate ([y].filter (! ·.isEmpty) ++ late) := by
  by_cases hy : y = []
  · rcases late with _ | ⟨next, late⟩
    · exact ⟨[], .inl rfl, by simp [hy]⟩
    · exact ⟨[' '], .inr rfl, by simp [hy, List.intercalate_cons_cons]⟩
  · exact ⟨[], .inl rfl, by simp [hy]⟩

/-- **A text is contracted on either side of a character** that is not white space as if each side
stood alone, but there may be a space beside the character. -/
theorem exists_contract_append_cons (hc : isBlank c = false) (a b : Text) :
    ∃ left right, (left = [] ∨ left = [' ']) ∧ (right = [] ∨ right = [' ']) ∧
      contract (a ++ c :: b) = contract a ++ left ++ c :: (right ++ contract b) := by
  obtain ⟨early, x, y, late, ha, hb, hab⟩ := exists_splitOnP_append_cons hc a b
  let solid (pieces : List Text) : List Text := pieces.filter (! ·.isEmpty)
  have hword : words (a ++ c :: b) = solid early ++ (x ++ c :: y) :: solid late := by
    rw [words, hab, List.filter_append, List.filter_cons_of_pos (by simp)]
  have hleft : words a = solid early ++ solid [x] := by rw [words, ha, List.filter_append]
  have hright : words b = solid [y] ++ solid late := by
    rw [words, hb, ← List.singleton_append, List.filter_append]
  have hcons : [' '].intercalate ((c :: y) :: solid late) =
      c :: [' '].intercalate (y :: solid late) :=
    intercalate_append_cons [' '] [] (solid late) [c] y
  obtain ⟨left, hleftGap, hleftWords⟩ := exists_intercalate_concat (solid early) x
  obtain ⟨right, hrightGap, hrightWords⟩ := exists_intercalate_cons y (solid late)
  refine ⟨left, right, hleftGap, hrightGap, ?_⟩
  rw [contract, joinWords, hword, intercalate_append_cons, hcons, hleftWords, hrightWords, contract,
    joinWords, hleft, contract, joinWords, hright]

/-- So it is if some characters, perhaps this one, are given a space on either side before. -/
theorem exists_contract_spaceOut_append_cons (alone : Char → Bool) (hc : isBlank c = false)
    (a b : Text) :
    ∃ left right, (left = [] ∨ left = [' ']) ∧ (right = [] ∨ right = [' ']) ∧
      contract (spaceOut alone (a ++ c :: b)) =
        contract (spaceOut alone a) ++ left ++ c :: (right ++ contract (spaceOut alone b)) := by
  have hsplit : spaceOut alone (a ++ c :: b) =
      spaceOut alone a ++ ((if alone c then [' ', c, ' '] else [c]) ++ spaceOut alone b) := by
    rw [spaceOut, List.flatMap_append, List.flatMap_cons]
    rfl
  by_cases halone : alone c = true
  · have hbefore (s : Text) : contract (s ++ [' ']) = contract s := by
      rw [contract, joinWords, words_append_cons rfl, words_nil, List.append_nil]
      rfl
    have hbehind (s : Text) : contract (' ' :: s) = contract s := by
      rw [contract, joinWords, words_cons_of_blank rfl]
      rfl
    have hspaced := exists_contract_append_cons hc (spaceOut alone a ++ [' '])
      (' ' :: spaceOut alone b)
    rw [hbefore, hbehind] at hspaced
    simpa [hsplit, halone] using hspaced
  · rw [hsplit, if_neg halone]
    exact exists_contract_append_cons hc _ _

/-! ## Parts on either side of a full stop -/

theorem parts_append_cons (s t : Text) : parts (s ++ '.' :: t) = parts s ++ parts t := by
  rw [parts, List.splitOn_append_cons_self, List.map_append, List.filter_append, parts, parts]

theorem parts_append_space (s : Text) : parts (s ++ [' ']) = parts s := by
  have hspace : Blank [' '] := by decide
  obtain ⟨early, x, y, late, hs, hnil, hsplit⟩ :=
    exists_splitOnP_append_cons (p := (· == '.')) (c := ' ') rfl s []
  obtain ⟨rfl, rfl⟩ : [] = y ∧ [] = late := List.cons_eq_cons.1 hnil
  rw [parts, List.splitOn, hsplit, parts, List.splitOn, hs, List.map_append, List.map_append,
    List.map_singleton, List.map_singleton, trim_append_of_blank hspace]

theorem parts_space_append (s : Text) : parts (' ' :: s) = parts s := by
  obtain ⟨early, x, y, late, hnil, hs, hsplit⟩ :=
    exists_splitOnP_append_cons (p := (· == '.')) (c := ' ') rfl [] s
  have htrim : trim (' ' :: y) = trim y := rfl
  obtain ⟨rfl, rfl⟩ : early = [] ∧ x = [] := by
    rcases early with _ | ⟨first, early⟩
    · exact ⟨rfl, (List.cons_eq_cons.1 hnil).1.symm⟩
    · exact absurd (congrArg List.length hnil) (by simp)
  rw [parts, List.splitOn, parts, List.splitOn, hs]
  rw [List.nil_append, List.nil_append, List.nil_append] at hsplit
  rw [hsplit, List.map_cons, List.map_cons, htrim]

/-! ## Barriers -/

/-- No word begins in `s`, reaches across `d` and ends in `t`. -/
def Barrier (words : List Text) (s : Text) (d : Char) (t : Text) : Prop :=
  ∀ x y, x <:+ s → y <+: t → ∀ word ∈ words, ¬ SameFold word (x ++ d :: y)

variable {stops : List Text}

theorem Barrier.of_suffix (h : Barrier stops s d t) (hs : a <:+ s) : Barrier stops a d t :=
  fun x y hx hy ↦ h x y (hx.trans hs) hy

/-- A character that belongs to no word is kept when the case is ignored. -/
theorem exists_fold_eq_of_sameFold (h : SameFold s t) (hd : d ∈ t) : ∃ c ∈ s, fold c = fold d := by
  have hmem : fold d ∈ s.map fold := h ▸ List.mem_map_of_mem hd
  exact List.mem_map.1 hmem

/-- A character that is in no stop word, and belongs to no word, is a barrier everywhere. -/
theorem barrier_of_notMem (hd : isWord d = false) (h : ∀ stop ∈ stops, d ∉ stop) (s t : Text) :
    Barrier stops s d t := by
  intro x y _ _ stop hstop hsame
  obtain ⟨c, hc, hfold⟩ := exists_fold_eq_of_sameFold hsame (d := d) (by simp)
  exact h stop hstop (Character.eq_of_fold_eq_of_not_isWord hd hfold ▸ hc)

/-- White space is a barrier at the end of a text, as stop words do not end with it. -/
theorem barrier_end (hd : isBlank d = true) (h : ∀ stop ∈ stops, Tidy stop) (s : Text) :
    Barrier stops s d [] := by
  intro x y _ hy stop hstop hsame
  obtain rfl : y = [] := List.prefix_nil.1 hy
  have hlast := (hsame.any_ends Character.isBlank_fold).2
  rw [List.getLast?_concat, Option.any_some, hd] at hlast
  obtain ⟨c, hc, hblank⟩ := (Option.any_eq_true _ _).1 hlast
  rw [(h stop hstop).last c hc] at hblank
  cases hblank

/-- White space is a barrier at the start of a text, as stop words do not begin with it. -/
theorem barrier_start (hd : isBlank d = true) (h : ∀ stop ∈ stops, Tidy stop) (t : Text) :
    Barrier stops [] d t := by
  intro x y hx _ stop hstop hsame
  obtain rfl : x = [] := List.suffix_nil.1 hx
  have hhead := (hsame.any_ends Character.isBlank_fold).1
  rw [List.nil_append, List.head?_cons, Option.any_some, hd] at hhead
  obtain ⟨c, hc, hblank⟩ := (Option.any_eq_true _ _).1 hhead
  rw [(h stop hstop).head c hc] at hblank
  cases hblank

end Text

/-! ## The pass for stop words on either side of a barrier -/

namespace Pattern

open Text (Barrier edge_append_iff)

variable {stops : List Text} {f : Text → Text} {before rest out late s t : Text} {d : Char}
  {xs : List Text}

section Edges

variable (hstops : stops ≠ [])
include hstops

/-- Going through a text has one result. -/
theorem Pass.eq (hne : ∀ stop ∈ stops, stop ≠ [])
    (h : Pass [.wordEdge, .oneOf stops, .wordEdge] f before rest out)
    (h' : Pass [.wordEdge, .oneOf stops, .wordEdge] f before rest late) : out = late := by
  have ne_nil {before rest lead x y : Text}
      (h : Cuts [.wordEdge, .oneOf stops, .wordEdge] before rest [lead, x, y]) : x ≠ [] := by
    obtain ⟨w, after, hxs, -, ⟨stop, hstop, hsame⟩, -⟩ := (cuts_edges_iff hstops).1 h
    obtain ⟨-, rfl, -⟩ : lead = [] ∧ x = w ∧ y = [] := by simpa using hxs
    exact hsame.ne_nil (hne stop hstop)
  induction h generalizing late with
  | done =>
    rcases h'.cases with ⟨-, rfl⟩ | ⟨_, _, _, hs, -⟩ | ⟨lead, x, y, after, _, hs, -, first, -⟩
    · rfl
    · cases hs
    · simp [ne_nil first.cuts] at hs
  | keep free later ih =>
    rcases h'.cases with ⟨hs, -⟩ | ⟨_, _, _, hs, rfl, -, later'⟩ | ⟨_, _, _, _, _, -, -, first, -⟩
    · cases hs
    · obtain ⟨rfl, rfl⟩ := List.cons_eq_cons.1 hs
      rw [ih later']
    · exact absurd first.cuts (free _)
  | replace first later ih =>
    rcases h'.cases with ⟨hs, -⟩ | ⟨_, _, _, -, -, free, -⟩ |
      ⟨_, _, _, _, _, hs, rfl, first', later'⟩
    · simp [ne_nil first.cuts] at hs
    · exact absurd first.cuts (free _)
    · obtain ⟨rfl, rfl, -⟩ := by simpa using first.eq first'
      obtain rfl := by simpa using hs
      rw [ih later']

/-- Behind a character that belongs to no word there are the matches of the text alone. -/
theorem cuts_behind_iff (hbefore : before.getLast?.any isWord = false) (s : Text) :
    Cuts [.wordEdge, .oneOf stops, .wordEdge] (before ++ s) rest xs ↔
      Cuts [.wordEdge, .oneOf stops, .wordEdge] s rest xs := by
  have hnil : ([] : Text).head?.any isWord = false := rfl
  have hedge (x y : Text) : Edge (before ++ x) y ↔ Edge x y := by
    simpa using edge_append_iff hbefore hnil x y
  simp only [cuts_edges_iff hstops, List.append_assoc, hedge]

theorem Pass.behind (hbefore : before.getLast?.any isWord = false)
    (h : Pass [.wordEdge, .oneOf stops, .wordEdge] f s rest out) :
    Pass [.wordEdge, .oneOf stops, .wordEdge] f (before ++ s) rest out := by
  induction h with
  | done => exact .done
  | keep free later ih =>
    refine .keep (fun xs hcuts ↦ free xs ((cuts_behind_iff hstops hbefore _).1 hcuts)) ?_
    rwa [List.append_assoc]
  | replace first later ih =>
    refine .replace (first.congr fun ys ↦ (cuts_behind_iff hstops hbefore _).symm) ?_
    simpa only [List.append_assoc] using ih

/-- In front of a barrier there are the matches of the text alone. -/
theorem cuts_append_cons_iff (hd : isWord d = false) (hbarrier : Barrier stops s d t) :
    Cuts [.wordEdge, .oneOf stops, .wordEdge] before (s ++ d :: t) xs ↔
      Cuts [.wordEdge, .oneOf stops, .wordEdge] before s xs := by
  have hnil : ([] : Text).getLast?.any isWord = false := rfl
  have hhead : (d :: t).head?.any isWord = false := hd
  have hedge (x y : Text) : Edge x (y ++ d :: t) ↔ Edge x y := by
    simpa using edge_append_iff hnil hhead x y
  rw [cuts_edges_iff hstops, cuts_edges_iff hstops]
  constructor
  · rintro ⟨w, after, rfl, hsplit, ⟨stop, hstop, hsame⟩, hleft, hright⟩
    obtain ⟨z, rfl, rfl⟩ : ∃ z, s = w ++ z ∧ after = z ++ d :: t := by
      rcases List.append_eq_append_iff.1 hsplit with ⟨z, rfl, hz⟩ | ⟨z, rfl, rfl⟩
      · rcases List.cons_eq_append_iff.1 hz with ⟨rfl, rfl⟩ | ⟨y, rfl, rfl⟩
        · exact ⟨[], by simp, rfl⟩
        · have hprefix : y <+: y ++ after := List.prefix_append y after
          exact absurd hsame (hbarrier s y (List.suffix_refl s) hprefix stop hstop)
      · exact ⟨z, rfl, rfl⟩
    rw [← List.append_assoc, hedge] at hleft
    exact ⟨w, z, rfl, rfl, ⟨stop, hstop, hsame⟩, hleft, (hedge _ _).1 hright⟩
  · rintro ⟨w, after, rfl, rfl, hword, hleft, hright⟩
    refine ⟨w, after ++ d :: t, rfl, List.append_assoc _ _ _, hword, ?_, (hedge _ _).2 hright⟩
    rwa [← List.append_assoc, hedge]

/-- **Going through a text with a barrier** gives on either side what it gives there alone. -/
theorem Pass.append_cons (hne : ∀ stop ∈ stops, stop ≠ []) (hd : isWord d = false)
    (h : Pass [.wordEdge, .oneOf stops, .wordEdge] f before s out) (hbarrier : Barrier stops s d t)
    (hlate : Pass [.wordEdge, .oneOf stops, .wordEdge] f [] t late) :
    Pass [.wordEdge, .oneOf stops, .wordEdge] f before (s ++ d :: t) (out ++ d :: late) := by
  induction h with
  | @done before =>
    refine .keep (fun xs hcuts ↦ ?_) ?_
    · have hnil := (cuts_append_cons_iff hstops hd hbarrier (s := [])).1 hcuts
      obtain ⟨w, after, -, hsplit, ⟨stop, hstop, hsame⟩, -⟩ := (cuts_edges_iff hstops).1 hnil
      exact hsame.ne_nil (hne stop hstop) (List.append_eq_nil_iff.1 hsplit.symm).1
    · have hlast : (before ++ [d]).getLast?.any isWord = false := by simpa using hd
      have hbehind := hlate.behind hstops hlast
      rwa [List.append_nil] at hbehind
  | keep free later ih =>
    refine .keep (fun xs hcuts ↦ free xs ?_) (ih (hbarrier.of_suffix (List.suffix_cons _ _)))
    exact (cuts_append_cons_iff hstops hd hbarrier).1 hcuts
  | @replace before lead x y after out first later ih =>
    have hsuffix : after <:+ lead ++ (x ++ after) :=
      (List.suffix_append x after).trans (List.suffix_append lead _)
    have hfirst := first.congr fun ys ↦ (cuts_append_cons_iff hstops hd hbarrier).symm
    rw [List.append_assoc, List.append_assoc] at hfirst
    have hpass := Pass.replace hfirst (ih (hbarrier.of_suffix hsuffix))
    simpa only [List.append_assoc] using hpass

end Edges

end Pattern

/-! ## The plain form on either side of a stop character -/

namespace Options

open Text (Barrier)

variable {o : Options} {s t u v gap : Text} {c d : Char}

theorem tidy_of_mem_stops {stop : Text} (h : stop ∈ o.stops) : Tidy stop := by
  obtain ⟨-, word, -, rfl⟩ := mem_stops_iff.1 h
  exact Text.tidy_contract word.toList

theorem notMem_dot_of_mem_stops (hdot : ∀ stop ∈ o.stopWords, '.' ∉ stop.toList) {stop : Text}
    (h : stop ∈ o.stops) : '.' ∉ stop := by
  obtain ⟨-, word, hword, rfl⟩ := mem_stops_iff.1 h
  intro hmem
  rcases Text.mem_contract hmem with hspace | hmem
  · exact absurd hspace (by decide)
  · exact hdot word hword hmem

/-- **Stop words are replaced on either side of a barrier** as if each side stood alone. -/
theorem replaceStopWords_append_cons (hd : isWord d = false) (h : Barrier o.stops s d t) :
    o.replaceStopWords (s ++ d :: t) = o.replaceStopWords s ++ d :: o.replaceStopWords t := by
  by_cases hstops : o.stops = []
  · rw [replaceStopWords_of_stops_eq_nil hstops, replaceStopWords_of_stops_eq_nil hstops,
      replaceStopWords_of_stops_eq_nil hstops]
  · have hne : ∀ stop ∈ o.stops, stop ≠ [] := fun _ ↦ ne_nil_of_mem_stops
    exact (pass_replaceStopWords hstops _).eq hstops hne <|
      (pass_replaceStopWords hstops s).append_cons hstops hne hd h (pass_replaceStopWords hstops t)

theorem replaceStopWords_nil (o : Options) : o.replaceStopWords [] = [] := by
  by_cases hstops : o.stops = []
  · exact replaceStopWords_of_stops_eq_nil hstops
  · exact (pass_replaceStopWords hstops []).eq hstops (fun _ ↦ ne_nil_of_mem_stops) .done

section Parts

variable (hdot : ∀ stop ∈ o.stopWords, '.' ∉ stop.toList)
include hdot

theorem parts_replaceStopWords_append_cons (s t : Text) :
    parts (o.replaceStopWords (s ++ '.' :: t)) =
      parts (o.replaceStopWords s) ++ parts (o.replaceStopWords t) := by
  have hbarrier : Barrier o.stops s '.' t :=
    Text.barrier_of_notMem (by decide +kernel) (fun _ ↦ notMem_dot_of_mem_stops hdot) s t
  rw [replaceStopWords_append_cons (by decide +kernel) hbarrier, Text.parts_append_cons]

/-- A space or a full stop at the end makes no other parts. -/
theorem parts_replaceStopWords_append (hgap : gap = [] ∨ gap = [' '] ∨ gap = ['.']) (s : Text) :
    parts (o.replaceStopWords (s ++ gap)) = parts (o.replaceStopWords s) := by
  rcases hgap with rfl | rfl | rfl
  · rw [List.append_nil]
  · have hbarrier : Barrier o.stops s ' ' [] := Text.barrier_end rfl (fun _ ↦ tidy_of_mem_stops) s
    rw [replaceStopWords_append_cons (by decide +kernel) hbarrier, replaceStopWords_nil,
      Text.parts_append_space]
  · rw [parts_replaceStopWords_append_cons hdot, replaceStopWords_nil]
    exact List.append_nil _

/-- Nor does one at the start. -/
theorem parts_replaceStopWords_gap (hgap : gap = [] ∨ gap = [' '] ∨ gap = ['.']) (s : Text) :
    parts (o.replaceStopWords (gap ++ s)) = parts (o.replaceStopWords s) := by
  rcases hgap with rfl | rfl | rfl
  · rw [List.nil_append]
  · have hbarrier : Barrier o.stops [] ' ' s := Text.barrier_start rfl (fun _ ↦ tidy_of_mem_stops) s
    have hsplit := replaceStopWords_append_cons (by decide +kernel) hbarrier
    rw [replaceStopWords_nil, List.nil_append, List.nil_append] at hsplit
    rw [List.singleton_append, hsplit, Text.parts_space_append]
  · have hsplit := parts_replaceStopWords_append_cons hdot [] s
    rwa [replaceStopWords_nil] at hsplit

end Parts

/-- **Before stop words are replaced**, there is a full stop for a stop character, perhaps a gap on
either side of it, and what each side is made to alone. -/
theorem exists_withStopWords_append_cons (hc : c ∈ o.stopChars.toList) (hblank : isBlank c = false)
    (hlow : o.lowercaseInput = true → lowercase [c] = [c])
    (hsigma : o.lowercaseInput = true → 'Σ' ∉ u ∧ 'Σ' ∉ v) :
    ∃ left right, (left = [] ∨ left = [' '] ∨ left = ['.']) ∧
      (right = [] ∨ right = [' '] ∨ right = ['.']) ∧
      o.withStopWords (u ++ c :: v) =
        o.withStopWords u ++ left ++ '.' :: (right ++ o.withStopWords v) := by
  let low (s : Text) : Text := if o.lowercaseInput then lowercase s else s
  let allow (c : Char) : Char := if o.allows c then c else ' '
  let mark (c : Char) : Char := if o.stopChars.toList.contains c then '.' else c
  have hlower : low (u ++ c :: v) = low u ++ c :: low v := by
    by_cases hlowercase : o.lowercaseInput = true
    · obtain ⟨hu, hv⟩ := hsigma hlowercase
      have hc_ne : c ≠ 'Σ' := by
        rintro rfl
        exact absurd (hlow hlowercase) (by decide +kernel)
      have hside {s : Text} (hs : 'Σ' ∉ s) : lowercase s = s.flatMap (lowerBetween [] · []) :=
        Text.lowercase_eq_flatMap fun d hd hsigma ↦ hs (hsigma ▸ hd)
      have hone : lowerBetween [] c [] = [c] := by
        have := hlow hlowercase
        rwa [hside (by simpa using hc_ne.symm), List.flatMap_singleton] at this
      simp only [low, if_pos hlowercase]
      rw [hside (by simp [hu, hv, hc_ne.symm]), hside hu, hside hv, List.flatMap_append,
        List.flatMap_cons, hone, List.singleton_append]
    · simp only [low, if_neg hlowercase]
  have hallow : allow c = c := if_pos (by simp [allows, hc])
  have hmark : mark c = '.' := if_pos (List.contains_iff_mem.2 hc)
  have hgap {gap : Text} (h : gap = [] ∨ gap = [' ']) :
      gap.map mark = [] ∨ gap.map mark = [' '] ∨ gap.map mark = ['.'] := by
    rcases h with rfl | rfl
    · exact .inl rfl
    · by_cases hspace : o.stopChars.toList.contains ' ' = true
      · exact .inr (.inr (congrArg (fun d ↦ [d]) (if_pos hspace)))
      · exact .inr (.inl (congrArg (fun d ↦ [d]) (if_neg hspace)))
  obtain ⟨left, right, hleft, hright, hcontract⟩ :=
    Text.exists_contract_spaceOut_append_cons o.spaces hblank ((low u).map allow)
      ((low v).map allow)
  refine ⟨left.map mark, right.map mark, hgap hleft, hgap hright, ?_⟩
  calc o.withStopWords (u ++ c :: v)
      = (contract (Text.spaceOut o.spaces ((low (u ++ c :: v)).map allow))).map mark := rfl
    _ = (contract ((Text.spaceOut o.spaces ((low u).map allow))) ++ left ++
          c :: (right ++ contract (Text.spaceOut o.spaces ((low v).map allow)))).map mark := by
        rw [hlower, List.map_append, List.map_cons, hallow, hcontract]
    _ = o.withStopWords u ++ left.map mark ++ '.' :: (right.map mark ++ o.withStopWords v) := by
        rw [List.map_append, List.map_append, List.map_cons, List.map_append, hmark]
        rfl

/-- **Stop characters separate completely.** The parts of a text with a stop character in it are the
parts of what stands before it and then the parts of what stands behind it, as long as no stop word
holds a full stop. If the input is lowercased, then the stop character must be in lower case, and a
capital sigma may not occur, as its lower case depends on what stands around it. -/
theorem stop_character_separates (o : Options) (c : Char) (u v : Text)
    (hdot : ∀ stop ∈ o.stopWords, '.' ∉ stop.toList) (hc : c ∈ o.stopChars.toList)
    (hblank : isBlank c = false) (hlow : o.lowercaseInput = true → lowercase [c] = [c])
    (hsigma : o.lowercaseInput = true → 'Σ' ∉ u ∧ 'Σ' ∉ v) :
    parts (o.normalize (u ++ c :: v)) = parts (o.normalize u) ++ parts (o.normalize v) := by
  obtain ⟨left, right, hleft, hright, hsplit⟩ :=
    exists_withStopWords_append_cons hc hblank hlow hsigma
  rw [normalize_eq, normalize_eq, normalize_eq, hsplit, parts_replaceStopWords_append_cons hdot,
    parts_replaceStopWords_append hdot hleft, parts_replaceStopWords_gap hdot hright]

/-- An emoji can be a stop character, with a space on either side. The stop word "is not", which
would be found without it, does not reach across. -/
theorem emoji_separates :
    let o : Options := { stopChars := ",🙂", stopWords := ["but", "is not"], allowEmoji := true }
    (parts (o.normalize "This is not so but true".toList) =
        ["this".toList, "so".toList, "true".toList]) ∧
      parts (o.normalize ("This is".toList ++ '🙂' :: "not so but true".toList)) =
        ["this is".toList, "not so".toList, "true".toList] := by
  intro o
  refine ⟨by decide +kernel, ?_⟩
  rw [stop_character_separates o '🙂' "This is".toList "not so but true".toList (by decide +kernel)
    (by decide +kernel) (by decide +kernel) (by decide +kernel) (by decide +kernel)]
  decide +kernel

end Options

end Dialogue
