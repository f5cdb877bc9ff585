import Dialogue.Proofs.Pattern.Replace
import Dialogue.Proofs.Pattern.WholeWord
import Dialogue.Proofs.Segmentation.Ink
import Dialogue.Substitution

/-!
# Substituting word by word

The pattern of a table takes in a blank on either side of a phrase, and each search begins where the
phrase before it ended. Here the same is said of words, without a pattern. A `WordPass` goes from
word to word: where the first phrase that is *found* begins, what it stands for is put in and the
pass goes on behind it, and any other word stays. A phrase may span several words, but it begins
where a word begins and ends where one ends.

Between the words there is white space, of which a pass never takes any. So neighbouring phrases may
share a blank, and what is put in is behind the pass and not looked at again.

The main statement is `Substitution.apply_eq_iff_wordPass`: what applying a table gives is what the
pass gives, and nothing else.
-/

namespace Dialogue

open Character (isBlank isBlank_fold)
open Text (SameFold Tidy contract)

namespace Text

variable {phrase x y after rest s out out' : Text} {phrases : List Text} {f : Text → Text}

/-! ## Passes over words -/

/-- A phrase is found at the front of `x ++ after`: in some case it is `x`, and `x` ends where a
word ends. -/
structure Finds (phrase x after : Text) : Prop where
  same : SameFold phrase x
  solid : ∀ c ∈ x.getLast?, isBlank c = false
  ends : ∀ c ∈ after.head?, isBlank c = true

/-- Of some phrases, the first that is found at the front of `x ++ after` is found as `x`. -/
def FindsFirst (phrases : List Text) (x after : Text) : Prop :=
  ∃ early phrase late, phrases = early ++ phrase :: late ∧ Finds phrase x after ∧
    ∀ other ∈ early, ∀ y rest, x ++ after = y ++ rest → ¬ Finds other y rest

/-- Going through `s` word by word, and replacing phrases by `f`, gives `out`. -/
inductive WordPass (phrases : List Text) (f : Text → Text) : Text → Text → Prop
  | done : WordPass phrases f [] []
  | blank {c : Char} {s out : Text} (blank : isBlank c = true)
      (later : WordPass phrases f s out) : WordPass phrases f (c :: s) (c :: out)
  | replace {x after out : Text} (start : ∀ c ∈ (x ++ after).head?, isBlank c = false)
      (first : FindsFirst phrases x after) (later : WordPass phrases f after out) :
      WordPass phrases f (x ++ after) (f x ++ out)
  | keep {w after out : Text} (word : w ≠ []) (solid : ∀ c ∈ w, isBlank c = false)
      (ends : ∀ c ∈ after.head?, isBlank c = true)
      (free : ∀ phrase ∈ phrases, ∀ y rest, w ++ after = y ++ rest → ¬ Finds phrase y rest)
      (later : WordPass phrases f after out) : WordPass phrases f (w ++ after) (w ++ out)

/-! ## There is one pass -/

theorem FindsFirst.finds (h : FindsFirst phrases x after) : ∃ phrase ∈ phrases,
    Finds phrase x after := by
  obtain ⟨early, phrase, late, rfl, hfinds, -⟩ := h
  exact ⟨phrase, by simp, hfinds⟩

/-- What is found first is found as one text only. -/
theorem FindsFirst.eq (h : FindsFirst phrases x after) (h' : FindsFirst phrases y rest)
    (hsame : x ++ after = y ++ rest) : x = y ∧ after = rest := by
  obtain ⟨early, phrase, late, rfl, hfinds, hearly⟩ := h
  obtain ⟨early', phrase', late', hsplit, hfinds', hearly'⟩ := h'
  have hphrase : phrase = phrase' := by
    rcases List.append_eq_append_iff.1 hsplit with ⟨l, rfl, hl⟩ | ⟨l, rfl, hl⟩
    · rcases l with _ | ⟨p, l⟩
      · exact (List.cons_eq_cons.1 hl).1
      · obtain ⟨rfl, -⟩ := List.cons_eq_cons.1 hl
        exact absurd hfinds (hearly' phrase (by simp) x after hsame.symm)
    · rcases l with _ | ⟨p, l⟩
      · exact (List.cons_eq_cons.1 hl).1.symm
      · obtain ⟨rfl, -⟩ := List.cons_eq_cons.1 hl
        exact absurd hfinds' (hearly phrase' (by simp) y rest hsame)
  subst hphrase
  exact List.append_inj hsame (hfinds.same.length_eq.symm.trans hfinds'.same.length_eq)

/-- The first word of a text is one text only. -/
theorem word_inj {w v : Text} (hw : ∀ c ∈ w, isBlank c = false) (hv : ∀ c ∈ v, isBlank c = false)
    (hafter : ∀ c ∈ after.head?, isBlank c = true) (hrest : ∀ c ∈ rest.head?, isBlank c = true)
    (hsame : w ++ after = v ++ rest) : w = v ∧ after = rest := by
  have hwv : w = v := by rw [← takeWhile_nonblank hw hafter, hsame, takeWhile_nonblank hv hrest]
  subst hwv
  exact ⟨rfl, List.append_cancel_left hsame⟩

theorem exists_word (s : Text) : ∃ w after, s = w ++ after ∧ (∀ c ∈ w, isBlank c = false) ∧
    ∀ c ∈ after.head?, isBlank c = true := by
  refine ⟨s.takeWhile (! isBlank ·), s.dropWhile (! isBlank ·),
    List.takeWhile_append_dropWhile.symm, fun c hc ↦ ?_, fun c hc ↦ ?_⟩
  · simpa using List.mem_takeWhile_imp hc
  · have := List.head?_dropWhile_not (! isBlank ·) s
    rw [Option.mem_def.1 hc] at this
    simpa using this

/-- How a pass begins. -/
theorem WordPass.cases (h : WordPass phrases f s out) :
    (s = [] ∧ out = []) ∨
    (∃ c t late, s = c :: t ∧ out = c :: late ∧ isBlank c = true ∧ WordPass phrases f t late) ∨
    (∃ x after late, s = x ++ after ∧ out = f x ++ late ∧
      (∀ c ∈ s.head?, isBlank c = false) ∧ FindsFirst phrases x after ∧
      WordPass phrases f after late) ∨
    (∃ w after late, s = w ++ after ∧ out = w ++ late ∧ w ≠ [] ∧ (∀ c ∈ w, isBlank c = false) ∧
      (∀ c ∈ after.head?, isBlank c = true) ∧
      (∀ phrase ∈ phrases, ∀ y rest, s = y ++ rest → ¬ Finds phrase y rest) ∧
      WordPass phrases f after late) := by
  cases h with
  | done => exact .inl ⟨rfl, rfl⟩
  | blank hc later => exact .inr (.inl ⟨_, _, _, rfl, rfl, hc, later⟩)
  | replace start first later => exact .inr (.inr (.inl ⟨_, _, _, rfl, rfl, start, first, later⟩))
  | keep word solid ends free later =>
    exact .inr (.inr (.inr ⟨_, _, _, rfl, rfl, word, solid, ends, free, later⟩))

theorem head?_append_word {w : Text} (hword : w ≠ []) (hsolid : ∀ c ∈ w, isBlank c = false)
    (after : Text) : ∀ c ∈ (w ++ after).head?, isBlank c = false := by
  intro c hc
  rw [List.head?_append_of_ne_nil _ hword] at hc
  exact hsolid c (List.mem_of_mem_head? hc)

/-- **A text is gone through in one way only**, unless some phrase is empty. -/
theorem WordPass.eq (hphrases : ∀ phrase ∈ phrases, phrase ≠ []) (h : WordPass phrases f s out)
    (h' : WordPass phrases f s out') : out = out' := by
  have ne_nil {x after : Text} (h : FindsFirst phrases x after) : x ≠ [] := by
    obtain ⟨phrase, hphrase, hfinds⟩ := h.finds
    exact hfinds.same.ne_nil (hphrases phrase hphrase)
  induction h generalizing out' with
  | done =>
    rcases h'.cases with ⟨-, rfl⟩ | ⟨_, _, _, hs, -⟩ | ⟨x, after, _, hs, -, -, first, -⟩ |
      ⟨w, after, _, hs, -, word, -⟩
    · rfl
    · cases hs
    · exact absurd (List.append_eq_nil_iff.1 hs.symm).1 (ne_nil first)
    · exact absurd (List.append_eq_nil_iff.1 hs.symm).1 word
  | @blank c s out hc later ih =>
    have hnot {P : Prop} (h : ∀ d ∈ (c :: s).head?, isBlank d = false) : P :=
      absurd (h c rfl) (by simp [hc])
    rcases h'.cases with ⟨hs, -⟩ | ⟨_, _, late, hs, rfl, -, later'⟩ |
      ⟨x, after, _, -, -, start, -⟩ | ⟨w, after, _, hs, -, word, solid, -⟩
    · cases hs
    · obtain ⟨rfl, rfl⟩ := List.cons_eq_cons.1 hs
      rw [ih later']
    · exact hnot start
    · exact hnot (hs ▸ head?_append_word word solid after)
  | @replace x after out start first later ih =>
    rcases h'.cases with ⟨hs, -⟩ | ⟨c, t, _, hs, -, hc, -⟩ |
      ⟨y, rest, late, hs, rfl, -, first', later'⟩ | ⟨w, rest, _, -, -, -, -, -, free, -⟩
    · exact absurd (List.append_eq_nil_iff.1 hs).1 (ne_nil first)
    · exact absurd (start c (by rw [hs]; rfl)) (by simp [hc])
    · obtain ⟨rfl, rfl⟩ := first.eq first' hs
      rw [ih later']
    · obtain ⟨phrase, hphrase, hfinds⟩ := first.finds
      exact absurd hfinds (free phrase hphrase x after rfl)
  | @keep w after out word solid ends free later ih =>
    have start := head?_append_word word solid after
    rcases h'.cases with ⟨hs, -⟩ | ⟨c, t, _, hs, -, hc, -⟩ | ⟨x, rest, _, hs, -, -, first, -⟩ |
      ⟨v, rest, late, hs, rfl, -, solid', ends', -, later'⟩
    · exact absurd (List.append_eq_nil_iff.1 hs).1 word
    · exact absurd (start c (by rw [hs]; rfl)) (by simp [hc])
    · obtain ⟨phrase, hphrase, hfinds⟩ := first.finds
      exact absurd hfinds (free phrase hphrase x rest hs)
    · obtain ⟨rfl, rfl⟩ := word_inj solid solid' ends ends' hs
      rw [ih later']

/-- Without phrases everything stays. -/
theorem wordPass_nil (f : Text → Text) (s : Text) : WordPass [] f s s := by
  induction hlength : s.length using Nat.strongRecOn generalizing s with
  | _ n ih =>
    obtain ⟨w, after, rfl, hsolid, hends⟩ := exists_word s
    rw [List.length_append] at hlength
    rcases eq_or_ne w [] with rfl | hw
    · rcases after with _ | ⟨c, after⟩
      · exact .done
      · refine .blank (hends c rfl) (ih _ ?_ after rfl)
        rw [← hlength, List.length_cons]
        omega
    · refine .keep hw hsolid hends (List.forall_mem_nil _) (ih _ ?_ after rfl)
      have := List.length_pos_of_ne_nil hw
      omega

/-! ## The pattern finds what the pass finds -/

theorem Finds.of_same (hphrase : Tidy phrase) (hsame : SameFold phrase x)
    (hends : ∀ c ∈ after.head?, isBlank c = true) : Finds phrase x after := by
  refine ⟨hsame, fun c hc ↦ ?_, hends⟩
  have hlast := congrArg List.getLast? hsame
  rw [List.getLast?_map, List.getLast?_map, Option.mem_def.1 hc, Option.map_some] at hlast
  obtain ⟨d, hd, hfold⟩ := Option.map_eq_some_iff.1 hlast
  rw [← isBlank_fold, ← hfold, isBlank_fold]
  exact hphrase.last d hd

/-- What is found begins where a word begins. -/
theorem head?_of_sameFold (hphrase : Tidy phrase) (hsame : SameFold phrase x) :
    ∀ c ∈ x.head?, isBlank c = false := by
  intro c hc
  have hhead := congrArg List.head? hsame
  rw [List.head?_map, List.head?_map, Option.mem_def.1 hc, Option.map_some] at hhead
  obtain ⟨d, hd, hfold⟩ := Option.map_eq_some_iff.1 hhead
  rw [← isBlank_fold, ← hfold, isBlank_fold]
  exact hphrase.head d hd

end Text

namespace Pattern

open Text (Finds FindsFirst WordPass)

variable {phrases : List Text} {f : Text → Text} {before lead x y after rest out : Text}

/-- Looking for one of some phrases between blanks or the ends of the text. -/
abbrev phrase (phrases : List Text) : Pattern := [.startOrBlank, .oneOf phrases, .blankOrEnd]

/-- A phrase that is found is found by the pattern. -/
theorem exists_cuts_phrase {p : Text} (hp : p ∈ phrases) (hfinds : Finds p x after)
    (hlead : Piece.startOrBlank.Takes before lead (x ++ after)) :
    ∃ y, Cuts (phrase phrases) before (lead ++ (x ++ after)) [lead, x, y] := by
  obtain ⟨y, late, rfl, hy⟩ := (exists_takes_blankOrEnd_iff (before ++ lead ++ x)).2 hfinds.ends
  exact ⟨y, (cuts_framed_iff (List.ne_nil_of_mem hp)).2
    ⟨lead, x, y, late, rfl, rfl, hlead, ⟨p, hp, hfinds.same⟩, hy⟩⟩

/-- The match that precedes all others is of the phrase that is found first. -/
theorem findsFirst_of_cutsFirst (hphrases : ∀ p ∈ phrases, Tidy p) (hsome : phrases ≠ [])
    (h : CutsFirst (phrase phrases) before (lead ++ (x ++ after)) [lead, x, y]) :
    Piece.startOrBlank.Takes before lead (x ++ after) ∧ FindsFirst phrases x after := by
  obtain ⟨lead', x', y', late, hxs, hsplit, hlead, ⟨p, hp, hsame⟩, hright⟩ :=
    (cuts_framed_iff hsome).1 h.cuts
  obtain ⟨rfl, rfl, rfl⟩ : lead = lead' ∧ x = x' ∧ y = y' := by simpa using hxs
  obtain rfl : after = y ++ late := List.append_cancel_left (List.append_cancel_left hsplit)
  have hends := (exists_takes_blankOrEnd_iff _).1 ⟨y, late, rfl, hright⟩
  refine ⟨hlead, ?_⟩
  -- the first phrase that is `x` in some case
  obtain ⟨first, hfirst⟩ : ∃ first, phrases.find? (SameFold · x) = some first :=
    Option.isSome_iff_exists.1 (List.find?_isSome.2 ⟨p, hp, by simpa using hsame⟩)
  obtain ⟨hfirstx, early, rest, rfl, hearly⟩ := List.find?_eq_some_iff_append.1 hfirst
  refine ⟨early, first, rest, rfl, ?_, fun other hother z tail hz hfinds ↦ ?_⟩
  · exact .of_same (hphrases first (by simp)) (by simpa using hfirstx) hends
  · have hmem : other ∈ early ++ first :: rest := List.mem_append_left _ hother
    rw [hz] at hlead h
    obtain ⟨v, hcuts⟩ := exists_cuts_phrase hmem hfinds hlead
    have hx : early.findIdx (SameFold · x) = early.length := by
      rw [List.findIdx_eq_length]
      simpa using hearly
    have hz : early.findIdx (SameFold · z) < early.length := by
      rw [List.findIdx_lt_length]
      exact ⟨other, hother, by simpa using hfinds.same⟩
    -- so the match of the other phrase would precede this one
    have hbefore : (early ++ first :: rest).findIdx (SameFold · z) <
        (early ++ first :: rest).findIdx (SameFold · x) := by
      rw [List.findIdx_append, List.findIdx_append, if_pos hz, hx, if_neg (Nat.lt_irrefl _)]
      omega
    rcases h.precedes hcuts with hsame | ⟨hprefers | ⟨hprefers | _⟩⟩
    · obtain ⟨rfl, -⟩ : x = z ∧ y = v := by simpa using hsame
      exact absurd hbefore (Nat.lt_irrefl _)
    · exact absurd hprefers (Nat.lt_irrefl _)
    · exact absurd hbefore hprefers.asymm
    · exact absurd hbefore (Nat.lt_irrefl _)

/-- Inside a word no match begins. -/
theorem Pass.exists_of_word {w : Text} (hphrases : ∀ p ∈ phrases, Tidy p) (hsome : phrases ≠ [])
    (hw : ∀ c ∈ w, isBlank c = false) (hbefore : before ≠ [])
    (h : Pass (phrase phrases) f before (w ++ after) out) :
    ∃ late, out = w ++ late ∧ Pass (phrase phrases) f (before ++ w) after late := by
  induction w generalizing before out with
  | nil => exact ⟨out, rfl, by simpa using h⟩
  | cons c w ih =>
    generalize hrest : c :: w ++ after = rest at h
    cases h with
    | done => cases hrest
    | keep free later =>
      obtain ⟨rfl, rfl⟩ := List.cons_eq_cons.1 hrest
      obtain ⟨late, rfl, hlate⟩ :=
        ih (fun d hd ↦ hw d (List.mem_cons_of_mem _ hd)) (by simp) later
      exact ⟨late, rfl, by simpa using hlate⟩
    | replace first later =>
      obtain ⟨⟨-, hnil⟩ | ⟨d, rfl, hd⟩, -⟩ := findsFirst_of_cutsFirst hphrases hsome first
      · exact absurd hnil hbefore
      · obtain ⟨rfl, -⟩ := List.cons_eq_cons.1 hrest
        exact absurd hd (by simp [hw c List.mem_cons_self])

/-- **A pass over characters is a pass over words.** -/
theorem Pass.wordPass (hphrases : ∀ p ∈ phrases, Tidy p ∧ p ≠ []) (hsome : phrases ≠ [])
    (h : Pass (phrase phrases) f before rest out)
    (hbegin : before = [] ∨ ∀ c ∈ rest.head?, isBlank c = true) : WordPass phrases f rest out := by
  have htidy : ∀ p ∈ phrases, Tidy p := fun p hp ↦ (hphrases p hp).1
  induction hlength : rest.length using Nat.strongRecOn generalizing before rest out with
  | _ n ih =>
    -- a word at which no phrase is found stays, and the pass over its characters leads behind it
    have hkeep {before w after out : Text} (hw : w ≠ []) (hsolid : ∀ c ∈ w, isBlank c = false)
        (hends : ∀ c ∈ after.head?, isBlank c = true) (hshort : (w ++ after).length ≤ n)
        (hfree : ∀ p ∈ phrases, ∀ y tail, w ++ after = y ++ tail → ¬ Finds p y tail)
        (h : ∃ late, out = w ++ late ∧ Pass (phrase phrases) f (before ++ w) after late) :
        WordPass phrases f (w ++ after) out := by
      obtain ⟨late, rfl, hlate⟩ := h
      refine .keep hw hsolid hends hfree (ih _ ?_ hlate (.inr hends) rfl)
      have := List.length_pos_of_ne_nil hw
      rw [List.length_append] at hshort
      omega
    cases h with
    | done => exact .done
    | @replace before lead x y after late first later =>
      obtain ⟨hlead, hfirst⟩ := findsFirst_of_cutsFirst htidy hsome first
      obtain ⟨p, hp, hfinds⟩ := hfirst.finds
      have hx : x ≠ [] := hfinds.same.ne_nil (hphrases p hp).2
      have hstart : ∀ c ∈ (x ++ after).head?, isBlank c = false := by
        rw [List.head?_append_of_ne_nil _ hx]
        exact Text.head?_of_sameFold (htidy p hp) hfinds.same
      have hshort : after.length < n := by
        have := List.length_pos_of_ne_nil hx
        rw [List.length_append, List.length_append] at hlength
        omega
      have hpass := WordPass.replace hstart hfirst (ih _ hshort later (.inr hfinds.ends) rfl)
      rcases hlead with ⟨rfl, -⟩ | ⟨c, rfl, hc⟩
      · exact hpass
      · exact .blank hc hpass
    | @keep before rest late c free later =>
      have hfree {lead s : Text} (hlead : Piece.startOrBlank.Takes before lead s)
          (hs : c :: rest = lead ++ s) :
          ∀ p ∈ phrases, ∀ y tail, s = y ++ tail → ¬ Finds p y tail := by
        rintro p hp y tail rfl hfinds
        obtain ⟨z, hcuts⟩ := exists_cuts_phrase hp hfinds hlead
        exact free _ (hs ▸ hcuts)
      obtain ⟨w, after, rfl, hsolid, hends⟩ := Text.exists_word rest
      have hword := later.exists_of_word htidy hsome hsolid (by simp)
      rw [List.length_cons] at hlength
      by_cases hc : isBlank c = true
      · refine .blank hc ?_
        rcases eq_or_ne w [] with rfl | hw
        · exact ih _ (by omega) later (.inr hends) rfl
        · exact hkeep hw hsolid hends (by omega) (hfree (.inr ⟨c, rfl, hc⟩) rfl) hword
      · -- only at the start of the text does a word begin without white space before it
        obtain rfl : before = [] := hbegin.resolve_right fun h ↦ hc (h c rfl)
        obtain ⟨late, rfl, hlate⟩ := hword
        have hsolid' : ∀ d ∈ c :: w, isBlank d = false :=
          List.forall_mem_cons.2 ⟨by simpa using hc, hsolid⟩
        have hlate' : Pass (phrase phrases) f ([] ++ c :: w) after late := hlate
        exact hkeep (List.cons_ne_nil c w) hsolid' hends hlength.le (hfree (.inl ⟨rfl, rfl⟩) rfl)
          ⟨late, rfl, hlate'⟩

end Pattern

namespace Substitution

/-- The phrases of a table, from the first to the last. -/
def phrases (table : Substitution) : List Text := table.entries.map (·.1)

theorem phrases_ofList (declared : List (Text × Text)) :
    (ofList declared).phrases = (declared.map (contract ·.1)).filter (! ·.isEmpty) := by
  simp only [phrases, ofList, List.filter_map, List.map_map]
  rfl

theorem tidy_of_mem_phrases {declared : List (Text × Text)} {phrase : Text}
    (h : phrase ∈ (ofList declared).phrases) : Tidy phrase ∧ phrase ≠ [] := by
  rw [phrases_ofList] at h
  obtain ⟨hmem, hne⟩ := List.mem_filter.1 h
  obtain ⟨entry, -, rfl⟩ := List.mem_map.1 hmem
  exact ⟨Text.tidy_contract _, by simpa using hne⟩

theorem wordPass_apply {table : Substitution}
    (h : ∀ phrase ∈ table.phrases, Tidy phrase ∧ phrase ≠ []) (s : Text) :
    Text.WordPass table.phrases (fun phrase ↦ (table.get? phrase).getD phrase) s
      (table.apply s) := by
  by_cases hempty : table.phrases = []
  · rw [hempty, apply_of_isEmpty (List.isEmpty_iff.2 (List.map_eq_nil_iff.1 hempty))]
    exact Text.wordPass_nil _ s
  · have hsome : ¬ table.isEmpty = true := fun h ↦
      hempty (List.map_eq_nil_iff.2 (List.isEmpty_iff.1 h))
    rw [apply, if_neg hsome]
    exact (Pattern.pass_replaceAll rfl hempty (fun p hp ↦ (h p hp).2) _ s).wordPass h hempty
      (.inl rfl)

/-- What a table of tidy phrases makes of a text is the one result of a pass over its words. -/
theorem apply_eq_iff {table : Substitution}
    (h : ∀ phrase ∈ table.phrases, Tidy phrase ∧ phrase ≠ []) (s out : Text) :
    table.apply s = out ↔
      Text.WordPass table.phrases (fun phrase ↦ (table.get? phrase).getD phrase) s out := by
  have hpass := wordPass_apply h s
  exact ⟨fun heq ↦ heq ▸ hpass, fun hout ↦ hpass.eq (fun phrase hmem ↦ (h phrase hmem).2) hout⟩

/-- **Applying a table is one pass over the words of a text.** From left to right, the first phrase
of the table that begins with a word and ends with it or with a later one, whatever its case, is
replaced by what the table has for it, or stays if the table lists it in another lower case; and the
pass goes on behind it. A word at which no phrase is found stays, and so does all white space. -/
theorem apply_eq_iff_wordPass (declared : List (Text × Text)) (s out : Text) :
    (ofList declared).apply s = out ↔
      Text.WordPass ((declared.map (contract ·.1)).filter (! ·.isEmpty))
        (fun phrase ↦ ((ofList declared).get? phrase).getD phrase) s out := by
  rw [← phrases_ofList]
  exact apply_eq_iff (fun _ ↦ tidy_of_mem_phrases) s out

/-- Neighbours share a blank, and of two phrases with a common beginning the first is found. -/
example :
    (ofList [("you are".toList, "I am".toList), ("you".toList, "I".toList)]).apply
      "you you are you aren't".toList = "I I am I aren't".toList := by
  decide +kernel

end Substitution

end Dialogue
