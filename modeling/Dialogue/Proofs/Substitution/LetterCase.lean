import Dialogue.Proofs.Character.Folding
import Dialogue.Proofs.Substitution.WordPass
import Mathlib.Data.List.Find

/-!
# Which phrases are found but not replaced

The pattern of a table finds a phrase in any case, but what it stands for is looked up by lower
case. For a text that was found, its *own* value is that of the first entry whose phrase the pattern
takes it for. The two ways to ignore case agree on nearly every character. As long as they do for
the phrases and the text, what is found is replaced by its own value. But a phrase with a letter
such as `s`, which the pattern also finds as `ſ`, can be written so that it is found and nothing is
looked up for it, and then it stays.
-/

namespace Dialogue

open Character (Agrees agrees_of_ascii hasRival fold)
open Text (SameFold Tidy contract lowercase)

namespace Pattern

variable {phrases : List Text} {p s x : Text}

/-- What the pattern captures is one of the phrases in some case. -/
theorem exists_of_mem_spans (hphrases : phrases ≠ []) {span : Nat × Nat}
    (h : span ∈ (phrase phrases).spans s.toArray) :
    ∃ p ∈ phrases, SameFold p ((s.drop span.1).take (span.2 - span.1)) := by
  obtain ⟨captures, hmem, hspan⟩ := mem_rows_of_mem_spansFrom h
  rw [← rowsFrom_nil] at hmem
  obtain ⟨i, hi, hmatch⟩ := List.mem_map.1 hmem
  have hlength : (s.take i).length = i := by
    rw [List.length_nil, List.mem_range'_1] at hi
    rw [List.length_take_of_le (by omega)]
  rw [List.nil_append] at hmatch
  have hcases := match?_cases (phrase phrases) (s.take i) (s.drop i)
  rw [List.take_append_drop, hlength, hmatch] at hcases
  obtain ⟨xs, hfirst, hplaces⟩ | ⟨-, hnone⟩ := hcases
  · have hsections := map_places hfirst.cuts
    rw [List.take_append_drop, hlength, ← Option.some.inj hplaces] at hsections
    obtain ⟨lead, x, y, after, rfl, -, -, hx, -⟩ := (cuts_framed_iff hphrases).1 hfirst.cuts
    have hmem : (s.drop span.1).take (span.2 - span.1) ∈
        (phrase phrases).captured [lead, x, y] := by
      rw [← hsections]
      exact List.mem_map.2 ⟨span, hspan, rfl⟩
    rwa [List.mem_singleton.1 hmem]
  · exact absurd hnone (Option.some_ne_none captures)

/-- A phrase is found in itself, in any case. -/
theorem mem_spans_of_sameFold (hp : Tidy p) (hne : p ≠ []) (hsame : SameFold p x) :
    (0, x.length) ∈ (phrase [p]).spans x.toArray := by
  -- the pattern matches at the start, where it can only capture the whole text
  have hmatch : match? x.toArray (phrase [p]) 0 = some [(0, x.length)] := by
    have hfinds : Text.Finds p x [] := .of_same hp hsame (by simp)
    obtain ⟨z, hcuts⟩ := exists_cuts_phrase (List.mem_singleton_self p) hfinds (.inl ⟨rfl, rfl⟩)
    rw [List.nil_append, List.append_nil] at hcuts
    obtain ⟨xs, hfirst, hplaces⟩ | ⟨hfree, -⟩ := match?_cases (phrase [p]) [] x
    · obtain ⟨lead, y, z, after, rfl, hsplit, -, ⟨q, hq, hy⟩, -⟩ :=
        (cuts_framed_iff (List.cons_ne_nil p [])).1 hfirst.cuts
      obtain rfl := List.mem_singleton.1 hq
      have hlength : y.length = x.length := hy.length_eq.symm.trans hsame.length_eq
      have hlengths := congrArg List.length hsplit
      simp only [List.length_append] at hlengths
      obtain rfl : lead = [] := List.length_eq_zero_iff.1 (by omega)
      rw [List.nil_append] at hplaces
      rw [← hlength, ← Nat.zero_add y.length]
      exact hplaces
    · exact absurd hcuts (hfree _)
  obtain ⟨c, t, rfl⟩ : ∃ c t, x = c :: t := List.exists_cons_of_ne_nil (hsame.ne_nil hne)
  rw [spans, ← rowsFrom_nil, rowsFrom_cons, List.nil_append, List.length_nil, hmatch]
  exact List.mem_cons_self

end Pattern

namespace Text

/-- A pass looks at the texts that are replaced, and at nothing else that its replacements do. -/
theorem WordPass.congr {phrases : List Text} {f g : Text → Text} {s out : Text}
    (h : WordPass phrases f s out)
    (hfg : ∀ m, m <:+: s → (∃ phrase ∈ phrases, SameFold phrase m) → f m = g m) :
    WordPass phrases g s out := by
  induction h with
  | done => exact .done
  | blank blank later ih =>
    exact .blank blank (ih fun m hm ↦ hfg m (hm.trans (List.suffix_cons _ _).isInfix))
  | @replace x after out start first later ih =>
    obtain ⟨phrase, hphrase, hfinds⟩ := first.finds
    rw [hfg x (List.prefix_append x after).isInfix ⟨phrase, hphrase, hfinds.same⟩]
    exact .replace start first (ih fun m hm ↦ hfg m (hm.trans (List.suffix_append x after).isInfix))
  | @keep w after out word solid ends free later ih =>
    exact .keep word solid ends free
      (ih fun m hm ↦ hfg m (hm.trans (List.suffix_append w after).isInfix))

end Text

namespace Substitution

variable {table : Substitution} {m : Text}

/-- What the pattern of a table captures of a text, from left to right; `apply` replaces this. -/
def occurrences (table : Substitution) (s : Text) : List Text :=
  if table.isEmpty then []
  else (table.pattern.spans s.toArray).map fun (a, b) ↦ (s.drop a).take (b - a)

/-- The value of the first entry whose phrase is some text in some case. -/
def ownValue? (table : Substitution) (m : Text) : Option Text :=
  (table.entries.find? (SameFold ·.1 m)).map (·.2)

/-- What is found is a phrase of the table. -/
theorem exists_of_mem_occurrences {s : Text} (h : m ∈ table.occurrences s) :
    ∃ phrase ∈ table.phrases, SameFold phrase m := by
  rw [occurrences] at h
  split at h
  · exact absurd h List.not_mem_nil
  · rename_i hempty
    obtain ⟨span, hspan, rfl⟩ := List.mem_map.1 h
    refine Pattern.exists_of_mem_spans (fun hnil ↦ hempty ?_) hspan
    exact List.isEmpty_iff.2 (List.map_eq_nil_iff.1 hnil)

/-- What is found is in the text. -/
theorem infix_of_mem_occurrences {s : Text} (h : m ∈ table.occurrences s) : m <:+: s := by
  rw [occurrences] at h
  split at h
  · exact absurd h List.not_mem_nil
  · obtain ⟨span, -, rfl⟩ := List.mem_map.1 h
    exact (List.take_prefix _ _).isInfix.trans (List.drop_suffix _ _).isInfix

theorem isSome_ownValue? (h : ∃ phrase ∈ table.phrases, SameFold phrase m) :
    (table.ownValue? m).isSome = true := by
  obtain ⟨phrase, hphrase, hsame⟩ := h
  obtain ⟨entry, hentry, rfl⟩ := List.mem_map.1 hphrase
  rw [ownValue?, Option.isSome_map, List.find?_isSome]
  exact ⟨entry, hentry, decide_eq_true hsame⟩

/-- Where lower case and folding come to the same, a text has its own value. -/
theorem get?_eq_ownValue? (hphrases : ∀ phrase ∈ table.phrases, lowercase phrase = phrase.map fold)
    (hm : lowercase m = m.map fold) : table.get? m = table.ownValue? m := by
  rw [get?, ownValue?]
  congr 1
  refine List.find?_congr fun entry hentry ↦ ?_
  rw [hphrases entry.1 (List.mem_map_of_mem hentry), hm, Bool.eq_iff_iff, beq_iff_eq,
    decide_eq_true_iff]
  rfl

/-- Both ways to ignore case come to the same for what is found, if they do for the phrases and the
text, or if the phrases have no rivals. -/
theorem lowercase_eq_map_fold_of_sameFold {s : Text}
    (hphrases : ∀ phrase ∈ table.phrases, ∀ c ∈ phrase, Agrees c)
    (h : (∀ c ∈ s, Agrees c) ∨ ∀ phrase ∈ table.phrases, ∀ c ∈ phrase, hasRival c = false)
    (hm : m <:+: s) (hfound : ∃ phrase ∈ table.phrases, SameFold phrase m) :
    lowercase m = m.map fold := by
  rcases h with hs | hrivals
  · exact Text.lowercase_eq_map_fold fun c hc ↦ hs c (hm.subset hc)
  · obtain ⟨phrase, hphrase, hsame⟩ := hfound
    calc lowercase m = lowercase phrase :=
          Text.lowercase_eq_of_sameFold (hrivals phrase hphrase) hsame
      _ = phrase.map fold := Text.lowercase_eq_map_fold (hphrases phrase hphrase)
      _ = m.map fold := hsame

/-! ## One phrase -/

theorem entries_singleton {phrase value : Text} (hne : contract phrase ≠ []) :
    (ofList [(phrase, value)]).entries = [(contract phrase, value)] := by
  rw [ofList, List.map_singleton, List.filter_cons_of_pos]
  · rfl
  · simpa using hne

/-- **One phrase alone is looked up in every case** in which it is found, exactly if none of its
letters has a rival. -/
theorem looked_up_iff (phrase value : Text) :
    (∀ s, ∀ m ∈ (ofList [(phrase, value)]).occurrences s,
      (ofList [(phrase, value)]).get? m = some value) ↔
      ∀ c ∈ contract phrase, hasRival c = false := by
  by_cases hnil : contract phrase = []
  · have hempty : (ofList [(phrase, value)]).isEmpty = true := by
      rw [isEmpty, ofList, List.map_singleton, List.filter_cons_of_neg (by simp [hnil])]
      rfl
    refine iff_of_true (fun s m hm ↦ ?_) (by simp [hnil])
    rw [occurrences, if_pos hempty] at hm
    exact absurd hm List.not_mem_nil
  · have hentries : (ofList [(phrase, value)]).entries = [(contract phrase, value)] :=
      entries_singleton hnil
    have hget (m : Text) : (ofList [(phrase, value)]).get? m = some value ↔
        lowercase m = lowercase (contract phrase) := by
      rw [get?, hentries, List.find?_singleton]
      split
      · rename_i hlower
        exact iff_of_true rfl (beq_iff_eq.1 hlower).symm
      · rename_i hlower
        exact iff_of_false (Option.some_ne_none value).symm fun h ↦ hlower (beq_iff_eq.2 h.symm)
    constructor
    · intro h c hc
      by_contra hrival
      rw [Bool.not_eq_false] at hrival
      obtain ⟨t, hsame, hlower⟩ := Text.exists_lowercase_ne hc hrival
      have hsome : ¬ (ofList [(phrase, value)]).isEmpty = true := by
        rw [isEmpty, hentries]
        exact Bool.false_ne_true
      refine hlower ((hget t).1 (h t t ?_))
      rw [occurrences, if_neg hsome, pattern, hentries]
      refine List.mem_map.2 ⟨(0, t.length), ?_, ?_⟩
      · exact Pattern.mem_spans_of_sameFold (Text.tidy_contract phrase) hnil hsame
      · exact List.take_length
    · intro h s m hm
      obtain ⟨p, hp, hsame⟩ := exists_of_mem_occurrences hm
      rw [phrases, hentries, List.map_singleton, List.mem_singleton] at hp
      subst hp
      exact (hget m).2 (Text.lowercase_eq_of_sameFold h hsame)

/-! ## All tables -/

/-- **What is found has a value of its own, where the two ways to ignore case agree.** What the
pattern of a table captures is always one of its phrases in some case. Let lower case and folding
come to the same for the phrases. If they do so for the text too, or if no letter of the phrases has
a rival, then what is captured is looked up with success and replaced by its own value. A single
phrase is looked up in every case if, and only if, none of its letters has a rival. -/
theorem found_texts_have_own_values (declared : List (Text × Text)) :
    let table := ofList declared
    (∀ s, ∀ m ∈ table.occurrences s, ∃ phrase ∈ table.phrases, SameFold phrase m) ∧
    ((∀ phrase ∈ table.phrases, ∀ c ∈ phrase, Agrees c) → ∀ s,
      ((∀ c ∈ s, Agrees c) ∨ ∀ phrase ∈ table.phrases, ∀ c ∈ phrase, hasRival c = false) →
        (∀ m ∈ table.occurrences s,
          ∃ value, table.get? m = some value ∧ table.ownValue? m = some value) ∧
        ∀ out, table.apply s = out ↔
          Text.WordPass table.phrases (fun m ↦ (table.ownValue? m).getD m) s out) ∧
    ∀ phrase value, declared = [(phrase, value)] →
      ((∀ s, ∀ m ∈ table.occurrences s, table.get? m = some value) ↔
        ∀ c ∈ contract phrase, hasRival c = false) := by
  intro table
  have hfound {s m : Text} (hm : m ∈ table.occurrences s) :
      ∃ phrase ∈ table.phrases, SameFold phrase m := exists_of_mem_occurrences hm
  refine ⟨fun s m ↦ hfound, fun hphrases s h ↦ ?_, ?_⟩
  · have hvalue {m : Text} (hm : m <:+: s) (hfound : ∃ phrase ∈ table.phrases, SameFold phrase m) :
        table.get? m = table.ownValue? m :=
      get?_eq_ownValue? (fun phrase hphrase ↦ Text.lowercase_eq_map_fold (hphrases phrase hphrase))
        (lowercase_eq_map_fold_of_sameFold hphrases h hm hfound)
    refine ⟨fun m hm ↦ ?_, fun out ↦ ?_⟩
    · obtain ⟨value, hown⟩ := Option.isSome_iff_exists.1 (isSome_ownValue? (hfound hm))
      exact ⟨value, (hvalue (infix_of_mem_occurrences hm) (hfound hm)).trans hown, hown⟩
    · rw [apply_eq_iff (fun _ ↦ tidy_of_mem_phrases) s out]
      exact ⟨fun h ↦ h.congr fun m hm hp ↦ by rw [hvalue hm hp],
        fun h ↦ h.congr fun m hm hp ↦ by rw [hvalue hm hp]⟩
  · rintro phrase value rfl
    exact looked_up_iff phrase value

/-- A phrase with the micro sign is found when it is written with the Greek letter, and stays. One
without such letters is replaced however it is written. -/
theorem micro_sign_stays :
    let units := ofList [("\u00b5m".toList, "micrometre".toList)]
    let words := ofList [("you are".toList, "I am".toList), ("you".toList, "I".toList)]
    (¬ ∀ s, ∀ m ∈ units.occurrences s, units.get? m = some "micrometre".toList) ∧
      units.occurrences "5 \u03bcm".toList = ["\u03bcm".toList] ∧
      units.apply "5 \u03bcm".toList = "5 \u03bcm".toList ∧
      words.occurrences "You YOU ARE".toList = ["You".toList, "YOU ARE".toList] ∧
      ∀ m ∈ words.occurrences "You YOU ARE".toList, ∃ value, words.get? m = some value ∧
        words.ownValue? m = some value := by
  intro units words
  refine ⟨fun hall ↦ ?_, by decide +kernel, by decide +kernel, by decide +kernel, ?_⟩
  · have hrival := ((found_texts_have_own_values _).2.2 _ _ rfl).1 hall '\u00b5' (by decide +kernel)
    exact absurd hrival (by decide +kernel)
  · have hphrases : words.phrases.all (·.all (·.toNat < 128)) = true := by decide +kernel
    have htext : "You YOU ARE".toList.all (·.toNat < 128) = true := by decide +kernel
    simp only [List.all_eq_true, decide_eq_true_eq] at hphrases htext
    exact ((found_texts_have_own_values _).2.1
      (fun phrase hphrase c hc ↦ agrees_of_ascii (hphrases phrase hphrase c hc)) _
      (.inl fun c hc ↦ agrees_of_ascii (htext c hc))).1

end Substitution

end Dialogue
