import Dialogue.Proofs.Pattern.Findable
import Dialogue.Proofs.Segmentation.Ink

/-!
# Which stop words always split

A stop word that stands between white space, or at an end of the text, ought to end a part there.
But the pass for stop words asks for a word edge on either side, and beside white space there is one
only if the stop word itself begins, or ends, with a word character. So a stop word such as `-` is
not found between white space, and may stand in a part.

Whether this happens can be seen from the stop word alone. If it stands in a part of some input,
then what stands there is a part of its own when it is the whole input (`Options.splits_iff`). With
word characters at both ends a stop word always splits; and if it is the only one, and the other
passes leave it alone, then with nothing else (`Options.stop_word_splits_iff`).
-/

namespace Dialogue

open Character (isBlank isWord fold)
open Text (SameFold Edge FreeOf Tidy contract parts)

namespace Character

/-- ASCII letters are folded to the same in either case. -/
theorem fold_toLower (c : Char) : fold c.toLower = fold c := by
  by_cases hascii : c.toNat < 128
  · exact forall_ascii (P := fun c ↦ fold c.toLower = fold c) (by decide +kernel) hascii
  · have hupper : ¬ (c.val ≥ 'A'.val ∧ c.val ≤ 'Z'.val) := by
      rintro ⟨-, hle⟩
      have : c.toNat ≤ 90 := hle
      omega
    have hlower : c.toLower = c := dif_neg hupper
    rw [hlower]

end Character

namespace Text

variable {w p before v after : Text}

/-- The texts are the same but for the case of ASCII letters. -/
def SameAscii (s t : Text) : Prop := s.map Char.toLower = t.map Char.toLower

instance (s t : Text) : Decidable (SameAscii s t) := inferInstanceAs (Decidable (_ = _))

theorem SameAscii.sameFold {s t : Text} (h : SameAscii s t) : SameFold s t := by
  have hfold (s : Text) : s.map fold = (s.map Char.toLower).map fold := by
    rw [List.map_map]
    exact List.map_congr_left fun c _ ↦ (Character.fold_toLower c).symm
  rw [SameFold, hfold s, hfold t, h]

/-- The words, in any ASCII case, stand between white space or at an end of the text. -/
def StandsIn (w p : Text) : Prop :=
  ∃ before v after, p = before ++ v ++ after ∧ SameAscii w v ∧
    (∀ c ∈ before.getLast?, isBlank c = true) ∧ ∀ c ∈ after.head?, isBlank c = true

theorem standsIn_self (h : SameAscii w p) : StandsIn w p :=
  ⟨[], p, [], by simp, h, by simp, by simp⟩

/-- Behind white space there is a word edge in front of word characters. -/
theorem edge_of_blank_iff (hbefore : ∀ c ∈ before.getLast?, isBlank c = true) (hv : v ≠ [])
    (after : Text) : Edge before (v ++ after) ↔ v.head?.any isWord = true := by
  obtain ⟨c, v, rfl⟩ := List.exists_cons_of_ne_nil hv
  exact Pattern.any_isWord_ne_iff hbefore

/-- In front of white space there is a word edge behind word characters. -/
theorem edge_blank_iff (hafter : ∀ c ∈ after.head?, isBlank c = true) (hv : v ≠ [])
    (before : Text) : Edge (before ++ v) after ↔ v.getLast?.any isWord = true := by
  rw [← edge_reverse_iff, List.reverse_append, edge_of_blank_iff, List.head?_reverse]
  · rwa [List.getLast?_reverse]
  · simpa using hv

/-- Where there is no stop word between word edges, none with word characters at both ends stands
between white space. -/
theorem FreeOf.not_standsIn {stops : List Text} (h : FreeOf stops p) (hw : w ∈ stops)
    (hne : w ≠ []) (hfirst : w.head?.any isWord = true) (hlast : w.getLast?.any isWord = true) :
    ¬ StandsIn w p := by
  rintro ⟨before, v, after, hsplit, hsame, hbefore, hafter⟩
  obtain ⟨hhead, hend⟩ := hsame.sameFold.any_ends Character.isWord_fold
  have hv : v ≠ [] := hsame.sameFold.ne_nil hne
  refine h before v after hsplit ⟨w, hw, hsame.sameFold⟩ ?_ ?_
  · rwa [edge_of_blank_iff hbefore hv, ← hhead]
  · rwa [edge_blank_iff hafter hv, ← hend]

/-- What stands in a tidy text is tidy, if it is the same as a tidy text but for case. -/
theorem Tidy.of_standing (hp : Tidy p) (hw : Tidy w) (hsplit : p = before ++ v ++ after)
    (hsame : SameFold w v) : Tidy v := by
  obtain ⟨hhead, hlast⟩ := hsame.any_ends Character.isBlank_fold
  refine ⟨fun c hc ↦ ?_, fun c hc ↦ ?_, fun c hc ↦ hp.space c (by simp [hsplit, hc])⟩
  · rw [Option.mem_def.1 hc, Option.any_some] at hhead
    rw [← hhead, Option.any_eq_false]
    exact fun d hd ↦ by simpa using hw.head d hd
  · rw [Option.mem_def.1 hc, Option.any_some] at hlast
    rw [← hlast, Option.any_eq_false]
    exact fun d hd ↦ by simpa using hw.last d hd

end Text

namespace Options

open Text (SameAscii StandsIn)

variable {o : Options} {w p v before after : Text}

/-- Does the text stand in no part of any input? -/
def Splits (o : Options) (w : Text) : Prop := ∀ s, ∀ p ∈ parts (o.normalize s), ¬ StandsIn w p

/-- **What stands in a plain text is plain**, if it is the same as a tidy text but for case. -/
theorem Plain.of_standing (hp : o.Plain p) (hw : Tidy w) (hne : w ≠ [])
    (hsplit : p = before ++ v ++ after) (hsame : SameFold w v)
    (hbefore : ∀ c ∈ before.getLast?, isBlank c = true)
    (hafter : ∀ c ∈ after.head?, isBlank c = true) : o.Plain v := by
  have hinside : v <:+: p := ⟨before, after, hsplit.symm⟩
  have hleft : before.getLast?.any isWord = false := Character.any_isWord_of_blank hbefore
  have hright : after.head?.any isWord = false := Character.any_isWord_of_blank hafter
  exact {
    ne_nil := hsame.ne_nil hne
    tidy := hp.tidy.of_standing hw hsplit hsame
    parted := hp.parted.infix hinside
    allowed := fun c hc ↦ hp.allowed c (hinside.subset hc)
    notStop := fun c hc ↦ hp.notStop c (hinside.subset hc)
    low := fun hlower c hc ↦ hp.low hlower c (hinside.subset hc)
    freeOf := (hsplit ▸ hp.freeOf).of_append hleft hright }

/-- **A tidy text stands in a part of some input exactly if it is a part of its own** when it is the
whole input, written in some case. -/
theorem splits_iff (hw : Tidy w) (hne : w ≠ []) :
    o.Splits w ↔ ∀ v, SameAscii w v → parts (o.normalize v) ≠ [v] := by
  constructor
  · intro h v hsame hparts
    exact h v v (by rw [hparts]; exact List.mem_singleton_self v) (Text.standsIn_self hsame)
  · rintro h s p hp ⟨before, v, after, hsplit, hsame, hbefore, hafter⟩
    have hplain : o.Plain v :=
      (plain_of_mem_parts hp).of_standing hw hne hsplit hsame.sameFold hbefore hafter
    refine h v hsame ?_
    rw [hplain.normalize_eq, hplain.parts_eq]

/-- No stop word stands between word edges in the only stop word, unless it has word characters at
both ends. -/
theorem freeOf_only_stop (h : ¬ (w.head?.any isWord = true ∧ w.getLast?.any isWord = true)) :
    FreeOf [w] w := by
  rintro before v after hsplit ⟨stop, hstop, hsame⟩ hleft hright
  obtain rfl := List.mem_singleton.1 hstop
  -- it is as long as the whole, so there is nothing on either side
  have hlength := congrArg List.length hsplit
  simp only [List.length_append, hsame.length_eq] at hlength
  obtain rfl : before = [] := List.length_eq_zero_iff.1 (by omega)
  obtain rfl : after = [] := List.length_eq_zero_iff.1 (by omega)
  rw [List.nil_append, List.append_nil] at hsplit
  subst hsplit
  by_cases hne : stop = []
  · rw [hne] at hleft
    exact hleft rfl
  · refine h ⟨?_, ?_⟩
    · rwa [Text.edge_of_blank_iff (by simp) hne] at hleft
    · rwa [Text.edge_blank_iff (by simp) hne] at hright

/-- **Which stop words always split.** A stop word stands in no part of any input, whatever its
case, unless there is a way to write it that is its own and only part. With word characters at both
ends it always splits. And if it is the only stop word, holds no full stop, and is left alone by the
passes before that for stop words, then it must have word characters at both ends for this. -/
theorem stop_word_splits_iff (o : Options) (stop : String) (hstop : stop ∈ o.stopWords)
    (hne : contract stop.toList ≠ []) :
    let w := contract stop.toList
    (o.Splits w ↔ ∀ v, SameAscii w v → parts (o.normalize v) ≠ [v]) ∧
    (w.head?.any isWord = true ∧ w.getLast?.any isWord = true → o.Splits w) ∧
    (o.stopWords = [stop] → o.withStopWords w = w → '.' ∉ w →
      (o.Splits w ↔ w.head?.any isWord = true ∧ w.getLast?.any isWord = true)) := by
  intro w
  have hw : Tidy w := Text.tidy_contract stop.toList
  have hmem : w ∈ o.stops := mem_stops_iff.2 ⟨hne, stop, hstop, rfl⟩
  have hends : w.head?.any isWord = true ∧ w.getLast?.any isWord = true → o.Splits w := by
    rintro ⟨hfirst, hlast⟩ s p hp
    exact (plain_of_mem_parts hp).freeOf.not_standsIn hmem hne hfirst hlast
  refine ⟨splits_iff hw hne, hends, fun honly hplain hdot ↦ ⟨fun hsplits ↦ ?_, hends⟩⟩
  by_contra hedge
  have hstops : o.stops = [w] := by
    rw [stops, honly, List.map_singleton, List.filter_cons_of_pos (by simpa using hne),
      List.filter_nil]
  have hfree : FreeOf o.stops w := hstops ▸ freeOf_only_stop hedge
  refine (splits_iff hw hne).1 hsplits w rfl ?_
  rw [normalize_eq, hplain, replaceStopWords_of_freeOf hfree, parts,
    List.splitOn_eq_singleton hdot, List.map_singleton, hw.trim_eq_self]
  simpa using hne

/-- A dash is a word of its own between spaces, and is not split at. The stop word `but` is. -/
theorem dash_does_not_split :
    let o : Options := { stopWords := ["-", "but"] }
    ¬ o.Splits "-".toList ∧
      parts (o.normalize "you - But not me".toList) = ["you -".toList, "not me".toList] ∧
      o.Splits "but".toList := by
  intro o
  obtain ⟨hdash, -⟩ := stop_word_splits_iff o "-" (by decide) (by decide)
  obtain ⟨-, hbut, -⟩ := stop_word_splits_iff o "but" (by decide) (by decide)
  refine ⟨fun h ↦ ?_, by decide +kernel, hbut (by decide +kernel)⟩
  exact hdash.1 h "-".toList rfl (by decide +kernel)

end Options

end Dialogue
