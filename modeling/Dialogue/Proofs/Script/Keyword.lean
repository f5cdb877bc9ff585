import Dialogue.Proofs.Character.Word
import Dialogue.Proofs.Pattern.WholeWord
import Dialogue.Proofs.Script.Building
import Dialogue.Proofs.Template.Split
import Dialogue.Proofs.Text.Tidy
import Mathlib.Data.List.Infix

/-!
# Keywords and their own text

Two patterns say where the text of a keyword stands: the pattern of the keyword, by which it is
found, and the pattern of a rule such as `* key *`, by which the input is then taken apart. They
agree as long as the text begins and ends with characters of words, or with such as `½` that ask for
a word edge without being part of a word. For all other texts they do not: the keyword is found with
white space around it, but beside a wildcard the rule asks for a word edge, and there is none
between white space and a symbol (`Keyword.decomposes_own_key_iff`).
-/

namespace Dialogue

open Character (isBlank isWord)
open Pattern (StandsAlone)
open Text (Tidy SameFold Edge)

/-! ## Compiled keywords -/

namespace Keyword

theorem tidy_parseName (declared : Text) : Tidy (parseName declared).1 := by
  have joined (ws : List Text) (h : ws ⊆ Text.words declared) : Tidy ([' '].intercalate ws) :=
    Text.tidy_intercalate fun w hw ↦ Text.nonblank_of_mem_words (h hw)
  rw [parseName]
  split
  · rename_i w rest rank hwords _
    exact joined _ fun v hv ↦ (List.dropLast_sublist _).subset (hwords ▸ hv)
  · exact joined _ fun _ hv ↦ hv

theorem tidy_afterMarker? {marker s t : Text} (hs : Tidy s) (h : afterMarker? marker s = some t) :
    Tidy t := by
  rw [afterMarker?, Option.ite_none_left_eq_some, Option.map_eq_some_iff] at h
  obtain ⟨-, rest, hrest, rfl⟩ := h
  exact hs.trimStart_suffix ⟨marker, List.isPrefixOf?_eq_some_iff_append_eq.1 hrest⟩

/-- What a compiled keyword is made of. -/
structure Compiled (markers : Template.Markers) (tags : Tags) (keyword : Keyword) : Prop where
  key_ne : keyword.key ≠ []
  tidy : Tidy keyword.key
  matcher : keyword.matcher = .wholeWord keyword.key
  pattern : ∀ rule ∈ keyword.rules, rule.pattern = Template.pattern markers tags rule.decomposition

theorem compiled_of_compile {library : Library} {options : Options} {tags : Tags}
    {declared : String} {body : Json} {position : Nat} {keyword : Keyword}
    (h : compile library options tags declared body position = .ok keyword) :
    Compiled (markers library options) tags keyword := by
  have htidy := tidy_parseName declared.toList
  replace h := declare_of_compile h
  rw [declare] at h
  generalize parseName declared.toList = p at htidy h
  obtain ⟨name, rank⟩ := p
  dsimp only at h
  have hkey : Tidy ((afterMarker? options.memoryMarker.toList name).getD name) := by
    cases hmarked : afterMarker? options.memoryMarker.toList name with
    | none => exact htidy
    | some key => exact tidy_afterMarker? htidy hmarked
  generalize afterMarker? options.memoryMarker.toList name = marked at hkey h
  cases hne : (marked.getD name).isEmpty with
  | true => simp [hne, bind, Except.bind, throw, throwThe, MonadExceptOf.throw] at h
  | false =>
    cases hbody : Body.ofJson declared body with
    | error defect => simp [hne, hbody, bind, Except.bind] at h
    | ok rules =>
      -- nothing else can fail, and each rule gets the pattern of its own decomposition
      simp only [hne, hbody, Bool.false_eq_true, if_false, bind, Except.bind, pure, Except.pure,
        Except.ok.injEq] at h
      subst h
      refine ⟨by simpa using hne, hkey, rfl, fun rule hrule ↦ ?_⟩
      obtain ⟨rule, -, rfl⟩ := List.mem_map.1 hrule
      rfl

end Keyword

/-! ## Text between two wildcards -/

namespace Template

/-- A template in which no tag stands is read as a text. -/
theorem reads_of_no_tag {markers : Markers} {tags : Tags} {run s : List Char} {ts : List Token}
    (h : ∀ t, t <:+ s → ∀ name after, ¬ TagAt markers.tag name after t)
    (hs : ReadsText markers.wildcard (run ++ s) ts) : Reads markers tags run s ts := by
  induction s generalizing run with
  | nil =>
    rw [List.append_nil] at hs
    exact .nil hs
  | cons c s ih =>
    refine .char (h _ (List.suffix_refl _)) (ih (fun t ht ↦ ?_) ?_)
    · exact h t (ht.trans (List.suffix_cons c s))
    · rwa [List.append_assoc]

/-- Behind a text that does not hold the marker, and a blank, the marker stands first at the end. -/
theorem length_le_of_marker_eq {marker key a b : List Char}
    (hblank : ∀ c ∈ marker, isBlank c = false) (hkey : ¬ marker <:+: key)
    (h : key ++ [' '] ++ marker = a ++ marker ++ b) : (key ++ [' ']).length ≤ a.length := by
  have hspace : ' ' ∉ marker := fun hm ↦ absurd (hblank _ hm) (by decide)
  rw [List.append_assoc, List.append_assoc] at h
  rcases List.append_eq_append_iff.1 h with ⟨m, rfl, hm⟩ | ⟨m, rfl, hm⟩
  · cases m with
    | nil =>
      -- the marker would start with the blank
      obtain ⟨c, marker, rfl⟩ : ∃ c rest, marker = c :: rest :=
        List.exists_cons_of_ne_nil (by rintro rfl; exact hkey (List.nil_infix))
      obtain ⟨rfl, -⟩ := List.cons_eq_cons.1 hm
      exact absurd List.mem_cons_self hspace
    | cons c m => simp
  · rcases List.append_eq_append_iff.1 hm with ⟨n, rfl, -⟩ | ⟨n, rfl, hn⟩
    · exact absurd ⟨a, n, List.append_assoc _ _ _⟩ hkey
    · cases n with
      | nil =>
        rw [List.append_nil] at hkey
        exact absurd (List.suffix_append a m).isInfix hkey
      | cons c n =>
        -- the marker would go on behind the text with the blank
        obtain ⟨rfl, -⟩ := List.cons_eq_cons.1 hn
        exact absurd (by simp) hspace

/-- A text between two wildcards is read as such. -/
theorem tokens_between {tag wildcard key : List Char} {tags : Tags}
    (hne : wildcard ≠ []) (hblank : ∀ c ∈ wildcard, isBlank c = false)
    (hkey : ¬ wildcard <:+: key) (hkey_ne : key ≠ []) (htidy : Tidy key)
    (htag : ∀ t, t <:+ wildcard ++ ' ' :: key ++ ' ' :: wildcard →
      ∀ name after, ¬ TagAt tag name after t) :
    tokens ⟨tag, wildcard⟩ tags (wildcard ++ ' ' :: key ++ ' ' :: wildcard) =
      [.wildcard, .text key, .wildcard] := by
  have htext : Text.trimEnd (key ++ [' ']) = key := by
    have hreverse : Text.trimStart key.reverse = key.reverse := by
      refine Text.trimStart_eq_self ?_
      rw [List.head?_reverse]
      exact htidy.last
    rw [Text.trimEnd, List.reverse_append, List.reverse_singleton, List.singleton_append,
      List.dropWhile_cons_of_pos rfl, ← Text.trimStart, hreverse, List.reverse_reverse]
  have htrim : Text.trimStart (' ' :: key ++ ' ' :: wildcard) =
      key ++ [' '] ++ wildcard ++ [] := by
    obtain ⟨c, key, rfl⟩ := List.exists_cons_of_ne_nil hkey_ne
    rw [Text.trimStart, List.cons_append, List.dropWhile_cons_of_pos rfl, ← Text.trimStart,
      Text.trimStart_eq_self (by simpa using htidy.head c rfl)]
    simp
  -- the wildcard at the end takes the blank before it, the one at the front the blank behind it
  have hend : ReadsText wildcard (Text.trimStart []) [] :=
    .plain (.inr fun h ↦ hne (List.infix_nil.1 h))
  have hsecond : ReadsText wildcard (key ++ [' '] ++ wildcard ++ [])
      (textToken (Text.trimEnd (key ++ [' '])) ++ [.wildcard]) :=
    .wildcard hne (fun a b h ↦ length_le_of_marker_eq hblank hkey (by simpa using h)) hend
  rw [htext, ← htrim, textToken, if_neg hkey_ne] at hsecond
  have hfirst : ReadsText wildcard ([] ++ wildcard ++ (' ' :: key ++ ' ' ::
      wildcard)) (textToken (Text.trimEnd []) ++ .wildcard :: ([.text key] ++ [.wildcard])) :=
    .wildcard hne (fun _ _ _ ↦ Nat.zero_le _) hsecond
  rw [show textToken (Text.trimEnd []) = [] from rfl] at hfirst
  refine (reads_iff.1 (reads_of_no_tag htag ?_)).symm
  simpa using hfirst

/-- Some text is split by a word between two wildcards. -/
theorem exists_splits_between_iff {key text : List Char} :
    (∃ xs, Splits [.wildcard, .text key, .wildcard] text xs) ↔
      ∃ before word after, text = before ++ word ++ after ∧ SameFold key word ∧ '\n' ∉ before ∧
        '\n' ∉ after ∧ Edge before (word ++ after) ∧ Edge (before ++ word) after := by
  simp only [splits_iff, splitsBehind_cons_iff, splitsBehind_nil_iff, Token.Fits]
  constructor
  · rintro ⟨_, before, _, _, rfl, rfl, hbefore, -, hleft, word, _, _, rfl, rfl, hsame, -, -,
      after, _, _, rfl, rfl, hafter, hright, -, rfl, rfl⟩
    refine ⟨before, word, after, by simp, hsame, hbefore, hafter, ?_, ?_⟩
    · simpa using hleft trivial (by simp)
    · simpa using hright trivial trivial
  · rintro ⟨before, word, after, rfl, hsame, hbefore, hafter, hleft, hright⟩
    refine ⟨_, before, word ++ after, [word, after], rfl, by simp, hbefore, by simp, fun _ _ ↦ ?_,
      word, after, [after], rfl, rfl, hsame, by simp, by simp, after, [], [], rfl, by simp, hafter,
      fun _ _ ↦ ?_, by simp, rfl, rfl⟩
    · simpa using hleft
    · simpa using hright

end Template

/-! ## The text of a keyword -/

namespace Keyword

/-- The character asks for a word edge beside it, or is part of a word. -/
def Joins (c : Char) : Prop := Pattern.bounds c = true ∨ isWord c = true

instance (c : Char) : Decidable (Joins c) := inferInstanceAs (Decidable (_ ∨ _))

/-- Where a key stands alone whose first character joins, there is a word edge before it. -/
theorem edge_of_standsAlone {key before word after : List Char}
    (h : StandsAlone key before word after) (hne : key ≠ []) (hjoins : ∀ c ∈ key.head?, Joins c) :
    Edge before (word ++ after) := by
  have hleft := h.left
  split at hleft
  · exact hleft
  · rename_i hbounds
    have hword : word.head?.any isWord = true := by
      obtain ⟨c, key, rfl⟩ := List.exists_cons_of_ne_nil hne
      rw [← (h.same.any_ends Character.isWord_fold).1]
      exact (hjoins c rfl).resolve_left hbounds
    rw [Edge, Character.any_isWord_of_blank hleft, List.head?_append]
    cases hhead : word.head? with
    | none => simp [hhead] at hword
    | some c => simpa [hhead] using hword

/-- Beside a key whose first character is no word character, there is a word edge only behind a
word character. -/
theorem not_edge_of_head {key x word y after : List Char} {c : Char} (hc : key.head? = some c)
    (hword : isWord c = false) (hafter : after.length ≤ 1) (h : key ++ after = x ++ word ++ y)
    (hsame : SameFold key word) : ¬ Edge x (word ++ y) := by
  obtain ⟨rest, rfl⟩ := List.head?_eq_some_iff.1 hc
  have hfirst : (word ++ y).head?.any isWord = false := by
    cases word with
    | nil => exact absurd hsame.length_eq (by simp)
    | cons d word => simpa [hword] using (hsame.any_ends Character.isWord_fold).1.symm
  -- the word is as long as the key, so at most one character is left before it
  have hlength : x.length ≤ 1 := by
    have := congrArg List.length h
    have := hsame.length_eq
    simp only [List.length_append] at *
    omega
  have hlast : x.getLast?.any isWord = false := by
    match x, hlength with
    | [], _ => rfl
    | [d], _ =>
      obtain ⟨rfl, -⟩ := List.cons_eq_cons.1 h
      exact hword
  rw [Edge, hfirst, hlast]
  exact fun hne ↦ hne rfl

/-- **A key whose first character does not join** stands alone in some text in which it does not
stand between word edges. -/
theorem exists_standsAlone_not_edge {key : List Char} {c : Char} (hc : key.head? = some c)
    (hjoins : ¬ Joins c) :
    ∃ after, '\n' ∉ after ∧ StandsAlone key [] key after ∧
      ∀ x word y, key ++ after = x ++ word ++ y → SameFold key word → ¬ Edge x (word ++ y) := by
  rw [Joins, not_or, Bool.not_eq_true, Bool.not_eq_true] at hjoins
  obtain ⟨hbounds, hword⟩ := hjoins
  have alone {after : List Char} (h : if key.getLast?.any Pattern.bounds then Edge key after
      else ∀ c ∈ after.head?, isBlank c = true) : StandsAlone key [] key after := by
    refine ⟨rfl, ?_, h⟩
    rw [hc, Option.any_some, hbounds]
    simp
  by_cases hlast : key.getLast?.any Pattern.bounds = true ∧ key.getLast?.any isWord = false
  · -- the end of the key asks for a word edge, and a letter behind it makes one
    refine ⟨['a'], by decide, alone ?_, fun x word y h hsame ↦ ?_⟩
    · rw [if_pos hlast.1, Edge, hlast.2]
      decide
    · exact not_edge_of_head hc hword (by simp) h hsame
  · refine ⟨[], by simp, alone ?_, fun x word y h hsame ↦ ?_⟩
    · split
      · rename_i hb
        have hword : key.getLast?.any isWord = true := by
          simpa using fun h ↦ hlast ⟨hb, h⟩
        rw [Edge, hword]
        decide
      · simp
    · exact not_edge_of_head hc hword (by simp) h hsame

variable {options : Options} {tags : Tags} {keyword : Keyword} {rule : Rule}

/-- **A keyword's own text between wildcards** fits every input in which the keyword is found,
exactly if both ends of the keyword join. -/
theorem decomposes_own_key_iff {library : Library} {declared : String} {body : Json}
    {position : Nat} (hcompile : compile library options tags declared body position = .ok keyword)
    (hbuilds : library.Builds (Template.wildcardExpression options.wildcardMarker.toList))
    (hrule : rule ∈ keyword.rules) (hne : options.wildcardMarker.toList ≠ [])
    (hblank : ∀ c ∈ options.wildcardMarker.toList, isBlank c = false)
    (hkey : ¬ options.wildcardMarker.toList <:+: keyword.key)
    (hdecomposition : rule.decomposition = options.wildcardMarker.toList ++ ' ' :: keyword.key ++
      ' ' :: options.wildcardMarker.toList)
    (htag : ∀ t ∈ rule.decomposition.tails,
      Template.tagAt? options.tagMarker.toList t = none) :
    (∀ part : Text, '\n' ∉ part → keyword.isIn part = true → (rule.decompose part).isSome = true) ↔
      ∀ c, keyword.key.head? = some c ∨ keyword.key.getLast? = some c → Joins c := by
  obtain ⟨hkey_ne, htidy, hmatcher, hpattern⟩ := compiled_of_compile hcompile
  have hdecompose (part : Text) : (rule.decompose part).isSome = true ↔
      ∃ before word after, part = before ++ word ++ after ∧ SameFold keyword.key word ∧
        '\n' ∉ before ∧ '\n' ∉ after ∧ Edge before (word ++ after) ∧
          Edge (before ++ word) after := by
    rw [Rule.decompose, hpattern rule hrule, markers_of_builds hbuilds,
      Template.isSome_capture?_pattern_iff, hdecomposition,
      Template.tokens_between hne hblank hkey hkey_ne htidy, Template.exists_splits_between_iff]
    intro t ht
    refine Template.tagAt?_eq_none_iff.1 ?_
    split
    · exact htag t ((List.mem_tails _ _).2 (hdecomposition ▸ ht))
    · rfl
  have hisIn (part : Text) : keyword.isIn part = true ↔ ∃ before word after,
      part = before ++ word ++ after ∧ StandsAlone keyword.key before word after := by
    rw [isIn, hmatcher, Pattern.occursIn_wholeWord_iff]
  constructor
  · -- a character that does not join has a text in which the key stands alone without edges
    intro h c hc
    by_contra hjoins
    rcases hc with hc | hc
    · obtain ⟨after, hline, halone, hnot⟩ := exists_standsAlone_not_edge hc hjoins
      have hsome := h (keyword.key ++ after) (by simp [htidy.notMem_lineFeed, hline])
        ((hisIn _).2 ⟨[], keyword.key, after, rfl, halone⟩)
      obtain ⟨x, word, y, heq, hsame, -, -, hedge, -⟩ := (hdecompose _).1 hsome
      exact hnot x word y heq hsame hedge
    · -- the same for the text read from its end
      rw [← List.head?_reverse] at hc
      obtain ⟨before, hline, halone, hnot⟩ := exists_standsAlone_not_edge hc hjoins
      have halone := halone.reverse
      rw [List.reverse_reverse] at halone
      have hsome := h (before.reverse ++ keyword.key) (by simp [htidy.notMem_lineFeed, hline])
        ((hisIn _).2 ⟨before.reverse, keyword.key, [], by simp, halone⟩)
      obtain ⟨x, word, y, heq, hsame, -, -, -, hedge⟩ := (hdecompose _).1 hsome
      refine hnot y.reverse word.reverse x.reverse ?_ hsame.reverse ?_
      · have := congrArg List.reverse heq
        simpa using this
      · rwa [← List.reverse_append, Text.edge_reverse_iff]
  · intro hjoins part hline hfound
    obtain ⟨before, word, after, rfl, halone⟩ := (hisIn part).1 hfound
    simp only [List.mem_append, not_or] at hline
    refine (hdecompose _).2
      ⟨before, word, after, rfl, halone.same, hline.1.1, hline.2, ?_, ?_⟩
    · exact edge_of_standsAlone halone hkey_ne fun c hc ↦ hjoins c (.inl hc)
    · have := edge_of_standsAlone halone.reverse (by simpa using hkey_ne)
        fun c hc ↦ hjoins c (.inr (by rwa [List.head?_reverse] at hc))
      rwa [← List.reverse_append, Text.edge_reverse_iff] at this

/-- A smiley is found, but a rule for the smiley between wildcards does not take the input apart. -/
theorem smiley_found_not_decomposed :
    ∃ keyword rule,
      compile .boundless { allowEmoji := true } [] "😀" (.object [("* 😀 *", .string "ok")]) 0 =
        .ok keyword ∧
      rule ∈ keyword.rules ∧ keyword.isIn "i am 😀 today".toList = true ∧
      rule.decompose "i am 😀 today".toList = none ∧
      ¬ ∀ part : Text, '\n' ∉ part → keyword.isIn part = true →
        (rule.decompose part).isSome = true := by
  have hcompile : compile .boundless { allowEmoji := true } [] "😀"
      (.object [("* 😀 *", .string "ok")]) 0 =
        .ok ⟨['😀'], 0, false, [⟨"* 😀 *".toList, Template.pattern ⟨['#'], ['*']⟩ [] "* 😀 *".toList,
          ["ok".toList], false⟩], 0, .wholeWord ['😀']⟩ := by
    decide +kernel
  have hblank : ∀ c ∈ "*".toList, isBlank c = false := by
    simp only [String.reduceToList, List.mem_singleton, forall_eq]
    decide
  refine ⟨_, _, hcompile, List.mem_cons_self, by decide +kernel, by decide +kernel, fun h ↦ ?_⟩
  have hjoins : Joins '😀' := (decomposes_own_key_iff hcompile rfl List.mem_cons_self
    (by decide +kernel) hblank (by decide +kernel) (by decide +kernel) (by decide +kernel)).1
      h '😀' (.inl rfl)
  exact absurd hjoins (by decide +kernel)

end Keyword

end Dialogue
