import Dialogue.Proofs.Authoring.Commas
import Dialogue.Proofs.Json.LooseCommas

/-!
# Which commas are tolerated

Commas before closing brackets are dropped by a scan over the characters, before anything is known
about the document. The scan looks for quotes and backslashes only; the tokenizer walks over the
same characters with more care. Where both are at the same character they agree on whether it
stands in a string (`exists_steps`), so what the scan drops are the loose commas among the tokens,
for every text and not only for those that are documents (`tokens?_dropTrailingCommas_eq`).

What an authored text is read as is then a matter of grammar. A text is read exactly if, without
its comments and its wrapper, it is derived with one comma tolerated before each closing bracket
(`reads_iff_derives_forgiving`); any other comma that is out of place, a second one in a row for
instance, makes it unreadable. One might expect that the comma has to stand behind an item or a
member, but the scan does not ask for one: the brackets of `[,]` may be empty.
-/

namespace Dialogue.Authoring

open Json (Mode Token bareToken? closesNext dropLoose isBare markToken? start? tokens? tokensFrom?)

/-! ## The scan and the tokenizer -/

/-- The place of the scan where the tokenizer is in some mode. -/
def placeIn : Mode → Place
  | .between | .bare _ => .outside
  | .quoted _ | .hex .. => .inside
  | .escape _ => .escaped

/-- Is the token a string, a numeral or a word? -/
def isWord : Token → Bool
  | .null | .bool _ | .number _ | .string _ => true
  | _ => false

/-- The mark that a character is, unless it stands in a string. -/
def marksAt (place : Place) (c : Char) : List Token :=
  if place = .outside then (markToken? c).toList else []

theorem ne_comma_of_isWord {token : Token} (h : isWord token = true) : token ≠ .comma := by
  rintro rfl
  exact Bool.false_ne_true h

theorem isClosing_of_isWord {token : Token} (h : isWord token = true) :
    token.isClosing = false := by
  cases token with
  | closeArray | closeObject => exact absurd h Bool.false_ne_true
  | _ => rfl

theorem isWord_of_bareToken? {run : Text} {token : Token} (h : bareToken? run = some token) :
    isWord token = true := by
  revert h
  fun_cases bareToken? run with
  | case1 | case2 | case3 =>
    rintro ⟨⟩
    rfl
  | case4 =>
    intro h
    obtain ⟨n, -, rfl⟩ := Option.map_eq_some_iff.1 h
    rfl

theorem next_outside {c : Char} (h : c ≠ '"') : Place.outside.next c = .outside := by
  simp [Place.next, h]

theorem next_inside {c : Char} (hquote : c ≠ '"') (hbackslash : c ≠ '\\') :
    Place.inside.next c = .inside := by
  simp [Place.next, hquote, hbackslash]

theorem markToken?_of_isBare {c : Char} (h : isBare c = true) : markToken? c = none := by
  refine Option.eq_none_iff_forall_ne_some.2 fun token hmark ↦ ?_
  rw [Json.isBare_of_markToken? hmark] at h
  exact Bool.false_ne_true h

theorem isClosing_iff_of_markToken? {c : Char} {token : Token} (h : markToken? c = some token) :
    token.isClosing = true ↔ c = ']' ∨ c = '\x7d' := by
  rw [Json.markToken?.eq_def] at h
  split at h
  case h_7 => exact absurd h (Option.some_ne_none token).symm
  all_goals
    obtain rfl := Option.some.inj h
    decide

theorem eq_comma_of_markToken? {c : Char} (h : markToken? c = some .comma) : c = ',' := by
  rw [Json.markToken?.eq_def] at h
  split at h <;> simp_all

/-- What the tokenizer does at a character: it completes some words, perhaps, and reads the mark
that the character is. In the midst of a word it completes one, or it stays in the midst. -/
structure Steps (mode : Mode) (c : Char) (words : List Token) (next : Mode) : Prop where
  place : placeIn next = (placeIn mode).next c
  isWord : ∀ token ∈ words, isWord token = true
  between : marksAt (placeIn mode) c ≠ [] → next = .between
  midst : mode ≠ .between → words = [] → marksAt (placeIn mode) c = [] ∧ next ≠ .between

theorem steps_of_start? {c : Char} {read : List Token} {next : Mode}
    (h : start? c = some (read, next)) :
    read = marksAt .outside c ∧ placeIn next = Place.outside.next c ∧
      (marksAt .outside c ≠ [] → next = .between) := by
  rw [marksAt, if_pos rfl]
  rcases Json.start?_cases h with ⟨token, hc⟩ | rfl | hc | hc
  · obtain ⟨rfl, rfl⟩ := Prod.mk.inj (Option.some.inj ((Json.start?_of_markToken? hc).symm.trans h))
    have hquote : c ≠ '"' := by
      rintro rfl
      exact absurd hc (Option.some_ne_none token).symm
    rw [hc, next_outside hquote]
    exact ⟨rfl, rfl, fun _ ↦ rfl⟩
  · obtain ⟨rfl, rfl⟩ := Prod.mk.inj (Option.some.inj h)
    exact ⟨rfl, rfl, fun hmark ↦ absurd rfl hmark⟩
  · obtain ⟨rfl, rfl⟩ := Prod.mk.inj (Option.some.inj ((Json.start?_of_isSpace hc).symm.trans h))
    rcases Json.isSpace_iff.1 hc with rfl | rfl | rfl | rfl <;> exact ⟨rfl, rfl, fun _ ↦ rfl⟩
  · obtain ⟨rfl, rfl⟩ := Prod.mk.inj (Option.some.inj ((Json.start?_of_isBare hc).symm.trans h))
    have hquote : c ≠ '"' := by
      rintro rfl
      exact absurd hc (by decide)
    rw [markToken?_of_isBare hc, next_outside hquote]
    exact ⟨rfl, rfl, fun hmark ↦ absurd rfl hmark⟩

/-- Within a string a character may complete nothing. -/
theorem exists_steps_within {mode next : Mode} {c : Char} (hmode : placeIn mode ≠ .outside)
    (hnext : placeIn next ≠ .outside) (hplace : placeIn next = (placeIn mode).next c) :
    ∃ words, [] = words ++ marksAt (placeIn mode) c ∧ Steps mode c words next := by
  have hmarks : marksAt (placeIn mode) c = [] := if_neg hmode
  have hbetween : next ≠ .between := by
    rintro rfl
    exact hnext rfl
  exact ⟨[], hmarks.symm, hplace, List.forall_mem_nil _, fun hne ↦ absurd hmarks hne,
    fun _ _ ↦ ⟨hmarks, hbetween⟩⟩

theorem exists_steps {mode next : Mode} {c : Char} {read : List Token}
    (h : mode.step? c = some (read, next)) :
    ∃ words, read = words ++ marksAt (placeIn mode) c ∧ Steps mode c words next := by
  cases mode with
  | between =>
    obtain ⟨hread, hplace, hbetween⟩ := steps_of_start? h
    exact ⟨[], hread, hplace, List.forall_mem_nil _, hbetween, fun hne ↦ absurd rfl hne⟩
  | bare run =>
    by_cases hc : isBare c = true
    · rw [Mode.step?, if_pos hc] at h
      obtain ⟨rfl, rfl⟩ := Prod.mk.inj (Option.some.inj h)
      have hquote : c ≠ '"' := by
        rintro rfl
        exact absurd hc (by decide)
      have hmark : marksAt .outside c = [] := by
        rw [marksAt, if_pos rfl, markToken?_of_isBare hc]
        rfl
      exact ⟨[], hmark.symm, (next_outside hquote).symm, List.forall_mem_nil _,
        fun hne ↦ absurd hmark hne, fun _ _ ↦ ⟨hmark, Mode.noConfusion⟩⟩
    · rw [Mode.step?, if_neg hc] at h
      obtain ⟨token, htoken, h⟩ := Option.bind_eq_some_iff.1 h
      obtain ⟨⟨marks, mode⟩, hstart, h⟩ := Option.bind_eq_some_iff.1 h
      obtain ⟨rfl, rfl⟩ := Prod.mk.inj (Option.some.inj h)
      obtain ⟨rfl, hplace, hbetween⟩ := steps_of_start? hstart
      refine ⟨[token], rfl, hplace, ?_, hbetween, fun _ hnil ↦ absurd hnil (List.cons_ne_nil _ _)⟩
      exact List.forall_mem_singleton.2 (isWord_of_bareToken? htoken)
  | quoted units =>
    by_cases hquote : c = '"'
    · subst hquote
      obtain ⟨rfl, rfl⟩ := Prod.mk.inj (Option.some.inj h)
      exact ⟨[_], rfl, rfl, List.forall_mem_singleton.2 rfl, fun hne ↦ absurd rfl hne,
        fun _ hnil ↦ absurd hnil (List.cons_ne_nil _ _)⟩
    · by_cases hbackslash : c = '\\'
      · subst hbackslash
        obtain ⟨rfl, rfl⟩ := Prod.mk.inj (Option.some.inj h)
        exact exists_steps_within Place.noConfusion Place.noConfusion rfl
      · rw [Mode.step?_quoted units hquote hbackslash] at h
        split at h
        · exact absurd h (Option.some_ne_none _).symm
        · obtain ⟨rfl, rfl⟩ := Prod.mk.inj (Option.some.inj h)
          exact exists_steps_within Place.noConfusion Place.noConfusion
            (next_inside hquote hbackslash).symm
  | escape units =>
    by_cases hu : c = 'u'
    · subst hu
      obtain ⟨rfl, rfl⟩ := Prod.mk.inj (Option.some.inj h)
      exact exists_steps_within Place.noConfusion Place.noConfusion rfl
    · rw [Mode.step?_escape units hu, Option.map_eq_some_iff] at h
      obtain ⟨d, -, h⟩ := h
      obtain ⟨rfl, rfl⟩ := Prod.mk.inj h
      exact exists_steps_within Place.noConfusion Place.noConfusion rfl
  | hex units missing code =>
    rw [Mode.step?_hex, Option.map_eq_some_iff] at h
    obtain ⟨digit, hdigit, h⟩ := h
    obtain ⟨rfl, rfl⟩ := Prod.mk.inj h
    have hne {d : Char} (hd : Json.hexDigit? d = none) : c ≠ d := by
      rintro rfl
      exact Option.some_ne_none digit (hdigit.symm.trans hd)
    have hplace := (next_inside (hne rfl) (hne rfl)).symm
    cases missing with
    | zero => exact exists_steps_within Place.noConfusion Place.noConfusion hplace
    | succ missing => exact exists_steps_within Place.noConfusion Place.noConfusion hplace

/-- In the midst of a word, the word is what is completed next. -/
theorem exists_word_of_tokensFrom? {mode : Mode} {s : Text} {tokens : List Token}
    (hmode : mode ≠ .between) (h : tokensFrom? mode s = some tokens) :
    ∃ word rest, tokens = word :: rest ∧ isWord word = true := by
  induction s generalizing mode tokens with
  | nil =>
    rw [tokensFrom?] at h
    cases mode with
    | between => exact absurd rfl hmode
    | bare run =>
      obtain ⟨word, hword, rfl⟩ := Option.map_eq_some_iff.1 h
      exact ⟨word, [], rfl, isWord_of_bareToken? hword⟩
    | _ => exact absurd h (Option.some_ne_none _).symm
  | cons c s ih =>
    rw [Json.tokensFrom?_cons, Option.bind_eq_some_iff] at h
    obtain ⟨⟨read, next⟩, hstep, h⟩ := h
    obtain ⟨rest, hrest, rfl⟩ := Option.map_eq_some_iff.1 h
    obtain ⟨words, rfl, hsteps⟩ := exists_steps hstep
    rcases words with _ | ⟨word, words⟩
    · obtain ⟨hmarks, hnext⟩ := hsteps.midst hmode rfl
      obtain ⟨word, rest, rfl, hword⟩ := ih hnext hrest
      exact ⟨word, rest, by rw [hmarks]; rfl, hword⟩
    · exact ⟨word, _, rfl, hsteps.isWord word List.mem_cons_self⟩

theorem closesNext_of_isWord {word : Token} (h : isWord word = true) (rest : List Token) :
    closesNext (word :: rest) = false := isClosing_of_isWord h

/-- The scan sees a closing bracket coming where it is the next token. -/
theorem closes_eq {s : Text} {tokens : List Token} (h : tokens? s = some tokens) :
    closes s = closesNext tokens := by
  induction s generalizing tokens with
  | nil =>
    obtain rfl := Option.some.inj h
    rfl
  | cons c s ih =>
    obtain ⟨read, hstart, -⟩ := Json.exists_step?_of_isSome (Option.isSome_iff_exists.2 ⟨_, h⟩)
    have hword (next : Mode) (hnext : next ≠ .between) (hstart : start? c = some ([], next))
        (hc : Solid c) (hbracket : ¬ (c = ']' ∨ c = '\x7d')) :
        closes (c :: s) = closesNext tokens := by
      rw [Json.tokens?_cons_of_start? hstart] at h
      obtain ⟨word, rest, rfl, hword⟩ := exists_word_of_tokensFrom? hnext h
      rw [closesNext_of_isWord hword, ← Bool.not_eq_true, closes_cons hc.not_blank]
      exact hbracket
    rcases Json.start?_cases hstart with ⟨token, hc⟩ | rfl | hc | hc
    · rw [Json.tokens?_mark hc] at h
      obtain ⟨rest, -, rfl⟩ := Option.map_eq_some_iff.1 h
      rw [Bool.eq_iff_iff, closes_cons (solid_of_markToken? hc).not_blank]
      exact (isClosing_iff_of_markToken? hc).symm
    · exact hword (.quoted []) Mode.noConfusion rfl ⟨rfl, by decide, by decide⟩ (by decide)
    · rw [Json.tokens?_cons_of_isSpace hc] at h
      have hblank : Text.Blank [c] := List.forall_mem_singleton.2 (isBlank_of_isSpace hc)
      rw [← List.singleton_append, closes_append_of_blank hblank, ih h]
    · refine hword (.bare [c]) Mode.noConfusion (Json.start?_of_isBare hc) (solid_of_isBare hc) ?_
      rintro (rfl | rfl) <;> exact absurd hc (by decide)

theorem dropLoose_append {words : List Token} (hwords : ∀ token ∈ words, isWord token = true)
    (tokens : List Token) : dropLoose (words ++ tokens) = words ++ dropLoose tokens := by
  induction words with
  | nil => rfl
  | cons word words ih =>
    rw [List.forall_mem_cons] at hwords
    rw [List.cons_append, Json.dropLoose_cons (ne_comma_of_isWord hwords.1), ih hwords.2,
      List.cons_append]

/-- A mark stays, if it is no comma before a closing bracket. -/
theorem dropLoose_marksAt {place : Place} {c : Char} {tokens : List Token}
    (h : place = .outside → c = ',' → closesNext tokens = false) :
    dropLoose (marksAt place c ++ tokens) = marksAt place c ++ dropLoose tokens := by
  rw [marksAt]
  split
  · next hplace =>
    rcases hmark : markToken? c with _ | token
    · rfl
    · rw [Option.toList_some, List.singleton_append, dropLoose, if_neg, List.singleton_append]
      rintro ⟨rfl, hcloses⟩
      exact Bool.false_ne_true ((h hplace (eq_comma_of_markToken? hmark)).symm.trans hcloses)
  · rfl

/-- Outside of strings, what is being read ends where no bare character comes next. -/
theorem tokensFrom?_outside {mode : Mode} {s : Text} (hmode : placeIn mode = .outside)
    (hs : ∀ c ∈ s.head?, isBare c = false) :
    tokensFrom? mode s =
      mode.finish?.bind fun words ↦ (tokens? s).map (words ++ ·) := by
  cases mode with
  | between =>
    change tokens? s = (tokens? s).map ([] ++ ·)
    exact (Option.map_id_apply).symm
  | bare run =>
    have hread := @Json.tokensFrom?_bare run [] s (List.forall_mem_nil _) hs
    rw [List.nil_append, List.append_nil] at hread
    rw [hread, Mode.finish?, Option.bind_map]
    rfl
  | _ => exact Place.noConfusion hmode

theorem isWord_of_finish? {mode : Mode} {words : List Token} (h : mode.finish? = some words) :
    ∀ token ∈ words, isWord token = true := by
  cases mode with
  | between =>
    obtain rfl := Option.some.inj h
    exact List.forall_mem_nil _
  | bare run =>
    obtain ⟨word, hword, rfl⟩ := Option.map_eq_some_iff.1 h
    exact List.forall_mem_singleton.2 (isWord_of_bareToken? hword)
  | _ => exact absurd h (Option.some_ne_none _).symm

theorem not_isBare_of_closes {s : Text} (h : closes s = true) :
    ∀ c ∈ s.head?, isBare c = false := by
  intro c hc
  obtain ⟨s, rfl⟩ := List.head?_eq_some_iff.1 hc
  rw [← Bool.not_eq_true]
  intro hbare
  rcases (closes_cons (solid_of_isBare hbare).not_blank s).1 h with rfl | rfl <;>
    exact absurd hbare (by decide)

/-- Before a closing bracket the tokenizer can do without a comma, if it is dropped later. -/
theorem map_dropLoose_comma {mode : Mode} {s : Text} (hmode : placeIn mode = .outside)
    (hs : closes s = true) :
    (tokensFrom? mode (',' :: s)).map dropLoose = (tokensFrom? mode s).map dropLoose := by
  have hcomma : ∀ c ∈ (',' :: s).head?, isBare c = false := by
    rintro c ⟨⟩
    rfl
  rw [tokensFrom?_outside hmode hcomma, tokensFrom?_outside hmode (not_isBare_of_closes hs)]
  rcases hwords : mode.finish? with _ | words
  · rfl
  · rw [Option.bind_some, Option.bind_some, Json.tokens?_mark rfl]
    rcases htokens : tokens? s with _ | tokens
    · rfl
    · have hnext : closesNext tokens = true := (closes_eq htokens).symm.trans hs
      simp only [Option.map_some]
      rw [dropLoose_append (isWord_of_finish? hwords), dropLoose_append (isWord_of_finish? hwords),
        dropLoose, if_pos ⟨rfl, hnext⟩]

/-- **The scan drops the loose commas**, wherever in a text it begins. -/
theorem tokensFrom?_dropCommasFrom (mode : Mode) (s : Text) :
    tokensFrom? mode (dropCommasFrom (placeIn mode) s) = (tokensFrom? mode s).map dropLoose := by
  induction s generalizing mode with
  | nil =>
    rw [dropCommasFrom, tokensFrom?]
    rcases hwords : mode.finish? with _ | words
    · rfl
    · have hkept := dropLoose_append (isWord_of_finish? hwords) []
      rw [List.append_nil, dropLoose, List.append_nil] at hkept
      rw [Option.map_some, hkept]
  | cons c s ih =>
    rw [dropCommasFrom]
    split
    · next hdropped =>
      rw [Bool.and_eq_true, Bool.and_eq_true, beq_iff_eq, beq_iff_eq] at hdropped
      obtain ⟨⟨hplace, rfl⟩, hcloses⟩ := hdropped
      rw [map_dropLoose_comma hplace hcloses, ← ih, hplace]
    · next hkept =>
      rw [Json.tokensFrom?_cons, Json.tokensFrom?_cons]
      rcases hstep : mode.step? c with _ | ⟨read, next⟩
      · rfl
      · obtain ⟨words, rfl, hsteps⟩ := exists_steps hstep
        rw [Option.bind_some, Option.bind_some, ← hsteps.place, ih]
        rcases htokens : tokensFrom? next s with _ | tokens
        · rfl
        · simp only [Option.map_some]
          rw [List.append_assoc, List.append_assoc, dropLoose_append hsteps.isWord,
            dropLoose_marksAt]
          -- a comma that is kept has no closing bracket behind it
          rintro hplace rfl
          have hmarks : marksAt (placeIn mode) ',' ≠ [] := by
            rw [marksAt, if_pos hplace]
            exact List.cons_ne_nil _ _
          obtain rfl := hsteps.between hmarks
          rw [← closes_eq htokens, ← Bool.not_eq_true]
          intro hcloses
          exact hkept (by rw [hplace, hcloses]; rfl)

/-- The tokens of a text without trailing commas are its tokens without the loose commas. -/
theorem tokens?_dropTrailingCommas_eq (s : Text) :
    tokens? (dropTrailingCommas s) = (tokens? s).map dropLoose :=
  tokensFrom?_dropCommasFrom .between s

/-! ## What an authored text is read as -/

/-- **One comma is tolerated before each closing bracket.** An authored text is read as a value
exactly if, without its comments and its wrapper, it is derived with such commas, and what is
derived has this value. -/
theorem reads_iff_derives_forgiving (s : String) (value : Json) :
    read? s = some value ↔
      ∃ tokens form, tokens? (unwrap (blankComments s.toList)) = some tokens ∧
        Json.Derives .forgiving (.value form) tokens ∧
        form.value? Json.maxDepth = some value := by
  rw [read?, Json.read?, Json.Form.read?, String.toList_ofList, clean,
    tokens?_dropTrailingCommas_eq]
  simp only [Json.derives_forgiving_iff, Option.bind_eq_bind, Option.bind_eq_some_iff,
    Option.map_eq_some_iff]
  constructor
  · rintro ⟨form, ⟨-, ⟨tokens, htokens, rfl⟩, hform⟩, hvalue⟩
    exact ⟨tokens, form, htokens, hform, hvalue⟩
  · rintro ⟨tokens, form, htokens, hform, hvalue⟩
    exact ⟨form, ⟨_, ⟨tokens, htokens, rfl⟩, hform⟩, hvalue⟩

/-- A comma is tolerated where no item stands before it. -/
theorem comma_in_empty_array_is_read :
    read? "[,]" = some (.array []) ∧
      ¬ ∃ tokens form, tokens? (unwrap (blankComments "[,]".toList)) = some tokens ∧
        Json.Derives .afterLast (.value form) tokens := by
  have hclean : clean "[,]".toList = ['[', ']'] := by decide +kernel
  have htokens : tokens? (unwrap (blankComments "[,]".toList)) =
      some [.openArray, .comma, .closeArray] := by decide +kernel
  constructor
  · have hform : Json.Form.read? (String.ofList ['[', ']']) = some (.array []) := by
      rw [Json.Form.read?, String.toList_ofList]
      rfl
    rw [read?, hclean, Json.read?, hform]
    simp [Json.Form.value?, Json.maxDepth]
  · rintro ⟨tokens, form, hsome, h⟩
    have hlist := Option.some.inj (htokens.symm.trans hsome)
    cases h with
    | emptyArray hslack =>
      rw [Json.slack_false_iff.1 hslack] at hlist
      exact absurd hlist (by simp)
    | array hitems =>
      obtain ⟨token, rest, rfl, htoken⟩ := Json.exists_cons_of_derives hitems
      exact htoken (List.cons.inj (List.cons.inj hlist).2).1.symm
    | _ => exact absurd hlist (by simp)

end Dialogue.Authoring
