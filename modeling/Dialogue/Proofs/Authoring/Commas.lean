import Dialogue.Proofs.Authoring.Wrapper
import Dialogue.Proofs.Json.Commas

/-!
# Taking out the commas

A comma is dropped if a closing bracket comes next, and commas inside strings are no commas. In a
text that is loosened by white space only, the commas dropped are those put in: none of the document
stands before a closing bracket, and one put in always does. So the tokens of the document are left.
-/

namespace Dialogue.Authoring

open Character (isBlank)
open Json (Apart Lexeme NoLooseComma Quoted isBare tokens?)
open Text

variable {document s t : Text}

/-! ## What is dropped -/

theorem closes_append_of_blank {gap : Text} (h : Blank gap) (s : Text) :
    closes (gap ++ s) = closes s := by
  rw [closes, trimStart_append_of_blank h, closes]

theorem closes_cons {c : Char} (hc : isBlank c = false) (s : Text) :
    closes (c :: s) = true ↔ c = ']' ∨ c = '\x7d' := by
  rw [closes, trimStart_cons hc]
  simp

theorem dropTrailingCommas_cons {c : Char} (hcomma : c ≠ ',') (hquote : c ≠ '"') (s : Text) :
    dropTrailingCommas (c :: s) = c :: dropTrailingCommas s := by
  simp [dropTrailingCommas, dropCommasFrom, Place.next, hcomma, hquote]

theorem dropTrailingCommas_comma (s : Text) :
    dropTrailingCommas (',' :: s) =
      if closes s then dropTrailingCommas s else ',' :: dropTrailingCommas s := by
  simp [dropTrailingCommas, dropCommasFrom, Place.next]

theorem dropTrailingCommas_append_of_forall {u : Text} (hu : ∀ c ∈ u, c ≠ ',' ∧ c ≠ '"')
    (s : Text) : dropTrailingCommas (u ++ s) = u ++ dropTrailingCommas s := by
  induction u with
  | nil => rfl
  | cons c u ih =>
    rw [List.forall_mem_cons] at hu
    rw [List.cons_append, dropTrailingCommas_cons hu.1.1 hu.1.2, ih hu.2, List.cons_append]

/-- In a string everything stays, up to the closing quote. -/
theorem dropCommasFrom_quoted {l : Text} (hl : Quoted l) (s : Text) :
    dropCommasFrom .inside (l ++ s) = l ++ dropTrailingCommas s := by
  induction hl with
  | close => rfl
  | char hquote hbackslash _ _ ih => simp [dropCommasFrom, Place.next, hquote, hbackslash, ih]
  | escape _ _ ih => simp [dropCommasFrom, Place.next, ih]

/-- A lexeme stays unless it is a comma. -/
theorem dropTrailingCommas_lexeme {l : Text} (hl : Lexeme l) (hcomma : l ≠ [',']) (s : Text) :
    dropTrailingCommas (l ++ s) = l ++ dropTrailingCommas s := by
  cases hl with
  | @mark c token hc =>
    refine dropTrailingCommas_append_of_forall ?_ s
    intro d hd
    obtain rfl := List.mem_singleton.1 hd
    refine ⟨fun h ↦ hcomma (h ▸ rfl), ?_⟩
    rintro rfl
    exact absurd hc (Option.some_ne_none token).symm
  | @string l hl =>
    have hopen : dropTrailingCommas ('"' :: (l ++ s)) =
        '"' :: dropCommasFrom .inside (l ++ s) := rfl
    rw [List.cons_append, hopen, dropCommasFrom_quoted hl, List.cons_append]
  | bare hrun =>
    refine dropTrailingCommas_append_of_forall ?_ s
    intro d hd
    have hd := hrun d hd
    constructor <;>
      · rintro rfl
        exact absurd hd (by decide)

theorem dropTrailingCommas_spaces {gap : Text} (hgap : Spaces gap) (s : Text) :
    dropTrailingCommas (gap ++ s) = gap ++ dropTrailingCommas s := by
  refine dropTrailingCommas_append_of_forall ?_ s
  intro c hc
  have hc := hgap c hc
  constructor <;>
    · rintro rfl
      exact absurd hc (by decide)

/-- If what is left begins with a bare character, it has done so before. -/
theorem head?_dropTrailingCommas {d : Char} (hd : d ∈ (dropTrailingCommas s).head?)
    (hbare : isBare d = true) : d ∈ s.head? := by
  have hne {c : Char} (hc : isBare c = false) : d ≠ c := by
    rintro rfl
    exact absurd hbare (by rw [hc]; exact Bool.false_ne_true)
  rcases s with _ | ⟨c, s⟩
  · exact hd
  · by_cases hcomma : c = ','
    · subst hcomma
      rw [dropTrailingCommas_comma] at hd
      split at hd
      · rename_i hcloses
        -- behind the comma stands white space or a bracket
        rcases s with _ | ⟨e, s⟩
        · exact absurd hcloses (by decide)
        · have he : isBlank e = true ∨ e = ']' ∨ e = '\x7d' := by
            rcases hblank : isBlank e with _ | _
            · exact .inr ((closes_cons hblank s).1 hcloses)
            · exact .inl rfl
          have hnot : e ≠ ',' ∧ e ≠ '"' := by
            constructor <;>
              · rintro rfl
                revert he
                decide
          rw [dropTrailingCommas_cons hnot.1 hnot.2] at hd
          obtain rfl := Option.some.inj hd
          rcases he with he | he | he
          · exact absurd he (by rw [(solid_of_isBare hbare).not_blank]; exact Bool.false_ne_true)
          · exact absurd he (hne rfl)
          · exact absurd he (hne rfl)
      · exact absurd (Option.some.inj hd).symm (hne rfl)
    · by_cases hquote : c = '"'
      · subst hquote
        exact hd
      · rw [dropTrailingCommas_cons hcomma hquote] at hd
        exact hd

theorem apart_dropTrailingCommas {l : Text} (h : Apart l s) : Apart l (dropTrailingCommas s) := by
  intro c hc d hd hbare
  rw [← Bool.not_eq_true]
  intro hbare'
  have hd' := h c hc d (head?_dropTrailingCommas hd hbare') hbare
  exact absurd hbare' (by rw [hd']; exact Bool.false_ne_true)

/-! ## The tokens are left -/

theorem exists_isClosing_of_bracket {bracket : Char} (h : bracket = ']' ∨ bracket = '\x7d') :
    ∃ token, Json.markToken? bracket = some token ∧ token.isClosing = true := by
  rcases h with rfl | rfl
  · exact ⟨.closeArray, rfl, rfl⟩
  · exact ⟨.closeObject, rfl, rfl⟩

/-- Where a text closes, its document does. -/
theorem isClosing_of_closes (h : Loosened Spaces document s) (hs : closes s = true) :
    ∀ tokens, tokens? document = some tokens →
      ∃ token rest, tokens = token :: rest ∧ token.isClosing = true := by
  induction h with
  | nil => exact absurd hs (by decide)
  | tighten hc _ ih =>
    rw [Json.tokens?_cons_of_isSpace hc]
    exact ih hs
  | loosen hbetween _ ih =>
    rw [closes_append_of_blank (blank_of_spaces hbetween)] at hs
    exact ih hs
  | lexeme hl =>
    obtain ⟨c, u, rfl, hc⟩ := exists_cons_of_lexeme hl
    have hbracket := (closes_cons hc.not_blank _).1 hs
    obtain ⟨token, hmark, hclosing⟩ := exists_isClosing_of_bracket hbracket
    have hu : u = [] := by
      cases hl with
      | mark => rfl
      | string => exact absurd hbracket (by decide)
      | bare hrun =>
        have hbare := hrun c List.mem_cons_self
        rw [Json.isBare_of_markToken? hmark] at hbare
        exact absurd hbare Bool.false_ne_true
    subst hu
    intro tokens htokens
    rw [List.singleton_append, Json.tokens?_mark hmark, Option.map_eq_some_iff] at htokens
    obtain ⟨rest, -, rfl⟩ := htokens
    exact ⟨token, rest, rfl, hclosing⟩
  | comma => exact absurd ((closes_cons solid_comma.not_blank _).1 hs) (by decide)

/-- **Without its loose commas a text has the tokens of the document.** -/
theorem tokens?_dropTrailingCommas (h : Loosened Spaces document s) :
    ∀ tokens, tokens? document = some tokens → NoLooseComma tokens →
      tokens? (dropTrailingCommas s) = some tokens := by
  induction h with
  | nil => exact fun _ htokens _ ↦ htokens
  | tighten hc _ ih =>
    rw [Json.tokens?_cons_of_isSpace hc]
    exact ih
  | loosen hbetween _ ih =>
    rw [dropTrailingCommas_spaces hbetween, Json.tokens?_append_of_isSpace hbetween]
    exact ih
  | @lexeme l s t hl hs ht hrest ih =>
    intro tokens htokens hchain
    rw [hl.tokens?_append hs, Option.bind_eq_some_iff] at htokens
    obtain ⟨first, hfirst, htokens⟩ := htokens
    rw [Option.map_eq_some_iff] at htokens
    obtain ⟨rest, hrest', rfl⟩ := htokens
    have hdrop : dropTrailingCommas (l ++ t) = l ++ dropTrailingCommas t := by
      by_cases hcomma : l = [',']
      · subst hcomma
        obtain rfl := Option.some.inj hfirst
        -- a comma of the document would stand before a closing bracket
        have hcloses : closes t ≠ true := by
          intro hcloses
          obtain ⟨token, rest, rfl, hclosing⟩ := isClosing_of_closes hrest hcloses _ hrest'
          have hopen := (List.isChain_cons_cons.1 hchain).1 rfl
          rw [hopen] at hclosing
          exact absurd hclosing Bool.false_ne_true
        rw [List.singleton_append, dropTrailingCommas_comma, if_neg hcloses]
        rfl
      · exact dropTrailingCommas_lexeme hl hcomma t
    rw [hdrop, hl.tokens?_append (apart_dropTrailingCommas ht), hfirst,
      ih rest hrest' hchain.right_of_append]
    rfl
  | @comma bracket between s t hbracket hbetween _ ih =>
    obtain ⟨token, hmark, -⟩ := exists_isClosing_of_bracket hbracket
    intro tokens htokens hchain
    rw [Json.tokens?_mark hmark, Option.map_eq_some_iff] at htokens
    obtain ⟨rest, hrest, rfl⟩ := htokens
    have hclosed : closes (between ++ bracket :: t) = true := by
      rw [closes_append_of_blank (blank_of_spaces hbetween)]
      exact (closes_cons (solid_bracket hbracket).not_blank t).2 hbracket
    have hdrop : dropTrailingCommas (bracket :: t) = bracket :: dropTrailingCommas t := by
      rcases hbracket with rfl | rfl <;> exact dropTrailingCommas_cons (by decide) (by decide) t
    rw [dropTrailingCommas_comma, if_pos hclosed, dropTrailingCommas_spaces hbetween, hdrop,
      Json.tokens?_append_of_isSpace hbetween, Json.tokens?_mark hmark,
      ih rest hrest hchain.tail]
    rfl

end Dialogue.Authoring
