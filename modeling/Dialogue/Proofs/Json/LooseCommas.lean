import Dialogue.Proofs.Json.Grammar

/-!
# Commas before closing brackets

A grammar that tolerates a comma before every closing bracket derives the same forms from the
tokens as the strict one does from those that are left when these commas are dropped
(`derives_forgiving_iff`). This needs an argument, for dropping looks at two tokens at a time and
knows of no grammar.

Both sides are compared with a third: tokens with commas put in (`Inserted`). The forgiving grammar
derives what the strict one derives before commas are put in, by the shape of the derivation.
Dropping takes out just these commas, because no comma of a document stands before a closing
bracket. And where a comma is left over, say the first of two in a row, the strict grammar derives
nothing.
-/

namespace Dialogue.Json

/-- Does a closing bracket come first? -/
def closesNext (tokens : List Token) : Bool := tokens.head?.any Token.isClosing

/-- The tokens without the commas before closing brackets. -/
def dropLoose : List Token → List Token
  | [] => []
  | token :: tokens =>
    if token = .comma ∧ closesNext tokens = true then dropLoose tokens
    else token :: dropLoose tokens

/-- The second tokens are the first, with a comma put in before some of the closing brackets. -/
inductive Inserted : List Token → List Token → Prop where
  | nil : Inserted [] []
  | keep (token : Token) {tokens loose : List Token} :
      Inserted tokens loose → Inserted (token :: tokens) (token :: loose)
  | comma {bracket : Token} {tokens loose : List Token} :
      bracket.isClosing = true → Inserted tokens loose →
        Inserted (bracket :: tokens) (.comma :: bracket :: loose)

theorem Inserted.append {tokens tokens' loose loose' : List Token} (h : Inserted tokens loose)
    (h' : Inserted tokens' loose') : Inserted (tokens ++ tokens') (loose ++ loose') := by
  induction h with
  | nil => exact h'
  | keep token _ ih => exact .keep token ih
  | comma hclosing _ ih => exact .comma hclosing ih

theorem Inserted.exists_of_append {tokens tokens' loose : List Token}
    (h : Inserted (tokens ++ tokens') loose) :
    ∃ front back, loose = front ++ back ∧ Inserted tokens front ∧ Inserted tokens' back := by
  induction tokens generalizing loose with
  | nil => exact ⟨[], loose, rfl, .nil, h⟩
  | cons token tokens ih =>
    cases h with
    | keep _ h =>
      obtain ⟨front, back, rfl, hfront, hback⟩ := ih h
      exact ⟨token :: front, back, rfl, .keep token hfront, hback⟩
    | comma hclosing h =>
      obtain ⟨front, back, rfl, hfront, hback⟩ := ih h
      exact ⟨.comma :: token :: front, back, rfl, .comma hclosing hfront, hback⟩

/-- A token that is no closing bracket has nothing put in before it. -/
theorem Inserted.exists_of_cons {token : Token} {tokens loose : List Token}
    (htoken : token.isClosing = false) (h : Inserted (token :: tokens) loose) :
    ∃ rest, loose = token :: rest ∧ Inserted tokens rest := by
  cases h with
  | keep _ h => exact ⟨_, rfl, h⟩
  | comma hclosing => exact absurd (htoken.symm.trans hclosing) Bool.false_ne_true

theorem Inserted.refl (tokens : List Token) : Inserted tokens tokens := by
  induction tokens with
  | nil => exact .nil
  | cons token tokens ih => exact .keep token ih

theorem ne_comma_of_isClosing {token : Token} (h : token.isClosing = true) : token ≠ .comma := by
  rintro rfl
  exact Bool.false_ne_true h

theorem dropLoose_cons {token : Token} (h : token ≠ .comma) (tokens : List Token) :
    dropLoose (token :: tokens) = token :: dropLoose tokens := by
  rw [dropLoose, if_neg fun hcomma ↦ h hcomma.1]

theorem inserted_dropLoose (tokens : List Token) : Inserted (dropLoose tokens) tokens := by
  fun_induction dropLoose tokens with
  | case1 => exact .nil
  | case2 token tokens h ih =>
    obtain ⟨rfl, hcloses⟩ := h
    rcases tokens with _ | ⟨bracket, tokens⟩
    · exact absurd hcloses Bool.false_ne_true
    · have hclosing : bracket.isClosing = true := hcloses
      have hne := ne_comma_of_isClosing hclosing
      rw [dropLoose_cons hne] at ih ⊢
      cases ih with
      | keep _ hrest => exact .comma hclosing hrest
      | comma => exact absurd rfl hne
  | case3 token tokens h ih => exact .keep token ih

theorem Inserted.closesNext_eq {tokens loose : List Token} (h : Inserted tokens loose)
    (hloose : closesNext loose = true) : closesNext tokens = true := by
  cases h with
  | nil | keep => exact hloose
  | comma hclosing => exact hclosing

/-- Where no comma stood before a closing bracket, dropping takes out what was put in. -/
theorem dropLoose_of_inserted {tokens loose : List Token} (h : Inserted tokens loose)
    (hchain : NoLooseComma tokens) : dropLoose loose = tokens := by
  induction h with
  | nil => rfl
  | @keep token tokens loose h ih =>
    have hkept : ¬ (token = .comma ∧ closesNext loose = true) := by
      rintro ⟨rfl, hcloses⟩
      have hcloses := h.closesNext_eq hcloses
      rcases tokens with _ | ⟨next, tokens⟩
      · exact Bool.false_ne_true hcloses
      · have hopen := (List.isChain_cons_cons.1 hchain).1 rfl
        exact absurd (hopen.symm.trans hcloses) Bool.false_ne_true
    rw [dropLoose, if_neg hkept, ih hchain.tail]
  | @comma bracket tokens loose hclosing h ih =>
    rw [dropLoose, if_pos ⟨rfl, hclosing⟩, dropLoose_cons (ne_comma_of_isClosing hclosing),
      ih hchain.tail]

theorem Inserted.eq_singleton {token : Token} {loose : List Token}
    (htoken : token.isClosing = false) (h : Inserted [token] loose) : loose = [token] := by
  obtain ⟨rest, rfl, hrest⟩ := h.exists_of_cons htoken
  cases hrest
  rfl

theorem inserted_singleton_iff {bracket : Token} (hclosing : bracket.isClosing = true)
    {loose : List Token} :
    Inserted [bracket] loose ↔ ∃ slack, Slack true slack ∧ loose = slack ++ [bracket] := by
  constructor
  · intro h
    cases h with
    | keep _ h =>
      cases h
      exact ⟨[], .none, rfl⟩
    | comma _ h =>
      cases h
      exact ⟨[.comma], .comma rfl, rfl⟩
  · rintro ⟨slack, _ | _, rfl⟩
    · exact .keep bracket .nil
    · exact .comma hclosing .nil

/-- Commas that are put in are tolerated. -/
theorem derives_forgiving_of_inserted {phrase : Phrase} {tokens loose : List Token}
    (h : Derives .strict phrase tokens) (hloose : Inserted tokens loose) :
    Derives .forgiving phrase loose := by
  induction h generalizing loose with
  | null =>
    rw [hloose.eq_singleton rfl]
    exact .null
  | bool b =>
    rw [hloose.eq_singleton rfl]
    exact .bool b
  | number n =>
    rw [hloose.eq_singleton rfl]
    exact .number n
  | string text =>
    rw [hloose.eq_singleton rfl]
    exact .string text
  | emptyArray hslack =>
    rw [slack_false_iff.1 hslack] at hloose
    obtain ⟨rest, rfl, hrest⟩ := hloose.exists_of_cons rfl
    obtain ⟨slack, hslack, rfl⟩ := (inserted_singleton_iff rfl).1 hrest
    exact .emptyArray hslack
  | array _ hslack ih =>
    rw [slack_false_iff.1 hslack] at hloose
    obtain ⟨rest, rfl, hrest⟩ := hloose.exists_of_cons rfl
    obtain ⟨front, back, rfl, hfront, hback⟩ := hrest.exists_of_append
    obtain ⟨slack, hslack, rfl⟩ := (inserted_singleton_iff rfl).1 hback
    exact .array (ih hfront) hslack
  | emptyObject hslack =>
    rw [slack_false_iff.1 hslack] at hloose
    obtain ⟨rest, rfl, hrest⟩ := hloose.exists_of_cons rfl
    obtain ⟨slack, hslack, rfl⟩ := (inserted_singleton_iff rfl).1 hrest
    exact .emptyObject hslack
  | object _ hslack ih =>
    rw [slack_false_iff.1 hslack] at hloose
    obtain ⟨rest, rfl, hrest⟩ := hloose.exists_of_cons rfl
    obtain ⟨front, back, rfl, hfront, hback⟩ := hrest.exists_of_append
    obtain ⟨slack, hslack, rfl⟩ := (inserted_singleton_iff rfl).1 hback
    exact .object (ih hfront) hslack
  | lastItem _ ih => exact .lastItem (ih hloose)
  | item _ _ ihfirst ihrest =>
    obtain ⟨first, back, rfl, hfirst, hback⟩ := hloose.exists_of_append
    obtain ⟨rest, rfl, hrest⟩ := hback.exists_of_cons rfl
    exact .item (ihfirst hfirst) (ihrest hrest)
  | lastMember name _ ih =>
    obtain ⟨_, rfl, hcolon⟩ := hloose.exists_of_cons rfl
    obtain ⟨rest, rfl, hrest⟩ := hcolon.exists_of_cons rfl
    exact .lastMember name (ih hrest)
  | member name _ _ ihfirst ihrest =>
    obtain ⟨_, rfl, hcolon⟩ := hloose.exists_of_cons rfl
    obtain ⟨_, rfl, hmembers⟩ := hcolon.exists_of_cons rfl
    obtain ⟨first, back, rfl, hfirst, hback⟩ := hmembers.exists_of_append
    obtain ⟨rest, rfl, hrest⟩ := hback.exists_of_cons rfl
    exact .member name (ihfirst hfirst) (ihrest hrest)

theorem inserted_of_slack {tolerated : Bool} {slack : List Token} (h : Slack tolerated slack)
    {bracket : Token} (hclosing : bracket.isClosing = true) :
    Inserted [bracket] (slack ++ [bracket]) := by
  refine (inserted_singleton_iff hclosing).2 ⟨slack, ?_, rfl⟩
  cases h with
  | none => exact .none
  | comma => exact .comma rfl

/-- What is derived with some tolerance is derived without, apart from commas that are put in. -/
theorem exists_strict_of_derives {tolerance : Tolerance} {phrase : Phrase} {loose : List Token}
    (h : Derives tolerance phrase loose) :
    ∃ tokens, Derives .strict phrase tokens ∧ Inserted tokens loose := by
  induction h with
  | null => exact ⟨_, .null, .refl _⟩
  | bool b => exact ⟨_, .bool b, .refl _⟩
  | number n => exact ⟨_, .number n, .refl _⟩
  | string text => exact ⟨_, .string text, .refl _⟩
  | emptyArray hslack =>
    exact ⟨_, .emptyArray .none, .keep _ (inserted_of_slack hslack rfl)⟩
  | array _ hslack ih =>
    obtain ⟨tokens, htokens, hinserted⟩ := ih
    exact ⟨_, .array htokens .none, .keep _ (hinserted.append (inserted_of_slack hslack rfl))⟩
  | emptyObject hslack =>
    exact ⟨_, .emptyObject .none, .keep _ (inserted_of_slack hslack rfl)⟩
  | object _ hslack ih =>
    obtain ⟨tokens, htokens, hinserted⟩ := ih
    exact ⟨_, .object htokens .none, .keep _ (hinserted.append (inserted_of_slack hslack rfl))⟩
  | lastItem _ ih =>
    obtain ⟨tokens, htokens, hinserted⟩ := ih
    exact ⟨tokens, .lastItem htokens, hinserted⟩
  | item _ _ ihfirst ihrest =>
    obtain ⟨first, hfirst, hfirst'⟩ := ihfirst
    obtain ⟨rest, hrest, hrest'⟩ := ihrest
    exact ⟨_, .item hfirst hrest, hfirst'.append (.keep _ hrest')⟩
  | lastMember name _ ih =>
    obtain ⟨tokens, htokens, hinserted⟩ := ih
    exact ⟨_, .lastMember name htokens, .keep _ (.keep _ hinserted)⟩
  | member name _ _ ihfirst ihrest =>
    obtain ⟨first, hfirst, hfirst'⟩ := ihfirst
    obtain ⟨rest, hrest, hrest'⟩ := ihrest
    exact ⟨_, .member name hfirst hrest, .keep _ (.keep _ (hfirst'.append (.keep _ hrest')))⟩

/-- **Commas before closing brackets.** The forgiving grammar derives from tokens what the strict
one derives when the commas before closing brackets are dropped. -/
theorem derives_forgiving_iff {tokens : List Token} {form : Form} :
    Derives .forgiving (.value form) tokens ↔ Form.ofTokens? (dropLoose tokens) = some form := by
  constructor
  · intro h
    obtain ⟨strict, hstrict, hinserted⟩ := exists_strict_of_derives h
    have hform := Form.ofTokens?_eq_some_iff.2 hstrict
    rw [dropLoose_of_inserted hinserted (noLooseComma_of_ofTokens? hform), hform]
  · intro h
    exact derives_forgiving_of_inserted (Form.ofTokens?_eq_some_iff.1 h) (inserted_dropLoose tokens)

end Dialogue.Json
