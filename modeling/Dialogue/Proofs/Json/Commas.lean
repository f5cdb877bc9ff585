import Dialogue.Json.Reader
import Mathlib.Data.List.Chain

/-!
# Commas of a document

Behind a comma a document goes on with a value or a name. So a comma never stands right before a
closing bracket, which is what makes it possible to leave such commas out of an authored text.
-/

namespace Dialogue.Json

/-- Is the token a closing bracket? -/
def Token.isClosing : Token → Bool
  | closeArray | closeObject => true
  | _ => false

/-- No comma stands right before a closing bracket. -/
def NoLooseComma (tokens : List Token) : Prop :=
  tokens.IsChain fun token next ↦ token = .comma → next.isClosing = false

/-- No closing bracket comes right behind a comma. -/
theorem Expecting.step?_of_step?_comma {e next : Expecting} {token : Token}
    (h : e.step? .comma = some next) (htoken : token.isClosing = true) :
    next.step? token = none := by
  have hclosing : token = .closeArray ∨ token = .closeObject := by
    cases token <;> simp_all [Token.isClosing]
  cases e with
  | more stack v =>
    rcases stack with _ | ⟨frame, stack⟩
    · exact absurd h (Option.some_ne_none _).symm
    · cases frame <;>
        · obtain rfl := Option.some.inj h
          rcases hclosing with rfl | rfl <;> rfl
  | _ => exact absurd h (Option.some_ne_none _).symm

theorem noLooseComma_of_foldlM {tokens : List Token} {e last : Expecting}
    (h : tokens.foldlM Expecting.step? e = some last) : NoLooseComma tokens := by
  induction tokens generalizing e with
  | nil => exact .nil
  | cons token tokens ih =>
    obtain ⟨e', hstep, hrest⟩ := Option.bind_eq_some_iff.1 h
    cases tokens with
    | nil => exact .singleton _
    | cons next tokens =>
      refine .cons_cons ?_ (ih hrest)
      rintro rfl
      obtain ⟨e'', hnext, -⟩ := Option.bind_eq_some_iff.1 hrest
      rw [← Bool.not_eq_true]
      intro hclosing
      rw [Expecting.step?_of_step?_comma hstep hclosing] at hnext
      exact absurd hnext (Option.some_ne_none _).symm

/-- **The tokens of a document hold no loose comma.** -/
theorem noLooseComma_of_ofTokens? {tokens : List Token} {form : Form}
    (h : Form.ofTokens? tokens = some form) : NoLooseComma tokens := by
  obtain ⟨last, hfold, -⟩ := Option.bind_eq_some_iff.1 h
  exact noLooseComma_of_foldlM hfold

/-- What can be read has tokens, at least one, and among them no loose comma. -/
theorem exists_tokens_of_read? {s : String} {document : Json} (h : Json.read? s = some document) :
    ∃ tokens, tokens? s.toList = some tokens ∧ tokens ≠ [] ∧ NoLooseComma tokens := by
  obtain ⟨form, hform, -⟩ := Option.bind_eq_some_iff.1 h
  obtain ⟨tokens, htokens, hform⟩ := Option.bind_eq_some_iff.1 hform
  refine ⟨tokens, htokens, ?_, noLooseComma_of_ofTokens? hform⟩
  rintro rfl
  exact absurd hform (Option.some_ne_none form).symm

/-- Texts with the same tokens are the same document. -/
theorem read?_congr {s t : String} (h : tokens? s.toList = tokens? t.toList) :
    Json.read? s = Json.read? t := by
  rw [Json.read?, Json.read?, Form.read?, Form.read?, h]

end Dialogue.Json
