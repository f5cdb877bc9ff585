import Dialogue.Authoring
import Dialogue.Proofs.Json.Lexeme
import Dialogue.Proofs.Text.Blank

/-!
# The liberties of the authoring format

An authored text has the lexemes of a document, one for one and in the same order. Between them it
may have other white space and lines that are comments, and a comma may stand before a closing
bracket. Around it there may be an `export default`, and semicolons at the end.

`Loosened` says this by walking over the document and the text side by side. It is stated for any
kind of gaps, since the gaps are what changes when the comments are taken out.
-/

namespace Dialogue.Authoring

open Character (isBlank)
open Json (isSpace Lexeme Apart tokens?)
open Text (Blank)

/-- White space and comments. A comment has a line to itself, and the line feeds on either side
belong to it. -/
inductive Gap (space : Char → Bool) : Text → Prop
  | nil : Gap space []
  | space {c : Char} {s : Text} : space c = true → Gap space s → Gap space (c :: s)
  | comment {indent words s : Text} :
      Blank indent → '\n' ∉ indent → '\n' ∉ words → Gap space s →
        Gap space ('\n' :: (indent ++ '/' :: '/' :: (words ++ '\n' :: s)))

/-- White space of a document. -/
def Spaces (s : Text) : Prop := ∀ c ∈ s, isSpace c = true

/-- The second text has the lexemes of the first, with gaps of some kind between them, and it may
have a comma before a closing bracket. -/
inductive Loosened (gap : Text → Prop) : Text → Text → Prop
  | nil : Loosened gap [] []
  /-- White space of the document may be left out. -/
  | tighten {c : Char} {s t : Text} :
      isSpace c = true → Loosened gap s t → Loosened gap (c :: s) t
  /-- A gap may be put in. -/
  | loosen {between s t : Text} :
      gap between → Loosened gap s t → Loosened gap s (between ++ t)
  /-- A lexeme stays. -/
  | lexeme {l s t : Text} :
      Lexeme l → Apart l s → Apart l t → Loosened gap s t → Loosened gap (l ++ s) (l ++ t)
  /-- A comma, and perhaps a gap, may be put in front of a closing bracket. -/
  | comma {bracket : Char} {between s t : Text} :
      bracket = ']' ∨ bracket = '\x7d' → gap between → Loosened gap s t →
        Loosened gap (bracket :: s) (',' :: (between ++ bracket :: t))

/-- What may stand in front of a document. -/
inductive Heading (gap : Text → Prop) : Text → Prop
  | none : Heading gap []
  | exported {front between behind : Text} :
      gap front → gap between → between ≠ [] → gap behind → behind ≠ [] →
        Heading gap (front ++ "export".toList ++ between ++ "default".toList ++ behind)

/-- What may stand behind a document. -/
inductive Ending (gap : Text → Prop) : Text → Prop
  | semicolons {before behind : Text} (n : Nat) :
      gap before → gap behind → Ending gap (before ++ List.replicate n ';' ++ behind)

/-! ## Lexemes are solid -/

/-- The character is not white space, and neither a comment nor a run of semicolons begins with
it. -/
structure Solid (c : Char) : Prop where
  not_blank : isBlank c = false
  ne_slash : c ≠ '/'
  ne_semicolon : c ≠ ';'

theorem isBlank_of_isSpace {c : Char} (h : isSpace c = true) : isBlank c = true := by
  rcases Json.isSpace_iff.1 h with rfl | rfl | rfl | rfl <;> rfl

theorem solid_of_isBare {c : Char} (h : Json.isBare c = true) : Solid c := by
  obtain ⟨hblank, hslash, hsemicolon⟩ := @Character.forall_ascii
    (fun c ↦ Json.isBare c = true → isBlank c = false ∧ c ≠ '/' ∧ c ≠ ';')
    (by decide +kernel) c (Json.isBare_lt h) h
  exact ⟨hblank, hslash, hsemicolon⟩

theorem solid_of_markToken? {c : Char} {token : Json.Token} (h : Json.markToken? c = some token) :
    Solid c := by
  rw [Json.markToken?.eq_def] at h
  split at h
  case h_7 => exact absurd h (Option.some_ne_none token).symm
  all_goals exact ⟨rfl, by decide, by decide⟩

theorem solid_bracket {c : Char} (h : c = ']' ∨ c = '\x7d') : Solid c := by
  rcases h with rfl | rfl <;> exact ⟨rfl, by decide, by decide⟩

theorem solid_comma : Solid ',' := ⟨rfl, by decide, by decide⟩

/-- A lexeme begins with a solid character. -/
theorem exists_cons_of_lexeme {l : Text} (h : Lexeme l) : ∃ c rest, l = c :: rest ∧ Solid c := by
  cases h with
  | mark hc => exact ⟨_, _, rfl, solid_of_markToken? hc⟩
  | string hs => exact ⟨_, _, rfl, ⟨rfl, by decide, by decide⟩⟩
  | bare hrun => exact ⟨_, _, rfl, solid_of_isBare (hrun _ List.mem_cons_self)⟩

/-- A lexeme ends with a solid character. -/
theorem solid_of_getLast? {l : Text} (h : Lexeme l) : ∀ c ∈ l.getLast?, Solid c := by
  intro c hc
  cases h with
  | mark hmark =>
    obtain rfl := Option.some.inj hc
    exact solid_of_markToken? hmark
  | string hs =>
    rw [List.getLast?_cons, hs.getLast?_eq] at hc
    obtain rfl := Option.some.inj hc
    exact ⟨rfl, by decide, by decide⟩
  | bare hrun => exact solid_of_isBare (hrun c (List.mem_of_getLast? hc))

theorem exists_append_of_lexeme {l : Text} (h : Lexeme l) :
    ∃ init c, l = init ++ [c] ∧ Solid c := by
  have hne : l ≠ [] := List.ne_nil_of_length_pos h.length_pos
  exact ⟨l.dropLast, l.getLast hne, (List.dropLast_concat_getLast hne).symm,
    solid_of_getLast? h _ (List.getLast?_eq_some_getLast hne)⟩

/-- A lexeme stays on one line. -/
theorem notMem_lineFeed_of_lexeme {l : Text} (h : Lexeme l) : '\n' ∉ l := by
  cases h with
  | mark hc =>
    rw [List.mem_singleton]
    rintro rfl
    exact absurd (solid_of_markToken? hc).not_blank (by decide)
  | string hs =>
    refine List.not_mem_cons_of_ne_of_not_mem (by decide) ?_
    induction hs with
    | close => decide
    | char _ _ hc _ ih => exact List.not_mem_cons_of_ne_of_not_mem hc.symm ih
    | escape hc _ ih =>
      refine List.not_mem_cons_of_ne_of_not_mem (by decide) ?_
      exact List.not_mem_cons_of_ne_of_not_mem hc.symm ih
  | bare hrun =>
    intro hmem
    exact absurd (solid_of_isBare (hrun _ hmem)).not_blank (by decide)

/-! ## A document is an authored text -/

/-- **A document is an authored text.** It may be left as it is. -/
theorem loosened_refl {gap : Text → Prop} (hgap : ∀ c, isSpace c = true → gap [c]) (s : Text)
    (h : (tokens? s).isSome) : Loosened gap s s := by
  cases s with
  | nil => exact .nil
  | cons c s =>
    rcases Json.exists_lexeme h with ⟨hc, hs⟩ | ⟨l, rest, hsplit, hl, hapart, hrest⟩
    · have ih := loosened_refl hgap s hs
      exact .tighten hc (.loosen (hgap c hc) ih)
    · have hlength : rest.length < (c :: s).length := by
        have := hl.length_pos
        rw [hsplit, List.length_append]
        omega
      rw [hsplit]
      exact .lexeme hl hapart hapart (loosened_refl hgap rest hrest)
termination_by s.length

end Dialogue.Authoring
