import Dialogue.Proofs.Authoring.Commas

/-!
# Reading authored texts

The three steps of cleaning each take back one liberty: the comments, the wrapper and the commas.
What is left has the tokens of the document, so it is read as the document.
-/

namespace Dialogue.Authoring

open Character (isBlank)
open Json (isSpace tokens?)
open Text (Blank trim)

/-- A text that takes the liberties of the authoring format has the tokens of the document once it
is clean. -/
theorem tokens?_clean {document heading body ending : Text} {tokens : List Json.Token}
    (htokens : tokens? document = some tokens) (hne : tokens ≠ [])
    (hchain : Json.NoLooseComma tokens) (hheading : Heading (Gap isBlank) heading)
    (hbody : Loosened (Gap isSpace) document body) (hending : Ending (Gap isBlank) ending) :
    tokens? (clean (heading ++ body ++ ending)) = some tokens := by
  obtain ⟨heading', body', ending', hheading', hbody', hending', hblank⟩ :=
    blankComments_authored hheading hbody hending
  have hunwrap : unwrap (heading' ++ body' ++ ending') = trim body' :=
    unwrap_eq htokens hne hheading' hbody' hending'
  rw [clean, hblank, hunwrap]
  exact tokens?_dropTrailingCommas (loosened_trim hbody') tokens htokens hchain

/-- **The liberties of the authoring format do not change what a text means.** Whatever a document
is, a text that takes them is read as the document, and so is the document itself. -/
theorem reads_as_document {document : String} {value : Json}
    (h : Json.read? document = some value) :
    (∀ heading body ending : Text, Heading (Gap isBlank) heading →
      Loosened (Gap isSpace) document.toList body → Ending (Gap isBlank) ending →
        read? (String.ofList (heading ++ body ++ ending)) = some value) ∧
    read? document = some value := by
  obtain ⟨tokens, htokens, hne, hchain⟩ := Json.exists_tokens_of_read? h
  have hauthored : ∀ heading body ending : Text, Heading (Gap isBlank) heading →
      Loosened (Gap isSpace) document.toList body → Ending (Gap isBlank) ending →
        read? (String.ofList (heading ++ body ++ ending)) = some value := by
    intro heading body ending hheading hbody hending
    have hclean := tokens?_clean htokens hne hchain hheading hbody hending
    rw [read?, String.toList_ofList, ← h]
    refine Json.read?_congr ?_
    rw [String.toList_ofList, hclean, htokens]
  refine ⟨hauthored, ?_⟩
  -- a document takes no liberties
  have hsame : Loosened (Gap isSpace) document.toList document.toList :=
    loosened_refl (fun _ hc ↦ .space hc .nil) _ (htokens ▸ rfl)
  have hnothing : Ending (Gap isBlank) [] := @Ending.semicolons _ [] [] 0 .nil .nil
  have hread := hauthored [] document.toList [] .none hsame hnothing
  rwa [List.nil_append, List.append_nil, String.ofList_toList] at hread

/-- A string, a comment and a comma that is put in. The first two hold what could be mistaken. -/
theorem commented_reads_as_document :
    let document := "[\",]\"]"
    let value := Json.array [.string ",]"]
    Json.read? document = some value ∧
      read? "export default [\",]\"\n //\"]\n,\n] ;;" = some value := by
  intro document value
  have hlist : document.toList = ['['] ++ (['"', ',', ']', '"'] ++ [']']) := String.toList_ofList
  have htokens : tokens? document.toList =
      some [.openArray, .string (some ",]"), .closeArray] := by rw [hlist]; decide +kernel
  have hform : Json.Form.read? document = some (.array [.string (some ",]")]) := by
    rw [Json.Form.read?, htokens]
    rfl
  have hdocument : Json.read? document = some value := by
    rw [Json.read?, hform]
    simp [Json.Form.value?, Json.maxDepth, value]
  have hheading := @Heading.exported (Gap isBlank) [] [' '] [' '] .nil (.space rfl .nil)
    (List.cons_ne_nil _ _) (.space rfl .nil) (List.cons_ne_nil _ _)
  have hending := @Ending.semicolons (Gap isBlank) [' '] [] 2 (.space rfl .nil) .nil
  have hclosed := @Loosened.comma (Gap isSpace) ']' ['\n'] [] [] (.inl rfl) (.space rfl .nil) .nil
  have hcommented := Loosened.loosen
    (@Gap.comment isSpace [' '] ['"', ']'] [] (by decide) (by decide) (by decide) .nil) hclosed
  have hstring : Json.Quoted [',', ']', '"'] :=
    .char (by decide) (by decide) (by decide) (.char (by decide) (by decide) (by decide) .close)
  have hquoted := Loosened.lexeme (.string hstring) (Json.apart_of_getLast? rfl rfl)
    (Json.apart_of_getLast? rfl rfl) hcommented
  have hbody := @Loosened.lexeme _ ['['] _ _ (.mark rfl) (Json.apart_of_getLast? rfl rfl)
    (Json.apart_of_getLast? rfl rfl) hquoted
  have hread := (reads_as_document hdocument).1 _ _ _ hheading (hlist ▸ hbody) hending
  exact ⟨hdocument, (congrArg read? (by decide +kernel)).trans hread⟩

end Dialogue.Authoring
