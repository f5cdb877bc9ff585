import Dialogue.Proofs.Conversation.Ending
import Dialogue.Proofs.Segmentation.Ink

/-!
# Phrases that end a conversation

A script declares phrases that end a conversation, but what is compared with them is an input in
plain form. So the question is which phrases survive being typed. One that is declared for a whole
part must be its own part, and is part of no input otherwise. One that may stand anywhere is
contracted and lowercased before it is looked for, so it need not keep its case and white space, but
all else of it must be there in plain form.

Thus not every declared phrase works (`State.ends_at_kept_phrases`): capital letters are lost to
whole parts if the input is lowercased, and other characters, stop characters and stop words are
lost to phrases of both kinds.
-/

namespace Dialogue

open Text (Blank contract lowercase parts)

variable {script : Script} {phrase : Text}

/-! ## Phrases for a whole part -/

/-- A phrase is part of an input only if it is its own part. -/
theorem Options.parts_normalize_eq_of_mem {o : Options} {input : Text}
    (h : phrase ∈ parts (o.normalize input)) : parts (o.normalize phrase) = [phrase] := by
  have hplain := plain_of_mem_parts h
  rw [hplain.normalize_eq, hplain.parts_eq]

namespace State

variable {s : State}

theorem quit_transform_of_mem_quitParts (hs : s.quit = false) (hphrase : phrase ∈ script.quitParts)
    (hkept : parts (script.options.normalize phrase) = [phrase]) :
    (s.transform script phrase).2.quit = true := by
  refine (quit_reply_iff hs).2 (.inr ?_)
  rw [hkept]
  exact Script.reachesEnd_of_mem hphrase

/-! ## Phrases that may stand anywhere -/

theorem quit_transform_of_mem_quitPhrases (hs : s.quit = false)
    (hphrase : phrase ∈ script.quitPhrases) (hblank : ¬ Blank phrase)
    (hkept : lowercase (script.options.normalize phrase) = lowercase (contract phrase)) :
    (s.transform script phrase).2.quit = true := by
  refine (quit_reply_iff hs).2 (.inl (Script.holdsQuitPhrase_iff.2 ⟨phrase, hphrase, hblank, ?_⟩))
  rw [hkept]

/-- A phrase that loses anything but case and white space does not end the conversation. -/
theorem quit_transform_of_lone (hs : s.quit = false)
    (hspace : ' ' ∉ script.options.stopChars.toList) (hparts : script.quitParts = [])
    (hphrases : script.quitPhrases = [phrase])
    (hlost : lowercase (script.options.normalize phrase) ≠ lowercase (contract phrase)) :
    (s.transform script phrase).2.quit = false := by
  rw [← Bool.not_eq_true]
  intro hquit
  rcases (quit_reply_iff hs).1 hquit with hholds | ⟨_, part, _, -, hpart, -⟩
  · obtain ⟨other, hother, -, hinside⟩ := Script.holdsQuitPhrase_iff.1 hholds
    rw [hphrases, List.mem_singleton] at hother
    rw [hother] at hinside
    exact hlost (Options.lowercase_normalize_eq_of_isInfix hspace hinside)
  · rw [hparts] at hpart
    exact absurd hpart List.not_mem_nil

/-- **Which of the declared phrases work.** In any state of a conversation that goes on, typing a
phrase for whole parts ends it if cutting the plain form of the phrase gives the phrase; otherwise
the phrase is part of no input, and in vain. Typing a phrase that may stand anywhere ends the
conversation if only case and white space tell the phrase from its plain form; otherwise this phrase
does not, unless spaces are stop characters. -/
theorem ends_at_kept_phrases (script : Script) (s : State) (hs : s.quit = false) :
    let o := script.options
    (∀ phrase ∈ script.quitParts,
      (parts (o.normalize phrase) = [phrase] → (s.transform script phrase).2.quit = true) ∧
      (parts (o.normalize phrase) ≠ [phrase] → ∀ input, phrase ∉ parts (o.normalize input))) ∧
    (∀ phrase ∈ script.quitPhrases, ¬ Blank phrase →
      (lowercase (o.normalize phrase) = lowercase (contract phrase) →
        (s.transform script phrase).2.quit = true) ∧
      (lowercase (o.normalize phrase) ≠ lowercase (contract phrase) → ' ' ∉ o.stopChars.toList →
        script.quitParts = [] → script.quitPhrases = [phrase] →
        (s.transform script phrase).2.quit = false)) := by
  intro o
  refine ⟨fun phrase hphrase ↦ ⟨fun hkept ↦ ?_, fun hlost input hmem ↦ ?_⟩,
    fun phrase hphrase hblank ↦ ⟨fun hkept ↦ ?_, fun hlost hspace hparts hphrases ↦ ?_⟩⟩
  · exact quit_transform_of_mem_quitParts hs hphrase hkept
  · exact hlost (Options.parts_normalize_eq_of_mem hmem)
  · exact quit_transform_of_mem_quitPhrases hs hphrase hblank hkept
  · exact quit_transform_of_lone hs hspace hparts hphrases hlost

/-- With the options that hold by default `bye` and `See  you` work; `Bye` and `so long, friend` do
not. -/
theorem bye_ends_unlike_capital_bye :
    let script : Script :=
      { options := {}, greetings := [], farewells := ["ciao".toList],
        quitParts := ["bye".toList, "Bye".toList], quitPhrases := ["See  you".toList],
        evasions := [], prompts := [], pre := {}, post := {}, tags := [], keywords := [] }
    let long : Script :=
      { script with quitParts := [], quitPhrases := ["so long, friend".toList] }
    let s := start script (fun _ ↦ 0.0)
    s.quit = false ∧ (s.transform script "bye".toList).2.quit = true ∧
      (∀ input, "Bye".toList ∉ parts (script.options.normalize input)) ∧
      (s.transform script "See  you".toList).2.quit = true ∧
      (s.transform long "so long, friend".toList).2.quit = false := by
  intro script long s
  obtain ⟨hparts, hphrases⟩ := ends_at_kept_phrases script s rfl
  obtain ⟨-, hlong⟩ := ends_at_kept_phrases long s rfl
  refine ⟨rfl, ?_, ?_, ?_, ?_⟩
  · exact (hparts "bye".toList (by simp [script])).1 (by decide +kernel)
  · exact (hparts "Bye".toList (by simp [script])).2 (by decide +kernel)
  · exact (hphrases "See  you".toList (by simp [script]) (by decide)).1 (by decide +kernel)
  · exact (hlong "so long, friend".toList (by simp [long]) (by decide)).2 (by decide +kernel)
      (by decide +kernel) rfl rfl

end State

end Dialogue
