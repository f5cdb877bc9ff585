import Dialogue.Proofs.Conversation.Invariants
import Dialogue.Proofs.Text.Blank

/-!
# How a conversation ends

A conversation goes on until an input holds one of the phrases that end it, or has a part that does
and that is reached: the parts before it must be passed over, for the first part to which a keyword
has a reply is the last one that is looked at.

Once it has ended, nothing but farewells is left. Every action other than a reset then keeps memory
and the cycles of all rules as they are, and an input is answered with the next farewell.
-/

namespace Dialogue

open Text (Blank contract lowercase)

variable {script : Script}

namespace Script

/-! ## What ends a conversation -/

/-- Keywords are looked for in some parts, from the first to the last, and none has a reply. This
leads from one state to another. -/
inductive PassesOver (script : Script) : List Text → State → State → Prop
  | nil (s : State) : PassesOver script [] s s
  | cons {part : Text} {parts : List Text} {s t u : State}
      (first : script.answerPart (script.pre.apply part) 0 script.keywords s = (none, t))
      (rest : PassesOver script parts t u) : PassesOver script (part :: parts) s u

/-- One of some parts ends the conversation, and the parts before it are passed over. -/
def ReachesEnd (script : Script) (parts : List Text) (s : State) : Prop :=
  ∃ before part after, parts = before ++ part :: after ∧ part ∈ script.quitParts ∧
    ∃ t, script.PassesOver before s t

theorem reachesEnd_of_mem {part : Text} {parts : List Text} {s : State}
    (hpart : part ∈ script.quitParts) : script.ReachesEnd (part :: parts) s :=
  ⟨[], part, parts, rfl, hpart, s, .nil s⟩

/-- A first part that does not end the conversation must be passed over. -/
theorem reachesEnd_cons_iff {part : Text} {parts : List Text} {s : State}
    (hpart : part ∉ script.quitParts) :
    script.ReachesEnd (part :: parts) s ↔
      ∃ t, script.answerPart (script.pre.apply part) 0 script.keywords s = (none, t) ∧
        script.ReachesEnd parts t := by
  constructor
  · rintro ⟨before, p, after, hsplit, hp, u, hpasses⟩
    cases hpasses with
    | nil =>
      obtain ⟨rfl, rfl⟩ := List.cons_eq_cons.1 hsplit
      exact absurd hp hpart
    | cons first rest =>
      obtain ⟨rfl, hrest⟩ := List.cons_eq_cons.1 hsplit
      exact ⟨_, first, _, p, after, hrest, hp, u, rest⟩
  · rintro ⟨t, first, before, p, after, rfl, hp, u, rest⟩
    exact ⟨part :: before, p, after, rfl, hp, u, .cons first rest⟩

theorem answerParts_eq_quit_iff {parts : List Text} {s : State} :
    (script.answerParts parts s).1 = .quit ↔ script.ReachesEnd parts s := by
  induction parts generalizing s with
  | nil => simp [answerParts, ReachesEnd]
  | cons part parts ih =>
    rw [answerParts]
    by_cases hpart : part ∈ script.quitParts
    · rw [if_pos (List.contains_iff_mem.2 hpart), eq_self_iff_true, true_iff]
      exact reachesEnd_of_mem hpart
    · rw [if_neg (mt List.contains_iff_mem.1 hpart), reachesEnd_cons_iff hpart]
      cases script.answerPart (script.pre.apply part) 0 script.keywords s with
      | mk reply t =>
        cases reply with
        | some text => simp
        | none => simp [ih]

theorem holdsQuitPhrase_iff {normalized : Text} :
    script.holdsQuitPhrase normalized = true ↔
      ∃ phrase ∈ script.quitPhrases, ¬ Blank phrase ∧
        lowercase (contract phrase) <:+: lowercase normalized := by
  simp only [holdsQuitPhrase, List.any_eq_true, Bool.and_eq_true, Bool.not_eq_true',
    List.isEmpty_eq_false_iff, Text.holds_iff, ne_eq, Text.lowercase_eq_nil_iff,
    Text.contract_eq_nil_iff]

theorem quit_answerParts {parts : List Text} {s : State} :
    (script.answerParts parts s).2.quit = s.quit := by
  have kept : script.KeptByVisits fun t ↦ t.quit = s.quit :=
    { nextReply := fun _ _ h ↦ by
        rw [State.nextReply]
        split <;> exact h
      remember := fun h ↦ h }
  exact kept.answerParts rfl

end Script

namespace State

variable {s : State}

theorem quit_lastResort : (s.lastResort script).2.quit = s.quit := by
  rw [lastResort]
  dsimp only
  split <;> rfl

theorem quit_replyToParts_iff {parts : List Text} (hs : s.quit = false) :
    (s.replyToParts script parts).2.quit = true ↔
      (script.answerParts parts s).1 = .quit := by
  have hquit : (script.answerParts parts s).2.quit = false := by rw [Script.quit_answerParts, hs]
  rw [replyToParts]
  cases hanswer : script.answerParts parts s with
  | mk answer t =>
    rw [hanswer] at hquit
    cases answer with
    | quit => simp [leave, bidFarewell]
    | reply text => simpa using hquit
    | nothing => simpa [quit_lastResort] using hquit

/-- **What ends a conversation.** -/
theorem quit_reply_iff {input : Text} (hs : s.quit = false) :
    (s.reply script input).2.quit = true ↔
      script.holdsQuitPhrase (script.options.normalize input) = true ∨
        script.ReachesEnd (script.options.normalize input).parts s := by
  rw [← Script.answerParts_eq_quit_iff, reply, if_neg (by rw [hs]; exact Bool.false_ne_true)]
  dsimp only
  split
  · rename_i hphrase
    simp [hphrase, leave, bidFarewell]
  · rename_i hphrase
    rw [or_iff_right hphrase]
    split
    · rename_i hparts
      rw [List.isEmpty_iff.1 hparts]
      -- without parts there is no part that ends the conversation
      cases hprompt : Text.nonempty? (s.prompt script).1 with
      | some said => simpa [Script.answerParts, prompt] using hs
      | none => exact quit_replyToParts_iff hs
    · exact quit_replyToParts_iff hs

/-! ## After the end -/

/-- A conversation that has ended answers with the next farewell. -/
theorem transform_of_quit {input : Text} (hs : s.quit = true) :
    s.transform script input =
      (contract (if script.options.lowercaseOutput then lowercase (s.bidFarewell script).1
        else (s.bidFarewell script).1), (s.bidFarewell script).2) := by
  rw [transform, reply, if_pos hs]

/-- Nothing but a reset changes memory or the rules of a conversation that has ended, or lets it
go on. -/
theorem act_of_quit {action : Action} (hs : s.quit = true) (haction : action ≠ .reset) :
    (s.act script action).2.quit = true ∧ (s.act script action).2.memory = s.memory ∧
      (s.act script action).2.rules = s.rules := by
  have htransform (input : Text) : (s.transform script input).2.quit = true ∧
      (s.transform script input).2.memory = s.memory ∧
      (s.transform script input).2.rules = s.rules := by
    rw [transform_of_quit hs]
    exact ⟨hs, rfl, rfl⟩
  cases action with
  | transform input => exact htransform input
  | transformJson input =>
    cases input with
    | string text => exact htransform text.toList
    | _ => exact ⟨hs, rfl, rfl⟩
  | greet => exact ⟨hs, rfl, rfl⟩
  | bidFarewell => exact ⟨hs, rfl, rfl⟩
  | reset => exact absurd rfl haction

end State

namespace Session

variable {s : Session}

theorem act_of_quit {action : Action} (hs : s.state.quit = true) (haction : action ≠ .reset) :
    (s.act script action).2.state.quit = true ∧
      (s.act script action).2.state.memory = s.state.memory ∧
      (s.act script action).2.state.rules = s.state.rules := by
  rw [act_of_ne_reset haction]
  exact State.act_of_quit hs haction

theorem run_of_quit {actions : List Action} (hs : s.state.quit = true)
    (hactions : Action.reset ∉ actions) :
    (s.run script actions).2.state.quit = true ∧
      (s.run script actions).2.state.memory = s.state.memory ∧
      (s.run script actions).2.state.rules = s.state.rules := by
  induction actions generalizing s with
  | nil => exact ⟨hs, rfl, rfl⟩
  | cons action actions ih =>
    rw [List.mem_cons, not_or] at hactions
    have hfirst : (s.act script action).2.state.quit = true ∧ _ ∧ _ :=
      act_of_quit hs (Ne.symm hactions.1)
    have hrest := ih hfirst.1 hactions.2
    exact ⟨hrest.1, hrest.2.1.trans hfirst.2.1, hrest.2.2.trans hfirst.2.2⟩

/-- **A conversation ends where it should, and for good.** -/
theorem ends_for_good (script : Script) :
    (∀ (s : State) (input : Text), s.quit = false →
      ((s.transform script input).2.quit = true ↔
        (∃ phrase ∈ script.quitPhrases, ¬ Blank phrase ∧
          lowercase (contract phrase) <:+: lowercase (script.options.normalize input)) ∨
        ∃ before part after,
          (script.options.normalize input).parts = before ++ part :: after ∧
            part ∈ script.quitParts ∧ ∃ t, script.PassesOver before s t)) ∧
    (∀ (s : Session) (actions : List Action), s.state.quit = true → Action.reset ∉ actions →
      (s.run script actions).2.state.quit = true ∧
        (s.run script actions).2.state.memory = s.state.memory ∧
        (s.run script actions).2.state.rules = s.state.rules) ∧
    (∀ (s : State) (input : Text), s.quit = true →
      s.transform script input =
        (contract (if script.options.lowercaseOutput then lowercase (s.bidFarewell script).1
          else (s.bidFarewell script).1), (s.bidFarewell script).2)) ∧
    ∀ (s : Session) (action : Action), s.state.quit = true →
      ((s.act script action).2.state.quit = false ↔ action = .reset) := by
  refine ⟨?_, fun s actions ↦ run_of_quit, fun s input ↦ State.transform_of_quit, ?_⟩
  · intro s input hs
    rw [← Script.holdsQuitPhrase_iff]
    exact State.quit_reply_iff hs
  · intro s action hs
    constructor
    · intro hactive
      refine Classical.not_not.1 fun haction ↦ ?_
      have hquit : (s.act script action).2.state.quit = true := (act_of_quit hs haction).1
      rw [hquit] at hactive
      exact Bool.noConfusion hactive
    · rintro rfl
      rfl

/-- A script that knows nothing but `bye`, which is reached behind another part. -/
theorem bye_ends_for_good :
    let script : Script :=
      { options := { fixedFinal := 1 }, greetings := [], farewells := ["ciao".toList],
        quitParts := ["bye".toList], quitPhrases := [], evasions := [], prompts := [], pre := {},
        post := {}, tags := [], keywords := [] }
    let s := start script (.seeded fun _ _ ↦ 0.0)
    let t := (s.act script (.transform "Hi. Bye!".toList)).2
    s.state.quit = false ∧ t.state.quit = true ∧
      (t.run script [.greet, .transform "hi".toList]).2.state.quit = true ∧
      (t.state.transform script "hi".toList).1 = "ciao".toList ∧
      (t.act script .reset).2.state.quit = false := by
  intro script s t
  obtain ⟨ends, lasts, answers, resets⟩ := ends_for_good script
  have hparts : (script.options.normalize "Hi. Bye!".toList).parts =
      ["hi".toList] ++ "bye".toList :: [] := by decide +kernel
  have hpasses : script.PassesOver ["hi".toList] s.state s.state := .cons rfl (.nil _)
  have hquit : t.state.quit = true :=
    (ends s.state _ rfl).2 (.inr ⟨_, _, _, hparts, List.mem_singleton_self _, _, hpasses⟩)
  refine ⟨rfl, hquit, (lasts t [.greet, .transform "hi".toList] hquit (by simp)).1, ?_,
    (resets t .reset hquit).2 rfl⟩
  rw [answers _ _ hquit]
  decide +kernel

end Session

end Dialogue
