import Dialogue.Proofs.Conversation.Invariants
import Dialogue.Proofs.Conversation.Redirects
import Dialogue.Proofs.Text.Blank

/-!
# Silence

Replies are contracted before they are given, so a reply of white space comes to nothing. What a
keyword says is trimmed and what memory holds was said by a keyword; neither is blank unless it is
empty, and empty replies are passed over. Prompts and evasions are passed over only if they are
empty, not if they are blank.

So as long as a conversation goes on and its fallback reply is not blank, it is silent exactly if
the prompt or the evasion whose turn it is consists of white space.
-/

namespace Dialogue

open Text (Blank)

theorem Text.nonempty?_eq_some_iff {text? : Option Text} {text : Text} :
    Text.nonempty? text? = some text ↔ text? = some text ∧ text ≠ [] := by
  cases text? with
  | none => simp [Text.nonempty?]
  | some said =>
    cases said with
    | nil => simp [Text.nonempty?]
    | cons c said =>
      simp only [Text.nonempty?, Option.some_inj, iff_self_and]
      rintro rfl
      exact List.cons_ne_nil _ _

/-! ## What keywords say -/

namespace Script

variable {script : Script}

/-- What trying rules says was made by a rule that is not memorized, of a template that does not
redirect. -/
theorem exists_fill_of_tryRules {part text : Text} {k i : Nat} {rules : List Rule} {s t : State}
    (h : script.tryRules k part i rules s = (.reply text, t)) :
    ∃ rule ∈ rules, rule.memorized = false ∧ ∃ template ∈ rule.replies,
      script.redirect? template = none ∧ ∃ captures, rule.decompose part = some captures ∧
        text = script.fill template captures := by
  induction rules generalizing i s with
  | nil => simp [tryRules] at h
  | cons rule rules ih =>
    have later {j : Nat} {u : State} (h : script.tryRules k part j rules u = (.reply text, t)) :
        ∃ r ∈ rule :: rules, r.memorized = false ∧ ∃ template ∈ r.replies,
          script.redirect? template = none ∧ ∃ captures, r.decompose part = some captures ∧
            text = script.fill template captures := by
      obtain ⟨r, hr, found⟩ := ih h
      exact ⟨r, List.mem_cons_of_mem _ hr, found⟩
    rw [tryRules] at h
    split at h
    · exact later h
    · rename_i captures hcaptures
      split at h
      · exact later h
      · rename_i template u hnext
        split at h
        · simp at h
        · rename_i hredirect
          split at h
          · exact later h
          · rename_i hmemorized
            obtain ⟨rfl, -⟩ : script.fill template captures = text ∧ u = t := by simpa using h
            exact ⟨rule, List.mem_cons_self, by simpa using hmemorized, template,
              mem_replies_of_nextReply hnext, hredirect, captures, hcaptures, rfl⟩

theorem exists_fill_of_visit {part text : Text} {k : Nat} {s t : State}
    (h : script.visit k part s = (.reply text, t)) :
    ∃ keyword, script.keywords[k]? = some keyword ∧ ∃ rule ∈ keyword.rules,
      rule.memorized = false ∧ ∃ template ∈ rule.replies, script.redirect? template = none ∧
        ∃ captures, rule.decompose part = some captures ∧ text = script.fill template captures := by
  rw [visit] at h
  split at h
  · rename_i keyword hk
    exact ⟨keyword, hk, exists_fill_of_tryRules h⟩
  · simp at h

theorem blank_fill {template : Text} {captures : List Text}
    (h : Blank (script.fill template captures)) : script.fill template captures = [] :=
  Text.trim_eq_nil_of_blank h

/-- Consulting a keyword gives no reply of mere white space. -/
theorem eq_nil_of_consult {part text : Text} {k : Nat} {s t : State}
    (h : script.consult k part s = (.ok text, t)) (hblank : Blank text) : text = [] := by
  obtain ⟨-, l, u, -, -, hfollow, -⟩ :=
    @exists_trail_follow script part script.options.maxRedirectDepth k s
  rw [consult, hfollow] at h
  cases hvisit : script.visit l part u with
  | mk visit v =>
    rw [hvisit] at h
    cases visit with
    | silent => simp_all [conclude]
    | redirect name m => simp [conclude] at h
    | reply said =>
      obtain ⟨rfl, rfl⟩ : said = text ∧ v = t := by simpa [conclude] using h
      obtain ⟨_, _, _, _, _, _, _, _, _, _, rfl⟩ := exists_fill_of_visit hvisit
      exact blank_fill hblank

theorem not_blank_of_answerPart {part reply : Text} {k : Nat} {keywords : List Keyword}
    {s t : State} (h : script.answerPart part k keywords s = (some reply, t)) : ¬ Blank reply := by
  induction keywords generalizing k s with
  | nil => simp [answerPart] at h
  | cons keyword keywords ih =>
    rw [answerPart] at h
    split at h
    · split at h
      · rename_i c rest u hconsult
        obtain ⟨rfl, -⟩ : c :: rest = reply ∧ u = t := by simpa using h
        intro hblank
        exact List.cons_ne_nil _ _ (eq_nil_of_consult hconsult hblank)
      · exact ih h
    · exact ih h

/-- Keywords do not answer with mere white space. -/
theorem not_blank_of_answerParts {parts : List Text} {reply : Text} {s t : State}
    (h : script.answerParts parts s = (.reply reply, t)) : ¬ Blank reply := by
  induction parts generalizing s with
  | nil => simp [answerParts] at h
  | cons part parts ih =>
    rw [answerParts] at h
    split at h
    · simp at h
    · split at h
      · rename_i said u hpart
        obtain ⟨rfl, -⟩ : said = reply ∧ u = t := by simpa using h
        exact not_blank_of_answerPart hpart
      · exact ih h

end Script

/-! ## What memory holds -/

namespace Memory

variable {m : Memory} {random : Bool} {d : Draws} {reply : Text}

theorem mem_of_pop (h : (m.pop random d).1 = some reply) : reply ∈ m.replies := by
  rcases m.pop_cases random d with ⟨-, hpop⟩ | ⟨place, kept, d', hkept, -, hpop⟩
  · rw [hpop] at h
    cases h
  · rw [hpop] at h
    exact List.mem_of_getElem? (hkept.trans h)

theorem mem_of_mem_pop (h : reply ∈ (m.pop random d).2.1.replies) : reply ∈ m.replies := by
  rcases m.pop_cases random d with ⟨-, hpop⟩ | ⟨place, kept, d', -, -, hpop⟩
  · rwa [hpop] at h
  · rw [hpop] at h
    exact List.mem_of_mem_eraseIdx h

end Memory

namespace State

variable {script : Script} {s : State}

/-- No reply in memory is mere white space. -/
def Articulate (s : State) : Prop := ∀ reply ∈ s.memory.replies, Blank reply → reply = []

theorem articulate_remember (h : s.Articulate) (template : Text) (captures : List Text) :
    (s.remember (script.fill template captures)).Articulate := by
  intro reply hreply
  rcases List.mem_append.1 (List.mem_of_mem_drop hreply) with hold | hnew
  · exact h reply hold
  · rw [List.mem_singleton.1 hnew]
    exact Script.blank_fill

theorem kept_articulate (script : Script) : script.Kept Articulate where
  nextReply _ _ h := by
    rw [nextReply]
    split <;> exact h
  remember h := articulate_remember h _ _
  recollect h reply hreply := h reply (Memory.mem_of_mem_pop hreply)
  evade h := h
  prompt h := h
  greet h := h
  bidFarewell h := h
  quit h := h
  restart _ := by simp [Articulate, restart, Memory.clear]

theorem articulate_start (script : Script) (source : Source) :
    (start script source).Articulate := by simp [Articulate, start]

/-! ## What is said in the end -/

theorem mem_of_evade {reply : Text} (h : (s.evade script).1 = some reply) :
    reply ∈ script.evasions := by
  obtain ⟨choice, -, hchoice⟩ := Option.bind_eq_some_iff.1 h
  exact List.mem_of_getElem? hchoice

theorem mem_of_prompt {reply : Text} (h : (s.prompt script).1 = some reply) :
    reply ∈ script.prompts := by
  obtain ⟨choice, -, hchoice⟩ := Option.bind_eq_some_iff.1 h
  exact List.mem_of_getElem? hchoice

/-- Only an evasion is mere white space in the last resort. -/
theorem mem_evasions_of_lastResort (hs : s.Articulate)
    (hfallback : ¬ Blank script.options.fallbackReply.toList)
    (hblank : Blank (s.lastResort script).1) :
    (s.lastResort script).1 ≠ [] ∧ (s.lastResort script).1 ∈ script.evasions := by
  rw [lastResort] at hblank ⊢
  dsimp only at hblank ⊢
  cases hmemory : Text.nonempty? (s.recollect script).1 with
  | some reply =>
    rw [hmemory] at hblank
    obtain ⟨hrecollect, hne⟩ := Text.nonempty?_eq_some_iff.1 hmemory
    exact absurd (hs reply (Memory.mem_of_pop hrecollect) hblank) hne
  | none =>
    rw [hmemory] at hblank
    dsimp only at hblank ⊢
    cases hevasion : Text.nonempty? ((s.recollect script).2.evade script).1 with
    | none => exact absurd (by rwa [hevasion] at hblank) hfallback
    | some reply =>
      obtain ⟨hevade, hne⟩ := Text.nonempty?_eq_some_iff.1 hevasion
      exact ⟨hne, mem_of_evade hevade⟩

/-- While the conversation goes on, only an evasion is mere white space in answer to some parts. -/
theorem mem_evasions_of_replyToParts {parts : List Text} (hs : s.Articulate)
    (hfallback : ¬ Blank script.options.fallbackReply.toList)
    (hactive : (s.replyToParts script parts).2.quit = false)
    (hblank : Blank (s.replyToParts script parts).1) :
    (s.replyToParts script parts).1 ≠ [] ∧
      (s.replyToParts script parts).1 ∈ script.evasions := by
  have hparts : (script.answerParts parts s).2.Articulate :=
    (kept_articulate script).toKeptByVisits.answerParts hs
  rw [replyToParts] at hactive hblank ⊢
  cases hanswer : script.answerParts parts s with
  | mk answer t =>
    rw [hanswer] at hactive hblank hparts
    cases answer with
    | quit => exact absurd hactive (by simp [leave, bidFarewell])
    | reply text => exact absurd hblank (Script.not_blank_of_answerParts hanswer)
    | nothing => exact mem_evasions_of_lastResort hparts hfallback hblank

/-- While the conversation goes on, only a prompt or an evasion is mere white space. -/
theorem mem_pools_of_reply {input : Text} (hs : s.Articulate)
    (hfallback : ¬ Blank script.options.fallbackReply.toList)
    (hactive : (s.reply script input).2.quit = false) (hblank : Blank (s.reply script input).1) :
    (s.reply script input).1 ≠ [] ∧
      (s.reply script input).1 ∈ script.prompts ++ script.evasions := by
  have byParts {t : State} {parts : List Text} (ht : t.Articulate)
      (hactive : (t.replyToParts script parts).2.quit = false)
      (hblank : Blank (t.replyToParts script parts).1) :
      (t.replyToParts script parts).1 ≠ [] ∧
        (t.replyToParts script parts).1 ∈ script.prompts ++ script.evasions := by
    obtain ⟨hne, hmem⟩ := mem_evasions_of_replyToParts ht hfallback hactive hblank
    exact ⟨hne, List.mem_append_right _ hmem⟩
  rw [reply] at hactive hblank ⊢
  split at hactive
  · rename_i hquit
    exact absurd hactive (by simp [bidFarewell, hquit])
  · rename_i hquit
    rw [if_neg hquit] at hblank ⊢
    dsimp only at hactive hblank ⊢
    split at hactive
    · exact absurd hactive (by simp [leave, bidFarewell])
    · rename_i hphrase
      rw [if_neg hphrase] at hblank ⊢
      split at hactive
      · rename_i hparts
        rw [if_pos hparts] at hblank ⊢
        cases hprompt : Text.nonempty? (s.prompt script).1 with
        | some said =>
          obtain ⟨hsaid, hne⟩ := Text.nonempty?_eq_some_iff.1 hprompt
          exact ⟨hne, List.mem_append_left _ (mem_of_prompt hsaid)⟩
        | none =>
          rw [hprompt] at hactive hblank
          exact byParts ((kept_articulate script).prompt hs) hactive hblank
      · rename_i hparts
        rw [if_neg hparts] at hblank ⊢
        exact byParts hs hactive hblank

theorem transform_eq_nil_iff {input : Text} :
    (s.transform script input).1 = [] ↔ Blank (s.reply script input).1 := by
  rw [transform]
  dsimp only
  rw [Text.contract_eq_nil_iff]
  split
  · exact Text.blank_lowercase_iff
  · rfl

end State

namespace Session

/-- **An active conversation is silent only with a pool of white space.** As long as a session goes
on, whatever was done before, an input is answered with the empty text exactly if the reply is a
prompt or an evasion that is not empty and yet white space throughout. -/
theorem silent_iff (script : Script) (hfallback : ¬ Blank script.options.fallbackReply.toList)
    (factory : Factory) (before : List Action) (input : Text) :
    let s := ((start script factory).run script before).2.state
    (s.transform script input).2.quit = false →
      ((s.transform script input).1 = [] ↔
        ∃ entry ∈ script.prompts ++ script.evasions,
          entry ≠ [] ∧ Blank entry ∧ (s.reply script input).1 = entry) := by
  intro s hactive
  have hs : s.Articulate :=
    (State.kept_articulate script).run (State.articulate_start script _) before
  rw [State.transform_eq_nil_iff]
  constructor
  · intro hblank
    obtain ⟨hne, hmem⟩ := State.mem_pools_of_reply hs hfallback hactive hblank
    exact ⟨_, hmem, hne, hblank, rfl⟩
  · rintro ⟨entry, -, -, hblank, hreply⟩
    rwa [hreply]

/-- A script whose only evasion is a space has no answer to an input that it does not know. -/
theorem space_is_silent :
    let script : Script :=
      { options := { fallbackReply := "Go on." }, greetings := [], farewells := [],
        quitParts := [], quitPhrases := [], evasions := [[' ']], prompts := [], pre := {},
        post := {}, tags := [], keywords := [] }
    let s := ((start script (.seeded fun _ _ ↦ 0.0)).run script []).2.state
    ¬ Blank script.options.fallbackReply.toList ∧
      (s.transform script ['x']).2.quit = false ∧ (s.transform script ['x']).1 = [] := by
  intro script s
  have hfallback : ¬ Blank script.options.fallbackReply.toList := by decide
  have hactive : (s.transform script ['x']).2.quit = false := by decide +kernel
  have hreply : (s.reply script ['x']).1 = [' '] := by decide +kernel
  have hspace : [' '] ∈ script.prompts ++ script.evasions := List.mem_singleton_self _
  refine ⟨hfallback, hactive, ?_⟩
  rw [silent_iff script hfallback _ [] ['x'] hactive]
  exact ⟨[' '], hspace, by decide, by decide, hreply⟩

end Session

end Dialogue
