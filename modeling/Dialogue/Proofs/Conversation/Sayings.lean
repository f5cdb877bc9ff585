import Dialogue.Proofs.Conversation.Fairness
import Dialogue.Proofs.Conversation.Silence

/-!
# What may be said

Everything that a conversation says comes from its script: it is a line of one of the pools, or a
rule has made it of a part of an input. This holds of what comes out of memory too, which was made
in the same way by an earlier turn.

So what is to be shown of every reply, whatever was said before, is shown of the lines of the script
and of what its rules make (`Session.saying_reply`). There must be a farewell, since a
conversation without farewells has nothing to say when it has ended.
-/

namespace Dialogue

namespace Script

/-- Some rule makes the text of a part. -/
def Makes (script : Script) (part text : Text) : Prop :=
  ∃ keyword ∈ script.keywords, ∃ rule ∈ keyword.rules, ∃ template ∈ rule.replies, ∃ captures,
    rule.decompose part = some captures ∧ script.redirect? template = none ∧
      text = script.fill template captures

/-- What may be said in answer to an input. -/
inductive Saying (script : Script) : Text → Prop
  | farewell {text : Text} (mem : text ∈ script.farewells) : Saying script text
  | prompt {text : Text} (mem : text ∈ script.prompts) : Saying script text
  | evasion {text : Text} (mem : text ∈ script.evasions) : Saying script text
  | fallback : Saying script script.options.fallbackReply.toList
  | made {input part text : Text} (mem : part ∈ (script.options.normalize input).parts)
      (makes : script.Makes (script.pre.apply part) text) : Saying script text

end Script

/-- Every reply kept in memory is a `Q`. -/
def State.Holds (Q : Text → Prop) (s : State) : Prop := ∀ reply ∈ s.memory.replies, Q reply

namespace State

variable {Q : Text → Prop} {s : State}

theorem Holds.remember (h : s.Holds Q) {reply : Text} (hreply : Q reply) :
    (s.remember reply).Holds Q := by
  intro kept hkept
  rcases List.mem_append.1 (List.mem_of_mem_drop hkept) with hold | hnew
  · exact h kept hold
  · exact List.mem_singleton.1 hnew ▸ hreply

theorem Holds.nextReply (h : s.Holds Q) (script : Script) (k i : Nat) (rule : Rule) :
    (s.nextReply script k i rule).2.Holds Q := by
  rw [State.nextReply]
  split <;> exact h

theorem holds_restart (source : Source) : (s.restart source).Holds Q := List.forall_mem_nil _

end State

/-! ## Keywords -/

namespace Script

variable {script : Script} {Q : Text → Prop} {part : Text} {s t : State}

/-- What trying rules says or remembers is made of the part. -/
theorem tryRules_makes (hQ : ∀ text, script.Makes part text → Q text) {keyword : Keyword}
    (hkeyword : keyword ∈ script.keywords) {k i : Nat} {rules : List Rule}
    (hrules : ∀ rule ∈ rules, rule ∈ keyword.rules) (hs : s.Holds Q) :
    (script.tryRules k part i rules s).2.Holds Q ∧
      ∀ text, (script.tryRules k part i rules s).1 = .reply text → Q text := by
  induction rules generalizing i s with
  | nil => exact ⟨hs, by simp [tryRules]⟩
  | cons rule rules ih =>
    rw [List.forall_mem_cons] at hrules
    have hnext := hs.nextReply script k i rule
    rw [tryRules]
    split
    · exact ih hrules.2 hs
    · rename_i captures hcaptures
      split
      · rename_i t hreply
        rw [hreply] at hnext
        exact ih hrules.2 hnext
      · rename_i template t hreply
        rw [hreply] at hnext
        split
        · exact ⟨hnext, by simp⟩
        · rename_i hredirect
          have hfill : Q (script.fill template captures) :=
            hQ _ ⟨keyword, hkeyword, rule, hrules.1, template, mem_replies_of_nextReply hreply,
              captures, hcaptures, hredirect, rfl⟩
          dsimp only
          split
          · exact ih hrules.2 (hnext.remember hfill)
          · refine ⟨hnext, ?_⟩
            rintro text ⟨⟩
            exact hfill

theorem visit_makes (hQ : ∀ text, script.Makes part text → Q text) (k : Nat) (hs : s.Holds Q) :
    (script.visit k part s).2.Holds Q ∧
      ∀ text, (script.visit k part s).1 = .reply text → Q text := by
  rw [visit]
  rcases hk : script.keywords[k]? with _ | keyword
  · exact ⟨hs, by simp⟩
  · exact tryRules_makes hQ (List.mem_of_getElem? hk) (fun _ ↦ id) hs

theorem Trail.holds (hQ : ∀ text, script.Makes part text → Q text) {k l : Nat} {ks : List Nat}
    (h : script.Trail part k s ks l t) (hs : s.Holds Q) : t.Holds Q := by
  induction h with
  | here k s => exact hs
  | @redirect k l m s t u name ks visit rest ih =>
    have hvisit := (visit_makes hQ k hs).1
    rw [visit] at hvisit
    exact ih hvisit

/-- Consulting a keyword gives no reply or one that is made of the part. -/
theorem consult_makes (hQ : ∀ text, script.Makes part text → Q text) (k : Nat) (hs : s.Holds Q) :
    (script.consult k part s).2.Holds Q ∧
      ∀ text, (script.consult k part s).1 = .ok text → text = [] ∨ Q text := by
  obtain ⟨ks, l, u, trail, -, hfollow, -⟩ :=
    @exists_trail_follow script part script.options.maxRedirectDepth k s
  rw [consult, hfollow]
  have hvisit := visit_makes hQ l (trail.holds hQ hs)
  generalize script.visit l part u = last at hvisit ⊢
  rcases last with ⟨_ | said | ⟨name, m⟩, v⟩
  · exact ⟨hvisit.1, by simp [conclude]⟩
  · refine ⟨hvisit.1, ?_⟩
    rintro text ⟨⟩
    exact .inr (hvisit.2 said rfl)
  · exact ⟨hvisit.1, by simp [conclude]⟩

theorem answerPart_makes (hQ : ∀ text, script.Makes part text → Q text) (k : Nat)
    (keywords : List Keyword) (hs : s.Holds Q) :
    (script.answerPart part k keywords s).2.Holds Q ∧
      ∀ text ∈ (script.answerPart part k keywords s).1, Q text := by
  induction keywords generalizing k s with
  | nil => exact ⟨hs, by simp [answerPart]⟩
  | cons keyword keywords ih =>
    rw [answerPart]
    split
    · have hconsult := consult_makes hQ k hs
      split
      · rename_i c reply u hsaid
        rw [hsaid] at hconsult
        refine ⟨hconsult.1, ?_⟩
        rintro text ⟨⟩
        exact (hconsult.2 _ rfl).resolve_left (List.cons_ne_nil c reply)
      · rename_i u hsaid
        rw [hsaid] at hconsult
        exact ih (k + 1) hconsult.1
    · exact ih (k + 1) hs

theorem answerParts_makes {parts : List Text}
    (hQ : ∀ part ∈ parts, ∀ text, script.Makes (script.pre.apply part) text → Q text)
    (hs : s.Holds Q) :
    (script.answerParts parts s).2.Holds Q ∧
      ∀ text, (script.answerParts parts s).1 = .reply text → Q text := by
  induction parts generalizing s with
  | nil => exact ⟨hs, by simp [answerParts]⟩
  | cons part parts ih =>
    rw [List.forall_mem_cons] at hQ
    have hpart := answerPart_makes hQ.1 0 script.keywords hs
    rw [answerParts]
    split
    · exact ⟨hs, by simp⟩
    · split
      · rename_i reply u hsaid
        rw [hsaid] at hpart
        refine ⟨hpart.1, ?_⟩
        rintro text ⟨⟩
        exact hpart.2 reply rfl
      · rename_i u hsaid
        rw [hsaid] at hpart
        exact ih hQ.2 hpart.1

end Script

/-! ## Turns -/

namespace State

variable {script : Script} {s : State} {log : List Nat}

/-- A conversation that has farewells bids one of them. -/
theorem mem_of_bidFarewell (hfarewells : script.farewells ≠ [])
    (h : s.Tracks script .farewells log) : (s.bidFarewell script).1 ∈ script.farewells := by
  have hfollows : s.farewells.Follows script.farewells.length script.options.fixedFinal log := h
  have hsize : 0 < s.farewells.size := by
    rw [Cycle.size, ← Array.length_toList, hfollows.arranged.length_eq]
    exact List.length_pos_of_ne_nil hfarewells
  obtain ⟨index, hindex⟩ :=
    Cycle.exists_advance hsize (some script.options.fixedFinal) s.draws
  have hfair := (hfollows.advance (fun _ ↦ Option.mem_some.1 ∘ Eq.symm) s.draws).fair
  rw [hindex] at hfair
  have hlt : index < script.farewells.length := hfair.lt index (by simp)
  have hsaid : (s.bidFarewell script).1 = script.farewells[index] := by
    rw [s.saysChoices.bidFarewell, choice?, Move.pool?, if_pos rfl, cycle?, Option.bind_some,
      Pool.choose, hindex, Option.bind_some, List.getElem?_eq_getElem hlt, Option.getD_some]
  rw [hsaid]
  exact List.getElem_mem hlt

theorem keptByVisits_tracks_farewells (script : Script) (log : List Nat) :
    script.KeptByVisits fun s ↦ s.Tracks script .farewells log where
  nextReply _ _ h := by
    rw [nextReply]
    split <;> exact h
  remember h := h

/-- Memory holds what may be said, and the farewells have had their turns. -/
structure Proper (script : Script) (s : State) : Prop where
  holds : s.Holds script.Saying
  tracks : ∃ log, s.Tracks script .farewells log

/-- A turn says what may be said, and leaves nothing else in memory. -/
def Says (script : Script) (turn : Text × State) : Prop :=
  script.Saying turn.1 ∧ turn.2.Holds script.Saying

namespace Proper

theorem leave (h : s.Proper script) (hfarewells : script.farewells ≠ []) :
    Says script (s.leave script) := by
  obtain ⟨log, hlog⟩ := h.tracks
  exact ⟨.farewell (mem_of_bidFarewell hfarewells hlog), h.holds⟩

theorem lastResort (h : s.Proper script) : Says script (s.lastResort script) := by
  have hmemory : (s.recollect script).2.Holds script.Saying :=
    fun reply hreply ↦ h.holds reply (Memory.mem_of_mem_pop hreply)
  rw [State.lastResort]
  dsimp only
  split
  · rename_i reply hreply
    obtain ⟨hrecollect, -⟩ := Text.nonempty?_eq_some_iff.1 hreply
    exact ⟨h.holds reply (Memory.mem_of_pop hrecollect), hmemory⟩
  · refine ⟨?_, hmemory⟩
    rcases hevasion : Text.nonempty? ((s.recollect script).2.evade script).1 with _ | reply
    · exact .fallback
    · obtain ⟨hevade, -⟩ := Text.nonempty?_eq_some_iff.1 hevasion
      exact .evasion (mem_of_evade hevade)

theorem replyToParts (h : s.Proper script) (hfarewells : script.farewells ≠ [])
    {input : Text} {parts : List Text}
    (hparts : ∀ part ∈ parts, part ∈ (script.options.normalize input).parts) :
    Says script (s.replyToParts script parts) := by
  obtain ⟨log, hlog⟩ := h.tracks
  have hmade (part : Text) (hpart : part ∈ parts) (text : Text)
      (hmakes : script.Makes (script.pre.apply part) text) : script.Saying text :=
    .made (hparts part hpart) hmakes
  obtain ⟨hholds, hsaid⟩ := Script.answerParts_makes hmade h.holds
  have htracks : (script.answerParts parts s).2.Tracks script .farewells log :=
    (keptByVisits_tracks_farewells script log).answerParts hlog
  rw [State.replyToParts]
  split
  · rename_i t ht
    rw [ht] at hholds htracks
    exact leave ⟨hholds, log, htracks⟩ hfarewells
  · rename_i text t ht
    rw [ht] at hholds hsaid
    exact ⟨hsaid text rfl, hholds⟩
  · rename_i t ht
    rw [ht] at hholds htracks
    exact lastResort ⟨hholds, log, htracks⟩

/-- A turn of a conversation about a script that has farewells says what may be said. -/
theorem reply (h : s.Proper script) (hfarewells : script.farewells ≠ []) (input : Text) :
    Says script (s.reply script input) := by
  obtain ⟨log, hlog⟩ := h.tracks
  rw [State.reply]
  split
  · exact ⟨.farewell (mem_of_bidFarewell hfarewells hlog), h.holds⟩
  · dsimp only
    split
    · exact leave h hfarewells
    · split
      · rename_i hempty
        split
        · rename_i reply hreply
          obtain ⟨hprompt, -⟩ := Text.nonempty?_eq_some_iff.1 hreply
          exact ⟨.prompt (mem_of_prompt hprompt), h.holds⟩
        · have hprompt : (s.prompt script).2.Proper script := ⟨h.holds, log, hlog⟩
          exact replyToParts hprompt hfarewells fun _ ↦ id
      · exact replyToParts h hfarewells fun _ ↦ id

theorem holds_act (h : s.Proper script) (hfarewells : script.farewells ≠ []) (action : Action) :
    (s.act script action).2.Holds script.Saying := by
  rcases action with input | input | _ | _ | _
  · exact (h.reply hfarewells input).2
  · rcases input
    case string text => exact (h.reply hfarewells text.toList).2
    all_goals exact h.holds
  · exact h.holds
  · exact h.holds
  · exact holds_restart _

end Proper

end State

/-! ## Sessions -/

namespace Session

variable {script : Script} {s : Session}

theorem proper_act (hfarewells : script.farewells ≠ []) (h : s.state.Proper script)
    (action : Action) : (s.act script action).2.state.Proper script where
  holds := by
    by_cases hreset : action = .reset
    · subst hreset
      exact State.holds_restart _
    · rw [act_of_ne_reset hreset]
      exact h.holds_act hfarewells action
  tracks := by
    obtain ⟨log, hlog⟩ := h.tracks
    have hcyclic : Pool.farewells.Cyclic script := trivial
    exact ⟨_, tracks_act hcyclic hlog action⟩

theorem proper_run (hfarewells : script.farewells ≠ []) (h : s.state.Proper script)
    (actions : List Action) : (s.run script actions).2.state.Proper script := by
  induction actions generalizing s with
  | nil => exact h
  | cons action actions ih => exact ih (proper_act hfarewells h action)

/-- **Whatever was said before, an input is answered with what may be said.** -/
theorem saying_reply (hfarewells : script.farewells ≠ []) (factory : Factory)
    (before : List Action) (input : Text) :
    script.Saying (((start script factory).run script before).2.state.reply script input).1 := by
  have hstart : (start script factory).state.Proper script := {
    holds := List.forall_mem_nil _
    tracks := ⟨[], State.tracks_start _⟩ }
  exact ((proper_run hfarewells hstart before).reply hfarewells input).1

end Session

end Dialogue
