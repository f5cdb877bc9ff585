import Dialogue.Proofs.Conversation.Ending
import Dialogue.Proofs.Conversation.Fairness

/-!
# What is left to chance

Random numbers shuffle cycles and choose replies, but without either option only greetings and
farewells are shuffled. Then a turn looks neither at the random numbers nor at these two pools,
until it ends the conversation and takes a farewell from one of them.

This is shown by exchanging them: a search for a reply goes the same way whatever they are, and
hands them back as they were (`Script.answerParts_withChance`). So two sessions with different
random numbers agree on everything but greetings and farewells, and how many numbers they draw
follows from the greetings and farewells they were asked for (`Session.leaves_little_to_chance`).
-/

namespace Dialogue

open Text (lowercase contract)

/-! ## Numbers drawn -/

namespace Cycle

/-- A cycle that is not shuffled needs no random numbers. -/
theorem advance_none (c : Cycle) (d d' : Draws) :
    c.advance none d' = ((c.advance none d).1, (c.advance none d).2.1, d') := by
  rw [advance, advance]
  split <;> rfl

/-- A cycle draws numbers when a round starts, one for each index that may change its place. -/
theorem advance_draws (c : Cycle) (keep : Nat) (d : Draws) :
    (c.advance (some keep) d).2.2 =
      d.skip (if c.due = 0 then c.size - min keep c.size else 0) := by
  rw [advance]
  by_cases hsize : c.size = 0
  · rw [if_pos hsize, hsize, Nat.zero_sub, ite_self]
    rfl
  · rw [if_neg hsize]
    by_cases hdue : c.due = 0
    · have hplaces : c.order.size - keep = c.size - min keep c.size := by
        rw [size]
        omega
      simp only [hdue, if_true]
      rw [Draws.shuffleTail, Draws.shuffleFrom_draws, hplaces]
    · simp only [hdue, if_false]
      rfl

/-- The place that is due is known from how often the cycle was used. -/
theorem Follows.due_eq {n keep : Nat} {c : Cycle} {log : List Nat} (h : c.Follows n keep log)
    (hn : 0 < n) : c.due = log.length % n := by
  obtain ⟨rounds, hrounds, rfl⟩ := h.rounds
  have hsize : c.order.toList.length = n := h.arranged.length_eq
  have hflatten : rounds.flatten.length % n = 0 := by
    have hlengths : rounds.map List.length = List.replicate rounds.length n :=
      List.map_eq_replicate_iff.2 fun round hround ↦ (hrounds round hround).length_eq
    rw [List.length_flatten, hlengths, List.sum_replicate_nat, Nat.mul_mod_left]
  have hbegun : c.begun.length % n = c.due := by
    by_cases hdue : c.due = 0
    · rcases begun_of_due_eq_zero hdue with hnone | hall
      · rw [hnone, hdue, List.length_nil, Nat.zero_mod]
      · rw [hall, hdue, hsize, Nat.mod_self]
    · have hlt : c.due < n := by
        rw [← hsize, Array.length_toList]
        refine due_lt ?_
        rwa [size, ← Array.length_toList, hsize]
      rw [begun_of_due_ne_zero hdue, List.length_take, hsize, Nat.min_eq_left hlt.le,
        Nat.mod_eq_of_lt hlt]
  rw [List.length_append, Nat.add_mod, hflatten, Nat.zero_add, Nat.mod_mod, hbegun]

/-- How many numbers a cycle of `n` indices draws behind the indices of a log: one for each that
may change its place if a round starts, else none. -/
def numbersDrawn (n keep : Nat) (log : List Nat) : Nat :=
  if log.length % n = 0 then n - min keep n else 0

theorem Follows.advance_draws {n keep : Nat} {c : Cycle} {log : List Nat}
    (h : c.Follows n keep log) (d : Draws) :
    (c.advance (some keep) d).2.2 = d.skip (numbersDrawn n keep log) := by
  have hsize : c.size = n := by rw [size, ← Array.length_toList, h.arranged.length_eq]
  rw [Cycle.advance_draws, numbersDrawn, hsize]
  by_cases hn : n = 0
  · rw [hn, Nat.zero_sub, ite_self, ite_self]
  · rw [h.due_eq (Nat.pos_of_ne_zero hn)]

end Cycle

/-! ## Exchanging what is left to chance -/

/-- What is left to chance if nothing else is shuffled: the random numbers, and the two pools that
are shuffled whatever the options say. -/
structure Chance where
  draws : Draws
  greetings : Cycle
  farewells : Cycle

/-- The options leave only greetings and farewells to chance. -/
structure Script.Orderly (script : Script) : Prop where
  shuffle : script.options.shuffleChoices = false
  randomize : script.options.randomizeChoices = false

/-- The input that an action brings. A document brings one if it is a string. -/
def Action.input? : Action → Option Text
  | .transform input => some input
  | .transformJson (.string s) => some s.toList
  | _ => none

namespace State

/-- What is left to chance in a state. -/
def chance (s : State) : Chance := ⟨s.draws, s.greetings, s.farewells⟩

/-- The state with something else left to chance. -/
def withChance (c : Chance) (s : State) : State :=
  { s with draws := c.draws, greetings := c.greetings, farewells := c.farewells }

variable {script : Script} {c : Chance} {s : State}

theorem nextReply_withChance (h : script.Orderly) (k i : Nat) (rule : Rule) :
    (s.withChance c).nextReply script k i rule =
      ((s.nextReply script k i rule).1, (s.nextReply script k i rule).2.withChance c) := by
  have hrules : (s.withChance c).rules = s.rules := rfl
  rw [nextReply, nextReply, hrules, h.shuffle, h.randomize]
  rcases s.rules[k]?.bind (·[i]?) with _ | cycle
  · rfl
  · simp only [Bool.false_eq_true, if_false]
    rw [cycle.advance_none s.draws (s.withChance c).draws]
    rfl

end State

namespace Script

variable {script : Script}

theorem tryRules_withChance (h : script.Orderly) (c : Chance) (k i : Nat) (part : Text)
    (rules : List Rule) (s : State) :
    script.tryRules k part i rules (s.withChance c) =
      ((script.tryRules k part i rules s).1,
        (script.tryRules k part i rules s).2.withChance c) := by
  induction rules generalizing i s with
  | nil => rfl
  | cons rule rules ih =>
    rw [tryRules, tryRules]
    rcases rule.decompose part with _ | captures
    · exact ih _ s
    · dsimp only
      rw [State.nextReply_withChance h]
      rcases s.nextReply script k i rule with ⟨_ | template, t⟩
      · exact ih _ t
      · dsimp only
        rcases script.redirect? template with _ | ⟨name, place⟩
        · dsimp only
          split
          · exact ih _ (t.remember (script.fill template captures))
          · rfl
        · rfl

theorem visit_withChance (h : script.Orderly) (c : Chance) (k : Nat) (part : Text) (s : State) :
    script.visit k part (s.withChance c) =
      ((script.visit k part s).1, (script.visit k part s).2.withChance c) := by
  rw [visit, visit]
  rcases script.keywords[k]? with _ | keyword
  · rfl
  · exact tryRules_withChance h c k 0 part keyword.rules s

theorem follow_withChance (h : script.Orderly) (c : Chance) (part : Text) (n k : Nat) (s : State) :
    script.follow part n k (s.withChance c) =
      ((script.follow part n k s).1, (script.follow part n k s).2.withChance c) := by
  induction n generalizing k s with
  | zero =>
    rw [follow, follow, visit_withChance h]
    rcases script.visit k part s with ⟨_ | text | ⟨name, place⟩, t⟩ <;> rfl
  | succ n ih =>
    rw [follow, follow, visit_withChance h]
    rcases script.visit k part s with ⟨_ | text | ⟨name, place⟩, t⟩
    · rfl
    · rfl
    · exact ih place t

theorem consult_withChance (h : script.Orderly) (c : Chance) (k : Nat) (part : Text) (s : State) :
    script.consult k part (s.withChance c) =
      ((script.consult k part s).1, (script.consult k part s).2.withChance c) :=
  follow_withChance h c part script.options.maxRedirectDepth k s

theorem answerPart_withChance (h : script.Orderly) (c : Chance) (part : Text) (place : Nat)
    (keywords : List Keyword) (s : State) :
    script.answerPart part place keywords (s.withChance c) =
      ((script.answerPart part place keywords s).1,
        (script.answerPart part place keywords s).2.withChance c) := by
  induction keywords generalizing place s with
  | nil => rfl
  | cons keyword keywords ih =>
    rw [answerPart, answerPart]
    split
    · rw [consult_withChance h]
      rcases script.consult place part s with ⟨failure | _ | ⟨first, reply⟩, t⟩
      · exact ih _ t
      · exact ih _ t
      · rfl
    · exact ih _ s

/-- **The search for a reply neither sees nor changes what is left to chance.** -/
theorem answerParts_withChance (h : script.Orderly) (c : Chance) (parts : List Text) (s : State) :
    script.answerParts parts (s.withChance c) =
      ((script.answerParts parts s).1, (script.answerParts parts s).2.withChance c) := by
  induction parts generalizing s with
  | nil => rfl
  | cons part parts ih =>
    rw [answerParts, answerParts]
    split
    · rfl
    · rw [answerPart_withChance h]
      rcases script.answerPart (script.pre.apply part) 0 script.keywords s with ⟨_ | reply, t⟩
      · exact ih t
      · rfl

end Script

/-! ## Replies that are foreseen -/

namespace State

variable {script : Script} {s : State}

theorem evade_withChance (h : script.Orderly) (c : Chance) (s : State) :
    (s.withChance c).evade script = ((s.evade script).1, (s.evade script).2.withChance c) := by
  have hevasions : (s.withChance c).evasions = s.evasions := rfl
  rw [evade, evade, h.shuffle, hevasions]
  simp only [Bool.false_eq_true, if_false]
  rw [s.evasions.advance_none s.draws (s.withChance c).draws]
  rfl

theorem prompt_withChance (h : script.Orderly) (c : Chance) (s : State) :
    (s.withChance c).prompt script = ((s.prompt script).1, (s.prompt script).2.withChance c) := by
  have hprompts : (s.withChance c).prompts = s.prompts := rfl
  rw [prompt, prompt, h.shuffle, hprompts]
  simp only [Bool.false_eq_true, if_false]
  rw [s.prompts.advance_none s.draws (s.withChance c).draws]
  rfl

theorem recollect_withChance (h : script.Orderly) (c : Chance) (s : State) :
    (s.withChance c).recollect script =
      ((s.recollect script).1, (s.recollect script).2.withChance c) := by
  have hmemory : (s.withChance c).memory = s.memory := rfl
  rw [recollect, recollect, h.randomize, hmemory, Memory.pop, Memory.pop]
  rcases s.memory.replies with _ | ⟨oldest, rest⟩ <;> rfl

theorem lastResort_withChance (h : script.Orderly) (c : Chance) (s : State) :
    (s.withChance c).lastResort script =
      ((s.lastResort script).1, (s.lastResort script).2.withChance c) := by
  rw [lastResort, lastResort, recollect_withChance h]
  dsimp only
  rcases Text.nonempty? (s.recollect script).1 with _ | reply
  · dsimp only
    rw [evade_withChance h]
  · rfl

/-- Whatever is left to chance, an answer comes to the same: to a reply with which the conversation
goes on, or to its end, which takes a farewell. -/
inductive Foreseen (script : Script) (answer : State → Text × State) (s : State) : Prop
  | goesOn (reply : Text) (t : State) (hactive : t.quit = false)
      (h : ∀ c, answer (s.withChance c) = (reply, t.withChance c))
  | ends (t : State) (hquit : t.quit = true)
      (h : ∀ c, (answer (s.withChance c)).2 = ((t.withChance c).bidFarewell script).2)

theorem Foreseen.of_eq {t : State} {answer answer' : State → Text × State}
    (ht : t.Foreseen script answer')
    (h : ∀ c, answer (s.withChance c) = answer' (t.withChance c)) : s.Foreseen script answer := by
  rcases ht with ⟨reply, u, hactive, hu⟩ | ⟨u, hquit, hu⟩
  · exact .goesOn reply u hactive fun c ↦ (h c).trans (hu c)
  · exact .ends u hquit fun c ↦ (congrArg Prod.snd (h c)).trans (hu c)

theorem foreseen_replyToParts (h : script.Orderly) (hs : s.quit = false) (parts : List Text) :
    s.Foreseen script (replyToParts script parts) := by
  have hquit : (script.answerParts parts s).2.quit = false := by rw [Script.quit_answerParts, hs]
  have hanswer (c : Chance) := Script.answerParts_withChance h c parts s
  rcases hparts : script.answerParts parts s with ⟨_ | text | _, t⟩ <;>
    rw [hparts] at hquit hanswer
  · refine .ends { t with quit := true } rfl fun c ↦ ?_
    rw [replyToParts, hanswer]
    rfl
  · refine .goesOn text t hquit fun c ↦ ?_
    rw [replyToParts, hanswer]
  · refine .goesOn (t.lastResort script).1 (t.lastResort script).2 ?_ fun c ↦ ?_
    · rw [quit_lastResort]
      exact hquit
    · rw [replyToParts, hanswer]
      exact lastResort_withChance h c t

/-- **The reply to an input is foreseen.** -/
theorem foreseen_reply (h : script.Orderly) (input : Text) (s : State) :
    s.Foreseen script (reply script input) := by
  have hquit (c : Chance) : (s.withChance c).quit = s.quit := rfl
  by_cases hs : s.quit = true
  · refine .ends s hs fun c ↦ ?_
    rw [reply, hquit, if_pos hs]
  · rw [Bool.not_eq_true] at hs
    by_cases hphrase : script.holdsQuitPhrase (script.options.normalize input)
    · refine .ends { s with quit := true } rfl fun c ↦ ?_
      simp only [reply, hquit, hs, hphrase, if_true]
      rfl
    · by_cases hparts : (script.options.normalize input).parts.isEmpty
      · rcases hsaid : Text.nonempty? (s.prompt script).1 with _ | said
        · have hprompt : (s.prompt script).2.quit = false := hs
          refine (foreseen_replyToParts h hprompt (script.options.normalize input).parts).of_eq
            fun c ↦ ?_
          simp only [reply, hquit, hs, hphrase, hparts, prompt_withChance h, hsaid]
          rfl
        · refine .goesOn said (s.prompt script).2 hs fun c ↦ ?_
          simp only [reply, hquit, hs, hphrase, hparts, prompt_withChance h, hsaid]
          rfl
      · refine (foreseen_replyToParts h hs (script.options.normalize input).parts).of_eq
          fun c ↦ ?_
        simp only [reply, hquit, hs, hphrase, hparts]
        rfl

theorem foreseen_transform (h : script.Orderly) (input : Text) (s : State) :
    s.Foreseen script (transform script input) := by
  rcases foreseen_reply h input s with ⟨reply, t, hactive, hreply⟩ | ⟨t, hquit, hreply⟩
  · refine .goesOn (contract (if script.options.lowercaseOutput then lowercase reply else reply)) t
      hactive fun c ↦ ?_
    rw [transform, hreply]
  · exact .ends t hquit hreply

/-- A turn draws numbers only if it ends the conversation, and then for its farewell. -/
theorem draws_transform (h : script.Orderly) (input : Text) (s : State) :
    (s.transform script input).2.draws =
      if (s.transform script input).2.quit then (s.bidFarewell script).2.draws else s.draws := by
  rcases foreseen_transform h input s with ⟨reply, t, hactive, hreply⟩ | ⟨t, hquit, hreply⟩
  · have hs : s.transform script input = (reply, t.withChance s.chance) := hreply s.chance
    have hgoesOn : ¬ (t.withChance s.chance).quit = true := by simp [withChance, hactive]
    rw [hs, if_neg hgoesOn]
    rfl
  · have hs : (s.transform script input).2 = ((t.withChance s.chance).bidFarewell script).2 :=
      hreply s.chance
    have hends : ((t.withChance s.chance).bidFarewell script).2.quit = true := hquit
    rw [hs, if_pos hends]
    rfl

/-! ## Actions -/

/-- What an action with a conversation can be. -/
theorem act_cases (script : Script) (action : Action) :
    (∃ input, action.input? = some input) ∨ action = .greet ∨ action = .bidFarewell ∨
      action = .reset ∨
      action.input? = none ∧ ∃ failure, ∀ s, act script s action = (.failure failure, s) := by
  rcases action with input | (_ | _ | _ | text | _ | _) | _ | _ | _
  case transform => exact .inl ⟨input, rfl⟩
  case transformJson.string => exact .inl ⟨text.toList, rfl⟩
  case greet => exact .inr (.inl rfl)
  case bidFarewell => exact .inr (.inr (.inl rfl))
  case reset => exact .inr (.inr (.inr (.inl rfl)))
  all_goals exact .inr (.inr (.inr (.inr ⟨rfl, _, fun _ ↦ rfl⟩)))

theorem act_of_input? {action : Action} {input : Text} (h : action.input? = some input) :
    s.act script action =
      (.reply (s.transform script input).1, (s.transform script input).2) := by
  rcases action with said | (_ | _ | _ | text | _ | _) | _ | _ | _
  case transform =>
    obtain rfl : said = input := Option.some.inj h
    rfl
  case transformJson.string =>
    obtain rfl : text.toList = input := Option.some.inj h
    rfl
  all_goals exact absurd h (Option.some_ne_none _).symm

/-- Only what is left to chance after an action depends on what was left to chance before. -/
theorem exists_act_withChance (h : script.Orderly) (c : Chance) (s : State) (action : Action) :
    ∃ c', ((s.withChance c).act script action).2 = (s.act script action).2.withChance c' := by
  rcases act_cases script action with ⟨input, hinput⟩ | rfl | rfl | rfl | ⟨-, failure, hrefused⟩
  · rw [act_of_input? hinput, act_of_input? hinput]
    dsimp only
    rcases foreseen_transform h input s with ⟨reply, t, -, hreply⟩ | ⟨t, -, hreply⟩
    · have hs : s.transform script input = (reply, t.withChance s.chance) := hreply s.chance
      rw [hreply c, hs]
      exact ⟨c, rfl⟩
    · have hs : (s.transform script input).2 = ((t.withChance s.chance).bidFarewell script).2 :=
        hreply s.chance
      rw [hreply c, hs]
      exact ⟨((t.withChance c).bidFarewell script).2.chance, rfl⟩
  · exact ⟨((s.withChance c).greet script).2.chance, rfl⟩
  · exact ⟨((s.withChance c).bidFarewell script).2.chance, rfl⟩
  · exact ⟨((s.withChance c).reset).chance, rfl⟩
  · rw [hrefused, hrefused]
    exact ⟨c, rfl⟩

/-- While the conversation goes on, only greetings and farewells are left to chance. -/
theorem response_withChance (h : script.Orderly) (c : Chance) {s : State} {action : Action}
    (hgreet : action ≠ .greet) (hfarewell : action ≠ .bidFarewell)
    (hactive : (s.act script action).2.quit = false) :
    ((s.withChance c).act script action).1 = (s.act script action).1 := by
  rcases act_cases script action with ⟨input, hinput⟩ | rfl | rfl | rfl | ⟨-, failure, hrefused⟩
  · rw [act_of_input? hinput] at hactive
    rw [act_of_input? hinput, act_of_input? hinput]
    dsimp only at hactive ⊢
    rcases foreseen_transform h input s with ⟨reply, t, -, hreply⟩ | ⟨t, hquit, hreply⟩
    · have hs : s.transform script input = (reply, t.withChance s.chance) := hreply s.chance
      rw [hreply c, hs]
    · have hs : (s.transform script input).2 = ((t.withChance s.chance).bidFarewell script).2 :=
        hreply s.chance
      rw [hs] at hactive
      exact absurd (hquit.symm.trans hactive) Bool.noConfusion
  · exact absurd rfl hgreet
  · exact absurd rfl hfarewell
  · rfl
  · rw [hrefused, hrefused]

/-- While the conversation goes on, no numbers are drawn but for greetings and farewells. -/
theorem draws_act_of_active (h : script.Orderly) {s : State} {action : Action}
    (hgreet : action ≠ .greet) (hfarewell : action ≠ .bidFarewell) (hreset : action ≠ .reset)
    (hactive : (s.act script action).2.quit = false) :
    (s.act script action).2.draws = s.draws := by
  rcases act_cases script action with ⟨input, hinput⟩ | rfl | rfl | rfl | ⟨-, failure, hrefused⟩
  · rw [act_of_input? hinput] at hactive ⊢
    dsimp only at hactive ⊢
    rw [draws_transform h, if_neg (by simp [hactive])]
  · exact absurd rfl hgreet
  · exact absurd rfl hfarewell
  · exact absurd rfl hreset
  · rw [hrefused]

/-- The next greeting draws numbers if it starts a round. -/
theorem Tracks.draws_greet {log : List Nat} (h : s.Tracks script .greetings log) :
    (s.greet script).2.draws = s.draws.skip (Cycle.numbersDrawn script.greetings.length
      script.options.fixedInitial log) :=
  Cycle.Follows.advance_draws h s.draws

/-- The next farewell draws numbers if it starts a round. -/
theorem Tracks.draws_bidFarewell {log : List Nat} (h : s.Tracks script .farewells log) :
    (s.bidFarewell script).2.draws = s.draws.skip (Cycle.numbersDrawn script.farewells.length
      script.options.fixedFinal log) :=
  Cycle.Follows.advance_draws h s.draws

end State

/-! ## Sessions -/

namespace Session

variable {script : Script} {s t : Session}

/-- The sessions differ at most in what is left to chance, and in their factories. -/
def SameButForChance (s t : Session) : Prop := ∃ c, t.state = s.state.withChance c

theorem SameButForChance.act (h : script.Orderly) (hst : s.SameButForChance t) (action : Action) :
    (s.act script action).2.SameButForChance (t.act script action).2 := by
  obtain ⟨c, hc⟩ := hst
  by_cases hreset : action = .reset
  · subst hreset
    refine ⟨(t.act script .reset).2.state.chance, ?_⟩
    simp only [Session.act, hc]
    rfl
  · obtain ⟨c', hc'⟩ := State.exists_act_withChance h c s.state action
    refine ⟨c', ?_⟩
    rw [act_of_ne_reset hreset, act_of_ne_reset hreset, hc]
    exact hc'

theorem SameButForChance.run (h : script.Orderly) (hst : s.SameButForChance t)
    (actions : List Action) :
    (s.run script actions).2.SameButForChance (t.run script actions).2 := by
  induction actions generalizing s t with
  | nil => exact hst
  | cons action actions ih => exact ih (hst.act h action)

theorem SameButForChance.quit_eq (hst : s.SameButForChance t) : t.state.quit = s.state.quit := by
  obtain ⟨c, hc⟩ := hst
  rw [hc]
  rfl

theorem SameButForChance.memory_eq (hst : s.SameButForChance t) :
    t.state.memory = s.state.memory := by
  obtain ⟨c, hc⟩ := hst
  rw [hc]
  rfl

theorem SameButForChance.response_eq (h : script.Orderly) (hst : s.SameButForChance t)
    {action : Action} (hgreet : action ≠ .greet) (hfarewell : action ≠ .bidFarewell)
    (hactive : (s.act script action).2.state.quit = false) :
    (t.act script action).1 = (s.act script action).1 := by
  obtain ⟨c, hc⟩ := hst
  by_cases hreset : action = .reset
  · subst hreset
    rfl
  · rw [act_of_ne_reset hreset] at hactive ⊢
    rw [act_of_ne_reset hreset, hc]
    exact State.response_withChance h c hgreet hfarewell hactive

/-- **Without shuffling and random replies, little is left to chance.** Two sessions about such a
script that are used in the same way agree on whether they have ended, on how much they keep in
memory, and on every response but greetings and farewells. A turn draws no random numbers while the
conversation goes on. A greeting draws them if it starts a round of its pool, one for each entry
that may change its place, and so does a farewell, also one that ends the conversation. -/
theorem leaves_little_to_chance (script : Script)
    (hshuffle : script.options.shuffleChoices = false)
    (hrandom : script.options.randomizeChoices = false) (f g : Factory) (before : List Action)
    (action : Action) :
    let s := ((start script f).run script before).2
    let t := ((start script g).run script before).2
    let s' := s.act script action
    let t' := t.act script action
    let asked := fun pool ↦ (start script f).chosen script pool [] before
    let greeting := Cycle.numbersDrawn script.greetings.length script.options.fixedInitial
      (asked .greetings)
    let farewell := Cycle.numbersDrawn script.farewells.length script.options.fixedFinal
      (asked .farewells)
    s.state.quit = t.state.quit ∧ s'.2.state.quit = t'.2.state.quit ∧
    s.state.memory.size = t.state.memory.size ∧
    s'.2.state.memory.size = t'.2.state.memory.size ∧
    (action ≠ .greet → action ≠ .bidFarewell → s'.2.state.quit = false → s'.1 = t'.1) ∧
    (action ≠ .greet → action ≠ .bidFarewell → action ≠ .reset → s'.2.state.quit = false →
      s'.2.state.draws = s.state.draws) ∧
    ((∃ input, action.input? = some input) → s'.2.state.quit = true →
      s'.2.state.draws = s.state.draws.skip farewell) ∧
    (action = .greet → s'.2.state.draws = s.state.draws.skip greeting) ∧
    (action = .bidFarewell → s'.2.state.draws = s.state.draws.skip farewell) := by
  intro s t s' t' asked greeting farewell
  have h : script.Orderly := ⟨hshuffle, hrandom⟩
  have hstart : (start script f).SameButForChance (start script g) :=
    ⟨(start script g).state.chance, rfl⟩
  have hst : s.SameButForChance t := hstart.run h before
  have hst' : s'.2.SameButForChance t'.2 := hst.act h action
  have hact (hreset : action ≠ .reset) : s'.2.state = (s.state.act script action).2 := by
    simp only [s', act_of_ne_reset hreset]
  have htracks (pool : Pool) (hcyclic : pool.Cyclic script) :
      s.state.Tracks script pool (asked pool) := tracks_run hcyclic (State.tracks_start _)
  have hgreetings := (htracks .greetings trivial).draws_greet
  have hfarewells := (htracks .farewells trivial).draws_bidFarewell
  refine ⟨hst.quit_eq.symm, hst'.quit_eq.symm, by rw [hst.memory_eq], by rw [hst'.memory_eq], ?_,
    ?_, ?_, ?_, ?_⟩
  · intro hgreet hfarewell hactive
    exact (hst.response_eq h hgreet hfarewell hactive).symm
  · intro hgreet hfarewell hreset hactive
    rw [hact hreset] at hactive ⊢
    exact State.draws_act_of_active h hgreet hfarewell hreset hactive
  · rintro ⟨input, hinput⟩ hquit
    have hreset : action ≠ .reset := by
      rintro rfl
      exact Option.some_ne_none _ hinput.symm
    rw [hact hreset, State.act_of_input? hinput] at hquit ⊢
    rw [State.draws_transform h, if_pos hquit, hfarewells]
  · rintro rfl
    exact hgreetings
  · rintro rfl
    exact hfarewells

/-- A greeting draws numbers for two of three places, the first being kept, and so does the end of
the conversation for its two farewells. What is said before is the same in both sessions. -/
theorem bye_draws_two :
    let script : Script :=
      { options := { fixedInitial := 1 }, greetings := [['a'], ['b'], ['c']],
        farewells := [['d'], ['e']], quitParts := ["bye".toList], quitPhrases := [],
        evasions := [['f'], ['g']], prompts := [], pre := {}, post := {}, tags := [],
        keywords := [] }
    let new := start script (.seeded fun _ _ ↦ 0.0)
    let s := (new.run script [.transform ['x']]).2
    let t := ((start script (.seeded fun _ _ ↦ 0.5)).run script [.transform ['x']]).2
    script.options.shuffleChoices = false ∧ script.options.randomizeChoices = false ∧
      (s.act script (.transform ['y'])).1 = (t.act script (.transform ['y'])).1 ∧
      (s.act script .greet).2.state.draws = s.state.draws.skip 2 ∧
      (s.act script (.transform "bye".toList)).2.state.draws = s.state.draws.skip 2 := by
  intro script
  have little (action : Action) :=
    leaves_little_to_chance script rfl rfl (.seeded fun _ _ ↦ 0.0) (.seeded fun _ _ ↦ 0.5)
      [.transform ['x']] action
  obtain ⟨-, -, -, -, hsame, -⟩ := little (.transform ['y'])
  obtain ⟨-, -, -, -, -, -, -, hgreet, -⟩ := little .greet
  obtain ⟨-, -, -, -, -, -, hleave, -⟩ := little (.transform "bye".toList)
  refine ⟨rfl, rfl, hsame (by simp) (by simp) (by decide +kernel), (hgreet rfl).trans ?_,
    (hleave ⟨_, rfl⟩ (by decide +kernel)).trans ?_⟩
  -- neither pool was asked before
  · exact congrArg (Draws.skip · _) (by decide +kernel)
  · exact congrArg (Draws.skip · _) (by decide +kernel)

end Session

end Dialogue
