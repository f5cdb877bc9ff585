import Dialogue.Proofs.Conversation.Course
import Dialogue.Proofs.Conversation.Rounds

/-!
# Replies are chosen fairly

The moves of a conversation choose replies from the pools of the script and from its rules, each of
which has a cycle of its own. What was chosen from one of them since the conversation last started
anew is its log. The log takes down every choice, even if the reply is empty and given up for
another one.

Whatever is said in a conversation, its cycles follow these logs, so replies are chosen in rounds.
Only the rules may be told to choose at random.
-/

namespace Dialogue

/-- Where replies are chosen from: a pool of the script, or a rule, named by its keyword's place and
its own. -/
inductive Pool where
  | greetings
  | farewells
  | evasions
  | prompts
  | rule (keyword index : Nat)
deriving DecidableEq

/-- The pool that a move chooses from. -/
def Move.pool? : Move → Option Pool
  | .visit (.next keyword index) => some (.rule keyword index)
  | .evade => some .evasions
  | .prompt => some .prompts
  | .greet => some .greetings
  | .bidFarewell => some .farewells
  | _ => none

namespace Pool

variable (script : Script)

/-- The replies to choose from. -/
def replies : Pool → List Text
  | .greetings => script.greetings
  | .farewells => script.farewells
  | .evasions => script.evasions
  | .prompts => script.prompts
  | .rule keyword index => (script.rule? keyword index).elim [] (·.replies)

/-- The number of replies that are never shuffled. -/
def keep : Pool → Nat
  | .greetings => script.options.fixedInitial
  | .farewells => script.options.fixedFinal
  | pool => if script.options.shuffleChoices then 0 else (pool.replies script).length

theorem keep_rule (k i : Nat) : (rule k i).keep script =
    if script.options.shuffleChoices then 0 else ((rule k i).replies script).length := rfl

/-- Chooses a reply, given the cycle of the pool. -/
def choose (cycle : Cycle) (draws : Draws) : Pool → Option Nat × Cycle × Draws
  | .greetings => cycle.advance (some script.options.fixedInitial) draws
  | .farewells => cycle.advance (some script.options.fixedFinal) draws
  | .evasions | .prompts =>
    cycle.advance (if script.options.shuffleChoices then some 0 else none) draws
  | .rule _ _ =>
    if script.options.randomizeChoices then cycle.pick draws
    else cycle.advance (if script.options.shuffleChoices then some 0 else none) draws

/-- The pool does not choose at random. -/
def Cyclic : Pool → Prop
  | .rule _ _ => script.options.randomizeChoices = false
  | _ => True

variable {script} {pool : Pool} {cycle : Cycle} {log : List Nat}

/-- **A pool chooses in rounds.** -/
theorem Cyclic.follows_choose (hcyclic : pool.Cyclic script)
    (h : cycle.Follows (pool.replies script).length (pool.keep script) log) (draws : Draws) :
    (pool.choose script cycle draws).2.1.Follows (pool.replies script).length (pool.keep script)
      (log ++ (pool.choose script cycle draws).1.toList) := by
  -- where everything may be shuffled, nothing is kept
  have hshuffle (places n : Nat)
      (hplaces : places ∈ if script.options.shuffleChoices then some 0 else none) :
      places = if script.options.shuffleChoices then 0 else n := by
    split at hplaces
    · rw [if_pos ‹_›, Option.mem_some.1 hplaces]
    · exact absurd hplaces (Option.not_mem_none _)
  cases pool with
  | greetings => exact h.advance (fun _ ↦ Option.mem_some.1 ∘ Eq.symm) draws
  | farewells => exact h.advance (fun _ ↦ Option.mem_some.1 ∘ Eq.symm) draws
  | evasions => exact h.advance (hshuffle · _) draws
  | prompts => exact h.advance (hshuffle · _) draws
  | rule k i =>
    rw [choose, hcyclic]
    exact h.advance (hshuffle · _) draws

end Pool

namespace State

variable {script : Script} {s : State} {pool : Pool} {log : List Nat}

/-! ## What is chosen -/

/-- The cycle of a pool. -/
def cycle? (script : Script) (s : State) : Pool → Option Cycle
  | .greetings => some s.greetings
  | .farewells => some s.farewells
  | .evasions => some s.evasions
  | .prompts => some s.prompts
  | .rule keyword index =>
    (script.rule? keyword index).bind fun _ ↦ s.rules[keyword]?.bind (·[index]?)

/-- The index of the reply that a move chooses from a pool. -/
def choice? (script : Script) (pool : Pool) (s : State) (move : Move) : Option Nat :=
  if move.pool? = some pool then
    (s.cycle? script pool).bind fun cycle ↦ (pool.choose script cycle s.draws).1
  else none

/-- What was chosen from a pool since the conversation last started anew, if some moves follow. -/
def chosen (script : Script) (pool : Pool) : State → List Nat → List Move → List Nat
  | _, log, [] => log
  | s, _, .reset :: moves => (s.moved script .reset).chosen script pool [] moves
  | s, log, move :: moves =>
    (s.moved script move).chosen script pool (log ++ (s.choice? script pool move).toList) moves

/-- Moves that leave a pool alone choose nothing from it. -/
theorem chosen_append {pool : Pool} {log : List Nat} {moves rest : List Move}
    (h : ∀ move ∈ moves, move ≠ .reset ∧ move.pool? ≠ some pool) :
    s.chosen script pool log (moves ++ rest) =
      (moves.foldl (moved script) s).chosen script pool log rest := by
  induction moves generalizing s with
  | nil => rfl
  | cons move moves ih =>
    obtain ⟨hreset, hpool⟩ := h move List.mem_cons_self
    rw [List.cons_append, chosen, choice?, if_neg hpool, Option.toList_none, List.append_nil]
    · exact ih fun m hm ↦ h m (List.mem_cons_of_mem _ hm)
    · exact hreset

theorem nextReply_eq {k i : Nat} {rule : Rule} {c : Cycle}
    (h : s.rules[k]?.bind (·[i]?) = some c) :
    s.nextReply script k i rule =
      let (choice, cycle, draws) := (Pool.rule k i).choose script c s.draws
      (choice.bind (rule.replies[·]?),
        { s with rules := s.rules.modify k (·.set i cycle), draws }) := by
  rw [nextReply, h]
  rfl

theorem nextReply_of_eq_none {k i : Nat} {rule : Rule}
    (h : s.rules[k]?.bind (·[i]?) = none) : s.nextReply script k i rule = (none, s) := by
  rw [nextReply, h]

/-- What a conversation says in this state, each time that it chooses a reply, is what it chooses.
Where nothing is chosen, greetings and farewells are empty, and there is no other reply. -/
structure SaysChoices (script : Script) (s : State) : Prop where
  greet : (s.greet script).1 =
    ((s.choice? script .greetings .greet).bind (script.greetings[·]?)).getD []
  bidFarewell : (s.bidFarewell script).1 =
    ((s.choice? script .farewells .bidFarewell).bind (script.farewells[·]?)).getD []
  evade : (s.evade script).1 =
    (s.choice? script .evasions .evade).bind (script.evasions[·]?)
  prompt : (s.prompt script).1 =
    (s.choice? script .prompts .prompt).bind (script.prompts[·]?)
  nextReply (k i : Nat) (rule : Rule) : script.rule? k i = some rule →
    (s.nextReply script k i rule).1 =
      (s.choice? script (.rule k i) (.visit (.next k i))).bind (rule.replies[·]?)

/-- **What is said is what was chosen.** -/
theorem saysChoices : s.SaysChoices script where
  greet := rfl
  bidFarewell := rfl
  evade := rfl
  prompt := rfl
  nextReply k i rule hrule := by
    rw [choice?, Move.pool?, if_pos rfl, cycle?, hrule, Option.bind_some]
    cases hcycle : s.rules[k]?.bind (·[i]?) with
    | none => rw [nextReply_of_eq_none hcycle]; rfl
    | some c => rw [nextReply_eq hcycle]; rfl

/-! ## The cycles behind a move -/

private theorem getElem?_modify_set {rules : List (List Cycle)} {k i k' i' : Nat} {c c' : Cycle}
    (h : rules[k]?.bind (·[i]?) = some c) :
    (rules.modify k (·.set i c'))[k']?.bind (·[i']?) =
      if k = k' ∧ i = i' then some c' else rules[k']?.bind (·[i']?) := by
  obtain ⟨cycles, hk, hi⟩ := Option.bind_eq_some_iff.1 h
  have hlt : i < cycles.length := (List.getElem?_eq_some_iff.1 hi).1
  rw [List.getElem?_modify]
  by_cases hkeyword : k = k'
  · subst hkeyword
    simp [hk, List.getElem?_set, hlt]
  · simp [hkeyword]

theorem cycle?_nextReply {k i : Nat} {rule : Rule} (hrule : script.rule? k i = some rule) :
    (s.nextReply script k i rule).2.cycle? script pool =
      if some (.rule k i) = some pool then
        (s.cycle? script pool).map fun cycle ↦ (pool.choose script cycle s.draws).2.1
      else s.cycle? script pool := by
  cases hcycle : s.rules[k]?.bind (·[i]?) with
  | none =>
    rw [nextReply_of_eq_none hcycle]
    split
    · rename_i hpool
      rw [← Option.some.inj hpool, cycle?, hrule, Option.bind_some, hcycle]
      rfl
    · rfl
  | some c =>
    rw [nextReply_eq hcycle]
    cases pool with
    | rule k' i' =>
      dsimp only [cycle?]
      rw [getElem?_modify_set hcycle]
      by_cases hplace : k = k' ∧ i = i'
      · obtain ⟨rfl, rfl⟩ := hplace
        rw [if_pos ⟨rfl, rfl⟩, if_pos rfl, hrule, Option.bind_some, Option.bind_some, hcycle]
        rfl
      · rw [if_neg hplace, if_neg (by simpa using hplace)]
    | _ => rfl

/-- **A move that chooses from a pool advances its cycle, and others leave it alone.** -/
theorem cycle?_moved {move : Move} (hmove : move ≠ .reset) :
    (s.moved script move).cycle? script pool =
      if move.pool? = some pool then
        (s.cycle? script pool).map fun cycle ↦ (pool.choose script cycle s.draws).2.1
      else s.cycle? script pool := by
  cases move with
  | visit move =>
    cases move with
    | next k i =>
      rw [moved, visited, Move.pool?]
      cases hrule : script.rule? k i with
      | some rule => exact cycle?_nextReply hrule
      | none =>
        split
        · rename_i hpool
          rw [← Option.some.inj hpool, Option.elim_none, cycle?, hrule]
          rfl
        · rfl
    | remember template captures => cases pool <;> rfl
  | reset => exact absurd rfl hmove
  | _ => cases pool <;> rfl

theorem cycle?_restart (source : Source) :
    (s.restart source).cycle? script pool = (s.cycle? script pool).map Cycle.reset := by
  cases pool with
  | rule k i =>
    simp only [cycle?, restart, List.getElem?_map]
    cases script.rule? k i <;> cases s.rules[k]? <;> simp
  | _ => rfl

/-! ## Choosing in rounds -/

/-- The cycle of the pool follows what was chosen. -/
def Tracks (script : Script) (pool : Pool) (s : State) (log : List Nat) : Prop :=
  (s.cycle? script pool).elim (log = [])
    (·.Follows (pool.replies script).length (pool.keep script) log)

theorem cycle?_start (source : Source) (k i : Nat) :
    (start script source).cycle? script (.rule k i) =
      (script.rule? k i).map fun rule ↦ .ofSize rule.replies.length := by
  simp only [cycle?, start, Script.rule?, List.getElem?_map]
  rcases script.keywords[k]? with _ | keyword
  · rfl
  · rcases hrule : keyword.rules[i]? with _ | rule <;> simp [hrule]

theorem tracks_start (source : Source) : (start script source).Tracks script pool [] := by
  cases pool with
  | rule k i =>
    rw [Tracks, cycle?_start, Pool.replies]
    cases script.rule? k i with
    | none => rfl
    | some rule => exact Cycle.follows_ofSize _ _
  | _ => exact Cycle.follows_ofSize _ _

theorem Tracks.fair (h : s.Tracks script pool log) :
    Fair (pool.replies script).length (pool.keep script) log := by
  rw [Tracks] at h
  cases hcycle : s.cycle? script pool with
  | none =>
    rw [hcycle] at h
    obtain rfl : log = [] := h
    exact (Cycle.follows_ofSize _ _).fair
  | some cycle =>
    rw [hcycle] at h
    exact Cycle.Follows.fair h

theorem Tracks.restart (h : s.Tracks script pool log) (source : Source) :
    (s.restart source).Tracks script pool [] := by
  rw [Tracks] at h ⊢
  rw [cycle?_restart]
  cases hcycle : s.cycle? script pool with
  | none => rfl
  | some cycle =>
    rw [hcycle] at h
    exact Cycle.Follows.reset h

theorem Tracks.moved (h : s.Tracks script pool log) (hcyclic : pool.Cyclic script) {move : Move}
    (hmove : move ≠ .reset) :
    (s.moved script move).Tracks script pool (log ++ (s.choice? script pool move).toList) := by
  rw [Tracks] at h ⊢
  rw [cycle?_moved hmove, choice?]
  split
  · cases hcycle : s.cycle? script pool with
    | none =>
      rw [hcycle] at h
      simpa using h
    | some cycle =>
      rw [hcycle] at h
      exact hcyclic.follows_choose h s.draws
  · rw [Option.toList_none, List.append_nil]
    exact h

theorem Tracks.foldl (hcyclic : pool.Cyclic script) {moves : List Move}
    (h : s.Tracks script pool log) :
    (moves.foldl (State.moved script) s).Tracks script pool (s.chosen script pool log moves) := by
  induction moves generalizing s log with
  | nil => exact h
  | cons move moves ih =>
    by_cases hmove : move = .reset
    · subst hmove
      exact ih (h.restart _)
    · rw [chosen]
      · exact ih (h.moved hcyclic hmove)
      · exact hmove

end State

namespace Session

/-- What was chosen from a pool since the session was last reset, if some actions follow. -/
def chosen (script : Script) (pool : Pool) : Session → List Nat → List Action → List Nat
  | _, log, [] => log
  | s, log, action :: actions =>
    (s.act script action).2.chosen script pool
      (s.state.chosen script pool log (s.state.moves script action)) actions

variable {script : Script} {s : Session} {pool : Pool} {log : List Nat}

theorem chosen_concat {before : List Action} {action : Action} :
    s.chosen script pool log (before ++ [action]) =
      (s.run script before).2.state.chosen script pool (s.chosen script pool log before)
        ((s.run script before).2.state.moves script action) := by
  induction before generalizing s log with
  | nil => rfl
  | cons first before ih => exact ih

theorem tracks_act (hcyclic : pool.Cyclic script) (h : s.state.Tracks script pool log)
    (action : Action) :
    (s.act script action).2.state.Tracks script pool
      (s.state.chosen script pool log (s.state.moves script action)) := by
  by_cases hreset : action = .reset
  · subst hreset
    exact h.restart _
  · rw [act_of_ne_reset hreset, ← State.foldl_moves]
    exact h.foldl hcyclic

theorem tracks_run (hcyclic : pool.Cyclic script) {actions : List Action}
    (h : s.state.Tracks script pool log) :
    (s.run script actions).2.state.Tracks script pool (s.chosen script pool log actions) := by
  induction actions generalizing s log with
  | nil => exact h
  | cons action actions ih => exact ih (tracks_act hcyclic h action)

theorem fair_chosen (hcyclic : pool.Cyclic script) {actions : List Action}
    (h : s.state.Tracks script pool log) :
    Fair (pool.replies script).length (pool.keep script) (s.chosen script pool log actions) :=
  (tracks_run hcyclic h).fair

/-- **Replies are chosen in rounds, whatever is said.** Only the rules may choose at random. The
choices are those of the moves that lead from each state to the next, and what is said is what is
chosen. -/
theorem chooses_in_rounds (script : Script) (factory : Factory) (actions : List Action) :
    let chosen := fun pool ↦ (start script factory).chosen script pool [] actions
    let keep := fun n ↦ if script.options.shuffleChoices then 0 else n
    Fair script.greetings.length script.options.fixedInitial (chosen .greetings) ∧
    Fair script.farewells.length script.options.fixedFinal (chosen .farewells) ∧
    Fair script.evasions.length (keep script.evasions.length) (chosen .evasions) ∧
    Fair script.prompts.length (keep script.prompts.length) (chosen .prompts) ∧
    (script.options.randomizeChoices = false → ∀ k i rule, script.rule? k i = some rule →
      Fair rule.replies.length (keep rule.replies.length) (chosen (.rule k i))) ∧
    ∀ s : State, s.SaysChoices script ∧
      ∀ action, (s.moves script action).foldl (State.moved script) s = (s.act script action).2 := by
  intro chosen keep
  have fair (pool : Pool) (hcyclic : pool.Cyclic script) :
      Fair (pool.replies script).length (pool.keep script) (chosen pool) :=
    fair_chosen hcyclic (State.tracks_start _)
  refine ⟨fair .greetings trivial, fair .farewells trivial, fair .evasions trivial,
    fair .prompts trivial, ?_, fun s ↦ ⟨s.saysChoices, s.foldl_moves⟩⟩
  intro hrandom k i rule hrule
  have hreplies : (Pool.rule k i).replies script = rule.replies := by
    rw [Pool.replies, hrule, Option.elim_some]
  have hfair := fair (.rule k i) hrandom
  rw [Pool.keep_rule, hreplies] at hfair
  exact hfair

/-- Three replies to `hi`, in turn. -/
theorem hi_chooses_in_rounds :
    let rule : Rule :=
      { decomposition := "*".toList, pattern := [.textStart, .wildcard, .textEnd],
        replies := ["ho".toList, "hey".toList, "hello".toList], memorized := false }
    let keyword : Keyword :=
      { key := "hi".toList, rank := 0, memorized := false, rules := [rule], position := 0,
        matcher := [.literal "hi".toList] }
    let script : Script :=
      { options := {}, greetings := [], farewells := [], quitParts := [], quitPhrases := [],
        evasions := [], prompts := [], pre := {}, post := {}, tags := [], keywords := [keyword] }
    let hi := Action.transform "Hi!".toList
    let chosen := (start script (.seeded fun _ _ ↦ 0.0)).chosen script (.rule 0 0) []
      [hi, hi, .reset, hi, .transform "Hi. Hi!".toList, .greet, hi, hi]
    script.options.randomizeChoices = false ∧ script.rule? 0 0 = some rule ∧
      chosen = [0, 1, 2, 0] ∧ Fair 3 3 chosen := by
  intro rule keyword script hi chosen
  have hrule : script.rule? 0 0 = some rule := rfl
  obtain ⟨-, -, -, -, hrules, -⟩ := chooses_in_rounds script (.seeded fun _ _ ↦ 0.0)
    [hi, hi, .reset, hi, .transform "Hi. Hi!".toList, .greet, hi, hi]
  exact ⟨rfl, hrule, by decide +kernel, hrules rfl 0 0 rule hrule⟩

end Session

end Dialogue
