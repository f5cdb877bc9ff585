import Dialogue.Conversation.Session
import Dialogue.Proofs.Conversation.Invariants
import Mathlib.Data.List.Basic

/-!
# Starting anew

A reset clears the state of a conversation field by field, while a new conversation builds its
state from the script. Both come to the same because the state always *fits* the script: it has a
cycle for every pool and every rule, with as many places as there are replies, and room in memory
for as many replies as the options say.

So a session that was reset goes on like a new one, whatever happened before, provided that its
factory makes the same source of random numbers again.
-/

namespace Dialogue

/-! ## Cycles keep their size -/

namespace Cycle

theorem reset_eq_ofSize (c : Cycle) : c.reset = ofSize c.size := by
  have order : (c.order.mapIdx fun place _ ↦ place) = Array.range c.size := by
    apply Array.ext <;> simp [size]
  rw [reset, ofSize, order]

@[simp] theorem size_ofSize (n : Nat) : (ofSize n).size = n := Array.size_range

@[simp] theorem size_advance (c : Cycle) (shuffle : Option Nat) (d : Draws) :
    (c.advance shuffle d).2.1.size = c.size := by
  rw [advance]
  split
  · rfl
  · cases shuffle with
    | none => rfl
    | some keep =>
      by_cases h : c.due = 0
      · simp only [h, if_true]
        exact Draws.size_shuffleFrom d keep _ c.order
      · simp only [h, if_false]
        rfl

@[simp] theorem size_pick (c : Cycle) (d : Draws) : (c.pick d).2.1.size = c.size := by
  rw [pick]
  split <;> rfl

end Cycle

/-! ## The state fits the script -/

/-- The state has room for what the script asks for: a cycle of the right size for every rule and
every pool, and a memory of the right capacity. -/
structure State.Fits (script : Script) (s : State) : Prop where
  memory : s.memory.capacity = script.options.memorySize
  rules : s.rules.map (·.map Cycle.size) =
    script.keywords.map fun keyword ↦ keyword.rules.map (·.replies.length)
  greetings : s.greetings.size = script.greetings.length
  farewells : s.farewells.size = script.farewells.length
  evasions : s.evasions.size = script.evasions.length
  prompts : s.prompts.size = script.prompts.length

namespace State

variable {script : Script}

theorem fits_start (script : Script) (source : Source) : (start script source).Fits script where
  memory := rfl
  rules := by simp [start, Function.comp_def]
  greetings := Cycle.size_ofSize _
  farewells := Cycle.size_ofSize _
  evasions := Cycle.size_ofSize _
  prompts := Cycle.size_ofSize _

/-- **A state that fits the script, cleared field by field, is the state of a new conversation.** -/
theorem Fits.restart_eq_start {s : State} (h : s.Fits script) (source : Source) :
    s.restart source = start script source := by
  have rules : s.rules.map (·.map Cycle.reset) =
      script.keywords.map fun keyword ↦
        keyword.rules.map fun rule ↦ .ofSize rule.replies.length := by
    calc s.rules.map (·.map Cycle.reset)
        = (s.rules.map (·.map Cycle.size)).map (·.map Cycle.ofSize) := by
          simp [Function.comp_def, Cycle.reset_eq_ofSize]
      _ = script.keywords.map fun keyword ↦
            keyword.rules.map fun rule ↦ .ofSize rule.replies.length := by
          simp [h.rules, Function.comp_def]
  rw [restart, start, rules, Memory.clear, h.memory, Cycle.reset_eq_ofSize, h.greetings,
    Cycle.reset_eq_ofSize, h.farewells, Cycle.reset_eq_ofSize, h.evasions, Cycle.reset_eq_ofSize,
    h.prompts]

theorem Fits.restart {s : State} (h : s.Fits script) (source : Source) :
    (s.restart source).Fits script := h.restart_eq_start source ▸ fits_start script source

/-- Exchanging a cycle for one of the same size changes no size. -/
private theorem map_size_modify {rules : List (List Cycle)} {k i : Nat} {c c' : Cycle}
    (h : rules[k]?.bind (·[i]?) = some c) (hsize : c'.size = c.size) :
    (rules.modify k (·.set i c')).map (·.map Cycle.size) = rules.map (·.map Cycle.size) := by
  obtain ⟨cycles, hk, hi⟩ := Option.bind_eq_some_iff.1 h
  have hsame : (cycles.map Cycle.size).set i c.size = cycles.map Cycle.size := by
    obtain ⟨hlt, rfl⟩ := List.getElem?_eq_some_iff.1 hi
    rw [← List.map_set, List.set_getElem_self]
  apply List.ext_getElem?
  intro j
  simp only [List.getElem?_map, List.getElem?_modify]
  by_cases hj : k = j
  · subst hj
    simp [hk, List.map_set, hsize, hsame]
  · simp [hj]

theorem Fits.nextReply {k i : Nat} {rule : Rule} {s : State} (h : s.Fits script) :
    (s.nextReply script k i rule).2.Fits script := by
  rw [State.nextReply]
  split
  · exact h
  · rename_i c hc
    by_cases hrandom : script.options.randomizeChoices
    · simp only [hrandom, if_true]
      exact { h with rules := (map_size_modify hc (c.size_pick _)).trans h.rules }
    · simp only [hrandom]
      exact { h with rules := (map_size_modify hc (c.size_advance _ _)).trans h.rules }

theorem Fits.recollect {s : State} (h : s.Fits script) : (s.recollect script).2.Fits script := by
  have hcapacity (random : Bool) (d : Draws) :
      (s.memory.pop random d).2.1.capacity = s.memory.capacity := by
    rcases s.memory.pop_cases random d with ⟨-, hpop⟩ | ⟨_, _, _, -, -, hpop⟩ <;> rw [hpop]
  exact { h with memory := (hcapacity _ _).trans h.memory }

/-- **Every action keeps the state fitting.** -/
theorem kept_fits (script : Script) : script.Kept (Fits script) where
  nextReply _ _ h := h.nextReply
  remember h := { h with }
  recollect h := h.recollect
  evade h := { h with evasions := (Cycle.size_advance _ _ _).trans h.evasions }
  prompt h := { h with prompts := (Cycle.size_advance _ _ _).trans h.prompts }
  greet {s} h :=
    have hsize := s.greetings.size_advance (some script.options.fixedInitial) s.draws
    { h with greetings := hsize.trans h.greetings }
  bidFarewell {s} h :=
    have hsize := s.farewells.size_advance (some script.options.fixedFinal) s.draws
    { h with farewells := hsize.trans h.farewells }
  quit h := { h with }
  restart h := h.restart _

end State

/-! ## Sessions -/

theorem Factory.steady_seeded (others : Nat → Source) {o : Options} (h : 0 ≤ o.seed) :
    (seeded others).Steady o.seed? := by
  rw [Options.seed?, if_neg (Int.not_lt.2 h)]
  exact fun made ↦ rfl

namespace Session

variable {script : Script} {s t : Session}

theorem factory_act (action : Action) : (s.act script action).2.factory = s.factory := by
  by_cases h : action = .reset
  · subst h
    rfl
  · rw [act_of_ne_reset h]

theorem factory_run (actions : List Action) : (s.run script actions).2.factory = s.factory := by
  induction actions generalizing s with
  | nil => rfl
  | cons action actions ih => rw [run_cons, ih, factory_act]

theorem fits_run (h : s.state.Fits script) (actions : List Action) :
    (s.run script actions).2.state.Fits script := (State.kept_fits script).run h actions

/-- The sessions differ at most in the number of sources made. -/
structure Alike (s t : Session) : Prop where
  factory : s.factory = t.factory
  state : s.state = t.state

/-- An action has the same response in sessions that are alike, and keeps them alike: only a reset
looks at the number of sources made, and a steady factory does not. -/
theorem Alike.act (h : Alike s t) (steady : s.factory.Steady script.options.seed?)
    (action : Action) : (s.act script action).1 = (t.act script action).1 ∧
      Alike (s.act script action).2 (t.act script action).2 := by
  by_cases hreset : action = .reset
  · -- the sources made differ in number, but not in what they give
    subst hreset
    have source : s.factory s.made script.options.seed? =
        t.factory t.made script.options.seed? := by
      rw [← h.factory, steady, steady t.made]
    refine ⟨rfl, ⟨h.factory, ?_⟩⟩
    simp only [Session.act, source, h.state]
  · rw [act_of_ne_reset hreset, act_of_ne_reset hreset, h.state]
    exact ⟨rfl, ⟨h.factory, rfl⟩⟩

theorem Alike.run (h : Alike s t) (steady : s.factory.Steady script.options.seed?)
    (actions : List Action) : (s.run script actions).1 = (t.run script actions).1 := by
  induction actions generalizing s t with
  | nil => rfl
  | cons action actions ih =>
    obtain ⟨response, alike⟩ := h.act steady action
    have sights := ih alike (by rwa [factory_act])
    simp only [run_cons, response, alike.state, sights]

/-- **A session that was reset goes on like a new one.** Whatever was done before the reset, what
is seen afterwards is what would be seen of a new session, if the factory makes the same source of
random numbers each time, as it does for a seed that is fixed. -/
theorem run_after_reset (script : Script) :
    (∀ factory : Factory, factory.Steady script.options.seed? → ∀ before after : List Action,
      ((((start script factory).run script before).2.act script .reset).2.run script after).1 =
        ((start script factory).run script after).1) ∧
    (0 ≤ script.options.seed → ∀ others, (Factory.seeded others).Steady script.options.seed?) := by
  refine ⟨?_, fun h others ↦ Factory.steady_seeded others h⟩
  intro factory steady before after
  have hfactory : ((start script factory).run script before).2.factory = factory :=
    factory_run before
  have hfits : ((start script factory).run script before).2.state.Fits script :=
    fits_run (State.fits_start script _) before
  -- of what was done before, only these two facts are needed
  generalize ((start script factory).run script before).2 = s at hfactory hfits
  have hstate : (s.act script .reset).2.state = (start script factory).state := by
    rw [act, hfits.restart_eq_start, hfactory, steady]
    rfl
  have alike : Alike (s.act script .reset).2 (start script factory) := ⟨hfactory, hstate⟩
  refine alike.run ?_ after
  rwa [factory_act, hfactory]

/-- A script that shuffles its greetings, under the seed 7. -/
theorem run_after_reset_shuffled :
    let script : Script :=
      { options := { seed := 7 }, greetings := [['a'], ['b'], ['c']], farewells := [['d']],
        quitParts := [], quitPhrases := [], evasions := [['e'], ['f']], prompts := [], pre := {},
        post := {}, tags := [], keywords := [] }
    let factory := Factory.seeded fun _ _ ↦ 0.0
    0 ≤ script.options.seed ∧
      ((((start script factory).run script [.greet, .transform ['x'], .greet]).2.act script
        .reset).2.run script [.greet, .transform ['y'], .bidFarewell]).1 =
        ((start script factory).run script [.greet, .transform ['y'], .bidFarewell]).1 := by
  intro script factory
  have seed : 0 ≤ script.options.seed := by decide
  exact ⟨seed, (run_after_reset script).1 factory ((run_after_reset script).2 seed _) _ _⟩

end Session

end Dialogue
