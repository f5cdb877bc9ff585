import Dialogue.Conversation.Cycle
import Dialogue.Conversation.Memory
import Dialogue.Script.Basic

/-!
# The state of a conversation

All that changes while a conversation goes on: whether it has ended, what is kept in memory, which
replies were used last, and how many random numbers were drawn.
-/

namespace Dialogue

/-- The state of a conversation about some script. -/
structure State where
  draws : Draws
  quit : Bool := false
  memory : Memory
  /-- The cycle of each rule, by keyword and rule. -/
  rules : List (List Cycle)
  greetings : Cycle
  farewells : Cycle
  evasions : Cycle
  prompts : Cycle

namespace State

/-- The state in which a conversation starts. -/
def start (script : Script) (source : Source) : State where
  draws := { source }
  memory := { capacity := script.options.memorySize }
  rules := script.keywords.map fun keyword ↦
    keyword.rules.map fun rule ↦ .ofSize rule.replies.length
  greetings := .ofSize script.greetings.length
  farewells := .ofSize script.farewells.length
  evasions := .ofSize script.evasions.length
  prompts := .ofSize script.prompts.length

/-- The conversation starts anew, with the random numbers of some source: it goes on, memory is
emptied and every cycle is unused. -/
def restart (source : Source) (state : State) : State where
  draws := { source }
  memory := state.memory.clear
  rules := state.rules.map (·.map Cycle.reset)
  greetings := state.greetings.reset
  farewells := state.farewells.reset
  evasions := state.evasions.reset
  prompts := state.prompts.reset

/-- The conversation starts anew, with the random numbers of its source from the first one on. -/
def reset (state : State) : State := state.restart state.draws.source

/-- The next reply of a rule, given by its keyword's place and its own. -/
def nextReply (script : Script) (keyword index : Nat) (rule : Rule) (state : State) :
    Option Text × State :=
  match state.rules[keyword]?.bind (·[index]?) with
  | none => (none, state)
  | some cycle =>
    let shuffle := if script.options.shuffleChoices then some 0 else none
    let (choice, cycle, draws) :=
      if script.options.randomizeChoices then cycle.pick state.draws
      else cycle.advance shuffle state.draws
    (choice.bind (rule.replies[·]?),
      { state with rules := state.rules.modify keyword (·.set index cycle), draws })

/-- Keeps a reply for a later turn. -/
def remember (reply : Text) (state : State) : State :=
  { state with memory := state.memory.push reply }

/-- The next greeting. -/
def greet (script : Script) (state : State) : Text × State :=
  let (choice, greetings, draws) :=
    state.greetings.advance (some script.options.fixedInitial) state.draws
  ((choice.bind (script.greetings[·]?)).getD [], { state with greetings, draws })

/-- The next farewell. -/
def bidFarewell (script : Script) (state : State) : Text × State :=
  let (choice, farewells, draws) :=
    state.farewells.advance (some script.options.fixedFinal) state.draws
  ((choice.bind (script.farewells[·]?)).getD [], { state with farewells, draws })

/-- The next reply to an empty input. -/
def prompt (script : Script) (state : State) : Option Text × State :=
  let shuffle := if script.options.shuffleChoices then some 0 else none
  let (choice, prompts, draws) := state.prompts.advance shuffle state.draws
  (choice.bind (script.prompts[·]?), { state with prompts, draws })

/-- The next reply to an input that nothing else answers. -/
def evade (script : Script) (state : State) : Option Text × State :=
  let shuffle := if script.options.shuffleChoices then some 0 else none
  let (choice, evasions, draws) := state.evasions.advance shuffle state.draws
  (choice.bind (script.evasions[·]?), { state with evasions, draws })

/-- A reply from memory. -/
def recollect (script : Script) (state : State) : Option Text × State :=
  let (reply, memory, draws) := state.memory.pop script.options.randomizeChoices state.draws
  (reply, { state with memory, draws })

end State

end Dialogue
