import Dialogue.Conversation.Action
import Dialogue.Random.Seeded

/-!
# Sessions

A session is a conversation that sees to its random numbers itself. It has a `Factory`, which makes
a source when the session begins and another one whenever it is reset. A factory that draws on the
outside world makes a new source each time, while `Factory.seeded` makes the same one of a fixed
seed.

What one sees of a session is the response to each action, whether the conversation has ended, and
how many replies are kept in memory.
-/

namespace Dialogue

/-- Makes sources of random numbers, given how many it has made before and the seed, if one is
fixed. -/
abbrev Factory := Nat → Option UInt64 → Source

namespace Factory

/-- Makes the source of the seed. Without a seed it hands out some sources in turn. -/
def seeded (others : Nat → Source) : Factory
  | _, some seed => .seeded seed
  | made, none => others made

/-- The factory makes the same source of this seed each time. -/
def Steady (factory : Factory) (seed? : Option UInt64) : Prop :=
  ∀ made, factory made seed? = factory 0 seed?

end Factory

/-- A conversation, and what makes its random numbers. -/
structure Session where
  factory : Factory
  /-- How many sources the factory has made. -/
  made : Nat
  state : State

/-- What one sees of a session after an action. -/
structure Sight where
  response : Response
  quit : Bool
  /-- The number of replies kept in memory. -/
  kept : Nat
deriving Repr, DecidableEq

namespace Session

/-- A new session about some script. -/
def start (script : Script) (factory : Factory) : Session where
  factory := factory
  made := 1
  state := .start script (factory 0 script.options.seed?)

/-- Does an action. A reset asks the factory for another source. -/
def act (script : Script) (session : Session) : Action → Response × Session
  | .reset =>
    let source := session.factory session.made script.options.seed?
    (.none, { session with made := session.made + 1, state := session.state.restart source })
  | action =>
    let (response, state) := session.state.act script action
    (response, { session with state })

/-- Does some actions one after the other, and tells what is seen after each. -/
def run (script : Script) : Session → List Action → List Sight × Session
  | session, [] => ([], session)
  | session, action :: actions =>
    let (response, session) := session.act script action
    let (sights, last) := run script session actions
    (⟨response, session.state.quit, session.state.memory.size⟩ :: sights, last)

end Session

end Dialogue
