import Dialogue.Conversation.Delay
import Dialogue.Conversation.Session

/-!
# Several conversations at once

An exchange holds sessions about one script. Each has its own state and its own random numbers, and
all share the script.

Replies may be posted: such a reply is made at once, like any other, and waits with its delay at a
place of its own until it is awaited there. Nothing that happens in between changes it. Only a reply
whose delay is too long to be waited never arrives.
-/

namespace Dialogue

/-- A reply that waits to be delivered. -/
structure Delivery where
  reply : Response
  delay : Delay
deriving DecidableEq

/-- The nanoseconds that a delivery takes if `draw` is drawn for its delay, unless it never
arrives. -/
def Delivery.duration? (draw : Float) (delivery : Delivery) : Option Nat :=
  delivery.delay.duration? draw

/-- Sessions about one script, and the replies posted. Those that were awaited are no longer at
their places. -/
structure Exchange where
  script : Script
  sessions : Array Session
  posted : Array (Option Delivery) := #[]

/-- What happens to an exchange. -/
inductive Event where
  /-- An action with one of the sessions. -/
  | act (index : Nat) (action : Action)
  /-- An action whose response is posted. -/
  | post (index : Nat) (action : Action) (delay : Delay)
  /-- Waiting for the reply at some place, where `draw` is drawn for its delay. -/
  | await (place : Nat) (draw : Float)

/-- What comes of an event. -/
inductive Outcome where
  | response (response : Response)
  /-- The response waits at some place. -/
  | posted (place : Nat)
  /-- A reply arrives after some nanoseconds. -/
  | arrives (nanoseconds : Nat) (reply : Response)
  /-- There was a reply, but its delay is too long to be waited. -/
  | lost
  /-- There is no reply at this place. -/
  | nothing
deriving Repr, DecidableEq

/-- What comes of waiting for a delivery. -/
def Delivery.outcome (draw : Float) (delivery : Delivery) : Outcome :=
  match delivery.duration? draw with
  | some nanoseconds => .arrives nanoseconds delivery.reply
  | none => .lost

namespace Exchange

/-- An exchange of new sessions, one for each factory. -/
def ofFactories (script : Script) (factories : List Factory) : Exchange where
  script := script
  sessions := (factories.map (Session.start script)).toArray

/-- An exchange of some new sessions, all with equal random numbers. -/
def start (script : Script) (conversations : Nat) (source : Source) : Exchange :=
  ofFactories script (List.replicate conversations fun _ _ ↦ source)

/-- The states of the sessions. -/
def states (e : Exchange) : Array State := e.sessions.map (·.state)

/-- Does an action with one of the sessions. -/
def act (e : Exchange) (index : Nat) (action : Action) : Response × Exchange :=
  match e.sessions[index]? with
  | none => (.none, e)
  | some session =>
    let (response, session) := session.act e.script action
    (response, { e with sessions := e.sessions.setIfInBounds index session })

/-- Does an action and posts the response. -/
def post (e : Exchange) (index : Nat) (action : Action) (delay : Delay) : Exchange :=
  let (reply, e) := e.act index action
  { e with posted := e.posted.push (some { reply, delay }) }

/-- Takes the reply away that was posted at some place. -/
def await (e : Exchange) (place : Nat) : Option Delivery × Exchange :=
  (e.posted[place]?.join, { e with posted := e.posted.setIfInBounds place none })

/-- Takes the reply away that has been waiting longest. -/
def deliver (e : Exchange) : Option Delivery × Exchange :=
  match e.posted.findIdx? (·.isSome) with
  | some place => e.await place
  | none => (none, e)

/-- Lets something happen. -/
def step (e : Exchange) : Event → Outcome × Exchange
  | .act index action =>
    let (response, e) := e.act index action
    (.response response, e)
  | .post index action delay => (.posted e.posted.size, e.post index action delay)
  | .await place draw =>
    let (delivery?, e) := e.await place
    ((delivery?.map (·.outcome draw)).getD .nothing, e)

/-- Lets some events happen one after the other, and tells what comes of each. -/
def run : Exchange → List Event → List Outcome × Exchange
  | e, [] => ([], e)
  | e, event :: events =>
    let (outcome, e) := e.step event
    let (outcomes, e) := run e events
    (outcome :: outcomes, e)

end Exchange

end Dialogue
