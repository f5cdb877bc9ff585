import Dialogue.Conversation.Turn

/-!
# Actions

What one can do with a conversation: say something, ask for a greeting or a farewell, or let it
start anew.
-/

namespace Dialogue

/-- What one can do with a conversation. -/
inductive Action where
  | transform (input : Text)
  | transformJson (input : Json)
  | greet
  | bidFarewell
  | reset

/-- What an action answers; a reset answers nothing. -/
inductive Response where
  | none
  | reply (text : Text)
  | failure (failure : Failure)
deriving Repr, DecidableEq

/-- Does an action with a conversation. -/
def State.act (script : Script) (state : State) : Action → Response × State
  | .transform input =>
    let (reply, state) := state.transform script input
    (.reply reply, state)
  | .transformJson input =>
    match state.transformJson script input with
    | (.ok reply, state) => (.reply reply, state)
    | (.error failure, state) => (.failure failure, state)
  | .greet =>
    let (reply, state) := state.greet script
    (.reply reply, state)
  | .bidFarewell =>
    let (reply, state) := state.bidFarewell script
    (.reply reply, state)
  | .reset => (.none, state.reset)

end Dialogue
