import Dialogue.Conversation.Visit
import Dialogue.Segmentation

/-!
# Turns

The answer to an input is looked for in a fixed order. A phrase that ends the conversation comes
first. Then the parts of the input are gone through, and for each part the keywords that occur in
it, by rank, until one of them has a reply. If none has, a reply kept in memory is used, else an
evasion, and in the last resort the fallback reply. An input without parts may get a prompt
instead. A conversation that has ended answers everything with farewells.
-/

namespace Dialogue

open Text (lowercase contract holds)

namespace Script

variable (script : Script)

/-- Does a plain form hold a phrase that ends the conversation? -/
def holdsQuitPhrase (normalized : Text) : Bool :=
  let haystack := lowercase normalized
  script.quitPhrases.any fun phrase ↦
    let phrase := lowercase (contract phrase)
    ! phrase.isEmpty && holds phrase haystack

/-- The first reply that some keywords have for a part, where `place` is that of the first of
them. A keyword whose redirects come to no end has no reply. -/
def answerPart (part : Text) : Nat → List Keyword → State → Option Text × State
  | _, [], state => (none, state)
  | place, keyword :: keywords, state =>
    if keyword.isIn part then
      match script.consult place part state with
      | (.ok (c :: reply), state) => (some (c :: reply), state)
      | (_, state) => answerPart part (place + 1) keywords state
    else answerPart part (place + 1) keywords state

/-- What the parts of an input come to. -/
inductive Answer where
  /-- A part ends the conversation. -/
  | quit
  | reply (text : Text)
  /-- No keyword has a reply. -/
  | nothing
deriving Repr, DecidableEq

/-- The answer to some parts of an input, from the first to the last. -/
def answerParts : List Text → State → Answer × State
  | [], state => (.nothing, state)
  | part :: parts, state =>
    if script.quitParts.contains part then (.quit, state)
    else
      match script.answerPart (script.pre.apply part) 0 script.keywords state with
      | (some reply, state) => (.reply reply, state)
      | (none, state) => answerParts parts state

end Script

/-- The text of a reply that there is and that is not empty. -/
def Text.nonempty? : Option Text → Option Text
  | some (c :: s) => some (c :: s)
  | _ => none

namespace State

/-- Ends the conversation with a farewell. -/
def leave (script : Script) (state : State) : Text × State :=
  { state with quit := true }.bidFarewell script

/-- The reply when no keyword has one. -/
def lastResort (script : Script) (state : State) : Text × State :=
  let (memory, state) := state.recollect script
  match Text.nonempty? memory with
  | some reply => (reply, state)
  | none =>
    let (evasion, state) := state.evade script
    ((Text.nonempty? evasion).getD script.options.fallbackReply.toList, state)

/-- The reply to the parts of an input. -/
def replyToParts (script : Script) (parts : List Text) (state : State) : Text × State :=
  match script.answerParts parts state with
  | (.quit, state) => state.leave script
  | (.reply text, state) => (text, state)
  | (.nothing, state) => state.lastResort script

/-- The reply to an input, before it is brought into form. -/
def reply (script : Script) (input : Text) (state : State) : Text × State :=
  if state.quit then state.bidFarewell script
  else
    let normalized := script.options.normalize input
    if script.holdsQuitPhrase normalized then state.leave script
    else
      let parts := normalized.parts
      if parts.isEmpty then
        let (prompt, state) := state.prompt script
        match Text.nonempty? prompt with
        | some reply => (reply, state)
        | none => state.replyToParts script parts
      else state.replyToParts script parts

/-- The reply to an input: with single spaces, and in lower case if the options ask for it. -/
def transform (script : Script) (input : Text) (state : State) : Text × State :=
  let (reply, state) := state.reply script input
  (contract (if script.options.lowercaseOutput then lowercase reply else reply), state)

/-- The reply to an input that comes in a document. Only a string is an input. -/
def transformJson (script : Script) (input : Json) (state : State) :
    Except Failure Text × State :=
  match input with
  | .string s =>
    let (reply, state) := state.transform script s.toList
    (.ok reply, state)
  | other => (.error (.input s!"transform expects a string (not {other.kind})"), state)

end State

end Dialogue
