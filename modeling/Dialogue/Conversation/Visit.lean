import Dialogue.Conversation.State
import Dialogue.Failure
import Dialogue.Script.Reply

/-!
# Visits to keywords

A keyword that occurs in a part of the input is *visited*: its rules are tried in order. A rule
that fits chooses one of its replies. If this redirects, the visit ends and the other keyword is
visited; if the rule is memorized, the reply is kept and the next rule is tried; else the reply is
the answer. Redirects are followed only so often, because keywords may redirect to each other.
-/

namespace Dialogue

/-- What a visit to a keyword comes to. -/
inductive Visit where
  /-- No rule had a reply for now. -/
  | silent
  | reply (text : Text)
  /-- The keyword of this name and place answers instead. -/
  | redirect (name : Text) (place : Nat)
deriving Repr, DecidableEq

namespace Script

variable (script : Script)

/-- Tries rules of the keyword at some place, the first of which has some index. -/
def tryRules (keyword : Nat) (part : Text) : Nat → List Rule → State → Visit × State
  | _, [], state => (.silent, state)
  | index, rule :: rules, state =>
    match rule.decompose part with
    | none => tryRules keyword part (index + 1) rules state
    | some captures =>
      match state.nextReply script keyword index rule with
      | (none, state) => tryRules keyword part (index + 1) rules state
      | (some template, state) =>
        match script.redirect? template with
        | some (name, place) => (.redirect name place, state)
        | none =>
          let reply := script.fill template captures
          if rule.memorized then
            tryRules keyword part (index + 1) rules (state.remember reply)
          else (.reply reply, state)

/-- Visits the keyword at some place. -/
def visit (keyword : Nat) (part : Text) (state : State) : Visit × State :=
  match script.keywords[keyword]? with
  | some k => script.tryRules keyword part 0 k.rules state
  | none => (.silent, state)

/-- Visits the keyword at some place and follows at most `redirects` redirects from there. The
answer is empty if there is no reply. -/
def follow (part : Text) (redirects keyword : Nat) (state : State) : Except Failure Text × State :=
  match script.visit keyword part state with
  | (.silent, state) => (.ok [], state)
  | (.reply text, state) => (.ok text, state)
  | (.redirect name place, state) =>
    match redirects with
    | 0 =>
      (.error (.redirectCycle (String.ofList name) script.options.maxRedirectDepth), state)
    | redirects + 1 => follow part redirects place state

/-- Consults the keyword at some place: visits it and follows as many redirects as the options
allow. -/
def consult (keyword : Nat) (part : Text) (state : State) : Except Failure Text × State :=
  script.follow part script.options.maxRedirectDepth keyword state

end Script

end Dialogue
