import Dialogue.Conversation.Session
import Dialogue.Proofs.Conversation.Course

/-!
# What a conversation keeps

What each elementary move keeps is kept by every action, since an action does nothing else to the
state. So an invariant is shown by looking at the elementary operations only, and if it holds of a
new conversation it holds of every session at any time. One that rules and memory keep, though
perhaps not the other operations, is kept while the keywords of an input are consulted.
-/

namespace Dialogue

variable {script : Script} {P : State → Prop}

/-- Rules and memory keep `P`. -/
structure Script.KeptByVisits (script : Script) (P : State → Prop) : Prop where
  nextReply {k i : Nat} {keyword : Keyword} {rule : Rule} {s : State} :
    script.keywords[k]? = some keyword → keyword.rules[i]? = some rule → P s →
      P (s.nextReply script k i rule).2
  remember {template : Text} {captures : List Text} {s : State} :
    P s → P (s.remember (script.fill template captures))

/-- Every elementary operation keeps `P`. -/
structure Script.Kept (script : Script) (P : State → Prop) : Prop
    extends script.KeptByVisits P where
  recollect {s : State} : P s → P (s.recollect script).2
  evade {s : State} : P s → P (s.evade script).2
  prompt {s : State} : P s → P (s.prompt script).2
  greet {s : State} : P s → P (s.greet script).2
  bidFarewell {s : State} : P s → P (s.bidFarewell script).2
  quit {s : State} : P s → P { s with quit := true }
  restart {source : Source} {s : State} : P s → P (s.restart source)

namespace Script

theorem KeptByVisits.visited (h : script.KeptByVisits P) {s : State} (hs : P s)
    (move : VisitMove) : P (s.visited script move) := by
  cases move with
  | next k i =>
    rw [State.visited]
    cases hrule : script.rule? k i with
    | none => exact hs
    | some rule =>
      obtain ⟨keyword, hk, hi⟩ := Option.bind_eq_some_iff.1 hrule
      exact h.nextReply hk hi hs
  | remember template captures => exact h.remember hs

/-- What rules and memory keep is kept while the keywords of an input are consulted. -/
theorem KeptByVisits.answerParts (h : script.KeptByVisits P) {parts : List Text} {s : State}
    (hs : P s) : P (script.answerParts parts s).2 := by
  rw [← foldl_answerPartsMoves]
  exact List.foldlRecOn _ _ hs fun _ ht move _ ↦ h.visited ht move

theorem Kept.moved (h : script.Kept P) {s : State} (hs : P s) (move : Move) :
    P (s.moved script move) := by
  cases move with
  | visit move => exact h.toKeptByVisits.visited hs move
  | recollect => exact h.recollect hs
  | evade => exact h.evade hs
  | prompt => exact h.prompt hs
  | greet => exact h.greet hs
  | bidFarewell => exact h.bidFarewell hs
  | quit => exact h.quit hs
  | reset => exact h.restart hs

/-- **What the elementary operations keep, every action keeps.** -/
theorem Kept.act (h : script.Kept P) {s : State} (hs : P s) (action : Action) :
    P (s.act script action).2 := by
  rw [← State.foldl_moves]
  exact List.foldlRecOn _ _ hs fun _ ht move _ ↦ h.moved ht move

end Script

/-! ## Sessions -/

namespace Session

variable {s : Session}

theorem act_of_ne_reset {action : Action} (h : action ≠ .reset) :
    s.act script action =
      ((s.state.act script action).1, { s with state := (s.state.act script action).2 }) := by
  cases action with
  | reset => exact absurd rfl h
  | _ => rfl

theorem run_cons (action : Action) (actions : List Action) :
    s.run script (action :: actions) =
      let after := (s.act script action).2
      (⟨(s.act script action).1, after.state.quit, after.state.memory.size⟩ ::
        (after.run script actions).1, (after.run script actions).2) := rfl

end Session

namespace Script.Kept

variable {s : Session}

theorem act_session (h : script.Kept P) (hs : P s.state) (action : Action) :
    P (s.act script action).2.state := by
  by_cases hreset : action = .reset
  · subst hreset
    exact h.restart hs
  · rw [Session.act_of_ne_reset hreset]
    exact h.act hs action

/-- **What the elementary operations keep, a session keeps as long as it goes on.** -/
theorem run (h : script.Kept P) (hs : P s.state) (actions : List Action) :
    P (s.run script actions).2.state := by
  induction actions generalizing s with
  | nil => exact hs
  | cons action actions ih => exact ih (h.act_session hs action)

end Script.Kept

end Dialogue
