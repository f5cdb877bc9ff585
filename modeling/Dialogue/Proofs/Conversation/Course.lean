import Dialogue.Conversation.Action

/-!
# The course of a conversation

All changes of a state are made by a few elementary *moves*: a rule gives its next reply, a reply
is remembered or recollected, a pool gives its next reply, the conversation ends or starts anew.
Which moves an action makes depends on what the moves before it left behind, so they are listed
along with the search for a reply, in the order in which they are made.

An action changes the state by its moves and by nothing else. So what is to be shown of every
conversation is shown of the moves, and what happens in the middle of an action can be spoken of.
-/

namespace Dialogue

/-- What a visit to a keyword does to the state, one thing at a time. -/
inductive VisitMove where
  /-- A rule gives its next reply; it is named by its keyword's place and its own. -/
  | next (keyword index : Nat)
  /-- The reply that a template makes of some captures is kept. -/
  | remember (template : Text) (captures : List Text)

/-- What an action does to the state, one thing at a time. -/
inductive Move where
  | visit (move : VisitMove)
  | recollect
  | evade
  | prompt
  | greet
  | bidFarewell
  | quit
  | reset

/-- The rule of some index of the keyword at some place. -/
def Script.rule? (script : Script) (keyword index : Nat) : Option Rule :=
  script.keywords[keyword]?.bind (·.rules[index]?)

namespace State

/-- The state after a move of a visit. -/
def visited (script : Script) (s : State) : VisitMove → State
  | .next k i => (script.rule? k i).elim s fun rule ↦ (s.nextReply script k i rule).2
  | .remember template captures => s.remember (script.fill template captures)

/-- The state after a move. -/
def moved (script : Script) (s : State) : Move → State
  | .visit move => s.visited script move
  | .recollect => (s.recollect script).2
  | .evade => (s.evade script).2
  | .prompt => (s.prompt script).2
  | .greet => (s.greet script).2
  | .bidFarewell => (s.bidFarewell script).2
  | .quit => { s with quit := true }
  | .reset => s.reset

end State

/-! ## The moves of a visit -/

namespace Script

variable (script : Script)

/-- The moves of `tryRules`. -/
def tryMoves (keyword : Nat) (part : Text) : Nat → List Rule → State → List VisitMove
  | _, [], _ => []
  | index, rule :: rules, state =>
    match rule.decompose part with
    | none => tryMoves keyword part (index + 1) rules state
    | some captures =>
      .next keyword index ::
        match state.nextReply script keyword index rule with
        | (none, state) => tryMoves keyword part (index + 1) rules state
        | (some template, state) =>
          if (script.redirect? template).isNone && rule.memorized then
            .remember template captures ::
              tryMoves keyword part (index + 1) rules
                (state.remember (script.fill template captures))
          else []

/-- The moves of `visit`. -/
def visitMoves (keyword : Nat) (part : Text) (state : State) : List VisitMove :=
  match script.keywords[keyword]? with
  | some k => script.tryMoves keyword part 0 k.rules state
  | none => []

/-- The moves of `follow`. -/
def followMoves (part : Text) (redirects keyword : Nat) (state : State) : List VisitMove :=
  script.visitMoves keyword part state ++
    match script.visit keyword part state with
    | (.silent, _) => []
    | (.reply _, _) => []
    | (.redirect _ place, state) =>
      match redirects with
      | 0 => []
      | redirects + 1 => followMoves part redirects place state

/-- The moves of `answerPart`. -/
def answerPartMoves (part : Text) : Nat → List Keyword → State → List VisitMove
  | _, [], _ => []
  | place, keyword :: keywords, state =>
    if keyword.isIn part then
      script.followMoves part script.options.maxRedirectDepth place state ++
        match script.consult place part state with
        | (.ok (_ :: _), _) => []
        | (_, state) => answerPartMoves part (place + 1) keywords state
    else answerPartMoves part (place + 1) keywords state

/-- The moves of `answerParts`. -/
def answerPartsMoves : List Text → State → List VisitMove
  | [], _ => []
  | part :: parts, state =>
    if script.quitParts.contains part then []
    else
      script.answerPartMoves (script.pre.apply part) 0 script.keywords state ++
        match script.answerPart (script.pre.apply part) 0 script.keywords state with
        | (some _, _) => []
        | (none, state) => answerPartsMoves parts state

end Script

/-! ## The moves of an action -/

namespace State

variable (script : Script) (state : State)

/-- The moves of `lastResort`. -/
def lastResortMoves : List Move :=
  .recollect ::
    match Text.nonempty? (state.recollect script).1 with
    | some _ => []
    | none => [.evade]

/-- The moves of `replyToParts`. -/
def replyToPartsMoves (parts : List Text) : List Move :=
  (script.answerPartsMoves parts state).map .visit ++
    match script.answerParts parts state with
    | (.quit, _) => [.quit, .bidFarewell]
    | (.reply _, _) => []
    | (.nothing, state) => state.lastResortMoves script

/-- The moves of `reply`. -/
def replyMoves (input : Text) : List Move :=
  if state.quit then [.bidFarewell]
  else
    let normalized := script.options.normalize input
    if script.holdsQuitPhrase normalized then [.quit, .bidFarewell]
    else
      let parts := normalized.parts
      if parts.isEmpty then
        .prompt ::
          match Text.nonempty? (state.prompt script).1 with
          | some _ => []
          | none => (state.prompt script).2.replyToPartsMoves script parts
      else state.replyToPartsMoves script parts

/-- The moves of an action. -/
def moves : Action → List Move
  | .transform input => state.replyMoves script input
  | .transformJson (.string s) => state.replyMoves script s.toList
  | .transformJson _ => []
  | .greet => [.greet]
  | .bidFarewell => [.bidFarewell]
  | .reset => [.reset]

end State

/-! ## The moves lead to the state after the action -/

namespace Script

variable {script : Script}

/-- The rules of a keyword that are left to be tried begin with the next one. -/
theorem rule?_of_drop_eq_cons {k i : Nat} {keyword : Keyword} {rule : Rule} {rules : List Rule}
    (hk : script.keywords[k]? = some keyword) (hrules : keyword.rules.drop i = rule :: rules) :
    script.rule? k i = some rule ∧ keyword.rules.drop (i + 1) = rules := by
  constructor
  · rw [rule?, hk, Option.bind_some, ← List.head?_drop, hrules, List.head?_cons]
  · rw [← List.tail_drop, hrules, List.tail_cons]

theorem foldl_tryMoves {k i : Nat} {keyword : Keyword} {part : Text} {rules : List Rule}
    {s : State} (hk : script.keywords[k]? = some keyword) (hrules : keyword.rules.drop i = rules) :
    (script.tryMoves k part i rules s).foldl (State.visited script) s =
      (script.tryRules k part i rules s).2 := by
  induction rules generalizing i s with
  | nil => rfl
  | cons rule rules ih =>
    obtain ⟨hrule, hrest⟩ := rule?_of_drop_eq_cons hk hrules
    have hnext : s.visited script (.next k i) = (s.nextReply script k i rule).2 := by
      rw [State.visited, hrule, Option.elim_some]
    rw [tryMoves, tryRules]
    cases rule.decompose part with
    | none => exact ih hrest
    | some captures =>
      dsimp only
      rw [List.foldl_cons, hnext]
      cases hreply : s.nextReply script k i rule with
      | mk template t =>
        cases template with
        | none => exact ih hrest
        | some template =>
          dsimp only
          cases script.redirect? template with
          | some target => rfl
          | none =>
            cases rule.memorized with
            | false => rfl
            | true => exact ih hrest

theorem foldl_visitMoves (k : Nat) (part : Text) (s : State) :
    (script.visitMoves k part s).foldl (State.visited script) s =
      (script.visit k part s).2 := by
  rw [visitMoves, visit]
  cases hk : script.keywords[k]? with
  | none => rfl
  | some keyword => exact foldl_tryMoves hk rfl

theorem foldl_followMoves (part : Text) (n k : Nat) (s : State) :
    (script.followMoves part n k s).foldl (State.visited script) s =
      (script.follow part n k s).2 := by
  induction n generalizing k s with
  | zero =>
    rw [followMoves, follow, List.foldl_append, foldl_visitMoves]
    cases script.visit k part s with
    | mk visit t => cases visit <;> rfl
  | succ n ih =>
    rw [followMoves, follow, List.foldl_append, foldl_visitMoves]
    cases script.visit k part s with
    | mk visit t =>
      cases visit with
      | redirect name l => exact ih l t
      | _ => rfl

theorem foldl_answerPartMoves (part : Text) (k : Nat) (keywords : List Keyword) (s : State) :
    (script.answerPartMoves part k keywords s).foldl (State.visited script) s =
      (script.answerPart part k keywords s).2 := by
  induction keywords generalizing k s with
  | nil => rfl
  | cons keyword keywords ih =>
    rw [answerPartMoves, answerPart]
    split
    · rw [List.foldl_append, foldl_followMoves, ← consult]
      cases script.consult k part s with
      | mk answer t =>
        cases answer with
        | error failure => exact ih _ t
        | ok reply =>
          cases reply with
          | nil => exact ih _ t
          | cons c reply => rfl
    · exact ih _ s

theorem foldl_answerPartsMoves (parts : List Text) (s : State) :
    (script.answerPartsMoves parts s).foldl (State.visited script) s =
      (script.answerParts parts s).2 := by
  induction parts generalizing s with
  | nil => rfl
  | cons part parts ih =>
    rw [answerPartsMoves, answerParts]
    split
    · rfl
    · rw [List.foldl_append, foldl_answerPartMoves]
      split <;> rename_i heq <;> rw [heq]
      · rfl
      · exact ih _

end Script

namespace State

variable {script : Script} {s : State}

theorem foldl_lastResortMoves :
    (s.lastResortMoves script).foldl (moved script) s = (s.lastResort script).2 := by
  rw [lastResortMoves, lastResort, List.foldl_cons, moved]
  dsimp only
  cases Text.nonempty? (s.recollect script).1 <;> rfl

theorem foldl_replyToPartsMoves (parts : List Text) :
    (s.replyToPartsMoves script parts).foldl (moved script) s =
      (s.replyToParts script parts).2 := by
  rw [replyToPartsMoves, replyToParts, List.foldl_append, List.foldl_map]
  have hvisits : (script.answerPartsMoves parts s).foldl (fun t move ↦ t.moved script (.visit move))
      s = (script.answerParts parts s).2 := Script.foldl_answerPartsMoves parts s
  rw [hvisits]
  split <;> rename_i heq <;> rw [heq]
  · rfl
  · rfl
  · exact foldl_lastResortMoves

theorem foldl_replyMoves (input : Text) :
    (s.replyMoves script input).foldl (moved script) s = (s.reply script input).2 := by
  rw [replyMoves, reply]
  split
  · rfl
  · dsimp only
    split
    · rfl
    · split
      · rw [List.foldl_cons, moved]
        cases Text.nonempty? (s.prompt script).1 with
        | some said => rfl
        | none => exact foldl_replyToPartsMoves _
      · exact foldl_replyToPartsMoves _

/-- **The moves of an action lead to the state that it leaves behind.** -/
theorem foldl_moves (action : Action) :
    (s.moves script action).foldl (moved script) s = (s.act script action).2 := by
  cases action with
  | transform input => exact foldl_replyMoves input
  | transformJson input =>
    cases input with
    | string text => exact foldl_replyMoves text.toList
    | _ => rfl
  | _ => rfl

end State

end Dialogue
