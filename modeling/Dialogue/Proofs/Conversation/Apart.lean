import Dialogue.Conversation.Exchange
import Dialogue.Proofs.Conversation.Invariants

/-!
# Conversations that share a script

Sessions of one exchange share nothing that changes. What happens to the others in between, and what
replies wait to be delivered, leaves a session where its own actions have brought it
(`Exchange.sessions_run`). Whether a response is given at once or posted makes no difference to it.

A posted reply stays at its place until it is awaited there, and then the place is empty for good.
So it is delivered once, and says what it said when it was made. The one thing that can go wrong is
its delay: too many seconds, or a range whose ends are too far apart, cannot be waited, and then the
reply is lost.

The main statement is `Exchange.sessions_stay_apart`.
-/

namespace Dialogue

namespace Event

/-- The action with session `i` that an event is, if it is one. -/
def action? (i : Nat) : Event → Option Action
  | .act index action => if index = i then some action else none
  | .post index action _ => if index = i then some action else none
  | .await _ _ => none

/-- Is a response posted? -/
def isPost : Event → Bool
  | .post _ _ _ => true
  | _ => false

/-- Is the reply at some place awaited? -/
def awaits (place : Nat) : Event → Bool
  | .await other _ => other == place
  | _ => false

/-- Nobody waits at the place between the `m`-th event and the `n`-th. -/
def Untouched (events : List Event) (place m n : Nat) : Prop :=
  ∀ event ∈ (events.take n).drop (m + 1), event.awaits place = false

instance (events : List Event) (place m n : Nat) : Decidable (Untouched events place m n) :=
  inferInstanceAs (Decidable (∀ event ∈ (events.take n).drop (m + 1), event.awaits place = false))

/-- How many responses are posted in the course of some events. -/
def posts (events : List Event) : Nat := events.countP isPost

theorem exists_of_awaits {place : Nat} {event : Event} (h : event.awaits place = true) :
    ∃ draw, event = .await place draw := by
  cases event with
  | await other draw => exact ⟨draw, by rw [beq_iff_eq.1 h]⟩
  | _ => cases h

theorem exists_of_not_untouched {events : List Event} {place m n : Nat}
    (h : ¬ Untouched events place m n) :
    ∃ k, m < k ∧ k < n ∧ ∃ draw, events[k]? = some (.await place draw) := by
  simp only [Untouched, Classical.not_forall, Bool.not_eq_false] at h
  obtain ⟨event, hmem, hawaits⟩ := h
  obtain ⟨draw, rfl⟩ := exists_of_awaits hawaits
  obtain ⟨j, hj⟩ := List.mem_iff_getElem?.1 hmem
  rw [List.getElem?_drop, List.getElem?_take] at hj
  split at hj
  · exact ⟨m + 1 + j, by omega, by omega, draw, hj⟩
  · cases hj

end Event

namespace Exchange

variable {e : Exchange} {event : Event} {events : List Event} {place : Nat}

/-! ## One event after the other -/

theorem run_append (e : Exchange) (events later : List Event) :
    (e.run (events ++ later)).2 = ((e.run events).2.run later).2 := by
  induction events generalizing e with
  | nil => rfl
  | cons event events ih => exact ih _

/-- What comes of an event depends on the events before it. -/
theorem getElem?_run (e : Exchange) (events : List Event) (n : Nat) :
    (e.run events).1[n]? =
      events[n]?.map fun event ↦ ((e.run (events.take n)).2.step event).1 := by
  induction events generalizing e n with
  | nil => rfl
  | cons event events ih =>
    cases n with
    | zero => rfl
    | succ n => exact ih (e.step event).2 n

/-- The events before the `n`-th, taken up at an earlier one. -/
theorem run_take {m n : Nat} (hm : events[m]? = some event) (h : m < n) :
    (e.run (events.take n)).2 =
      (((e.run (events.take m)).2.step event).2.run ((events.take n).drop (m + 1))).2 := by
  have hsplit : events.take n = events.take m ++ event :: (events.take n).drop (m + 1) := by
    have hget : (events.take n)[m]? = some event := by rw [List.getElem?_take_of_lt h, hm]
    obtain ⟨hlt, hitem⟩ := List.getElem?_eq_some_iff.1 hget
    have hdrop := List.drop_eq_getElem_cons hlt
    rw [hitem] at hdrop
    have htake : (events.take n).take m = events.take m := by
      rw [List.take_take, Nat.min_eq_left (Nat.le_of_lt h)]
    rw [← hdrop, ← htake, List.take_append_drop]
  have hrun := congrArg (fun events ↦ (e.run events).2) hsplit
  rw [run_append] at hrun
  exact hrun

/-! ## The sessions -/

theorem script_step (e : Exchange) (event : Event) : (e.step event).2.script = e.script := by
  have hact (index : Nat) (action : Action) : (e.act index action).2.script = e.script := by
    rw [act]
    rcases e.sessions[index]? with _ | session <;> rfl
  cases event with
  | act index action => exact hact index action
  | post index action delay => exact hact index action
  | await place draw => rfl

theorem script_run (e : Exchange) (events : List Event) : (e.run events).2.script = e.script := by
  induction events generalizing e with
  | nil => rfl
  | cons event events ih => exact (ih _).trans (script_step e event)

theorem sessions_act (e : Exchange) (index i : Nat) (action : Action) :
    (e.act index action).2.sessions[i]? =
      if index = i then e.sessions[i]?.map fun session ↦ (session.act e.script action).2
      else e.sessions[i]? := by
  rw [act]
  rcases hsession : e.sessions[index]? with _ | session
  · dsimp only
    split
    · rename_i h
      rw [← h, hsession]
      rfl
    · rfl
  · dsimp only
    rw [Array.getElem?_setIfInBounds]
    split
    · rename_i h
      obtain ⟨hlt, -⟩ := Array.getElem?_eq_some_iff.1 hsession
      rw [if_pos hlt, ← h, hsession]
      rfl
    · rfl

/-- An event does to a session what its own action does. -/
theorem sessions_step (e : Exchange) (event : Event) (i : Nat) :
    (e.step event).2.sessions[i]? =
      e.sessions[i]?.map fun session ↦ (session.run e.script (event.action? i).toList).2 := by
  have hact (index : Nat) (action : Action) :
      (e.act index action).2.sessions[i]? = e.sessions[i]?.map fun session ↦
        (session.run e.script (if index = i then some action else none).toList).2 := by
    rw [sessions_act]
    split
    · rfl
    · exact (Option.map_id' ..).symm
  cases event with
  | act index action => exact hact index action
  | post index action delay => exact hact index action
  | await place draw => exact (Option.map_id' ..).symm

/-- **A session is where its own actions have brought it.** -/
theorem sessions_run (e : Exchange) (events : List Event) (i : Nat) :
    (e.run events).2.sessions[i]? = e.sessions[i]?.map fun session ↦
      (session.run e.script (events.filterMap (·.action? i))).2 := by
  induction events generalizing e with
  | nil => exact (Option.map_id' ..).symm
  | cons event events ih =>
    have hrest := ih (e.step event).2
    rw [script_step, sessions_step, Option.map_map] at hrest
    rw [run, hrest]
    refine congrArg (Option.map · _) (funext fun session ↦ ?_)
    rcases haction : event.action? i with _ | action
    · rw [List.filterMap_cons_none haction]
      rfl
    · rw [List.filterMap_cons_some haction]
      rfl

/-! ## The replies posted -/

theorem posted_act (e : Exchange) (index : Nat) (action : Action) :
    (e.act index action).2.posted = e.posted := by
  rw [act]
  rcases e.sessions[index]? with _ | session <;> rfl

theorem posted_post (e : Exchange) (index : Nat) (action : Action) (delay : Delay) :
    (e.post index action delay).posted =
      e.posted.push (some ⟨(e.act index action).1, delay⟩) :=
  congrArg (Array.push · _) (posted_act e index action)

/-- Each post adds a place, and no place is ever taken away. -/
theorem size_posted_step (e : Exchange) (event : Event) :
    (e.step event).2.posted.size = e.posted.size + if event.isPost then 1 else 0 := by
  cases event with
  | act index action => exact congrArg Array.size (posted_act e index action)
  | post index action delay =>
    rw [step, posted_post, Array.size_push]
    rfl
  | await place draw => exact Array.size_setIfInBounds

theorem size_posted_run (e : Exchange) (events : List Event) :
    (e.run events).2.posted.size = e.posted.size + Event.posts events := by
  induction events generalizing e with
  | nil => rfl
  | cons event events ih =>
    rw [run, ih, size_posted_step, Event.posts, Event.posts, List.countP_cons]
    omega

/-- A reply stays at its place until it is awaited. -/
theorem posted_step (hplace : place < e.posted.size) (h : event.awaits place = false) :
    (e.step event).2.posted[place]? = e.posted[place]? := by
  cases event with
  | act index action => exact congrArg (·[place]?) (posted_act e index action)
  | post index action delay =>
    rw [step, posted_post, Array.getElem?_push, if_neg (Nat.ne_of_lt hplace)]
  | await other draw =>
    exact Array.getElem?_setIfInBounds_ne (beq_eq_false_iff_ne.1 h)

theorem posted_run (hplace : place < e.posted.size)
    (h : ∀ event ∈ events, event.awaits place = false) :
    (e.run events).2.posted[place]? = e.posted[place]? := by
  induction events generalizing e with
  | nil => rfl
  | cons event events ih =>
    have hsize : place < (e.step event).2.posted.size := by
      rw [size_posted_step]
      omega
    rw [← posted_step hplace (h event List.mem_cons_self)]
    exact ih hsize fun other hother ↦ h other (List.mem_cons_of_mem _ hother)

theorem posted_await (hplace : place < e.posted.size) (draw : Float) :
    (e.step (.await place draw)).2.posted[place]? = some none := by
  rw [step, await, Array.getElem?_setIfInBounds_self_of_lt hplace]

/-- A place that is empty stays empty. -/
theorem posted_run_of_empty (h : e.posted[place]? = some none) (events : List Event) :
    (e.run events).2.posted[place]? = some none := by
  induction events generalizing e with
  | nil => exact h
  | cons event events ih =>
    obtain ⟨hplace, -⟩ := Array.getElem?_eq_some_iff.1 h
    refine ih ?_
    cases hawaits : event.awaits place with
    | true =>
      obtain ⟨draw, rfl⟩ := Event.exists_of_awaits hawaits
      exact posted_await hplace draw
    | false => exact (posted_step hplace hawaits).trans h

/-- What comes of waiting at some place depends on what is there. -/
theorem step_await (e : Exchange) (place : Nat) (draw : Float) :
    (e.step (.await place draw)).1 =
      (e.posted[place]?.join.map (·.outcome draw)).getD .nothing := rfl

/-- **A posted reply is delivered once**, whatever happens in between. -/
theorem delivered_once {m i : Nat} {action : Action} {delay : Delay} (e : Exchange)
    (hnone : e.posted = #[]) (hpost : events[m]? = some (.post i action delay)) :
    let place := Event.posts (events.take m)
    let delivery : Delivery := ⟨((e.run (events.take m)).2.act i action).1, delay⟩
    (e.run events).1[m]? = some (.posted place) ∧
    ∀ n draw, m < n → events[n]? = some (.await place draw) →
      (Event.Untouched events place m n → (e.run events).1[n]? = some (delivery.outcome draw)) ∧
      (¬ Event.Untouched events place m n → (e.run events).1[n]? = some .nothing) := by
  intro place delivery
  have hsize : (e.run (events.take m)).2.posted.size = place := by
    rw [size_posted_run, hnone, Array.size_empty, Nat.zero_add]
  -- right after the post, the reply is at its place
  have hafter : ((e.run (events.take m)).2.step (.post i action delay)).2.posted[place]? =
      some (some delivery) := by
    rw [step, posted_post, Array.getElem?_push, if_pos hsize.symm]
  have hplace := (Array.getElem?_eq_some_iff.1 hafter).1
  refine ⟨?_, fun n draw hlt hawait ↦ ?_⟩
  · rw [getElem?_run, hpost, Option.map_some, step, hsize]
  · have houtcome : (e.run events).1[n]? =
        some (((e.run (events.take n)).2.posted[place]?.join.map (·.outcome draw)).getD
          .nothing) := by
      rw [getElem?_run, hawait, Option.map_some, step_await]
    constructor
    · intro huntouched
      rw [houtcome, run_take hpost hlt, posted_run hplace huntouched, hafter]
      rfl
    · intro htouched
      obtain ⟨k, hmk, hkn, draw', hk⟩ := Event.exists_of_not_untouched htouched
      have hsizek : place < (e.run (events.take k)).2.posted.size := by
        rw [run_take hpost hmk, size_posted_run]
        omega
      rw [houtcome, run_take hk hkn, posted_run_of_empty (posted_await hsizek draw')]
      rfl

/-! ## Apart -/

theorem response_act {session : Session} {i : Nat} (h : e.sessions[i]? = some session)
    (action : Action) : (e.act i action).1 = (session.act e.script action).1 := by
  rw [act, h]

/-- **Sessions that share a script stay apart, and posting a reply only delays it.** Let some events
happen to an exchange. At any time, session `i` is where its own actions would have brought it
alone, and its responses are those that it would give alone, whether at once or later. A response
that is posted waits at a place of its own. Whoever is the first to wait there, whatever happened in
between, gets the response as it was made, after its delay, unless this is too long to be waited;
and all others get nothing. -/
theorem sessions_stay_apart (script : Script) (factories : List Factory) (events : List Event)
    (i : Nat) (factory : Factory) (hfactory : factories[i]? = some factory) :
    let run (events : List Event) := (ofFactories script factories).run events
    let alone (n : Nat) := ((Session.start script factory).run script
      ((events.take n).filterMap (·.action? i))).2
    (∀ n, (run (events.take n)).2.sessions[i]? = some (alone n)) ∧
    (∀ (n : Nat) (action : Action), events[n]? = some (.act i action) →
      (run events).1[n]? = some (.response ((alone n).act script action).1)) ∧
    ∀ (m : Nat) (action : Action) (delay : Delay), events[m]? = some (.post i action delay) →
      let place := Event.posts (events.take m)
      let delivery : Delivery := ⟨((alone m).act script action).1, delay⟩
      (run events).1[m]? = some (.posted place) ∧
      ∀ n draw, m < n → events[n]? = some (.await place draw) →
        (Event.Untouched events place m n → (run events).1[n]? = some (delivery.outcome draw)) ∧
        (¬ Event.Untouched events place m n → (run events).1[n]? = some .nothing) := by
  intro run alone
  have hstart : (ofFactories script factories).sessions[i]? =
      some (Session.start script factory) := by
    rw [ofFactories, List.getElem?_toArray, List.getElem?_map, hfactory, Option.map_some]
  have hsession (n : Nat) : (run (events.take n)).2.sessions[i]? = some (alone n) := by
    rw [sessions_run, hstart]
    rfl
  have hresponse (n : Nat) (action : Action) :
      ((run (events.take n)).2.act i action).1 = ((alone n).act script action).1 := by
    rw [response_act (hsession n), script_run]
    rfl
  refine ⟨hsession, fun n action hact ↦ ?_, fun m action delay hpost ↦ ?_⟩
  · rw [getElem?_run, hact, Option.map_some, ← hresponse]
    rfl
  · have honce := delivered_once (ofFactories script factories) rfl hpost
    rw [← hresponse]
    exact honce

/-- In one session a greeting and a reply are posted; then it is left, and starts anew. The greeting
arrives after half a second, and only once. The other reply is lost, since from minus infinity to
one second is too wide a range. The session itself takes no notice of either. -/
theorem greeting_arrives_reply_is_lost :
    let script : Script :=
      { options := { fixedInitial := 2 }, greetings := [['a'], ['b']], farewells := [['d']],
        quitParts := ["bye".toList], quitPhrases := [], evasions := [['e'], ['f']], prompts := [],
        pre := {}, post := {}, tags := [], keywords := [] }
    let factories : List Factory := [.seeded fun _ _ ↦ 0.0, .seeded fun _ _ ↦ 0.5]
    let events : List Event :=
      [.post 0 .greet (.fixed 0.5), .act 1 (.transform ['x']),
        .post 0 (.transform ['y']) (.range (-1.0 / 0.0) 1.0), .act 0 (.transform "bye".toList),
        .act 0 .reset, .await 0 0.5, .await 1 0.5, .await 0 0.5]
    let run := (ofFactories script factories).run events
    run.2.sessions[0]? = some ((Session.start script (.seeded fun _ _ ↦ 0.0)).run script
        [.greet, .transform ['y'], .transform "bye".toList, .reset]).2 ∧
      run.1[5]? = some (.arrives 500000000 (.reply ['a'])) ∧ run.1[6]? = some .lost ∧
      run.1[7]? = some .nothing := by
  intro script factories events run
  obtain ⟨hsession, -, hdelivered⟩ :=
    sessions_stay_apart script factories events 0 (.seeded fun _ _ ↦ 0.0) rfl
  obtain ⟨-, hgreeting⟩ := hdelivered 0 .greet (.fixed 0.5) rfl
  obtain ⟨-, hreply⟩ := hdelivered 2 (.transform ['y']) (.range (-1.0 / 0.0) 1.0) rfl
  have hall : events.take 8 = events := rfl
  have hactions : events.filterMap (·.action? 0) =
      [.greet, .transform ['y'], .transform "bye".toList, .reset] := rfl
  refine ⟨?_, ?_, ?_, ?_⟩
  · have halone := hsession 8
    dsimp only at halone
    rw [hall, hactions] at halone
    simp only [run]
    exact halone
  · exact ((hgreeting 5 0.5 (by decide) rfl).1 (by decide)).trans (by decide +kernel)
  · exact ((hreply 6 0.5 (by decide) rfl).1 (by decide)).trans (by decide +kernel)
  · exact (hgreeting 7 0.5 (by decide) rfl).2 (by decide)

end Exchange

end Dialogue
