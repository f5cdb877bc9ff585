import Dialogue.Proofs.Conversation.Silence
import Dialogue.Script.Compile
import Mathlib.Data.List.Perm.Basic

/-!
# What memory is good for

An input that no keyword answers is a chance for memory: one reply is taken out of it, the oldest
or one drawn at random. If that reply says something it is the answer, and the evasions are left
alone. A reply that came out empty when it was made is lost in this way, and the turn goes on to
the evasions although memory may hold other replies.

The main statement is `State.recollects_before_evading`. It takes the turn up where the search for
a keyword has ended, a situation that `State.Unanswered` describes.
-/

namespace Dialogue

open Text (lowercase contract)

/-! ## Taking a reply out of memory -/

namespace Memory

/-- Unless memory is empty, one reply is taken out and all others stay. -/
theorem exists_pop (m : Memory) (random : Bool) (d : Draws) (h : m.replies ≠ []) :
    ∃ reply, (m.pop random d).1 = some reply ∧
      m.replies.Perm (reply :: (m.pop random d).2.1.replies) ∧
      (random = false → m.replies = reply :: (m.pop random d).2.1.replies) := by
  rcases m.pop_cases random d with ⟨hnil, -⟩ | ⟨place, reply, d', hreply, hfirst, hpop⟩
  · exact absurd hnil h
  · obtain ⟨hplace, rfl⟩ := List.getElem?_eq_some_iff.1 hreply
    rw [hpop]
    refine ⟨_, rfl, (List.getElem_cons_eraseIdx_perm hplace).symm, fun hrandom ↦ ?_⟩
    obtain ⟨rfl, -⟩ := hfirst hrandom
    rw [List.eraseIdx_zero, List.getElem_zero, List.cons_head_tail]

end Memory

/-! ## The end of the search -/

namespace State

variable {script : Script} {input entry : Text} {s t : State}

/-- The input is searched for keywords to its end, which leads from `s` to `t`, and nothing has
answered it: it does not end the conversation, no prompt is said and no keyword has a reply. -/
structure Unanswered (script : Script) (input : Text) (s t : State) : Prop where
  active : s.quit = false
  phrase : script.holdsQuitPhrase (script.options.normalize input) = false
  prompt : (script.options.normalize input).parts = [] → Text.nonempty? (s.prompt script).1 = none
  search : script.answerParts (script.options.normalize input).parts
    (if (script.options.normalize input).parts = [] then (s.prompt script).2 else s) = (.nothing, t)

/-- What is left to answer the input is the last resort. -/
theorem Unanswered.reply_eq (h : s.Unanswered script input t) :
    s.reply script input = t.lastResort script := by
  have hsearch := h.search
  rw [reply, if_neg (by simp [h.active])]
  dsimp only
  rw [if_neg (by simp [h.phrase])]
  by_cases hparts : (script.options.normalize input).parts = []
  · rw [if_pos hparts] at hsearch
    rw [if_pos (List.isEmpty_iff.2 hparts), h.prompt hparts, replyToParts, hsearch]
  · rw [if_neg hparts] at hsearch
    rw [if_neg (mt List.isEmpty_iff.1 hparts), replyToParts, hsearch]

/-- The search leaves the evasions alone. -/
theorem Unanswered.evasions_eq (h : s.Unanswered script input t) : t.evasions = s.evasions := by
  have kept : script.KeptByVisits fun u ↦ u.evasions = s.evasions :=
    { nextReply := fun _ _ hu ↦ by
        rw [nextReply]
        split <;> exact hu
      remember := fun hu ↦ hu }
  have hstart : (if (script.options.normalize input).parts = [] then (s.prompt script).2
      else s).evasions = s.evasions := by
    split <;> rfl
  have hend : (script.answerParts (script.options.normalize input).parts
      (if (script.options.normalize input).parts = [] then (s.prompt script).2
        else s)).2.evasions = s.evasions := kept.answerParts hstart
  rwa [h.search] at hend

/-! ## Memory or an evasion -/

/-- A reply from memory is the answer if it is not empty. -/
theorem lastResort_of_ne_nil (hentry : (t.recollect script).1 = some entry) (hne : entry ≠ []) :
    t.lastResort script = (entry, (t.recollect script).2) := by
  have hsome : Text.nonempty? (t.recollect script).1 = some entry :=
    Text.nonempty?_eq_some_iff.2 ⟨hentry, hne⟩
  rw [lastResort]
  dsimp only
  rw [hsome]

/-- After an empty reply from memory the turn goes on to the evasions. -/
theorem lastResort_of_nil (hentry : (t.recollect script).1 = some []) :
    t.lastResort script =
      ((Text.nonempty? ((t.recollect script).2.evade script).1).getD
        script.options.fallbackReply.toList, ((t.recollect script).2.evade script).2) := by
  rw [lastResort]
  dsimp only
  rw [hentry]
  rfl

/-- **Memory comes before the evasions.** If memory holds replies when the search for a keyword has
ended without an answer, then exactly one of them is taken out: the oldest, unless the options ask
for one at random. If it is not empty it is the answer, brought into form, and no evasion is used.
If it is empty, the answer is the next evasion or the fallback reply, whatever else memory holds. -/
theorem recollects_before_evading (script : Script) (input : Text) (s t : State)
    (h : s.Unanswered script input t) (hmemory : t.memory.replies ≠ []) :
    let form (reply : Text) :=
      contract (if script.options.lowercaseOutput then lowercase reply else reply)
    let after := (s.transform script input).2
    ∃ entry, t.memory.replies.Perm (entry :: after.memory.replies) ∧
      (script.options.randomizeChoices = false →
        t.memory.replies = entry :: after.memory.replies) ∧
      (entry ≠ [] → (s.transform script input).1 = form entry ∧ after.evasions = s.evasions) ∧
      (entry = [] → (s.transform script input).1 =
        form ((Text.nonempty? ((t.recollect script).2.evade script).1).getD
          script.options.fallbackReply.toList)) := by
  intro form after
  obtain ⟨entry, hpop, hperm, holdest⟩ :=
    Memory.exists_pop t.memory script.options.randomizeChoices t.draws hmemory
  have hentry : (t.recollect script).1 = some entry := hpop
  have htransform : s.transform script input =
      (form (t.lastResort script).1, (t.lastResort script).2) := by
    rw [transform, h.reply_eq]
  by_cases hne : entry = []
  · subst hne
    have hresort := lastResort_of_nil hentry
    have hafter : after.memory = (t.recollect script).2.memory := by
      simp only [after, htransform, hresort]
      rfl
    refine ⟨[], hafter ▸ hperm, fun hrandom ↦ hafter ▸ holdest hrandom, by simp, fun _ ↦ ?_⟩
    rw [htransform, hresort]
  · have hresort := lastResort_of_ne_nil hentry hne
    have hafter : after = (t.recollect script).2 := by
      simp only [after, htransform, hresort]
    refine ⟨entry, hafter ▸ hperm, fun hrandom ↦ hafter ▸ holdest hrandom, fun _ ↦ ⟨?_, ?_⟩,
      fun hnil ↦ absurd hnil hne⟩
    · rw [htransform, hresort]
    · rw [hafter]
      exact h.evasions_eq

/-- A script whose one keyword keeps two replies of an input. The first repeats what stands before
the keyword. -/
def keepsTwo : Json :=
  .object [("initial", .array []), ("final", .array []), ("quit", .array []),
    ("none", .array [.string "nothing"]), ("pre", .object []), ("post", .object []),
    ("tags", .object []),
    ("keywords", .object [("my", .object [("@ * my *", .string "$1"),
      ("@ my *", .string "Earlier: your $1.")])])]

/-- Nothing stands before the keyword, so the oldest reply in memory is empty. It is lost, and an
evasion is used although memory holds another reply. -/
theorem evades_before_recollecting :
    ∃ script, Script.compile .boundless keepsTwo {} = .ok script ∧
      let s := (Session.start script (.seeded fun _ _ ↦ 0.0)).state
      ∃ t, s.Unanswered script "my cat".toList t ∧
        "Earlier: your cat.".toList ∈ t.memory.replies ∧
        (s.transform script "my cat".toList).1 = "nothing".toList ∧
        "nothing".toList ∈ script.evasions ∧
        ∀ reply ∈ t.memory.replies, (s.transform script "my cat".toList).1 ≠
          contract (if script.options.lowercaseOutput then lowercase reply else reply) := by
  refine ⟨_, rfl, ?_⟩
  intro s
  refine ⟨_, ⟨rfl, by decide +kernel, by decide +kernel, Prod.ext ?_ rfl⟩, ?_, ?_, ?_, ?_⟩
  all_goals decide +kernel

/-- In the turn after that the other reply is taken out of memory. -/
theorem recollects_what_is_left :
    ∃ script, Script.compile .boundless keepsTwo {} = .ok script ∧
      let s := ((Session.start script (.seeded fun _ _ ↦ 0.0)).run script
        [.transform "my cat".toList]).2.state
      ∃ t, s.Unanswered script "bla".toList t ∧ t.memory.replies ≠ [] ∧
        (s.transform script "bla".toList).1 = "Earlier: your cat.".toList := by
  obtain ⟨script, hcompile, t, h, hkept, horder, hcase⟩ :
      ∃ script, Script.compile .boundless keepsTwo {} = .ok script ∧
        ∃ t, ((Session.start script (.seeded fun _ _ ↦ 0.0)).run script
            [.transform "my cat".toList]).2.state.Unanswered script "bla".toList t ∧
          t.memory.replies = ["Earlier: your cat.".toList] ∧
          script.options.randomizeChoices = false ∧ script.options.lowercaseOutput = false := by
    refine ⟨_, rfl, _, ⟨?_, ?_, ?_, Prod.ext ?_ rfl⟩, ?_, ?_, ?_⟩
    all_goals decide +kernel
  have hmemory : t.memory.replies ≠ [] := hkept ▸ List.cons_ne_nil _ _
  refine ⟨script, hcompile, t, h, hmemory, ?_⟩
  obtain ⟨entry, -, holdest, hsaid, -⟩ := recollects_before_evading script _ _ t h hmemory
  obtain ⟨rfl, -⟩ := List.cons_eq_cons.1 (hkept.symm.trans (holdest horder))
  rw [(hsaid (by decide)).1, hcase]
  decide +kernel

end State

end Dialogue
