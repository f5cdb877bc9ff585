import Dialogue.Proofs.Conversation.Fairness
import Dialogue.Proofs.Conversation.Recollection

/-!
# The reply of last resort

A turn that neither a keyword nor memory answers is left to the evasions. One evasion is used, the
next in the rounds of the pool, and only then is it looked at: if it is empty, the fallback reply is
given, and the evasions behind it are not asked.

So the fallback reply is no proof that the script has nothing else to say. A pool that mixes empty
evasions with others falls back once for each empty one in every round (`Session.falls_back_iff`).
-/

namespace Dialogue

open Text (lowercase contract)

/-! ## Turns left to the evasions -/

namespace State

variable {script : Script} {input : Text} {s t u : State} {log : List Nat}

/-- Neither a keyword nor memory answers the input. The evasions are asked in the state `u`. -/
def LeftToEvasions (script : Script) (input : Text) (s u : State) : Prop :=
  ∃ t, s.Unanswered script input t ∧ Text.nonempty? (t.recollect script).1 = none ∧
    u = (t.recollect script).2

/-- The input is answered by the fallback reply: it is left to the evasions, and the one whose turn
it is says nothing. -/
def FallsBack (script : Script) (input : Text) (s : State) : Prop :=
  ∃ u, s.LeftToEvasions script input u ∧ Text.nonempty? (u.evade script).1 = none

theorem LeftToEvasions.reply_eq (h : s.LeftToEvasions script input u) :
    s.reply script input =
      ((Text.nonempty? (u.evade script).1).getD script.options.fallbackReply.toList,
        (u.evade script).2) := by
  obtain ⟨t, hunanswered, hmemory, rfl⟩ := h
  rw [hunanswered.reply_eq, lastResort]
  dsimp only
  rw [hmemory]

/-- The search for keywords has one outcome, so there is one state in which evasions are asked. -/
theorem LeftToEvasions.eq (h : s.LeftToEvasions script input t)
    (h' : s.LeftToEvasions script input u) : t = u := by
  obtain ⟨v, hv, -, rfl⟩ := h
  obtain ⟨w, hw, -, rfl⟩ := h'
  rw [(Prod.mk.inj (hv.search.symm.trans hw.search)).2]

theorem LeftToEvasions.fallsBack_iff (h : s.LeftToEvasions script input u) :
    s.FallsBack script input ↔ Text.nonempty? (u.evade script).1 = none := by
  constructor
  · rintro ⟨v, hv, hnone⟩
    rwa [h.eq hv]
  · intro hnone
    exact ⟨u, h, hnone⟩

/-! ## The evasion that is used -/

/-- When no part is answered and memory has nothing to say, the last move is to the evasions. -/
theorem exists_replyToPartsMoves {parts : List Text}
    (hparts : script.answerParts parts s = (.nothing, t))
    (hmemory : Text.nonempty? (t.recollect script).1 = none) :
    ∃ moves, s.replyToPartsMoves script parts = moves ++ [.evade] ∧
      moves.foldl (moved script) s = (t.recollect script).2 ∧
      ∀ move ∈ moves, move ≠ .reset ∧ move.pool? ≠ some .evasions := by
  refine ⟨(script.answerPartsMoves parts s).map .visit ++ [.recollect], ?_, ?_, ?_⟩
  · rw [replyToPartsMoves, hparts]
    dsimp only
    rw [lastResortMoves, hmemory, List.append_assoc]
    rfl
  · have hvisits : (script.answerPartsMoves parts s).foldl (visited script) s = t := by
      rw [Script.foldl_answerPartsMoves, hparts]
    rw [List.foldl_append, List.foldl_map]
    exact congrArg (fun v ↦ moved script v Move.recollect) hvisits
  · intro move hmove
    rcases List.mem_append.1 hmove with hvisit | hlast
    · obtain ⟨visit, -, rfl⟩ := List.mem_map.1 hvisit
      rcases visit <;> simp [Move.pool?]
    · rw [List.mem_singleton.1 hlast]
      simp [Move.pool?]

/-- The evasions are asked at the end of the turn, and not before. -/
theorem LeftToEvasions.exists_moves (h : s.LeftToEvasions script input u) :
    ∃ moves, s.replyMoves script input = moves ++ [.evade] ∧
      moves.foldl (moved script) s = u ∧
      ∀ move ∈ moves, move ≠ .reset ∧ move.pool? ≠ some .evasions := by
  obtain ⟨t, hunanswered, hmemory, rfl⟩ := h
  have hsearch := hunanswered.search
  rw [replyMoves, if_neg (by simp [hunanswered.active])]
  dsimp only
  rw [if_neg (by simp [hunanswered.phrase])]
  by_cases hempty : (script.options.normalize input).parts = []
  · rw [if_pos hempty] at hsearch
    obtain ⟨moves, hmoves, hfoldl, hother⟩ := exists_replyToPartsMoves hsearch hmemory
    rw [if_pos (List.isEmpty_iff.2 hempty), hunanswered.prompt hempty]
    refine ⟨.prompt :: moves, congrArg _ hmoves, hfoldl, ?_⟩
    rw [List.forall_mem_cons]
    exact ⟨by simp [Move.pool?], hother⟩
  · rw [if_neg hempty] at hsearch
    rw [if_neg (mt List.isEmpty_iff.1 hempty)]
    exact exists_replyToPartsMoves hsearch hmemory

/-- What is asked is the next entry of the pool. -/
theorem LeftToEvasions.chosen_eq (h : s.LeftToEvasions script input u) (log : List Nat) :
    s.chosen script .evasions log (s.replyMoves script input) =
      log ++ (u.choice? script .evasions .evade).toList := by
  obtain ⟨moves, hmoves, rfl, hother⟩ := h.exists_moves
  rw [hmoves, chosen_append hother, chosen, chosen]
  simp

/-- There is an evasion to ask if the script has any. -/
theorem exists_choice?_evade (hfits : u.Fits script) (h : script.evasions ≠ []) :
    ∃ index, u.choice? script .evasions .evade = some index := by
  have hsize : 0 < u.evasions.size := hfits.evasions ▸ List.length_pos_of_ne_nil h
  exact Cycle.exists_advance hsize _ u.draws

theorem LeftToEvasions.fits (h : s.LeftToEvasions script input u) (hfits : s.Fits script) :
    u.Fits script := by
  obtain ⟨moves, -, rfl, -⟩ := h.exists_moves
  exact List.foldlRecOn _ _ hfits fun _ hfits move _ ↦ (kept_fits script).moved hfits move

/-- The rounds of the pool go on through a turn. -/
theorem Tracks.fair_evasions (h : s.Tracks script .evasions log) (input : Text) :
    Fair script.evasions.length (Pool.evasions.keep script)
      (s.chosen script .evasions log (s.replyMoves script input)) := by
  have hcyclic : Pool.evasions.Cyclic script := trivial
  exact (h.foldl hcyclic).fair

/-- **The evasion that is used** is the next one in the rounds of the pool. -/
theorem LeftToEvasions.exists_evasion (h : s.LeftToEvasions script input u)
    (hfits : s.Fits script) (htracks : s.Tracks script .evasions log)
    (hne : script.evasions ≠ []) :
    ∃ index entry, script.evasions[index]? = some entry ∧
      s.chosen script .evasions log (s.replyMoves script input) = log ++ [index] ∧
      (script.options.shuffleChoices = false → index = log.length % script.evasions.length) ∧
      (u.evade script).1 = some entry := by
  obtain ⟨index, hindex⟩ := exists_choice?_evade (h.fits hfits) hne
  have hlog : s.chosen script .evasions log (s.replyMoves script input) = log ++ [index] := by
    rw [h.chosen_eq, hindex, Option.toList_some]
  have hfair := htracks.fair_evasions input
  rw [hlog] at hfair
  have hlt : index < script.evasions.length := hfair.lt index (by simp)
  refine ⟨index, script.evasions[index], List.getElem?_eq_getElem hlt, hlog, fun hshuffle ↦ ?_, ?_⟩
  · have hkeep : Pool.evasions.keep script = script.evasions.length := by
      simp [Pool.keep, Pool.replies, hshuffle]
    rw [hkeep] at hfair
    exact hfair.eq_length_mod
  · rw [u.saysChoices.evade, hindex, Option.bind_some, List.getElem?_eq_getElem hlt]

/-- The fallback reply is given in place of an empty evasion. -/
theorem LeftToEvasions.fallsBack_iff_eq_nil (h : s.LeftToEvasions script input u) {entry : Text}
    (hevade : (u.evade script).1 = some entry) : s.FallsBack script input ↔ entry = [] := by
  rw [h.fallsBack_iff, hevade]
  rcases entry with _ | ⟨c, entry⟩ <;> simp [Text.nonempty?]

theorem LeftToEvasions.fallsBack_of_nil (h : s.LeftToEvasions script input u)
    (hnone : script.evasions = []) : s.FallsBack script input := by
  rw [h.fallsBack_iff, u.saysChoices.evade, hnone]
  rcases u.choice? script .evasions .evade with _ | index <;> rfl

end State

/-! ## Sessions -/

namespace Session

variable {script : Script} {s : Session} {pool : Pool} {log : List Nat}

/-- **When the fallback reply is given.** A turn that is left to the evasions uses the next one in
the rounds of the pool, which go in the order of declaration unless they are shuffled. The fallback
reply is given exactly if that one is empty or there is none, whatever the others say. So each
complete round falls back once for each empty evasion. Only in a pool in which no evasion is empty,
or all are, does falling back mean that there is nothing else to say. -/
theorem falls_back_iff (script : Script) (factory : Factory) (before : List Action)
    (input : Text) (u : State) :
    let new := start script factory
    let s := (new.run script before).2.state
    let asked := new.chosen script .evasions [] before
    let asked' := new.chosen script .evasions [] (before ++ [.transform input])
    let form := fun reply : Text ↦
      contract (if script.options.lowercaseOutput then lowercase reply else reply)
    s.LeftToEvasions script input u →
      (s.FallsBack script input →
        (s.transform script input).1 = form script.options.fallbackReply.toList) ∧
      (script.evasions = [] → s.FallsBack script input) ∧
      (script.evasions ≠ [] → ∃ index entry, script.evasions[index]? = some entry ∧
        asked' = asked ++ [index] ∧
        (script.options.shuffleChoices = false →
          index = asked.length % script.evasions.length) ∧
        (s.FallsBack script input ↔ entry = []) ∧
        (entry ≠ [] → (s.transform script input).1 = form entry)) ∧
      (∀ number, (block script.evasions.length number asked').length = script.evasions.length →
        (block script.evasions.length number asked').countP
            (fun index ↦ script.evasions[index]?.any List.isEmpty) =
          script.evasions.countP List.isEmpty) ∧
      ((∀ entry ∈ script.evasions, entry ≠ []) ∨ (∀ entry ∈ script.evasions, entry = []) →
        s.FallsBack script input → ∀ entry ∈ script.evasions, entry = []) := by
  intro new s asked asked' form hleft
  have hfits : s.Fits script := fits_run (State.fits_start script _) before
  have hcyclic : Pool.evasions.Cyclic script := trivial
  have htracks : s.Tracks script .evasions asked := tracks_run hcyclic (State.tracks_start _)
  have hasked : asked' = s.chosen script .evasions asked (s.replyMoves script input) :=
    chosen_concat
  have hfair : Fair script.evasions.length (Pool.evasions.keep script) asked' :=
    hasked ▸ htracks.fair_evasions input
  have htransform : (s.transform script input).1 =
      form ((Text.nonempty? (u.evade script).1).getD script.options.fallbackReply.toList) := by
    rw [State.transform, hleft.reply_eq]
  have hturn (hne : script.evasions ≠ []) : ∃ index entry, script.evasions[index]? = some entry ∧
      asked' = asked ++ [index] ∧
      (script.options.shuffleChoices = false → index = asked.length % script.evasions.length) ∧
      (s.FallsBack script input ↔ entry = []) ∧
      (entry ≠ [] → (s.transform script input).1 = form entry) := by
    obtain ⟨index, entry, hentry, hlog, hnext, hevade⟩ := hleft.exists_evasion hfits htracks hne
    refine ⟨index, entry, hentry, hasked.trans hlog, hnext, hleft.fallsBack_iff_eq_nil hevade,
      fun hsays ↦ ?_⟩
    rw [htransform, Text.nonempty?_eq_some_iff.2 ⟨hevade, hsays⟩, Option.getD_some]
  refine ⟨fun hfalls ↦ ?_, hleft.fallsBack_of_nil, hturn, fun number ↦
    hfair.countP_block List.isEmpty, ?_⟩
  · rw [htransform, hleft.fallsBack_iff.1 hfalls, Option.getD_none]
  · rintro (hsay | hsilent) hfalls
    · by_contra hentries
      obtain ⟨entry, hmem, -⟩ : ∃ entry ∈ script.evasions, entry ≠ [] := by
        simpa using hentries
      obtain ⟨index, empty, hempty, -, -, hiff, -⟩ := hturn (List.ne_nil_of_mem hmem)
      exact hsay empty (List.mem_of_getElem? hempty) (hiff.1 hfalls)
    · exact hsilent

/-- A script with an empty evasion in front of another one falls back in its first turn. -/
theorem skips_no_evasion :
    let script : Script :=
      { options := { fallbackReply := "Go on." }, greetings := [], farewells := [],
        quitParts := [], quitPhrases := [], evasions := [[], "I see.".toList], prompts := [],
        pre := {}, post := {}, tags := [], keywords := [] }
    let s := (start script (.seeded fun _ _ ↦ 0.0)).state
    ∃ u, s.LeftToEvasions script "x".toList u ∧ s.FallsBack script "x".toList ∧
      (s.transform script "x".toList).1 = "Go on.".toList ∧
      "I see.".toList ∈ script.evasions := by
  intro script s
  have hparts : (script.options.normalize "x".toList).parts = ["x".toList] := by decide +kernel
  have hnone : (script.options.normalize "x".toList).parts ≠ [] := hparts ▸ List.cons_ne_nil _ _
  have hsearch : script.answerParts (script.options.normalize "x".toList).parts s =
      (.nothing, s) := by
    rw [hparts]
    rfl
  have hunanswered : s.Unanswered script "x".toList s :=
    ⟨rfl, rfl, fun h ↦ absurd h hnone, (if_neg hnone).symm ▸ hsearch⟩
  obtain ⟨u, hleft⟩ : ∃ u, s.LeftToEvasions script "x".toList u := ⟨_, s, hunanswered, rfl, rfl⟩
  obtain ⟨hfallback, -, hturn, -, -⟩ :=
    falls_back_iff script (.seeded fun _ _ ↦ 0.0) [] "x".toList u hleft
  obtain ⟨index, entry, hentry, -, hindex, hiff, -⟩ := hturn (List.cons_ne_nil _ _)
  obtain rfl : index = 0 := hindex rfl
  have hfalls : s.FallsBack script "x".toList := hiff.2 (Option.some.inj hentry).symm
  exact ⟨u, hleft, hfalls, (hfallback hfalls).trans (by decide +kernel), by simp [script]⟩

end Session

end Dialogue
