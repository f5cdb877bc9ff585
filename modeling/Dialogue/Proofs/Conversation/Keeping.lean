import Dialogue.Proofs.Conversation.Course
import Dialogue.Proofs.Conversation.Redirects
import Dialogue.Conversation.Session
import Dialogue.Script.Compile

/-!
# What a turn keeps in memory

Memory gets replies only while keywords are looked for in the parts of an input. Each part in which
they are looked for is a `Search`; it says which replies are kept, and which rules have made them.

A visit tries each rule of its keyword once, so it keeps one reply of a rule at most. But nothing
remembers that a keyword was visited before: it may be visited because it occurs in the part, and
again for each redirect to it that is followed. So a rule may keep a reply for each of these visits.
The main statement, `State.keeps_once_for_each_visit`, counts them; a keyword that redirects to
itself shows that they do add up (`State.keeps_again_and_again`).
-/

namespace Dialogue

namespace Script

variable (script : Script)

/-- The replies that are kept in the course of some moves, each with the rule that has made it.
The last reply before them was made by `rule`. -/
def kept (rule : Option (Nat × Nat)) : List VisitMove → List (Option (Nat × Nat) × Text)
  | [] => []
  | .next keyword index :: moves => kept (some (keyword, index)) moves
  | .remember template captures :: moves =>
    (rule, script.fill template captures) :: kept rule moves

/-- How many replies of rule `j` of the keyword at place `l` some moves keep. -/
def timesKept (rule : Option (Nat × Nat)) (moves : List VisitMove) (l j : Nat) : Nat :=
  ((script.kept rule moves).map Prod.fst).count (some (l, j))

/-- The places to which `follow` is redirected, in the order in which it goes there. -/
def followTargets (part : Text) : Nat → Nat → State → List Nat
  | 0, _, _ => []
  | redirects + 1, keyword, state =>
    match script.visit keyword part state with
    | (.redirect _ place, state) => place :: followTargets part redirects place state
    | _ => []

/-- The places to which `answerPart` is redirected. -/
def answerPartTargets (part : Text) : Nat → List Keyword → State → List Nat
  | _, [], _ => []
  | place, keyword :: keywords, state =>
    if keyword.isIn part then
      script.followTargets part script.options.maxRedirectDepth place state ++
        match script.consult place part state with
        | (.ok (_ :: _), _) => []
        | (_, state) => answerPartTargets part (place + 1) keywords state
    else answerPartTargets part (place + 1) keywords state

end Script

/-- A part of an input in which keywords are looked for, and the state in which this begins. -/
structure Search where
  /-- The part with everything substituted. -/
  part : Text
  state : State

namespace Search

variable (script : Script) (search : Search)

/-- What is done in search of a reply. -/
def moves : List VisitMove :=
  script.answerPartMoves search.part 0 script.keywords search.state

/-- The replies that are kept, each with the rule that has made it. -/
def kept : List (Option (Nat × Nat) × Text) := script.kept none (search.moves script)

/-- How many replies of rule `i` of the keyword at place `k` are kept. -/
def times (k i : Nat) : Nat := script.timesKept none (search.moves script) k i

/-- The places of the keywords that are visited because of a redirect, as often as they are. -/
def targets : List Nat := script.answerPartTargets search.part 0 script.keywords search.state

end Search

/-- The parts in which `answerParts` looks for keywords. -/
def Script.searches (script : Script) : List Text → State → List Search
  | [], _ => []
  | part :: parts, state =>
    if script.quitParts.contains part then []
    else
      ⟨script.pre.apply part, state⟩ ::
        match script.answerPart (script.pre.apply part) 0 script.keywords state with
        | (some _, _) => []
        | (none, state) => searches script parts state

/-- The parts of an input in which keywords are looked for. -/
def State.searches (script : Script) (input : Text) (state : State) : List Search :=
  let normalized := script.options.normalize input
  if state.quit || script.holdsQuitPhrase normalized then []
  else script.searches normalized.parts state

/-! ## What is kept comes into memory -/

/-- The memory after some replies were kept. -/
def Memory.pushAll (memory : Memory) (replies : List Text) : Memory :=
  replies.foldl Memory.push memory

theorem Memory.pushAll_append (memory : Memory) (replies later : List Text) :
    memory.pushAll (replies ++ later) = (memory.pushAll replies).pushAll later :=
  List.foldl_append

theorem State.memory_nextReply (script : Script) (k i : Nat) (rule : Rule) (s : State) :
    (s.nextReply script k i rule).2.memory = s.memory := by
  rw [State.nextReply]
  split <;> rfl

namespace Script

variable {script : Script}

/-- Whatever rule has made the last reply before, memory gets what is kept. -/
theorem memory_foldl_visited (rule : Option (Nat × Nat)) (moves : List VisitMove) (s : State) :
    (moves.foldl (State.visited script) s).memory =
      s.memory.pushAll ((script.kept rule moves).map Prod.snd) := by
  induction moves generalizing rule s with
  | nil => rfl
  | cons move moves ih =>
    cases move with
    | next k i =>
      have hmemory : (s.visited script (.next k i)).memory = s.memory := by
        rw [State.visited]
        rcases script.rule? k i with _ | rule
        · rfl
        · exact s.memory_nextReply script k i rule
      rw [List.foldl_cons, ih (some (k, i)), hmemory]
      rfl
    | remember template captures => exact ih rule _

theorem memory_answerPart (script : Script) (search : Search) :
    (script.answerPart search.part 0 script.keywords search.state).2.memory =
      search.state.memory.pushAll ((search.kept script).map Prod.snd) := by
  rw [← foldl_answerPartMoves, memory_foldl_visited none]
  rfl

theorem memory_answerParts (script : Script) (parts : List Text) (s : State) :
    (script.answerParts parts s).2.memory =
      s.memory.pushAll (((script.searches parts s).flatMap (·.kept script)).map Prod.snd) := by
  induction parts generalizing s with
  | nil => rfl
  | cons part parts ih =>
    have hpart := memory_answerPart script ⟨script.pre.apply part, s⟩
    dsimp only at hpart
    rw [answerParts, searches]
    split
    · rfl
    · rw [List.flatMap_cons, List.map_append, Memory.pushAll_append, ← hpart]
      rcases script.answerPart (script.pre.apply part) 0 script.keywords s with ⟨_ | reply, t⟩
      · exact ih t
      · rfl

end Script

namespace State

/-- In the last resort a reply may be taken out of memory. -/
theorem memory_lastResort (script : Script) (t : State) :
    (t.lastResort script).2.memory =
      (t.memory.pop script.options.randomizeChoices t.draws).2.1 := by
  rw [lastResort]
  dsimp only
  rcases Text.nonempty? (t.recollect script).1 with _ | reply <;> rfl

theorem memory_replyToParts (script : Script) (parts : List Text) (s : State) :
    let memory :=
      s.memory.pushAll (((script.searches parts s).flatMap (·.kept script)).map Prod.snd)
    let after := (s.replyToParts script parts).2.memory
    after = memory ∨ ∃ d, after = (memory.pop script.options.randomizeChoices d).2.1 := by
  intro memory after
  have hmemory := Script.memory_answerParts script parts s
  simp only [after, replyToParts]
  rcases hanswer : script.answerParts parts s with ⟨_ | text | _, t⟩ <;>
    rw [hanswer] at hmemory
  · exact .inl hmemory
  · exact .inl hmemory
  · exact .inr ⟨t.draws, by rw [memory_lastResort, hmemory]⟩

/-- A turn keeps replies while it searches the parts of the input. At its end one reply may be
taken out of memory. -/
theorem memory_transform (script : Script) (s : State) (input : Text) :
    let memory :=
      s.memory.pushAll (((s.searches script input).flatMap (·.kept script)).map Prod.snd)
    let after := (s.transform script input).2.memory
    after = memory ∨ ∃ d, after = (memory.pop script.options.randomizeChoices d).2.1 := by
  have hafter : (s.transform script input).2.memory = (s.reply script input).2.memory := rfl
  rw [hafter, reply, searches]
  by_cases hquit : s.quit = true
  · simp only [hquit, if_true]
    exact .inl rfl
  · by_cases hphrase : script.holdsQuitPhrase (script.options.normalize input) = true
    · simp only [hquit, hphrase]
      exact .inl rfl
    · simp only [hquit, hphrase, Bool.or_self]
      by_cases hparts : (script.options.normalize input).parts.isEmpty = true
      · have hnone := List.isEmpty_iff.1 hparts
        have hprompt := memory_replyToParts script [] (s.prompt script).2
        rw [if_pos hparts, hnone]
        rcases Text.nonempty? (s.prompt script).1 with _ | reply
        · exact hprompt
        · exact .inl rfl
      · rw [if_neg hparts]
        exact memory_replyToParts script _ s

end State

/-! ## A visit keeps one reply of a rule -/

namespace Script

variable (script : Script) (rule : Option (Nat × Nat)) (part : Text) (l j : Nat)

theorem exists_kept_append (moves later : List VisitMove) :
    ∃ last, script.kept rule (moves ++ later) =
      script.kept rule moves ++ script.kept last later := by
  induction moves generalizing rule with
  | nil => exact ⟨rule, rfl⟩
  | cons move moves ih =>
    cases move with
    | next k i => exact ih (some (k, i))
    | remember template captures =>
      obtain ⟨last, h⟩ := ih rule
      exact ⟨last, congrArg (_ :: ·) h⟩

theorem exists_timesKept_append (moves later : List VisitMove) :
    ∃ last, script.timesKept rule (moves ++ later) l j =
      script.timesKept rule moves l j + script.timesKept last later l j := by
  obtain ⟨last, h⟩ := script.exists_kept_append rule moves later
  exact ⟨last, by rw [timesKept, h, List.map_append, List.count_append, timesKept, timesKept]⟩

/-- Rules are tried one after the other, and none of them twice. -/
theorem timesKept_tryMoves (k i : Nat) (rules : List Rule) (s : State) :
    script.timesKept rule (script.tryMoves k part i rules s) l j ≤
      if k = l ∧ i ≤ j then 1 else 0 := by
  induction rules generalizing rule i s with
  | nil => exact Nat.zero_le _
  | cons first rules ih =>
    have hlater (rule : Option (Nat × Nat)) (t : State) :
        script.timesKept rule (script.tryMoves k part (i + 1) rules t) l j ≤
          if k = l ∧ i ≤ j then 1 else 0 := by
      have := ih rule (i + 1) t
      split at this <;> split <;> omega
    rw [tryMoves]
    rcases first.decompose part with _ | captures
    · exact hlater rule s
    · dsimp only
      rcases s.nextReply script k i first with ⟨_ | template, t⟩
      · exact hlater (some (k, i)) t
      · dsimp only
        split
        · have hrest := ih (some (k, i)) (i + 1) (t.remember (script.fill template captures))
          rw [timesKept, kept, kept, List.map_cons, List.count_cons, ← timesKept]
          by_cases hsame : k = l ∧ i = j
          · obtain ⟨rfl, rfl⟩ := hsame
            rw [if_neg (by omega)] at hrest
            rw [if_pos (beq_self_eq_true _), if_pos ⟨rfl, le_refl _⟩]
            omega
          · rw [if_neg (by simpa using fun hk hi ↦ hsame ⟨hk, hi⟩)]
            exact hlater _ _
        · exact Nat.zero_le _

theorem timesKept_visitMoves (k : Nat) (s : State) :
    script.timesKept rule (script.visitMoves k part s) l j ≤ if k = l then 1 else 0 := by
  rw [visitMoves]
  rcases script.keywords[k]? with _ | keyword
  · exact Nat.zero_le _
  · simpa using script.timesKept_tryMoves rule part l j k 0 keyword.rules s

theorem timesKept_followMoves (n k : Nat) (s : State) :
    script.timesKept rule (script.followMoves part n k s) l j ≤
      (if k = l then 1 else 0) + (script.followTargets part n k s).count l := by
  induction n generalizing rule k s with
  | zero =>
    have hvisit := script.timesKept_visitMoves rule part l j k s
    rw [followMoves, followTargets]
    rcases script.visit k part s with ⟨_ | text | ⟨name, place⟩, t⟩ <;> simpa using hvisit
  | succ n ih =>
    have hvisit := script.timesKept_visitMoves rule part l j k s
    rw [followMoves, followTargets]
    rcases script.visit k part s with ⟨_ | text | ⟨name, place⟩, t⟩
    · simpa using hvisit
    · simpa using hvisit
    · dsimp only
      obtain ⟨last, happend⟩ := script.exists_timesKept_append rule l j
        (script.visitMoves k part s) (script.followMoves part n place t)
      have hrest := ih last place t
      rw [happend, List.count_cons]
      simp only [beq_iff_eq]
      omega

/-- Each keyword is tried once, and visited once more for each redirect to it. -/
theorem timesKept_answerPartMoves (place : Nat) (keywords : List Keyword) (s : State) :
    script.timesKept rule (script.answerPartMoves part place keywords s) l j ≤
      (if place ≤ l then 1 else 0) + (script.answerPartTargets part place keywords s).count l := by
  induction keywords generalizing rule place s with
  | nil => exact Nat.zero_le _
  | cons keyword keywords ih =>
    -- this keyword and the ones behind it have different places
    have hplace : (if place = l then 1 else 0) + (if place + 1 ≤ l then 1 else 0) =
        if place ≤ l then 1 else 0 := by
      split <;> split <;> split <;> omega
    have hfollow :=
      script.timesKept_followMoves rule part l j script.options.maxRedirectDepth place s
    have hlater (t : State) :
        script.timesKept rule
            (script.followMoves part script.options.maxRedirectDepth place s ++
              script.answerPartMoves part (place + 1) keywords t) l j ≤
          (if place ≤ l then 1 else 0) +
            (script.followTargets part script.options.maxRedirectDepth place s ++
              script.answerPartTargets part (place + 1) keywords t).count l := by
      obtain ⟨last, happend⟩ := script.exists_timesKept_append rule l j
        (script.followMoves part script.options.maxRedirectDepth place s)
        (script.answerPartMoves part (place + 1) keywords t)
      have hrest := ih last (place + 1) t
      rw [happend, List.count_append]
      omega
    rw [answerPartMoves, answerPartTargets]
    split
    · rcases script.consult place part s with ⟨failure | _ | ⟨first, reply⟩, t⟩
      · exact hlater t
      · exact hlater t
      · rw [List.append_nil, List.append_nil]
        omega
    · have hrest := ih rule (place + 1) s
      omega

/-! ## Who keeps and who redirects -/

/-- What is kept in the course of some moves was made by memorized rules. -/
def KeepsMemorized (moves : List VisitMove) : Prop :=
  ∀ rule, ∀ entry ∈ script.kept rule moves, ∃ k i r, entry.1 = some (k, i) ∧
    script.rule? k i = some r ∧ r.memorized = true

variable {script part l} {moves later : List VisitMove}

theorem KeepsMemorized.nil : script.KeepsMemorized [] := fun _ _ h ↦ absurd h List.not_mem_nil

theorem KeepsMemorized.append (h : script.KeepsMemorized moves)
    (hlater : script.KeepsMemorized later) : script.KeepsMemorized (moves ++ later) := by
  intro rule entry hentry
  obtain ⟨last, happend⟩ := script.exists_kept_append rule moves later
  rw [happend] at hentry
  rcases List.mem_append.1 hentry with hentry | hentry
  · exact h rule entry hentry
  · exact hlater last entry hentry

theorem KeepsMemorized.next (h : script.KeepsMemorized moves) (k i : Nat) :
    script.KeepsMemorized (.next k i :: moves) :=
  fun _ entry hentry ↦ h (some (k, i)) entry hentry

theorem KeepsMemorized.next_remember {k i : Nat} {r : Rule} (h : script.KeepsMemorized moves)
    (hr : script.rule? k i = some r) (hmemorized : r.memorized = true) (template : Text)
    (captures : List Text) :
    script.KeepsMemorized (.next k i :: .remember template captures :: moves) := by
  intro _ entry hentry
  rw [kept, kept] at hentry
  rcases List.mem_cons.1 hentry with rfl | hentry
  · exact ⟨k, i, r, rfl, hr, hmemorized⟩
  · exact h (some (k, i)) entry hentry

theorem keepsMemorized_tryMoves {k i : Nat} {keyword : Keyword} {rules : List Rule}
    (hk : script.keywords[k]? = some keyword) (hrules : keyword.rules.drop i = rules) (s : State) :
    script.KeepsMemorized (script.tryMoves k part i rules s) := by
  induction rules generalizing i s with
  | nil => exact .nil
  | cons first rules ih =>
    obtain ⟨hfirst, hrest⟩ := rule?_of_drop_eq_cons hk hrules
    rw [tryMoves]
    rcases first.decompose part with _ | captures
    · exact ih hrest s
    · dsimp only
      rcases s.nextReply script k i first with ⟨_ | template, t⟩
      · exact (ih hrest t).next k i
      · dsimp only
        split
        · rename_i hmemorized
          exact (ih hrest _).next_remember hfirst (Bool.and_eq_true_iff.1 hmemorized).2 template
            captures
        · exact KeepsMemorized.nil.next k i

theorem keepsMemorized_followMoves (script : Script) (part : Text) (n k : Nat) (s : State) :
    script.KeepsMemorized (script.followMoves part n k s) := by
  have hvisit (k : Nat) (s : State) : script.KeepsMemorized (script.visitMoves k part s) := by
    rw [visitMoves]
    rcases hk : script.keywords[k]? with _ | keyword
    · exact .nil
    · exact keepsMemorized_tryMoves hk rfl s
  induction n generalizing k s with
  | zero =>
    rw [followMoves]
    rcases script.visit k part s with ⟨_ | text | ⟨name, place⟩, t⟩ <;>
      exact (hvisit k s).append .nil
  | succ n ih =>
    rw [followMoves]
    rcases script.visit k part s with ⟨_ | text | ⟨name, place⟩, t⟩
    · exact (hvisit k s).append .nil
    · exact (hvisit k s).append .nil
    · exact (hvisit k s).append (ih place t)

theorem keepsMemorized_answerPartMoves (place : Nat) (keywords : List Keyword) (s : State) :
    script.KeepsMemorized (script.answerPartMoves part place keywords s) := by
  induction keywords generalizing place s with
  | nil => exact .nil
  | cons keyword keywords ih =>
    have hfollow :=
      keepsMemorized_followMoves script part script.options.maxRedirectDepth place s
    rw [answerPartMoves]
    split
    · rcases script.consult place part s with ⟨failure | _ | ⟨first, reply⟩, t⟩
      · exact hfollow.append (ih (place + 1) t)
      · exact hfollow.append (ih (place + 1) t)
      · exact hfollow.append .nil
    · exact ih (place + 1) s

theorem exists_redirectsTo_of_mem_followTargets {n k : Nat} {s : State}
    (h : l ∈ script.followTargets part n k s) : ∃ k, script.RedirectsTo k l := by
  induction n generalizing k s with
  | zero => exact absurd h List.not_mem_nil
  | succ n ih =>
    rw [followTargets] at h
    rcases hvisit : script.visit k part s with ⟨_ | text | ⟨name, place⟩, t⟩ <;> rw [hvisit] at h
    · exact absurd h List.not_mem_nil
    · exact absurd h List.not_mem_nil
    · rcases List.mem_cons.1 h with rfl | h
      · exact ⟨k, redirectsTo_of_visit hvisit⟩
      · exact ih h

theorem exists_redirectsTo_of_mem_answerPartTargets {place : Nat} {keywords : List Keyword}
    {s : State} (h : l ∈ script.answerPartTargets part place keywords s) :
    ∃ k, script.RedirectsTo k l := by
  induction keywords generalizing place s with
  | nil => exact absurd h List.not_mem_nil
  | cons keyword keywords ih =>
    rw [answerPartTargets] at h
    split at h
    · rcases List.mem_append.1 h with h | h
      · exact exists_redirectsTo_of_mem_followTargets h
      · rcases hconsult : script.consult place part s with ⟨failure | _ | ⟨first, reply⟩, t⟩ <;>
          rw [hconsult] at h
        · exact ih h
        · exact ih h
        · exact absurd h List.not_mem_nil
    · exact ih h

/-- The parts are searched in their order, up to the one that has an answer. -/
theorem map_part_searches (parts : List Text) (s : State) :
    (script.searches parts s).map (·.part) <+: parts.map script.pre.apply := by
  induction parts generalizing s with
  | nil => exact List.prefix_rfl
  | cons part parts ih =>
    rw [searches]
    split
    · exact List.nil_prefix
    · rcases script.answerPart (script.pre.apply part) 0 script.keywords s with ⟨_ | reply, t⟩
      · exact List.cons_prefix_cons.2 ⟨rfl, ih t⟩
      · exact List.cons_prefix_cons.2 ⟨rfl, List.nil_prefix⟩

end Script

/-! ## Once for each visit -/

namespace State

/-- **In a part of the input, a rule keeps one reply for each visit to its keyword.** During a turn,
memory gets the replies that are kept while the parts are searched, at most one search for each of
them, and at the end one reply may be taken out. All that is kept comes from memorized rules. In
one search, a rule keeps at most one reply because its keyword occurs in the part, and one more
each time that a redirect to its keyword is followed; so it is at most one if no reply of the script
redirects to the keyword. -/
theorem keeps_once_for_each_visit (script : Script) (s : State) (input : Text) :
    let searches := s.searches script input
    let memory := s.memory.pushAll ((searches.flatMap (·.kept script)).map Prod.snd)
    let after := (s.transform script input).2.memory
    (after = memory ∨ ∃ d, after = (memory.pop script.options.randomizeChoices d).2.1) ∧
    searches.map (·.part) <+: (script.options.normalize input).parts.map script.pre.apply ∧
    (∀ search ∈ searches, ∀ entry ∈ search.kept script, ∃ k i rule, entry.1 = some (k, i) ∧
      script.rule? k i = some rule ∧ rule.memorized = true) ∧
    (∀ search ∈ searches, ∀ k i,
      search.times script k i ≤ 1 + (search.targets script).count k) ∧
    ∀ search ∈ searches, ∀ k, (∀ l, ¬ script.RedirectsTo l k) →
      ∀ i, search.times script k i ≤ 1 := by
  intro searches memory after
  have hcount (search : Search) (k i : Nat) :
      search.times script k i ≤ 1 + (search.targets script).count k :=
    script.timesKept_answerPartMoves none search.part k i 0 script.keywords search.state
  refine ⟨memory_transform script s input, ?_, ?_, fun search _ ↦ hcount search, ?_⟩
  · simp only [searches, State.searches]
    split
    · exact List.nil_prefix
    · exact Script.map_part_searches _ s
  · intro search _
    exact Script.keepsMemorized_answerPartMoves 0 script.keywords search.state none
  · intro search _ k hnone i
    have hzero : (search.targets script).count k = 0 := by
      refine List.count_eq_zero.2 fun hmem ↦ ?_
      obtain ⟨l, hl⟩ := Script.exists_redirectsTo_of_mem_answerPartTargets hmem
      exact hnone l hl
    have := hcount search k i
    omega

/-- A script whose one keyword keeps a reply and then gives another one. -/
def keepsOne (other : String) : Json :=
  .object [("initial", .array []), ("final", .array []), ("quit", .array []),
    ("none", .array []), ("pre", .object []), ("post", .object []), ("tags", .object []),
    ("keywords", .object [("my", .object [("@ * my *", .string "Earlier: your $2."),
      ("*", .string other)])])]

/-- The other reply is empty, so the next part is searched too. In each, a reply is kept once. -/
theorem keeps_once_for_each_part :
    ∃ script, Script.compile .boundless (keepsOne "") {} = .ok script ∧
      let searches := (Session.start script (.seeded fun _ _ ↦ 0.0)).state.searches script
        "My cat. My dog!".toList
      searches.length = 2 ∧ ∀ search ∈ searches, search.times script 0 0 ≤ 1 := by
  obtain ⟨script, hcompile, hlength, hnone⟩ :
      ∃ script, Script.compile .boundless (keepsOne "") {} = .ok script ∧
        ((Session.start script (.seeded fun _ _ ↦ 0.0)).state.searches script
          "My cat. My dog!".toList).length = 2 ∧
        ∀ keyword ∈ script.keywords, ∀ rule ∈ keyword.rules, ∀ template ∈ rule.replies,
          script.redirect? template = none := by
    refine ⟨_, rfl, ?_, ?_⟩
    all_goals decide +kernel
  refine ⟨script, hcompile, hlength, fun search hsearch ↦ ?_⟩
  obtain ⟨-, -, -, -, honce⟩ := keeps_once_for_each_visit script _ _
  refine honce search hsearch 0 ?_ 0
  rintro l ⟨keyword, hk, rule, hrule, template, htemplate, name, hredirect⟩
  rw [hnone keyword (List.mem_of_getElem? hk) rule hrule template htemplate] at hredirect
  cases hredirect

/-- Now the other reply redirects to the keyword itself. For one part of the input, its rule keeps a
reply 17 times: once because the keyword occurs in the part, and then for each of the 16 redirects
that are followed. -/
theorem keeps_again_and_again :
    ∃ script, Script.compile .boundless (keepsOne "= my") {} = .ok script ∧
      let s := (Session.start script (.seeded fun _ _ ↦ 0.0)).state
      let searches := s.searches script "my cat".toList
      ¬ (∀ search ∈ searches, search.times script 0 0 ≤ 1) ∧
        searches.map (fun search ↦ (search.times script 0 0, search.targets script)) =
          [(17, List.replicate 16 0)] ∧
        (s.transform script "my cat".toList).2.memory.replies =
          List.replicate 16 "Earlier: your cat.".toList := by
  refine ⟨_, rfl, ?_⟩
  intro s searches
  refine ⟨?_, ?_, ?_⟩
  all_goals decide +kernel

end State

end Dialogue
