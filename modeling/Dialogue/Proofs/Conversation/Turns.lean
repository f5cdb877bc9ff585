import Dialogue.Proofs.Conversation.Keeping
import Dialogue.Proofs.Conversation.Supply

/-!
# The turns of rules

What consulting a keyword does is told by the *turns* that rules have. In a visit, a rule has a turn
if it fits the part and has replies. A rule that is memorized and does not redirect keeps what it
makes, and the next one has its turn; any other rule answers or redirects, which ends the visit.

So each visit is a list of turns, those of the first few rules that may have one, and redirects lead
from visit to visit (`Script.Chain`). Nothing happens to the state besides: a turn takes one reply
from the cycle of its rule, and what is kept goes into memory in the order of the turns
(`Script.Runs`). The main statement, `State.effects_of_consulting`, reads off what this comes to.
-/

namespace Dialogue

/-- A turn of a rule: the rule fits the part, and one of its replies is chosen. -/
structure Turn (script : Script) (part : Text) where
  keyword : Nat
  index : Nat
  rule : Rule
  captures : List Text
  template : Text
  isRule : script.rule? keyword index = some rule
  fits : rule.decompose part = some captures
  isReply : template ∈ rule.replies

namespace Turn

variable {script : Script} {part : Text} (turn : Turn script part)

/-- The place of the rule: that of its keyword and its own. -/
def place : Nat × Nat := (turn.keyword, turn.index)

/-- What the rule makes of the part. -/
def text : Text := script.fill turn.template turn.captures

/-- Does the rule keep what it makes? -/
def keeps : Bool := (script.redirect? turn.template).isNone && turn.rule.memorized

/-- What the visit comes to if the rule does not keep what it makes. -/
def outcome : Visit :=
  match script.redirect? turn.template with
  | some (name, l) => .redirect name l
  | none => .reply turn.text

/-- The state after the turn, if `s` is the one behind the choice of the template. -/
def leave (s : State) : State := if turn.keeps then s.remember turn.text else s

end Turn

namespace Script

variable (script : Script) (part : Text)

/-- May a rule have a turn? It must fit the part and have a reply. -/
def mayTurn (rule : Rule) : Bool := (rule.decompose part).isSome && !rule.replies.isEmpty

/-- The places of the rules, the first of which has some index, that may have a turn. -/
def turnsFrom (k i : Nat) (rules : List Rule) : List (Nat × Nat) :=
  ((rules.zipIdx i).filter (mayTurn part ·.1)).map fun (_, index) ↦ (k, index)

/-- The places of the rules of a keyword that may have a turn. -/
def mayHaveTurns (k : Nat) : List (Nat × Nat) :=
  turnsFrom part k 0 (script.keywords[k]?.elim [] (·.rules))

variable {script part}

/-- The turns of a visit, and what it comes to, if the rules of some places may have a turn. The
first ones have a turn, up to the one that does not keep what it makes. -/
inductive Stop (places : List (Nat × Nat)) : List (Turn script part) → Visit → Prop
  | silent {turns : List (Turn script part)} (all : turns.map Turn.place = places)
      (keep : ∀ turn ∈ turns, turn.keeps = true) : Stop places turns .silent
  | outcome {kept : List (Turn script part)} {last : Turn script part}
      (first : (kept ++ [last]).map Turn.place <+: places)
      (keep : ∀ turn ∈ kept, turn.keeps = true) (ends : last.keeps = false) :
      Stop places (kept ++ [last]) last.outcome

/-- The turns are had one after the other: each takes its template from the cycle of its rule, and
keeps what it makes if it keeps anything. Nothing else is done. -/
inductive Runs : State → List (Turn script part) → State → Prop
  | done (s : State) : Runs s [] s
  | turn {s t u : State} {turn : Turn script part} {turns : List (Turn script part)}
      (next : s.nextReply script turn.keyword turn.index turn.rule = (some turn.template, t))
      (rest : Runs (turn.leave t) turns u) : Runs s (turn :: turns) u

/-- The visits that are made if keyword `k` is visited and `n` redirects may be followed, each with
its place and its turns, and the answer that they come to. -/
inductive Chain : Nat → Nat → List (Nat × List (Turn script part)) → Except Failure Text → Prop
  | silent {n k : Nat} {turns : List (Turn script part)}
      (stop : Stop (script.mayHaveTurns part k) turns .silent) : Chain n k [(k, turns)] (.ok [])
  | reply {n k : Nat} {turns : List (Turn script part)} {text : Text}
      (stop : Stop (script.mayHaveTurns part k) turns (.reply text)) :
      Chain n k [(k, turns)] (.ok text)
  | cut {k l : Nat} {turns : List (Turn script part)} {name : Text}
      (stop : Stop (script.mayHaveTurns part k) turns (.redirect name l)) :
      Chain 0 k [(k, turns)]
        (.error (.redirectCycle (String.ofList name) script.options.maxRedirectDepth))
  | redirect {n k l : Nat} {turns : List (Turn script part)} {name : Text}
      {visits : List (Nat × List (Turn script part))} {answer : Except Failure Text}
      (stop : Stop (script.mayHaveTurns part k) turns (.redirect name l))
      (rest : Chain n l visits answer) : Chain (n + 1) k ((k, turns) :: visits) answer

variable {s t u : State} {turn : Turn script part} {turns later : List (Turn script part)}
  {places : List (Nat × Nat)} {visit : Visit} {k i : Nat} {rule : Rule} {rules : List Rule}

/-! ## Trying rules -/

theorem turnsFrom_cons_of_not (h : mayTurn part rule = false) :
    turnsFrom part k i (rule :: rules) = turnsFrom part k (i + 1) rules := by
  rw [turnsFrom, List.zipIdx_cons, List.filter_cons_of_neg (by simpa using h)]
  rfl

theorem turnsFrom_cons (h : mayTurn part rule = true) :
    turnsFrom part k i (rule :: rules) = (k, i) :: turnsFrom part k (i + 1) rules := by
  rw [turnsFrom, List.zipIdx_cons, List.filter_cons_of_pos (by simpa using h)]
  rfl

/-- A rule that may not have a turn is passed over. -/
theorem tryRules_cons_of_not (hs : s.Supplied script) (hrule : script.rule? k i = some rule)
    (h : mayTurn part rule = false) :
    script.tryRules k part i (rule :: rules) s = script.tryRules k part (i + 1) rules s := by
  rw [tryRules]
  rcases hfits : rule.decompose part with _ | captures
  · rfl
  · have hnil : rule.replies = [] := by
      rw [mayTurn, hfits, Option.isSome_some, Bool.true_and, Bool.not_eq_false'] at h
      exact List.isEmpty_iff.1 h
    dsimp only
    rw [hs.nextReply_of_nil hrule hnil]

/-- A rule that may have a turn has it. The rules behind are tried only if it keeps what it
makes. -/
theorem exists_turn (hs : s.Supplied script) (hrule : script.rule? k i = some rule)
    (h : mayTurn part rule = true) :
    ∃ (turn : Turn script part) (t : State), turn.place = (k, i) ∧
      s.nextReply script turn.keyword turn.index turn.rule = (some turn.template, t) ∧
      (turn.leave t).Supplied script ∧
      script.tryRules k part i (rule :: rules) s =
        if turn.keeps then script.tryRules k part (i + 1) rules (turn.leave t)
        else (turn.outcome, turn.leave t) := by
  rw [mayTurn, Bool.and_eq_true, Option.isSome_iff_exists, Bool.not_eq_true',
    List.isEmpty_eq_false_iff] at h
  obtain ⟨⟨captures, hfits⟩, hne⟩ := h
  obtain ⟨template, t, hnext⟩ := hs.exists_template hrule hne
  have ht : t.Supplied script := by
    have := hs.nextReply hrule
    rwa [hnext] at this
  refine ⟨⟨k, i, rule, captures, template, hrule, hfits, mem_replies_of_nextReply hnext⟩, t, rfl,
    hnext, ?_, ?_⟩
  · rw [Turn.leave]
    split <;> exact ht
  · rw [tryRules, hfits]
    dsimp only
    rw [hnext, Turn.leave, Turn.keeps, Turn.outcome]
    dsimp only
    rcases script.redirect? template with _ | ⟨name, l⟩
    · rcases rule.memorized <;> rfl
    · rfl

/-- A turn that keeps what it makes is followed by those of the rules behind. -/
theorem Stop.cons (h : Stop places turns visit) (hkeeps : turn.keeps = true) :
    Stop (turn.place :: places) (turn :: turns) visit := by
  rcases h with ⟨all, keep⟩ | ⟨first, keep, ends⟩
  · exact .silent (congrArg _ all) (List.forall_mem_cons.2 ⟨hkeeps, keep⟩)
  · rw [← List.cons_append]
    exact .outcome (List.cons_prefix_cons.2 ⟨rfl, first⟩) (List.forall_mem_cons.2 ⟨hkeeps, keep⟩)
      ends

/-- **Rules that are tried have their turns**, one after the other. -/
theorem exists_turns_of_tryRules {keyword : Keyword} (hs : s.Supplied script)
    (hk : script.keywords[k]? = some keyword) (hrules : keyword.rules.drop i = rules) :
    ∃ turns : List (Turn script part),
      Stop (turnsFrom part k i rules) turns (script.tryRules k part i rules s).1 ∧
        Runs s turns (script.tryRules k part i rules s).2 := by
  induction rules generalizing i s with
  | nil => exact ⟨[], .silent rfl (List.forall_mem_nil _), .done s⟩
  | cons rule rules ih =>
    obtain ⟨hrule, hrest⟩ := rule?_of_drop_eq_cons hk hrules
    -- the first rule keeps what it makes, or ends the visit, or is passed over
    by_cases hmay : mayTurn part rule = true
    · obtain ⟨turn, t, hplace, hnext, ht, htry⟩ := exists_turn hs hrule hmay
      rw [turnsFrom_cons hmay, htry, ← hplace]
      by_cases hkeeps : turn.keeps = true
      · obtain ⟨turns, hstop, hruns⟩ := ih ht hrest
        rw [if_pos hkeeps]
        exact ⟨turn :: turns, hstop.cons hkeeps, .turn hnext hruns⟩
      · have hfirst : [turn].map Turn.place <+: turn.place :: turnsFrom part k (i + 1) rules :=
          List.cons_prefix_cons.2 ⟨rfl, List.nil_prefix⟩
        rw [if_neg hkeeps]
        rw [Bool.not_eq_true] at hkeeps
        exact ⟨[turn], @Stop.outcome script part _ [] turn hfirst (List.forall_mem_nil _) hkeeps,
          .turn hnext (.done _)⟩
    · rw [Bool.not_eq_true] at hmay
      rw [turnsFrom_cons_of_not hmay, tryRules_cons_of_not hs hrule hmay]
      exact ih hs hrest

theorem exists_turns_of_visit (hs : s.Supplied script) (part : Text) (k : Nat) :
    ∃ turns : List (Turn script part),
      Stop (script.mayHaveTurns part k) turns (script.visit k part s).1 ∧
        Runs s turns (script.visit k part s).2 := by
  rw [visit, mayHaveTurns]
  rcases hk : script.keywords[k]? with _ | keyword
  · exact ⟨[], .silent rfl (List.forall_mem_nil _), .done s⟩
  · exact exists_turns_of_tryRules hs hk rfl

/-! ## Running through turns -/

theorem Runs.append (h : Runs s turns t) (hlater : Runs t later u) :
    Runs s (turns ++ later) u := by
  induction h with
  | done s => exact hlater
  | turn next _ ih => exact .turn next (ih hlater)

/-- What rules and memory keep, turns keep. -/
theorem Runs.kept {P : State → Prop} (h : Runs s turns t) (hkept : script.KeptByVisits P)
    (hs : P s) : P t := by
  induction h with
  | done s => exact hs
  | @turn s t u turn turns next _ ih =>
    obtain ⟨keyword, hk, hi⟩ := Option.bind_eq_some_iff.1 turn.isRule
    have ht : P t := by
      have := hkept.nextReply hk hi hs
      rwa [next] at this
    refine ih ?_
    rw [Turn.leave]
    split
    · exact hkept.remember ht
    · exact ht

/-- **Consulting a keyword runs through the turns of a chain of visits.** -/
theorem exists_chain (hs : s.Supplied script) (part : Text) (n k : Nat) :
    ∃ visits : List (Nat × List (Turn script part)),
      Chain n k visits (script.follow part n k s).1 ∧
        Runs s (visits.flatMap Prod.snd) (script.follow part n k s).2 := by
  induction n generalizing k s with
  | zero =>
    obtain ⟨turns, hstop, hruns⟩ := exists_turns_of_visit hs part k
    refine ⟨[(k, turns)], ?_⟩
    rw [List.flatMap_singleton, follow]
    rcases hvisit : script.visit k part s with ⟨_ | text | ⟨name, l⟩, t⟩ <;>
      rw [hvisit] at hstop hruns
    · exact ⟨.silent hstop, hruns⟩
    · exact ⟨.reply hstop, hruns⟩
    · exact ⟨.cut hstop, hruns⟩
  | succ n ih =>
    obtain ⟨turns, hstop, hruns⟩ := exists_turns_of_visit hs part k
    rw [follow]
    rcases hvisit : script.visit k part s with ⟨_ | text | ⟨name, l⟩, t⟩ <;>
      rw [hvisit] at hstop hruns
    · refine ⟨[(k, turns)], .silent hstop, ?_⟩
      rwa [List.flatMap_singleton]
    · refine ⟨[(k, turns)], .reply hstop, ?_⟩
      rwa [List.flatMap_singleton]
    · -- the next visit begins in the state that the turns of this one leave behind
      obtain ⟨visits, hchain, hrest⟩ :=
        ih (hruns.kept (State.kept_supplied script).toKeptByVisits hs) l
      exact ⟨(k, turns) :: visits, .redirect hstop hchain, hruns.append hrest⟩

end Script

/-! ## What turns do to the state -/

/-- A cycle goes on, giving the replies of some templates one after the other. -/
inductive Pool.Gives (script : Script) (pool : Pool) : Cycle → List Text → Cycle → Prop
  | done (c : Cycle) : Gives script pool c [] c
  | next {c c' c'' : Cycle} {d d' : Draws} {index : Nat} {template : Text} {templates : List Text}
      (choose : pool.choose script c d = (some index, c', d'))
      (reply : (pool.replies script)[index]? = some template)
      (rest : Gives script pool c' templates c'') : Gives script pool c (template :: templates) c''

theorem Pool.Gives.eq_of_nil {script : Script} {pool : Pool} {c c' : Cycle}
    (h : pool.Gives script c [] c') : c' = c := by
  rcases h
  rfl

/-- The states differ at most in the cycles of rules, in what is kept in memory and in how many
random numbers were drawn. -/
structure State.Spares (s t : State) : Prop where
  quit : t.quit = s.quit
  greetings : t.greetings = s.greetings
  farewells : t.farewells = s.farewells
  evasions : t.evasions = s.evasions
  prompts : t.prompts = s.prompts
  rules : t.rules.map (·.map Cycle.size) = s.rules.map (·.map Cycle.size)

namespace Script

variable {script : Script} {part : Text} {s t : State} {turn : Turn script part}
  {turns : List (Turn script part)}

/-- **What is kept goes into memory**, in the order of the turns. -/
theorem Runs.memory_eq (h : Runs s turns t) :
    t.memory = s.memory.pushAll ((turns.filter Turn.keeps).map Turn.text) := by
  induction h with
  | done s => rfl
  | @turn s t u turn turns next _ ih =>
    have ht : t.memory = s.memory := by
      have := s.memory_nextReply script turn.keyword turn.index turn.rule
      rwa [next] at this
    rw [ih, Turn.leave, List.filter_cons, ← ht]
    split <;> rfl

theorem cycle?_leave (t : State) (pool : Pool) :
    (turn.leave t).cycle? script pool = t.cycle? script pool := by
  rw [Turn.leave]
  split
  · rcases pool with _ | _ | _ | _ | _ <;> rfl
  · rfl

/-- What a rule says next is given by its cycle. -/
theorem exists_choice_of_nextReply {k i : Nat} {rule : Rule} {template : Text} {c : Cycle}
    (hrule : script.rule? k i = some rule) (hcycle : s.cycle? script (.rule k i) = some c)
    (hnext : (s.nextReply script k i rule).1 = some template) :
    ∃ index, ((Pool.rule k i).choose script c s.draws).1 = some index ∧
      ((Pool.rule k i).replies script)[index]? = some template := by
  rw [State.cycle?, hrule, Option.bind_some] at hcycle
  rw [State.nextReply_eq hcycle] at hnext
  obtain ⟨index, hindex, hreply⟩ := Option.bind_eq_some_iff.1 hnext
  refine ⟨index, hindex, ?_⟩
  rwa [Pool.replies, hrule, Option.elim_some]

/-- **A rule gives the templates of its turns**, and its cycle goes on for each of them. Other
cycles stay as they are. -/
theorem Runs.gives (h : Runs s turns t) {l j : Nat} {c : Cycle}
    (hcycle : s.cycle? script (.rule l j) = some c) :
    ∃ c', t.cycle? script (.rule l j) = some c' ∧
      (Pool.rule l j).Gives script c
        ((turns.filter (·.place = (l, j))).map Turn.template) c' := by
  induction h generalizing c with
  | done s => exact ⟨c, hcycle, .done c⟩
  | @turn s t u turn turns next _ ih =>
    -- the cycle behind the turn
    have hafter : (turn.leave t).cycle? script (.rule l j) =
        if some (.rule turn.keyword turn.index) = some (Pool.rule l j) then
          (s.cycle? script (.rule l j)).map fun cycle ↦
            ((Pool.rule l j).choose script cycle s.draws).2.1
        else s.cycle? script (.rule l j) := by
      rw [cycle?_leave, ← State.cycle?_nextReply turn.isRule, next]
    by_cases hplace : turn.place = (l, j)
    · obtain ⟨rfl, rfl⟩ : turn.keyword = l ∧ turn.index = j := Prod.mk.inj hplace
      rw [if_pos rfl, hcycle, Option.map_some] at hafter
      obtain ⟨index, hindex, hreply⟩ :=
        exists_choice_of_nextReply turn.isRule hcycle (congrArg Prod.fst next)
      obtain ⟨c', hc', hgives⟩ := ih hafter
      refine ⟨c', hc', ?_⟩
      rw [List.filter_cons_of_pos (by simpa using hplace), List.map_cons]
      exact .next (Prod.ext hindex rfl) hreply hgives
    · have hother : ¬ some (Pool.rule turn.keyword turn.index) = some (.rule l j) := by
        rw [Option.some_inj, Pool.rule.injEq]
        exact fun h ↦ hplace (Prod.ext h.1 h.2)
      rw [if_neg hother, hcycle] at hafter
      rw [List.filter_cons_of_neg (by simpa using hplace)]
      exact ih hafter

/-- **Turns do nothing else.** -/
theorem Runs.spares (h : Runs s turns t) (hs : s.Fits script) : s.Spares t := by
  have hkept : script.KeptByVisits fun t ↦ t.quit = s.quit ∧ t.greetings = s.greetings ∧
      t.farewells = s.farewells ∧ t.evasions = s.evasions ∧ t.prompts = s.prompts :=
    { nextReply := fun _ _ ht ↦ by
        rw [State.nextReply]
        split <;> exact ht
      remember := id }
  obtain ⟨hquit, hgreetings, hfarewells, hevasions, hprompts⟩ :=
    h.kept hkept ⟨rfl, rfl, rfl, rfl, rfl⟩
  have hfits := h.kept (State.kept_fits script).toKeptByVisits hs
  exact ⟨hquit, hgreetings, hfarewells, hevasions, hprompts, hfits.rules.trans hs.rules.symm⟩

/-! ## The visits of a chain -/

theorem nodup_turnsFrom (part : Text) (k i : Nat) (rules : List Rule) :
    (turnsFrom part k i rules).Nodup := by
  have hindices : ((rules.zipIdx i).map Prod.snd).Nodup := by
    rw [List.zipIdx_map_snd]
    exact List.nodup_range'
  have hsome : (((rules.zipIdx i).filter (mayTurn part ·.1)).map Prod.snd).Nodup :=
    hindices.sublist (List.filter_sublist.map _)
  have hplaces : turnsFrom part k i rules =
      (((rules.zipIdx i).filter (mayTurn part ·.1)).map Prod.snd).map (Prod.mk k) := by
    rw [turnsFrom, List.map_map]
    rfl
  rw [hplaces]
  exact List.Pairwise.map _ (fun _ _ hne h ↦ hne (Prod.mk.inj h).2) hsome

theorem keyword_of_mem_turnsFrom {k i : Nat} {rules : List Rule} {place : Nat × Nat}
    (h : place ∈ turnsFrom part k i rules) : place.1 = k := by
  obtain ⟨-, -, rfl⟩ := List.mem_map.1 h
  rfl

variable {n k : Nat} {visits : List (Nat × List (Turn script part))}
  {answer : Except Failure Text}

theorem Stop.map_place {places : List (Nat × Nat)} {visit : Visit} (h : Stop places turns visit) :
    turns.map Turn.place <+: places := by
  rcases h with ⟨all, -⟩ | ⟨first, -, -⟩
  · exact all ▸ List.prefix_rfl
  · exact first

/-- In each visit, the first rules that may have a turn have one. -/
theorem Chain.map_place (h : Chain n k visits answer) :
    ∀ visit ∈ visits, visit.2.map Turn.place <+: script.mayHaveTurns part visit.1 := by
  induction h with
  | silent stop => exact List.forall_mem_singleton.2 stop.map_place
  | reply stop => exact List.forall_mem_singleton.2 stop.map_place
  | cut stop => exact List.forall_mem_singleton.2 stop.map_place
  | redirect stop _ ih => exact List.forall_mem_cons.2 ⟨stop.map_place, ih⟩

/-- **A rule has one turn in a visit to its keyword**, or none. -/
theorem length_filter_place
    (h : ∀ visit ∈ visits, visit.2.map Turn.place <+: script.mayHaveTurns part visit.1)
    (l j : Nat) :
    ((visits.flatMap Prod.snd).filter (·.place = (l, j))).length =
      visits.countP fun visit ↦ visit.1 = l ∧ (l, j) ∈ visit.2.map Turn.place := by
  induction visits with
  | nil => rfl
  | cons visit visits ih =>
    obtain ⟨hvisit, hvisits⟩ := List.forall_mem_cons.1 h
    have hnodup : (visit.2.map Turn.place).Nodup :=
      (nodup_turnsFrom part _ _ _).sublist hvisit.sublist
    have hkeyword (hmem : (l, j) ∈ visit.2.map Turn.place) : visit.1 = l :=
      (keyword_of_mem_turnsFrom (hvisit.subset hmem)).symm
    have hone : (visit.2.filter (·.place = (l, j))).length =
        if visit.1 = l ∧ (l, j) ∈ visit.2.map Turn.place then 1 else 0 := by
      have hcount : (visit.2.filter (·.place = (l, j))).length =
          (visit.2.map Turn.place).count (l, j) := by
        rw [← List.countP_eq_length_filter, List.count_eq_countP, List.countP_map]
        exact List.countP_congr fun turn _ ↦ by simp
      rw [hcount, hnodup.count]
      by_cases hmem : (l, j) ∈ visit.2.map Turn.place
      · rw [if_pos hmem, if_pos ⟨hkeyword hmem, hmem⟩]
      · rw [if_neg hmem, if_neg (hmem ·.2)]
    simp only [List.flatMap_cons, List.filter_append, List.length_append, ih hvisits, hone,
      List.countP_cons, decide_eq_true_eq, Nat.add_comm]

/-- A visit that says something ends with the turn of a rule that does not keep what it makes. -/
theorem Stop.exists_last {places : List (Nat × Nat)} {visit : Visit}
    (h : Stop places turns visit) (hsaid : visit ≠ .silent) :
    ∃ kept last, turns = kept ++ [last] ∧ last.keeps = false ∧ visit = last.outcome := by
  rcases h with ⟨-, -⟩ | @⟨kept, last, -, -, ends⟩
  · exact absurd rfl hsaid
  · exact ⟨kept, last, rfl, ends, rfl⟩

/-- An answer is made in the last turn of all, by a rule that is not memorized. -/
theorem Chain.exists_last (h : Chain n k visits answer) {text : Text} (hanswer : answer = .ok text)
    (hne : text ≠ []) :
    ∃ earlier l kept last, visits = earlier ++ [(l, kept ++ [last])] ∧
      last.rule.memorized = false ∧ script.redirect? last.template = none ∧
      text = last.text := by
  induction h with
  | silent stop => exact absurd (Except.ok.inj hanswer).symm hne
  | @reply n k turns said stop =>
    obtain ⟨kept, last, rfl, hkeeps, houtcome⟩ := stop.exists_last (by simp)
    obtain rfl : said = text := Except.ok.inj hanswer
    refine ⟨[], k, kept, last, rfl, ?_⟩
    rw [Turn.outcome] at houtcome
    rw [Turn.keeps] at hkeeps
    split at houtcome
    · exact absurd houtcome (by simp)
    · rename_i hredirect
      rw [hredirect, Option.isNone_none, Bool.true_and] at hkeeps
      exact ⟨hkeeps, hredirect, Visit.reply.inj houtcome⟩
  | cut stop => exact absurd hanswer (by simp)
  | @redirect n k l turns name visits answer stop rest ih =>
    obtain ⟨earlier, m, kept, last, rfl, hlast⟩ := ih hanswer
    exact ⟨(k, turns) :: earlier, m, kept, last, rfl, hlast⟩

/-- Where all rules keep what they make, nothing is said. -/
theorem Chain.eq_silent (h : Chain n k visits answer)
    (hkeeps : ∀ turn : Turn script part, turn.keyword = k → turn.keeps = true) :
    answer = .ok [] := by
  have hsilent {turns : List (Turn script part)} {visit : Visit}
      (stop : Stop (script.mayHaveTurns part k) turns visit) : visit = .silent := by
    by_contra hsaid
    obtain ⟨kept, last, rfl, hlast, -⟩ := stop.exists_last hsaid
    have hmem : last.place ∈ (kept ++ [last]).map Turn.place :=
      List.mem_map_of_mem (List.mem_append_right kept (List.mem_singleton_self last))
    have hkeyword := keyword_of_mem_turnsFrom (stop.map_place.subset hmem)
    exact absurd (hkeeps last hkeyword) (by rw [hlast]; exact Bool.false_ne_true)
  rcases h with _ | stop | stop | ⟨stop, -⟩
  · rfl
  · exact absurd (hsilent stop) (by simp)
  · exact absurd (hsilent stop) (by simp)
  · exact absurd (hsilent stop) (by simp)

end Script

/-! ## The effects of consulting a keyword -/

namespace State

/-- **All that consulting a keyword does**, in any state that a conversation can be in. There is a
chain of visits, and nothing happens but the turns that rules have in them. So memory gets what the
memorized rules that do not redirect have made, in the order of their turns. The cycle of a rule
goes on once for each visit to its keyword in which the rule has a turn, and other cycles do not
change. An answer that is not empty was made in the last turn of the last visit, by a rule that is
not memorized; so a keyword all of whose rules are memorized, and none of which redirects, always
answers with nothing. -/
theorem effects_of_consulting (script : Script) (factory : Factory) (actions : List Action)
    (moves : List Move) (part : Text) (k : Nat) :
    let s := moves.foldl (moved script) ((Session.start script factory).run script actions).2.state
    let answer := (script.consult k part s).1
    let t := (script.consult k part s).2
    ∃ visits : List (Nat × List (Turn script part)),
      let turns := visits.flatMap Prod.snd
      Script.Chain script.options.maxRedirectDepth k visits answer ∧
      Script.Runs s turns t ∧
      s.Spares t ∧
      t.memory = s.memory.pushAll ((turns.filter Turn.keeps).map Turn.text) ∧
      (∀ l i rule, script.rule? l i = some rule →
        ∃ c c', s.cycle? script (.rule l i) = some c ∧ t.cycle? script (.rule l i) = some c' ∧
          (Pool.rule l i).Gives script c ((turns.filter (·.place = (l, i))).map Turn.template) c' ∧
          (c' ≠ c → ∃ turn ∈ turns, turn.place = (l, i))) ∧
      (∀ l i, (turns.filter (·.place = (l, i))).length =
        visits.countP fun visit ↦ visit.1 = l ∧ (l, i) ∈ visit.2.map Turn.place) ∧
      (∀ text, answer = .ok text → text ≠ [] → ∃ earlier l kept last,
        visits = earlier ++ [(l, kept ++ [last])] ∧ last.rule.memorized = false ∧
          script.redirect? last.template = none ∧ text = last.text) ∧
      ((∀ keyword, script.keywords[k]? = some keyword → ∀ rule ∈ keyword.rules,
        rule.memorized = true ∧ ∀ template ∈ rule.replies, script.redirect? template = none) →
        answer = .ok []) := by
  intro s answer t
  have hreached {P : State → Prop} (hkept : script.Kept P)
      (hstart : P (start script (factory 0 script.options.seed?))) : P s :=
    List.foldlRecOn _ _ (hkept.run hstart actions) fun _ hu move _ ↦ hkept.moved hu move
  have hsupplied : s.Supplied script := hreached (kept_supplied script) (supplied_start _)
  have hfits : s.Fits script := hreached (kept_fits script) (fits_start script _)
  obtain ⟨visits, hchain, hruns⟩ :=
    Script.exists_chain hsupplied part script.options.maxRedirectDepth k
  refine ⟨visits, hchain, hruns, hruns.spares hfits, hruns.memory_eq, ?_,
    Script.length_filter_place hchain.map_place, fun text ↦ hchain.exists_last, fun hrules ↦ ?_⟩
  · intro l i rule hrule
    obtain ⟨c, hc, -⟩ := hsupplied l i rule hrule
    obtain ⟨c', hc', hgives⟩ := hruns.gives hc
    refine ⟨c, c', hc, hc', hgives, fun hne ↦ ?_⟩
    by_contra hnone
    push Not at hnone
    have hnil : (visits.flatMap Prod.snd).filter (·.place = (l, i)) = [] :=
      List.filter_eq_nil_iff.2 fun turn hturn ↦ by simpa using hnone turn hturn
    rw [hnil] at hgives
    exact hne hgives.eq_of_nil
  · refine hchain.eq_silent fun turn hkeyword ↦ ?_
    obtain ⟨keyword, hk, hi⟩ := Option.bind_eq_some_iff.1 turn.isRule
    rw [hkeyword] at hk
    obtain ⟨hmemorized, hredirect⟩ := hrules keyword hk turn.rule (List.mem_of_getElem? hi)
    rw [Turn.keeps, hredirect turn.template turn.isReply, hmemorized]
    rfl

end State

end Dialogue
