import Dialogue.Proofs.Conversation.Chance
import Dialogue.Proofs.Conversation.Redirects
import Dialogue.Proofs.Conversation.Reordering

/-!
# A keyword that nothing reaches

A keyword that occurs in no part of the input, and to which no reply redirects, is a *bystander*: it
is never visited. To take it out of a script moves all keywords behind it, and with them their
cycles, one place forward. So a conversation without it is the same conversation with other places,
and `State.without` says which.

Each function commutes with taking the bystander out, from the next reply of a rule up to a whole
session (`Session.run_without`). Since one declaration more means one keyword more
(`Script.exists_eraseIdx_of_readKeywords`), the main statement, `Script.session_run_inserted`,
follows two documents from their compilation to the last response of a session.
-/

namespace Dialogue

/-! ## Places -/

/-- The place of what is the `k`-th item if that at place `p` is not counted. -/
def skip (p k : Nat) : Nat := if k < p then k else k + 1

theorem skip_of_lt {p k : Nat} (h : k < p) : skip p k = k := if_pos h

theorem skip_of_le {p k : Nat} (h : p ≤ k) : skip p k = k + 1 := if_neg (Nat.not_lt.2 h)

theorem skip_inj {p k l : Nat} : skip p k = skip p l ↔ k = l := by
  rw [skip, skip]
  split <;> split <;> omega

section Lists

variable {α : Type} {items : List α} {p : Nat}

theorem getElem?_eraseIdx_eq (k : Nat) : (items.eraseIdx p)[k]? = items[skip p k]? := by
  rw [List.getElem?_eraseIdx, skip]
  split <;> rfl

theorem eraseIdx_modify_skip (k : Nat) (f : α → α) :
    (items.modify (skip p k) f).eraseIdx p = (items.eraseIdx p).modify k f := by
  refine List.ext_getElem? fun l ↦ ?_
  rw [getElem?_eraseIdx_eq, List.getElem?_modify, List.getElem?_modify, getElem?_eraseIdx_eq]
  simp only [skip_inj]

/-- Who looks for something else does not miss the item that is taken out. -/
theorem findIdx?_eq_map_skip {f : α → Bool} (h : ∀ item ∈ items[p]?, f item = false) :
    items.findIdx? f = ((items.eraseIdx p).findIdx? f).map (skip p) := by
  induction items generalizing p with
  | nil => rfl
  | cons first items ih =>
    rw [List.findIdx?_cons]
    cases p with
    | zero =>
      have hfirst : f first = false := h first rfl
      rw [if_neg (by simp [hfirst])]
      rfl
    | succ p =>
      have hskip : skip (p + 1) ∘ (· + 1) = (· + 1) ∘ skip p := by
        funext k
        simp only [Function.comp_apply, skip, Nat.add_lt_add_iff_right]
        split <;> rfl
      rw [ih h, List.eraseIdx_cons_succ, List.findIdx?_cons]
      split
      · rfl
      · rw [Option.map_map, Option.map_map, hskip]

end Lists

/-! ## Taking a keyword out -/

/-- What a visit comes to, if its place was given without counting the keyword at place `p`. -/
def Visit.skip (p : Nat) : Visit → Visit
  | .redirect name place => .redirect name (Dialogue.skip p place)
  | visit => visit

namespace Script

/-- The script without the keyword at place `p`. -/
def without (p : Nat) (script : Script) : Script :=
  { script with keywords := script.keywords.eraseIdx p }

/-- Whoever redirects with this template does not mean the keyword at place `p`. -/
def Spares (script : Script) (p : Nat) (template : Text) : Prop :=
  ∀ keyword ∈ script.keywords[p]?,
    Reply.target? script.options.gotoMarker.toList template ≠ some keyword.key

/-- No reply of a keyword redirects to the keyword at place `p`. -/
def Unnamed (script : Script) (p : Nat) : Prop :=
  ∀ keyword ∈ script.keywords, ∀ rule ∈ keyword.rules, ∀ template ∈ rule.replies,
    script.Spares p template

/-- The keyword at place `p` occurs in no part of the input that an action brings. -/
def Misses (script : Script) (p : Nat) (action : Action) : Prop :=
  ∀ keyword ∈ script.keywords[p]?, ∀ input ∈ action.input?,
    ∀ part ∈ (script.options.normalize input).parts, keyword.isIn (script.pre.apply part) = false

end Script

/-- The state without the cycles of the keyword at place `p`. -/
def State.without (p : Nat) (s : State) : State := { s with rules := s.rules.eraseIdx p }

/-- The session without the cycles of the keyword at place `p`. -/
def Session.without (p : Nat) (s : Session) : Session := { s with state := s.state.without p }

/-! ## Visits -/

variable {script : Script} {p : Nat}

theorem State.nextReply_without (s : State) (k i : Nat) (rule : Rule) :
    (s.without p).nextReply (script.without p) k i rule =
      ((s.nextReply script (skip p k) i rule).1,
        (s.nextReply script (skip p k) i rule).2.without p) := by
  have hrules : (s.without p).rules[k]? = s.rules[skip p k]? := getElem?_eraseIdx_eq _
  have hdraws : (s.without p).draws = s.draws := rfl
  have hoptions : (script.without p).options = script.options := rfl
  rw [nextReply, nextReply, hrules, hoptions, hdraws]
  rcases s.rules[skip p k]?.bind (·[i]?) with _ | cycle
  · rfl
  · dsimp only
    rw [State.without, State.without, eraseIdx_modify_skip]

namespace Script

theorem redirect?_without {template : Text} (h : script.Spares p template) :
    script.redirect? template =
      ((script.without p).redirect? template).map fun target ↦ (target.1, skip p target.2) := by
  have hmarker : (script.without p).options.gotoMarker = script.options.gotoMarker := rfl
  rw [redirect?, redirect?, hmarker]
  rcases htarget : Reply.target? script.options.gotoMarker.toList template with _ | key
  · rfl
  · have hindex : script.keywordIndex? key =
        ((script.without p).keywordIndex? key).map (skip p) := by
      refine findIdx?_eq_map_skip fun keyword hkeyword ↦ ?_
      have hkey := h keyword hkeyword
      rw [htarget] at hkey
      simpa using fun heq ↦ hkey (congrArg some heq.symm)
    simp only [Option.bind_eq_bind, Option.bind_some, hindex]
    rcases (script.without p).keywordIndex? key with _ | place <;> rfl

/-- Trying rules comes to the same, and so does what it leaves behind. -/
theorem tryRules_without {rules : List Rule}
    (h : ∀ rule ∈ rules, ∀ template ∈ rule.replies, script.Spares p template) (k i : Nat)
    (part : Text) (s : State) :
    ∃ v t, (script.without p).tryRules k part i rules (s.without p) = (v, t.without p) ∧
      script.tryRules (skip p k) part i rules s = (v.skip p, t) := by
  induction rules generalizing i s with
  | nil => exact ⟨.silent, s, rfl, rfl⟩
  | cons rule rules ih =>
    have hlater := ih fun r hr ↦ h r (List.mem_cons_of_mem _ hr)
    rw [tryRules, tryRules]
    rcases rule.decompose part with _ | captures
    · exact hlater _ s
    · dsimp only
      rw [State.nextReply_without]
      rcases hnext : s.nextReply script (skip p k) i rule with ⟨_ | template, t⟩
      · exact hlater _ t
      · have hspares := h rule List.mem_cons_self template (mem_replies_of_nextReply hnext)
        dsimp only
        rw [redirect?_without hspares]
        rcases (script.without p).redirect? template with _ | ⟨name, place⟩
        · dsimp only [Option.map_none]
          split
          · exact hlater _ (t.remember (script.fill template captures))
          · exact ⟨.reply (script.fill template captures), t, rfl, rfl⟩
        · exact ⟨.redirect name place, t, rfl, rfl⟩

theorem visit_without (h : script.Unnamed p) (k : Nat) (part : Text) (s : State) :
    ∃ v t, (script.without p).visit k part (s.without p) = (v, t.without p) ∧
      script.visit (skip p k) part s = (v.skip p, t) := by
  have hkeyword : (script.without p).keywords[k]? = script.keywords[skip p k]? :=
    getElem?_eraseIdx_eq _
  rw [visit, visit, hkeyword]
  rcases hk : script.keywords[skip p k]? with _ | keyword
  · exact ⟨.silent, s, rfl, rfl⟩
  · exact tryRules_without (h keyword (List.mem_of_getElem? hk)) k 0 part s

theorem follow_without (h : script.Unnamed p) (part : Text) (n k : Nat) (s : State) :
    (script.without p).follow part n k (s.without p) =
      ((script.follow part n (skip p k) s).1,
        (script.follow part n (skip p k) s).2.without p) := by
  induction n generalizing k s with
  | zero =>
    obtain ⟨v, t, hwithout, hvisit⟩ := visit_without h k part s
    rw [follow, follow, hwithout, hvisit]
    rcases v with _ | text | ⟨name, place⟩ <;> rfl
  | succ n ih =>
    obtain ⟨v, t, hwithout, hvisit⟩ := visit_without h k part s
    rw [follow, follow, hwithout, hvisit]
    rcases v with _ | text | ⟨name, place⟩
    · rfl
    · rfl
    · exact ih place t

theorem consult_without (h : script.Unnamed p) (k : Nat) (part : Text) (s : State) :
    (script.without p).consult k part (s.without p) =
      ((script.consult (skip p k) part s).1, (script.consult (skip p k) part s).2.without p) :=
  follow_without h part script.options.maxRedirectDepth k s

/-! ## Turns -/

/-- Keywords behind the bystander are tried one place further on. -/
theorem answerPart_without_of_le (h : script.Unnamed p) (part : Text) {place : Nat}
    (hplace : p ≤ place) (keywords : List Keyword) (s : State) :
    (script.without p).answerPart part place keywords (s.without p) =
      ((script.answerPart part (place + 1) keywords s).1,
        (script.answerPart part (place + 1) keywords s).2.without p) := by
  induction keywords generalizing place s with
  | nil => rfl
  | cons keyword keywords ih =>
    have hlater := ih (Nat.le_succ_of_le hplace)
    rw [answerPart, answerPart]
    split
    · rw [consult_without h, skip_of_le hplace]
      rcases script.consult (place + 1) part s with ⟨failure | _ | ⟨first, reply⟩, t⟩
      · exact hlater t
      · exact hlater t
      · rfl
    · exact hlater s

/-- The keywords from some place on, of which the bystander is the `q`-th, are tried as they are
without it. -/
theorem answerPart_without (h : script.Unnamed p) {part : Text} {q place : Nat}
    (hp : place + q = p) {keywords : List Keyword}
    (habsent : ∀ keyword ∈ keywords[q]?, keyword.isIn part = false) (s : State) :
    (script.without p).answerPart part place (keywords.eraseIdx q) (s.without p) =
      ((script.answerPart part place keywords s).1,
        (script.answerPart part place keywords s).2.without p) := by
  induction keywords generalizing q place s with
  | nil => rfl
  | cons keyword keywords ih =>
    cases q with
    | zero =>
      have hkeyword : keyword.isIn part = false := habsent keyword rfl
      rw [List.eraseIdx_cons_zero, answerPart, if_neg (by simp [hkeyword])]
      exact answerPart_without_of_le h part hp.ge keywords s
    | succ q =>
      have hlater := ih (by omega : place + 1 + q = p) habsent
      rw [List.eraseIdx_cons_succ, answerPart, answerPart]
      split
      · rw [consult_without h, skip_of_lt (by omega)]
        rcases script.consult place part s with ⟨failure | _ | ⟨first, reply⟩, t⟩
        · exact hlater t
        · exact hlater t
        · rfl
      · exact hlater s

/-- **The search for a reply is the same without the bystander.** -/
theorem answerParts_without (h : script.Unnamed p) {parts : List Text}
    (habsent : ∀ keyword ∈ script.keywords[p]?, ∀ part ∈ parts,
      keyword.isIn (script.pre.apply part) = false) (s : State) :
    (script.without p).answerParts parts (s.without p) =
      ((script.answerParts parts s).1, (script.answerParts parts s).2.without p) := by
  induction parts generalizing s with
  | nil => rfl
  | cons part parts ih =>
    have hlater := ih fun keyword hkeyword other hother ↦
      habsent keyword hkeyword other (List.mem_cons_of_mem _ hother)
    have hpart := answerPart_without h (Nat.zero_add p)
      (fun keyword hkeyword ↦ habsent keyword hkeyword part List.mem_cons_self) s
    have hquit : (script.without p).quitParts = script.quitParts := rfl
    rw [answerParts, answerParts, hquit]
    split
    · rfl
    · have hwithout : (script.without p).answerPart ((script.without p).pre.apply part) 0
          (script.without p).keywords (s.without p) = _ := hpart
      rw [hwithout]
      rcases script.answerPart (script.pre.apply part) 0 script.keywords s with ⟨_ | reply, t⟩
      · exact hlater t
      · rfl

end Script

namespace State

variable {s : State}

theorem replyToParts_without (h : script.Unnamed p) {parts : List Text}
    (habsent : ∀ keyword ∈ script.keywords[p]?, ∀ part ∈ parts,
      keyword.isIn (script.pre.apply part) = false) (s : State) :
    (s.without p).replyToParts (script.without p) parts =
      ((s.replyToParts script parts).1, (s.replyToParts script parts).2.without p) := by
  rw [replyToParts, replyToParts, Script.answerParts_without h habsent]
  rcases script.answerParts parts s with ⟨_ | text | _, t⟩
  · rfl
  · rfl
  · dsimp only
    rw [lastResort, lastResort]
    have hrecollect : (t.without p).recollect (script.without p) =
        ((t.recollect script).1, (t.recollect script).2.without p) := rfl
    rw [hrecollect]
    dsimp only
    rcases Text.nonempty? (t.recollect script).1 with _ | reply <;> rfl

theorem reply_without (h : script.Unnamed p) {input : Text}
    (habsent : ∀ keyword ∈ script.keywords[p]?,
      ∀ part ∈ (script.options.normalize input).parts,
        keyword.isIn (script.pre.apply part) = false) (s : State) :
    (s.without p).reply (script.without p) input =
      ((s.reply script input).1, (s.reply script input).2.without p) := by
  have hoptions : (script.without p).options = script.options := rfl
  have hphrase (normalized : Text) :
      (script.without p).holdsQuitPhrase normalized = script.holdsQuitPhrase normalized := rfl
  have hquit : (s.without p).quit = s.quit := rfl
  have hprompt : (s.without p).prompt (script.without p) =
      ((s.prompt script).1, (s.prompt script).2.without p) := rfl
  rw [reply, reply, hquit]
  split
  · rfl
  · dsimp only
    rw [hoptions, hphrase]
    split
    · rfl
    · split
      · rw [hprompt]
        dsimp only
        rcases Text.nonempty? (s.prompt script).1 with _ | reply
        · exact replyToParts_without h habsent _
        · rfl
      · exact replyToParts_without h habsent s

theorem transform_without (h : script.Unnamed p) {input : Text}
    (habsent : ∀ keyword ∈ script.keywords[p]?,
      ∀ part ∈ (script.options.normalize input).parts,
        keyword.isIn (script.pre.apply part) = false) (s : State) :
    (s.without p).transform (script.without p) input =
      ((s.transform script input).1, (s.transform script input).2.without p) := by
  rw [transform, transform, reply_without h habsent]
  rfl

theorem restart_without (source : Source) (s : State) :
    (s.without p).restart source = (s.restart source).without p := by
  simp only [restart, without, List.eraseIdx_map]

theorem act_without (h : script.Unnamed p) {action : Action} (hmisses : script.Misses p action)
    (s : State) :
    (s.without p).act (script.without p) action =
      ((s.act script action).1, (s.act script action).2.without p) := by
  have htransform (input : Text) (hinput : action.input? = some input) :=
    transform_without h (fun keyword hkeyword ↦ hmisses keyword hkeyword input hinput) s
  rcases action with input | (_ | _ | _ | text | _ | _) | _ | _ | _
  case transform => rw [act, act, htransform input rfl]
  case transformJson.string => rw [act, act, transformJson, transformJson, htransform _ rfl]
  case reset => exact congrArg (Response.none, ·) (restart_without s.draws.source s)
  all_goals rfl

theorem start_without (source : Source) :
    start (script.without p) source = (start script source).without p := by
  simp only [start, without, Script.without, List.eraseIdx_map]

end State

/-! ## Sessions -/

namespace Session

theorem act_without (h : script.Unnamed p) {action : Action} (hmisses : script.Misses p action)
    (s : Session) :
    (s.without p).act (script.without p) action =
      ((s.act script action).1, (s.act script action).2.without p) := by
  by_cases hreset : action = .reset
  · subst hreset
    have hoptions : (script.without p).options = script.options := rfl
    simp only [act, without, State.restart_without, hoptions]
  · rw [act_of_ne_reset hreset, act_of_ne_reset hreset]
    have hact := State.act_without h hmisses s.state
    simp only [without, hact]

/-- **A session runs alike without a bystander.** What one sees of it is the same, and the cycles of
all other keywords are where they would be. -/
theorem run_without (h : script.Unnamed p) {actions : List Action}
    (hmisses : ∀ action ∈ actions, script.Misses p action) (s : Session) :
    (s.without p).run (script.without p) actions =
      ((s.run script actions).1, (s.run script actions).2.without p) := by
  induction actions generalizing s with
  | nil => rfl
  | cons action actions ih =>
    have hlater := ih fun other hother ↦ hmisses other (List.mem_cons_of_mem _ hother)
    rw [run, run, act_without h (hmisses action List.mem_cons_self)]
    dsimp only
    rw [hlater]
    rfl

theorem start_without (factory : Factory) :
    start (script.without p) factory = (start script factory).without p := by
  rw [start, start, State.start_without]
  rfl

end Session

/-! ## Documents -/

namespace Script

/-- If no redirect of the script names the key of a keyword, no reply redirects to it. -/
theorem unnamed_of_redirect? {keyword : Keyword} (hplace : script.keywords[p]? = some keyword)
    (h : ∀ k ∈ script.keywords, ∀ rule ∈ k.rules, ∀ template ∈ rule.replies,
      (script.redirect? template).map Prod.fst ≠ some keyword.key) :
    script.Unnamed p := by
  intro k hk rule hrule template htemplate other hother htarget
  obtain rfl : keyword = other := Option.some.inj (hplace.symm.trans hother)
  obtain ⟨place, hindex⟩ := exists_keywordIndex? (List.mem_of_getElem? hplace)
  have hredirect : script.redirect? template = some (keyword.key, place) := by
    rw [redirect?, htarget]
    simp only [Option.bind_eq_bind, Option.bind_some, hindex]
    rfl
  exact h k hk rule hrule template htemplate (by rw [hredirect, Option.map_some])

/-- **A keyword that nothing reaches changes nothing.** Let a document declare one keyword more, at
any position. If no reply redirects to it and it occurs in no part of any input, then nothing that
one sees of a session is different, nor are the random numbers that it has drawn after any number
of actions. -/
theorem session_run_inserted (library : Library) (options : Options)
    (members before after : Members) (name : String) (body : Json) (script script' : Script)
    (keyword : Keyword)
    (hdeclared : members.get? "keywords" = some (.object (before ++ after)))
    (hscript : compile library (.object members) options = .ok script)
    (hscript' : compile library (.object (members.put "keywords"
      (.object (before ++ (name, body) :: after)))) options = .ok script')
    (hkeyword : Keyword.compile library script'.options script'.tags name body before.length =
      .ok keyword)
    (hunnamed : ∀ k ∈ script'.keywords, ∀ rule ∈ k.rules, ∀ template ∈ rule.replies,
      (script'.redirect? template).map Prod.fst ≠ some keyword.key)
    (factory : Factory) (actions : List Action)
    (habsent : ∀ action ∈ actions, ∀ input ∈ action.input?,
      ∀ part ∈ (script'.options.normalize input).parts,
        keyword.isIn (script'.pre.apply part) = false) :
    ((Session.start script' factory).run script' actions).1 =
        ((Session.start script factory).run script actions).1 ∧
      ∀ n, ((Session.start script' factory).run script' (actions.take n)).2.state.draws =
        ((Session.start script factory).run script (actions.take n)).2.state.draws := by
  obtain ⟨hread, hread', hsame⟩ := readKeywords_of_compile_put hscript hscript'
  have hoptions : script'.options = script.options := by rw [hsame]
  have htags : script'.tags = script.tags := by rw [hsame]
  have hinserted : (members.put "keywords" (.object (before ++ (name, body) :: after))).get?
      "keywords" = some (.object (before ++ (name, body) :: after)) := by
    rw [Members.get?_put, if_pos rfl]
  rw [hoptions, htags] at hkeyword
  obtain ⟨p, hp, herase⟩ := exists_eraseIdx_of_readKeywords hdeclared hinserted hread hread'
    (Keyword.compile_unplaced hkeyword).1
  rw [List.getElem?_map] at hp
  obtain ⟨added, hadded, hequal⟩ := Option.map_eq_some_iff.1 hp
  have hkey : added.key = keyword.key := by simpa using congrArg Keyword.key hequal
  have hisIn (part : Text) : added.isIn part = keyword.isIn part := by
    simpa using congrArg (Keyword.isIn · part) hequal
  -- but for the positions of keywords, the first script is the second without the new keyword
  have hscripts : script.unplaced = (script'.without p).unplaced := by
    rw [hsame, unplaced, unplaced, without, ← herase, List.eraseIdx_map]
  have hunnamed : script'.Unnamed p := unnamed_of_redirect? hadded (hkey ▸ hunnamed)
  have hmisses : ∀ action ∈ actions, script'.Misses p action := by
    intro action haction other hother input hinput part hpart
    obtain rfl : added = other := Option.some.inj (hadded.symm.trans hother)
    rw [hisIn]
    exact habsent action haction input hinput part hpart
  have hrun (some : List Action) (hsome : ∀ action ∈ some, action ∈ actions) :
      (Session.start script factory).run script some =
        (((Session.start script' factory).run script' some).1,
          ((Session.start script' factory).run script' some).2.without p) := by
    rw [run_eq_of_unplaced_eq hscripts, Session.start_without,
      Session.run_without hunnamed fun action haction ↦ hmisses action (hsome action haction)]
  refine ⟨?_, fun n ↦ ?_⟩
  · rw [hrun actions fun _ ↦ id]
  · rw [hrun (actions.take n) fun _ ↦ List.mem_of_mem_take]
    rfl

/-- A keyword of rank 1 is declared between two others and comes before both. Nobody says it. -/
theorem session_run_unsaid :
    let few := ofKeywords [("a", .string "= c"), ("@ c", .string "y")]
    let more := ofKeywords [("a", .string "= c"), ("b 1", .string "= a"), ("@ c", .string "y")]
    let actions : List Action := [.transform "a, c".toList, .greet, .transform "bye".toList]
    ∃ script script', compile .boundless (.object few) {} = .ok script ∧
      compile .boundless (.object more) {} = .ok script' ∧
      ∀ factory, ((Session.start script' factory).run script' actions).1 =
        ((Session.start script factory).run script actions).1 := by
  intro few more actions
  refine ⟨_, _, rfl, rfl, fun factory ↦ ?_⟩
  refine (session_run_inserted .boundless {} few [("a", .string "= c")]
    [("@ c", .string "y")] "b 1" (.string "= a") _ _ _ rfl rfl rfl rfl ?_ factory actions ?_).1
  · -- no template that is declared names the new keyword, sorted or not
    intro k hk
    have hdeclared := List.mem_mergeSort.1 hk
    intro rule hrule template htemplate hnamed
    have htarget := target?_of_redirect? hnamed
    clear hk hnamed
    revert k rule template
    decide +kernel
  · decide +kernel

end Script

end Dialogue
