import Dialogue.Conversation.Visit
import Mathlib.Data.List.Chain

/-!
# Redirects come to an end

A visit that redirects hands the input on to another keyword, which may redirect in turn, and
keywords may redirect to each other in circles. It redirects by the first rule that does not leave
the input to those behind it (`Script.Yields`), so which redirect comes next depends on the state
that earlier rules left. A `Trail` follows redirects for as long as one likes; `Script.consult`
follows only as many as the options allow.

Consulting a keyword is described by the one trail along which it runs: the trail enters at most
one keyword more than redirects are allowed, the consultation ends as the last visit of the trail
does, and it fails exactly if that visit redirects once more after all allowed redirects were
followed. So a limit that was not reached does not matter, and a script without long chains of
redirects never reaches it.
-/

namespace Dialogue.Script

variable (script : Script)

/-- The script with another limit to the redirects that are followed. -/
def withLimit (limit : Nat) : Script :=
  { script with options := { script.options with maxRedirectDepth := limit } }

/-- Visiting keyword `k` in state `s` leads, by redirects, to a visit of keyword `l` in state `t`.
The keywords entered on the way are listed from `k` to `l`. -/
inductive Trail (part : Text) : Nat → State → List Nat → Nat → State → Prop
  | here (k : Nat) (s : State) : Trail part k s [k] k s
  | redirect {k l m : Nat} {s t u : State} {name : Text} {ks : List Nat}
      (visit : script.visit k part s = (.redirect name l, t)) (rest : Trail part l t ks m u) :
      Trail part k s (k :: ks) m u

/-- Rules of keyword `k`, the first of which has some index, leave the part to the rules behind
them: each of them does not fit, has no reply for now, or keeps what it makes. -/
inductive Yields (k : Nat) (part : Text) : Nat → List Rule → State → State → Prop
  | nil (i : Nat) (s : State) : Yields k part i [] s s
  | unfit {i : Nat} {rule : Rule} {rules : List Rule} {s t : State}
      (unfit : rule.decompose part = none) (rest : Yields k part (i + 1) rules s t) :
      Yields k part i (rule :: rules) s t
  | silent {i : Nat} {rule : Rule} {rules : List Rule} {captures : List Text} {s t u : State}
      (fits : rule.decompose part = some captures)
      (next : s.nextReply script k i rule = (none, t)) (rest : Yields k part (i + 1) rules t u) :
      Yields k part i (rule :: rules) s u
  | kept {i : Nat} {rule : Rule} {rules : List Rule} {captures : List Text} {template : Text}
      {s t u : State} (fits : rule.decompose part = some captures)
      (next : s.nextReply script k i rule = (some template, t))
      (plain : script.redirect? template = none) (memorized : rule.memorized = true)
      (rest : Yields k part (i + 1) rules (t.remember (script.fill template captures)) u) :
      Yields k part i (rule :: rules) s u

/-- Some reply of keyword `k` redirects to keyword `l`. -/
def RedirectsTo (k l : Nat) : Prop :=
  ∃ keyword, script.keywords[k]? = some keyword ∧ ∃ rule ∈ keyword.rules,
    ∃ template ∈ rule.replies, ∃ name, script.redirect? template = some (name, l)

/-- What a consultation comes to whose last visit comes to this. -/
def conclude : Visit × State → Except Failure Text × State
  | (.silent, state) => (.ok [], state)
  | (.reply text, state) => (.ok text, state)
  | (.redirect name _, state) =>
    (.error (.redirectCycle (String.ofList name) script.options.maxRedirectDepth), state)

variable {script}

/-! ## Keywords by their key -/

theorem exists_keywordIndex? {keyword : Keyword} (h : keyword ∈ script.keywords) :
    ∃ place, script.keywordIndex? keyword.key = some place := by
  rw [keywordIndex?, ← Option.isSome_iff_exists, List.findIdx?_isSome]
  exact List.any_eq_true.2 ⟨keyword, h, beq_self_eq_true _⟩

theorem key_of_keywordIndex? {key : Text} {place : Nat}
    (h : script.keywordIndex? key = some place) :
    ∃ keyword, script.keywords[place]? = some keyword ∧ keyword.key = key := by
  obtain ⟨hplace, hkey, -⟩ := List.findIdx?_eq_some_iff_getElem.1 h
  exact ⟨_, List.getElem?_eq_getElem hplace, beq_iff_eq.1 hkey⟩

/-- A redirect names the keyword that it leads to. -/
theorem target?_of_redirect? {template name : Text}
    (h : (script.redirect? template).map Prod.fst = some name) :
    Reply.target? script.options.gotoMarker.toList template = some name := by
  obtain ⟨⟨target, place⟩, hredirect, rfl⟩ := Option.map_eq_some_iff.1 h
  obtain ⟨key, hkey, hplace⟩ := Option.bind_eq_some_iff.1 hredirect
  obtain ⟨l, -, hequal⟩ := Option.bind_eq_some_iff.1 hplace
  obtain ⟨rfl, -⟩ : key = target ∧ l = place := by simpa using hequal
  exact hkey

/-! ## Trails -/

theorem mem_replies_of_nextReply {s t : State} {k i : Nat} {rule : Rule} {template : Text}
    (h : s.nextReply script k i rule = (some template, t)) : template ∈ rule.replies := by
  rw [State.nextReply] at h
  split at h
  · simp at h
  · obtain ⟨choice, -, hchoice⟩ := Option.bind_eq_some_iff.1 (congrArg Prod.fst h)
    exact List.mem_of_getElem? hchoice

/-- A rule that fits, and whose next reply redirects, ends the visit there. -/
theorem tryRules_of_redirect {k i l : Nat} {part template name : Text} {captures : List Text}
    {rule : Rule} {rules : List Rule} {s t : State} (hfits : rule.decompose part = some captures)
    (hnext : s.nextReply script k i rule = (some template, t))
    (hredirect : script.redirect? template = some (name, l)) :
    script.tryRules k part i (rule :: rules) s = (.redirect name l, t) := by
  rw [tryRules, hfits]
  dsimp only
  rw [hnext]
  dsimp only
  rw [hredirect]

/-- Rules that leave the part to those behind them have no other effect on what comes of it. -/
theorem Yields.tryRules_append {k i : Nat} {part : Text} {before rules : List Rule} {s u : State}
    (h : script.Yields k part i before s u) :
    script.tryRules k part i (before ++ rules) s =
      script.tryRules k part (i + before.length) rules u := by
  induction h with
  | nil => rfl
  | unfit hunfit _ ih =>
    rw [List.cons_append, tryRules, hunfit, List.length_cons, ← Nat.add_assoc, Nat.add_right_comm]
    exact ih
  | silent hfits hnext _ ih =>
    rw [List.cons_append, tryRules, hfits, List.length_cons, ← Nat.add_assoc, Nat.add_right_comm]
    dsimp only
    rw [hnext]
    exact ih
  | kept hfits hnext hplain hmemorized _ ih =>
    rw [List.cons_append, tryRules, hfits, List.length_cons, ← Nat.add_assoc, Nat.add_right_comm]
    dsimp only
    rw [hnext]
    dsimp only
    rw [hplain]
    dsimp only
    rw [if_pos hmemorized]
    exact ih

/-- **A visit redirects exactly if** a rule that fits has a redirect as its next reply, and the
rules before it leave the part to it. -/
theorem tryRules_eq_redirect_iff {k i l : Nat} {part name : Text} {rules : List Rule}
    {s t : State} : script.tryRules k part i rules s = (.redirect name l, t) ↔
      ∃ before rule after captures template u, rules = before ++ rule :: after ∧
        script.Yields k part i before s u ∧ rule.decompose part = some captures ∧
        u.nextReply script k (i + before.length) rule = (some template, t) ∧
        script.redirect? template = some (name, l) := by
  constructor
  · intro h
    induction rules generalizing i s with
    | nil => simp [tryRules] at h
    | cons rule rules ih =>
      -- what is found behind the first rule is found behind it if the first one yields
      have behind {u : State} (hyield : ∀ before v, script.Yields k part (i + 1) before u v →
            script.Yields k part i (rule :: before) s v)
          (h : script.tryRules k part (i + 1) rules u = (.redirect name l, t)) :
          ∃ before r after captures template v, rule :: rules = before ++ r :: after ∧
            script.Yields k part i before s v ∧ r.decompose part = some captures ∧
            v.nextReply script k (i + before.length) r = (some template, t) ∧
            script.redirect? template = some (name, l) := by
        obtain ⟨before, r, after, captures, template, v, rfl, hyields, hfits, hnext, hredirect⟩ :=
          ih h
        refine ⟨rule :: before, r, after, captures, template, v, rfl, hyield _ _ hyields, hfits,
          ?_, hredirect⟩
        rwa [List.length_cons, ← Nat.add_assoc, Nat.add_right_comm]
      rw [tryRules] at h
      split at h
      · exact behind (fun _ _ ↦ .unfit ‹_›) h
      · rename_i captures hfits
        split at h
        · exact behind (fun _ _ ↦ .silent hfits ‹_›) h
        · rename_i template u hnext
          split at h
          · rename_i name' place hredirect
            obtain ⟨⟨rfl, rfl⟩, rfl⟩ : (name' = name ∧ place = l) ∧ u = t := by simpa using h
            exact ⟨[], rule, rules, captures, template, s, rfl, .nil i s, hfits, hnext, hredirect⟩
          · split at h
            · exact behind (fun _ _ ↦ .kept hfits hnext ‹_› ‹_›) h
            · simp at h
  · rintro ⟨before, rule, after, captures, template, u, rfl, hyields, hfits, hnext, hredirect⟩
    rw [hyields.tryRules_append, tryRules_of_redirect hfits hnext hredirect]

theorem visit_eq_redirect_iff {k l : Nat} {part name : Text} {s t : State} :
    script.visit k part s = (.redirect name l, t) ↔
      ∃ keyword before rule after captures template u, script.keywords[k]? = some keyword ∧
        keyword.rules = before ++ rule :: after ∧ script.Yields k part 0 before s u ∧
        rule.decompose part = some captures ∧
        u.nextReply script k before.length rule = (some template, t) ∧
        script.redirect? template = some (name, l) := by
  rw [visit]
  rcases script.keywords[k]? with _ | keyword
  · simp
  · simp [tryRules_eq_redirect_iff]

theorem redirectsTo_of_visit {part name : Text} {k l : Nat} {s t : State}
    (h : script.visit k part s = (.redirect name l, t)) : script.RedirectsTo k l := by
  obtain ⟨keyword, before, rule, after, captures, template, u, hk, hrules, -, -, hnext,
    hredirect⟩ := visit_eq_redirect_iff.1 h
  exact ⟨keyword, hk, rule, hrules ▸ List.mem_append_cons_self, template,
    mem_replies_of_nextReply hnext, name, hredirect⟩

/-- A trail is a path of the graph of redirects, and goes on if its last visit redirects. -/
theorem Trail.isChain_append {part name : Text} {k l m : Nat} {s t u : State} {ks : List Nat}
    (h : script.Trail part k s ks l t) (last : script.visit l part t = (.redirect name m, u)) :
    ∃ rest, ks = k :: rest ∧ (ks ++ [m]).IsChain script.RedirectsTo := by
  induction h with
  | here k s => exact ⟨[], rfl, by simpa using redirectsTo_of_visit last⟩
  | redirect visit rest ih =>
    obtain ⟨tail, rfl, chain⟩ := ih last
    exact ⟨_, rfl, List.isChain_cons_cons.2 ⟨redirectsTo_of_visit visit, chain⟩⟩

theorem Trail.length_pos {part : Text} {k l : Nat} {s t : State} {ks : List Nat}
    (h : script.Trail part k s ks l t) : 0 < ks.length := by
  cases h with
  | here => exact Nat.one_pos
  | redirect => exact Nat.succ_pos _

/-! ## Following a trail -/

theorem follow_zero (part : Text) (k : Nat) (s : State) :
    script.follow part 0 k s = script.conclude (script.visit k part s) := by
  rw [follow]
  split <;> simp_all [conclude]

/-- Without a redirect the limit does not matter. -/
theorem follow_of_ne_redirect {part : Text} {k n : Nat} {s : State}
    (h : ∀ name l t, script.visit k part s ≠ (.redirect name l, t)) :
    script.follow part n k s = script.conclude (script.visit k part s) := by
  rw [follow]
  split
  · simp_all [conclude]
  · simp_all [conclude]
  · rename_i hvisit
    exact absurd hvisit (h _ _ _)

theorem follow_of_redirect {part name : Text} {k l n : Nat} {s t : State}
    (h : script.visit k part s = (.redirect name l, t)) :
    script.follow part (n + 1) k s = script.follow part n l t := by
  rw [follow, h]

/-- A consultation runs along a trail and ends as the last visit of the trail does. -/
theorem exists_trail_follow (part : Text) (n k : Nat) (s : State) :
    ∃ ks l t, script.Trail part k s ks l t ∧ ks.length ≤ n + 1 ∧
      script.follow part n k s = script.conclude (script.visit l part t) ∧
      ∀ name m u, script.visit l part t = (.redirect name m, u) → ks.length = n + 1 := by
  induction n generalizing k s with
  | zero => exact ⟨[k], k, s, .here k s, Nat.le_refl _, follow_zero part k s, fun _ _ _ _ ↦ rfl⟩
  | succ n ih =>
    by_cases h : ∃ name l t, script.visit k part s = (.redirect name l, t)
    · -- the rest of the trail starts in the state that the first visit leaves behind
      obtain ⟨name, l, t, visit⟩ := h
      obtain ⟨ks, m, u, trail, hle, hfollow, hlast⟩ := ih l t
      refine ⟨k :: ks, m, u, .redirect visit trail, Nat.succ_le_succ hle, ?_, ?_⟩
      · rw [follow_of_redirect visit, hfollow]
      · intro name' m' u' hvisit
        rw [List.length_cons, hlast name' m' u' hvisit]
    · push Not at h
      exact ⟨[k], k, s, .here k s, by simp, follow_of_ne_redirect h,
        fun name l t hvisit ↦ absurd hvisit (h name l t)⟩

/-- Redirects along a trail are followed as long as the limit allows. -/
theorem follow_of_trail {part : Text} {k l n : Nat} {s t : State} {ks : List Nat}
    (h : script.Trail part k s ks l t) (hle : ks.length ≤ n + 1) :
    script.follow part n k s = script.follow part (n + 1 - ks.length) l t := by
  induction h generalizing n with
  | here k s => simp
  | redirect visit rest ih =>
    have := rest.length_pos
    rw [List.length_cons] at hle ⊢
    obtain ⟨n, rfl⟩ : ∃ m, n = m + 1 := ⟨n - 1, by omega⟩
    rw [follow_of_redirect visit, ih (by omega), Nat.add_sub_add_right]

theorem conclude_eq_error_iff {visit : Visit × State} {failure : Failure} {t : State} :
    script.conclude visit = (.error failure, t) ↔
      ∃ name l, visit = (.redirect name l, t) ∧
        failure = .redirectCycle (String.ofList name) script.options.maxRedirectDepth := by
  obtain ⟨visit, u⟩ := visit
  cases visit with
  | redirect name l =>
    simp only [conclude, Prod.mk.injEq, Except.error.injEq, Visit.redirect.injEq]
    constructor
    · rintro ⟨rfl, rfl⟩
      exact ⟨name, l, ⟨⟨rfl, rfl⟩, rfl⟩, rfl⟩
    · rintro ⟨_, _, ⟨⟨rfl, -⟩, rfl⟩, rfl⟩
      exact ⟨rfl, rfl⟩
  | _ => simp [conclude]

/-- A consultation fails exactly if one more redirect is due when all allowed ones have been
followed. -/
theorem consult_eq_error_iff {part : Text} {k : Nat} {s u : State} {failure : Failure} :
    script.consult k part s = (.error failure, u) ↔
      ∃ ks l t name m, script.Trail part k s ks l t ∧
        ks.length = script.options.maxRedirectDepth + 1 ∧
        script.visit l part t = (.redirect name m, u) ∧
        failure = .redirectCycle (String.ofList name) script.options.maxRedirectDepth := by
  rw [consult]
  constructor
  · intro h
    obtain ⟨ks, l, t, trail, -, hfollow, hlast⟩ :=
      exists_trail_follow part script.options.maxRedirectDepth k s
    obtain ⟨name, m, hvisit, hfailure⟩ := conclude_eq_error_iff.1 (hfollow ▸ h)
    exact ⟨ks, l, t, name, m, trail, hlast name m u hvisit, hvisit, hfailure⟩
  · rintro ⟨ks, l, t, name, m, trail, hlen, hvisit, hfailure⟩
    rw [follow_of_trail trail hlen.le, hlen, Nat.sub_self, follow_zero]
    exact conclude_eq_error_iff.2 ⟨name, m, hvisit, hfailure⟩

/-! ## Other limits -/

theorem tryRules_withLimit (limit k i : Nat) (part : Text) (rules : List Rule) (s : State) :
    (script.withLimit limit).tryRules k part i rules s = script.tryRules k part i rules s := by
  induction rules generalizing i s with
  | nil => rfl
  | cons rule rules ih =>
    have next : s.nextReply (script.withLimit limit) k i rule = s.nextReply script k i rule := rfl
    have redirect (template : Text) :
        (script.withLimit limit).redirect? template = script.redirect? template := rfl
    have fill (template : Text) (captures : List Text) :
        (script.withLimit limit).fill template captures = script.fill template captures := rfl
    simp only [tryRules, next, redirect, fill, ih]

theorem visit_withLimit (limit k : Nat) (part : Text) (s : State) :
    (script.withLimit limit).visit k part s = script.visit k part s := by
  have keywords : (script.withLimit limit).keywords = script.keywords := rfl
  rw [visit, visit, keywords]
  cases script.keywords[k]? with
  | none => rfl
  | some keyword => exact tryRules_withLimit limit k 0 part keyword.rules s

/-- An answer found under some limit is also found under a higher one. -/
theorem follow_withLimit_mono {part reply : Text} {limit limit' n n' k : Nat} {s t : State}
    (hn : n ≤ n') (h : (script.withLimit limit).follow part n k s = (.ok reply, t)) :
    (script.withLimit limit').follow part n' k s = (.ok reply, t) := by
  -- failures under two limits name different depths, so only answers carry over
  induction n generalizing n' k s with
  | zero =>
    rw [follow, visit_withLimit] at h
    rw [follow, visit_withLimit]
    cases hvisit : script.visit k part s with
    | mk visit u => cases visit <;> simp_all
  | succ n ih =>
    obtain ⟨n', rfl⟩ : ∃ m, n' = m + 1 := ⟨n' - 1, by omega⟩
    rw [follow, visit_withLimit] at h
    rw [follow, visit_withLimit]
    cases hvisit : script.visit k part s with
    | mk visit u =>
      rw [hvisit] at h
      cases visit with
      | redirect name l => exact ih (Nat.le_of_succ_le_succ hn) h
      | _ => exact h

/-- Without long chains of redirects a consultation cannot fail. -/
theorem exists_consult_eq_ok {part : Text} {k : Nat} {s : State}
    (h : ∀ path : List Nat, path.IsChain script.RedirectsTo →
      path.length ≤ script.options.maxRedirectDepth + 1) :
    ∃ reply t, script.consult k part s = (.ok reply, t) := by
  cases hconsult : script.consult k part s with
  | mk answer u =>
    cases answer with
    | ok reply => exact ⟨reply, u, rfl⟩
    | error failure =>
      obtain ⟨ks, l, t, name, m, trail, hlen, hvisit, -⟩ := consult_eq_error_iff.1 hconsult
      -- the redirect that was one too many makes the path too long
      obtain ⟨-, -, chain⟩ := trail.isChain_append hvisit
      have := h _ chain
      rw [List.length_append, hlen, List.length_singleton] at this
      omega

/-- **Consulting a keyword comes to an end.** It runs along a trail of at most one keyword more
than redirects are allowed, and its outcome is that of the last visit. It fails exactly if a
further redirect is due after all allowed ones, and then names the keyword of that redirect. An
answer does not depend on a limit that is high enough, and none is missed if no path in the graph
of redirects is longer than the limit. A visit redirects exactly if the first rule that does not
leave the part to those behind it has a redirect as its next reply. -/
theorem consult_comes_to_an_end (script : Script) (part : Text) (k : Nat) (s : State) :
    (∃ ks l t, script.Trail part k s ks l t ∧
      ks.length ≤ script.options.maxRedirectDepth + 1 ∧
      script.consult k part s = script.conclude (script.visit l part t)) ∧
    (∀ failure u, script.consult k part s = (.error failure, u) ↔
      ∃ ks l t name m, script.Trail part k s ks l t ∧
        ks.length = script.options.maxRedirectDepth + 1 ∧
        script.visit l part t = (.redirect name m, u) ∧
        failure = .redirectCycle (String.ofList name) script.options.maxRedirectDepth) ∧
    (∀ limit limit' reply t, limit ≤ limit' →
      (script.withLimit limit).consult k part s = (.ok reply, t) →
      (script.withLimit limit').consult k part s = (.ok reply, t)) ∧
    ((∀ path : List Nat, path.IsChain script.RedirectsTo →
        path.length ≤ script.options.maxRedirectDepth + 1) →
      ∃ reply t, script.consult k part s = (.ok reply, t)) ∧
    ∀ (l m : Nat) (t u : State) (name : Text), script.visit l part t = (.redirect name m, u) ↔
      ∃ keyword before rule after captures template v, script.keywords[l]? = some keyword ∧
        keyword.rules = before ++ rule :: after ∧ script.Yields l part 0 before t v ∧
        rule.decompose part = some captures ∧
        v.nextReply script l before.length rule = (some template, u) ∧
        script.redirect? template = some (name, m) := by
  refine ⟨?_, fun _ _ ↦ consult_eq_error_iff, ?_, exists_consult_eq_ok,
    fun _ _ _ _ _ ↦ visit_eq_redirect_iff⟩
  · obtain ⟨ks, l, t, trail, hle, hfollow, -⟩ :=
      exists_trail_follow part script.options.maxRedirectDepth k s
    exact ⟨ks, l, t, trail, hle, hfollow⟩
  · intro limit limit' reply t hle h
    exact follow_withLimit_mono hle h

end Dialogue.Script
