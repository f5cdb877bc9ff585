import Dialogue.Proofs.Conversation.Reordering
import Dialogue.Proofs.Script.Hubs
import Dialogue.Proofs.Script.Keyword

/-!
# Rules that take everything

A decomposition that is the wildcard marker, and nothing else, ought to fit whatever reaches it. It
is read as one wildcard, and the wildcard takes any text that has no line feed
(`Keyword.Compiled.decompose_eq`). An input has no line feed once it is in plain form, but the
values of the table that is applied to it before keywords are looked for may bring one in; and then
the rule does not fit, and the keyword is skipped.

So the rule takes everything as long as no value of that table has a line feed
(`Script.wildcard_takes_all_but_line_feeds`). Keywords declared with a reply or a list of replies
have this rule and no other.
-/

namespace Dialogue

open Character (isBlank)
open Text (contract parts)

/-! ## A wildcard alone -/

namespace Template

variable {tag wildcard text : List Char} {tags : Tags}

/-- The wildcard marker is read as a wildcard, unless it holds a character of the tag marker. -/
theorem tokens_wildcard (hne : wildcard ≠ []) (hapart : ∀ c ∈ wildcard, c ∉ tag) :
    tokens ⟨tag, wildcard⟩ tags wildcard = [.wildcard] := by
  have hnone : ∀ t, t <:+ wildcard → ∀ name after, ¬ TagAt tag name after t := by
    intro t ht name after htag
    obtain ⟨c, marker, rfl⟩ := List.exists_cons_of_ne_nil htag.marker_ne
    refine hapart c (ht.subset ?_) List.mem_cons_self
    rw [htag.eq]
    exact List.mem_cons_self
  have hend : ReadsText wildcard [] [] := .plain (.inr fun h ↦ hne (List.infix_nil.1 h))
  have hread : ReadsText wildcard ([] ++ wildcard ++ []) ([] ++ [.wildcard]) :=
    .wildcard hne (fun _ _ _ ↦ Nat.zero_le _) hend
  rw [List.append_nil] at hread
  exact (reads_iff.1 (reads_of_no_tag hnone hread)).symm

/-- A wildcard alone takes a text whole, unless there is a line feed. -/
theorem splits_wildcard_iff {xs : List (List Char)} :
    Splits [.wildcard] text xs ↔ xs = [text] ∧ '\n' ∉ text := by
  simp only [splits_iff, splitsBehind_cons_iff, splitsBehind_nil_iff, Token.Fits]
  constructor
  · rintro ⟨x, after, ys, rfl, rfl, hx, -, -, rfl, rfl⟩
    simpa using hx
  · rintro ⟨rfl, htext⟩
    exact ⟨text, [], [], rfl, by simp, htext, by simp, by simp, rfl, rfl⟩

/-- **The pattern of a wildcard alone captures the whole text**, unless there is a line feed. -/
theorem capture?_pattern_wildcard (hne : wildcard ≠ []) (hapart : ∀ c ∈ wildcard, c ∉ tag)
    (text : List Char) : (pattern ⟨tag, wildcard⟩ tags wildcard).capture? text =
      if '\n' ∈ text then none else some [text] := by
  have htokens : tokens ⟨tag, wildcard⟩ tags wildcard = [.wildcard] := tokens_wildcard hne hapart
  split
  · rename_i hfeed
    rw [← Option.not_isSome_iff_eq_none, isSome_capture?_pattern_iff, htokens]
    rintro ⟨xs, hxs⟩
    exact (splits_wildcard_iff.1 hxs).2 hfeed
  · rename_i hfeed
    rw [capture?_pattern_eq_some_iff, htokens]
    refine ⟨[text], ⟨splits_wildcard_iff.2 ⟨rfl, hfeed⟩, fun hys ↦ .inl ?_⟩, rfl⟩
    exact (splits_wildcard_iff.1 hys).1.symm

end Template

/-! ## Keywords with this rule -/

namespace Keyword

variable {library : Library} {options : Options} {tags : Tags} {name : String} {body : Json}
  {position : Nat} {keyword : Keyword}

/-- **A rule whose decomposition is the wildcard marker** takes every text without a line feed. -/
theorem Compiled.decompose_eq (h : Compiled (markers library options) tags keyword)
    (hbuilds : library.Builds (Template.wildcardExpression options.wildcardMarker.toList))
    (hne : options.wildcardMarker.toList ≠ [])
    (hapart : ∀ c ∈ options.wildcardMarker.toList, c ∉ options.tagMarker.toList) {rule : Rule}
    (hrule : rule ∈ keyword.rules) (hwildcard : rule.decomposition = options.wildcardMarker.toList)
    (text : Text) : rule.decompose text = if '\n' ∈ text then none else some [text] := by
  rw [Rule.decompose, h.pattern rule hrule, hwildcard, markers_of_builds hbuilds]
  refine Template.capture?_pattern_wildcard hne (fun c hc ↦ ?_) text
  split
  · exact hapart c hc
  · exact List.not_mem_nil

theorem decomposition_compileRule (memorized : Bool) {wildcard : Text} (hne : wildcard ≠ [])
    (hsolid : ∀ c ∈ wildcard, isBlank c = false)
    (hapart : ∀ c ∈ wildcard, c ∉ options.memoryMarker.toList) (replies : List Text) :
    (compileRule library options tags memorized (wildcard, replies)).decomposition = wildcard := by
  have hcontract : contract wildcard = wildcard := by
    rw [contract, Text.joinWords, Text.words_of_forall hne hsolid, List.intercalate_singleton]
  simp only [compileRule, hcontract, afterMarker?_of_apart hapart, Option.getD_none]

/-- The rules of a compiled keyword are those of its body. -/
theorem rules_of_compile (h : compile library options tags name body position = .ok keyword) :
    ∃ rules, Body.ofJson name body = .ok rules ∧ keyword.rules =
      (rules.toRules options.wildcardMarker.toList).map
        (compileRule library options tags keyword.memorized) := by
  replace h := declare_of_compile h
  simp only [declare] at h
  split at h
  · cases h
  · obtain ⟨rules, hrules, h⟩ := Reader.bind_eq_ok_iff.1 h
    obtain rfl := Except.ok.inj h
    exact ⟨rules, hrules, rfl⟩

/-- A reply, or a list of replies, stands for one rule with the wildcard marker. -/
theorem toRules_of_bare {rules : Body} (h : Body.ofJson name body = .ok rules)
    (hbare : (∃ s, body = .string s) ∨ ∃ items, body = .array items) (wildcard : Text) :
    ∃ replies, rules.toRules wildcard = [(wildcard, replies)] := by
  rcases hbare with ⟨s, rfl⟩ | ⟨items, rfl⟩
  · obtain rfl := Except.ok.inj h
    exact ⟨_, rfl⟩
  · obtain ⟨texts, -, h⟩ := Reader.bind_eq_ok_iff.1 h
    obtain rfl := Except.ok.inj h
    exact ⟨_, rfl⟩

/-- **A keyword declared with a reply or a list of replies** has the rule that takes everything, and
no other. -/
theorem exists_rule_of_bare (h : compile library options tags name body position = .ok keyword)
    (hbare : (∃ s, body = .string s) ∨ ∃ items, body = .array items)
    (hne : options.wildcardMarker.toList ≠ [])
    (hsolid : ∀ c ∈ options.wildcardMarker.toList, isBlank c = false)
    (hapart : ∀ c ∈ options.wildcardMarker.toList, c ∉ options.memoryMarker.toList) :
    ∃ rule, keyword.rules = [rule] ∧ rule.decomposition = options.wildcardMarker.toList := by
  obtain ⟨rules, hrules, hcompiled⟩ := rules_of_compile h
  obtain ⟨replies, hreplies⟩ := toRules_of_bare hrules hbare options.wildcardMarker.toList
  rw [hreplies, List.map_singleton] at hcompiled
  exact ⟨_, hcompiled, decomposition_compileRule _ hne hsolid hapart replies⟩

end Keyword

/-! ## Scripts -/

namespace Script

/-- A part of an input has no line feed. -/
theorem notMem_lineFeed_of_mem_parts {o : Options} {s part : Text}
    (h : part ∈ parts (o.normalize s)) : '\n' ∉ part :=
  (Options.plain_of_mem_parts h).tidy.notMem_lineFeed

/-- **A rule of a wildcard alone takes everything but line feeds.** Let the wildcard marker not be
empty, hold no white space, and share no character with the markers of tags and memory. Then a rule
whose decomposition is this marker fits exactly the texts without a line feed, and captures them
whole. A part of an input has no line feed, and gets none if no value of the table applied to it has
one: then the rule fits whatever reaches it. It is the only rule of a keyword that is declared with
a reply or a list of replies. -/
theorem wildcard_takes_all_but_line_feeds (library : Library) (document : Json) (options : Options)
    (script : Script) (h : compile library document options = .ok script)
    (hbuilds : library.Builds (Template.wildcardExpression script.options.wildcardMarker.toList))
    (hne : script.options.wildcardMarker.toList ≠ [])
    (hsolid : ∀ c ∈ script.options.wildcardMarker.toList, isBlank c = false)
    (hapart : ∀ c ∈ script.options.wildcardMarker.toList,
      c ∉ script.options.tagMarker.toList ∧ c ∉ script.options.memoryMarker.toList) :
    (∀ keyword ∈ script.keywords, ∀ rule ∈ keyword.rules,
      rule.decomposition = script.options.wildcardMarker.toList →
        (∀ text, rule.decompose text = if '\n' ∈ text then none else some [text]) ∧
        ((∀ entry ∈ script.pre.entries, '\n' ∉ entry.2) →
          ∀ s, ∀ part ∈ parts (script.options.normalize s),
            rule.decompose (script.pre.apply part) = some [script.pre.apply part])) ∧
    ∀ members declared : Members, document = .object members →
      members.get? "keywords" = some (.object declared) →
        ∀ declaration ∈ declared,
          ((∃ s, declaration.2 = .string s) ∨ ∃ items, declaration.2 = .array items) →
            ∃ keyword ∈ script.keywords,
              Keyword.compile library script.options script.tags declaration.1 declaration.2
                keyword.position = .ok keyword ∧
              ∃ rule, keyword.rules = [rule] ∧
                rule.decomposition = script.options.wildcardMarker.toList := by
  obtain ⟨members, declared, rfl, hdeclared, harranged⟩ := arranged_of_compile h
  constructor
  · intro keyword hkeyword rule hrule hwildcard
    obtain ⟨declaration, -, hcompile⟩ := harranged.compiled keyword hkeyword
    have hdecompose (text : Text) :
        rule.decompose text = if '\n' ∈ text then none else some [text] :=
      (Keyword.compiled_of_compile hcompile).decompose_eq hbuilds hne
        (fun c hc ↦ (hapart c hc).1) hrule hwildcard text
    refine ⟨hdecompose, fun hpre s part hpart ↦ ?_⟩
    have hvalues : ∀ entry ∈ script.pre.entries, ∀ c ∈ entry.2, c ≠ '\n' :=
      fun entry hentry ↦ List.forall_mem_ne'.2 (hpre entry hentry)
    have hpart : ∀ c ∈ part, c ≠ '\n' := List.forall_mem_ne'.2 (notMem_lineFeed_of_mem_parts hpart)
    have happlied := Substitution.forall_mem_apply hvalues hpart
    rw [hdecompose, if_neg (List.forall_mem_ne'.1 happlied)]
  · intro members' declared' hmembers hdeclared' declaration hdeclaration hbare
    obtain rfl := Json.object.inj hmembers
    obtain rfl : declared = declared' := by
      rw [hdeclared] at hdeclared'
      exact Json.object.inj (Option.some.inj hdeclared')
    obtain ⟨keyword, hkeyword, hcompile⟩ := harranged.exists_keyword hdeclaration
    exact ⟨keyword, hkeyword, hcompile, Keyword.exists_rule_of_bare hcompile hbare hne hsolid
      fun c hc ↦ (hapart c hc).2⟩

/-- A value of two lines holds a keyword, and its rule does not fit. One of a single line is taken
whole. -/
theorem two_lines_are_not_taken :
    let members := (ofKeywords [("a", .string "ok")]).put "pre"
      (.object [("foo", .string "a\nb"), ("bar", .string "a b")])
    ∃ script, compile .boundless (.object members) {} = .ok script ∧
      parts (script.options.normalize "Foo. Bar!".toList) = ["foo".toList, "bar".toList] ∧
      ∃ keyword ∈ script.keywords, ∃ rule, keyword.rules = [rule] ∧
        keyword.isIn (script.pre.apply "foo".toList) = true ∧
        rule.decompose (script.pre.apply "foo".toList) = none ∧
        rule.decompose (script.pre.apply "bar".toList) = some ["a b".toList] := by
  intro members
  obtain ⟨script, hscript, hoptions, hisIn, hfoo, hbar⟩ :
      ∃ script, compile .boundless (.object members) {} = .ok script ∧ script.options = {} ∧
        (∀ keyword ∈ script.keywords, keyword.isIn (script.pre.apply "foo".toList) = true) ∧
        script.pre.apply "foo".toList = "a\nb".toList ∧
        script.pre.apply "bar".toList = "a b".toList :=
    ⟨_, rfl, rfl, by decide +kernel, by decide +kernel, by decide +kernel⟩
  have hmarker : script.options.wildcardMarker.toList = ['*'] := by
    rw [hoptions]
    rfl
  have hapart :
      '*' ∉ script.options.tagMarker.toList ∧ '*' ∉ script.options.memoryMarker.toList := by
    rw [hoptions]
    decide
  obtain ⟨htakes, hbare⟩ := wildcard_takes_all_but_line_feeds .boundless (.object members) {}
    script hscript rfl
    (by rw [hmarker]; exact List.cons_ne_nil _ _)
    (by rw [hmarker]; exact List.forall_mem_singleton.2 rfl)
    (by rw [hmarker]; exact List.forall_mem_singleton.2 hapart)
  obtain ⟨keyword, hkeyword, -, rule, hrules, hwildcard⟩ :=
    hbare members [("a", .string "ok")] rfl rfl _ (List.mem_singleton_self _) (.inl ⟨_, rfl⟩)
  have hrule : rule ∈ keyword.rules := hrules ▸ List.mem_singleton_self rule
  obtain ⟨hdecompose, -⟩ := htakes keyword hkeyword rule hrule hwildcard
  refine ⟨script, hscript, ?_, keyword, hkeyword, rule, hrules, hisIn keyword hkeyword, ?_, ?_⟩
  · rw [hoptions]
    decide +kernel
  · rw [hdecompose, hfoo, if_pos (by decide)]
  · rw [hdecompose, hbar, if_neg (by decide)]

end Script

end Dialogue
