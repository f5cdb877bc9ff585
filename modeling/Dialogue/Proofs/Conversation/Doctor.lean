import Dialogue.Proofs.Conversation.Reordering
import Dialogue.Proofs.Script.Acceptance
import Dialogue.Proofs.Script.Hubs
import Dialogue.Script.Doctor

/-!
# The DOCTOR speaks plainly

The script that comes with the library is one with hubs, such as `what`, which answers for `who`
and `how`. None of its texts has a mark of its own notation: a `$` only stands in references, and a
`=` only in front of a hub. The options of a caller that have to do with chance, memory and lower
case have no influence on this.

So whatever is said to it, the DOCTOR answers, and neither a reference nor a redirect is ever seen
(`Doctor.speaks_plainly`).
-/

namespace Dialogue

open Text (contract Shows)

namespace Doctor

/-! ## The document -/

/-- The fields of the document. -/
def members : Members :=
  [("options", options), ("initial", greetings), ("final", farewells), ("quit", quitParts),
   ("none", evasions), ("empty", prompts), ("pre", pre), ("post", post), ("tags", tags),
   ("keywords", keywords)]

theorem document_eq : document = .object members := rfl

/-- The declarations of the keywords. -/
def declared : Members :=
  match keywords with
  | .object members => members
  | _ => []

theorem get?_keywords : members.get? "keywords" = some (.object declared) := rfl

variable (s : String) (list : List String) (rules : Members)

theorem texts_text : (text s).texts = [s] := rfl

theorem texts_texts : (texts list).texts = list := by
  rw [texts, Json.texts, List.filterMap_map]
  exact List.filterMap_some

theorem bodyTexts_text : (text s).bodyTexts = [s] := rfl

theorem bodyTexts_texts : (texts list).bodyTexts = list := texts_texts list

theorem bodyTexts_object :
    (Json.object rules).bodyTexts = rules.flatMap fun rule ↦ rule.2.texts := rfl

/-! ## The words of the document -/

/-- The character marks neither a reference nor a redirect. -/
def Plain (c : Char) : Prop := c ≠ '$' ∧ c ≠ '='

instance : DecidablePred Plain := fun c ↦ inferInstanceAs (Decidable (c ≠ '$' ∧ c ≠ '='))

/-- The keywords that answer for others. -/
def hubs : List Text :=
  ["alike", "what", "dream", "everyone", "sorry", "was"].map String.toList

/-- Every declared reply is said or hands over to a hub, and those of the hubs are said. -/
theorem fits_replies : ∀ declaration ∈ declared, ∀ s ∈ declaration.2.bodyTexts,
    Options.Fits {} hubs Plain (Keyword.declaredKey {} declaration.1) (contract s.toList) := by
  simp only [declared, keywords, List.forall_mem_cons, bodyTexts_text, bodyTexts_texts,
    bodyTexts_object, texts_text, texts_texts, List.flatMap_cons, List.flatMap_nil,
    List.forall_mem_append, List.not_mem_nil, false_imp_iff, implies_true, and_true]
  -- each text is spelled out on its own, because the kernel is slow to take strings apart
  and_intros <;> (rw [String.toList_ofList]; decide +kernel)

theorem shows_pools : ∀ pool ∈ [farewells, evasions, prompts], ∀ s ∈ pool.texts,
    Shows Plain s.toList := by
  simp only [farewells, evasions, prompts, List.forall_mem_cons, texts_texts, List.not_mem_nil,
    false_imp_iff, implies_true, and_true]
  and_intros <;> (rw [String.toList_ofList]; decide +kernel)

theorem shows_fallback : Shows Plain ({} : Options).fallbackReply.toList := by decide +kernel

theorem shows_tables : ∀ table ∈ [pre, post], ∀ pair ∈ table.textPairs, Shows Plain pair.2 := by
  decide +kernel

theorem exists_hub : ∀ hub ∈ hubs, ∃ declaration ∈ declared,
    Keyword.declaredKey {} declaration.1 = hub := by
  decide +kernel

theorem ofDeclaration_eq_nil : ∀ declaration ∈ declared,
    Defect.ofDeclaration {} declaration.1 declaration.2 = [] := by
  decide +kernel

/-! ## The script -/

theorem mergedOptions_eq (o : Options) :
    Script.mergedOptions o members = .ok { o with fixedInitial := 1, fixedFinal := 1 } := rfl

theorem exists_readUnkeyed (o : Options) : ∃ base,
    Script.readUnkeyed .boundless o members = .ok base ∧ base.options = o ∧
    base.farewells = farewells.texts.map String.toList ∧
    base.evasions = evasions.texts.map String.toList ∧
    base.prompts = prompts.texts.map String.toList ∧
    base.pre = .ofList pre.textPairs ∧ base.post = .ofList post.textPairs := by
  simp only [Script.readUnkeyed, Script.ofMembers, Library.build_boundless]
  exact ⟨_, rfl, rfl, rfl, rfl, rfl, rfl, rfl⟩

theorem plain_of_mem_ofList {table : Json} (h : table ∈ [pre, post])
    {entry : Text × Text} (hentry : entry ∈ (Substitution.ofList table.textPairs).entries) :
    ∀ c ∈ entry.2, Plain c := by
  obtain ⟨pair, hpair, rfl⟩ := List.mem_map.1 (List.mem_filter.1 hentry).1
  exact (shows_tables table h pair hpair).chars

theorem shows_of_mem_pool {pool : Json} (h : pool ∈ [farewells, evasions, prompts]) {line : Text}
    (hline : line ∈ pool.texts.map String.toList) : Shows Plain line := by
  obtain ⟨s, hs, rfl⟩ := List.mem_map.1 hline
  exact shows_pools pool h s hs

/-- By default the marks are not let through from an input. -/
theorem plain_of_allows {c : Char} (h : Options.allows {} c = true) : Plain c := by
  constructor
  · rintro rfl
    exact absurd h (by decide +kernel)
  · rintro rfl
    exact absurd h (by decide +kernel)

section Options

variable (seed : Int) (memorySize : Nat)
  (shuffleChoices randomizeChoices lowercaseInput lowercaseOutput : Bool)

/-- The options of a caller who leaves all but these as they are, with those of the document. -/
def merged : Options :=
  { seed, memorySize, shuffleChoices, randomizeChoices, lowercaseInput, lowercaseOutput,
    fixedInitial := 1, fixedFinal := 1 }

/-- Whatever the caller chooses, no declaration is defective. -/
theorem exists_compile :
    let options : Options :=
      { seed := seed, memorySize, shuffleChoices, randomizeChoices, lowercaseInput,
        lowercaseOutput }
    ∃ script, Script.compile .boundless document options = .ok script := by
  intro options
  obtain ⟨base, hbase, -⟩ := exists_readUnkeyed (merged seed memorySize shuffleChoices
    randomizeChoices lowercaseInput lowercaseOutput)
  obtain ⟨keywords, hkeywords⟩ : ∃ keywords,
      Script.readKeywords .boundless (merged seed memorySize shuffleChoices randomizeChoices
        lowercaseInput lowercaseOutput) base.tags members = .ok keywords := by
    refine (Script.exists_readKeywords_iff get?_keywords).2 fun declaration hdeclaration ↦ ?_
    refine Keyword.reports_compile.isOk_iff.2 (List.append_eq_nil_iff.2 ⟨?_, ?_⟩)
    · exact ofDeclaration_eq_nil declaration hdeclaration
    · exact Library.refusals_eq_nil_iff.2 fun e _ ↦ Library.builds_boundless e
  exact ⟨_, Script.compile_eq_ok_iff.2
    ⟨_, base, keywords, mergedOptions_eq _, hbase, hkeywords, rfl⟩⟩

/-- Whatever the caller chooses and by whatever library it is compiled, the script has its hubs and
keeps to its words. -/
theorem words_of_compile {library : Library} {script : Script} :
    let options : Options :=
      { seed := seed, memorySize, shuffleChoices, randomizeChoices, lowercaseInput,
        lowercaseOutput }
    Script.compile library document options = .ok script →
      script.options.maxRedirectDepth = 16 ∧ script.farewells ≠ [] ∧
        script.Shallow ∧ script.Words Plain := by
  intro options hcompile
  obtain ⟨base, hbase, hoptions, hfarewells, hevasions, hprompts, hpre, hpost⟩ :=
    exists_readUnkeyed (merged seed memorySize shuffleChoices randomizeChoices lowercaseInput
      lowercaseOutput)
  rw [document_eq] at hcompile
  obtain ⟨o, base', keywords, ho, hbase', hkeywords, rfl⟩ := Script.compile_eq_ok_iff.1 hcompile
  obtain rfl : merged seed memorySize shuffleChoices randomizeChoices lowercaseInput
      lowercaseOutput = o := Except.ok.inj ((mergedOptions_eq _).symm.trans ho)
  -- but for the keywords, the library has no part in what is read
  obtain rfl : base = base' :=
    Except.ok.inj (hbase.symm.trans (Script.readUnkeyed_boundless hbase'))
  rw [← hoptions] at hkeywords
  have hhubs : Script.Hubs { base with keywords } hubs Plain := by
    refine Script.hubs_of_arranged
      (Script.arranged_of_readKeywords get?_keywords hkeywords) ?_ ?_
    · rw [hoptions]
      exact exists_hub
    · rw [hoptions]
      exact fits_replies
  refine ⟨congrArg Options.maxRedirectDepth hoptions, hfarewells ▸ List.cons_ne_nil _ _,
    hhubs.shallow, ?_⟩
  exact {
    allowed := by
      rw [hoptions]
      exact fun c ↦ plain_of_allows
    pre := by
      rw [hpre]
      exact fun entry ↦ plain_of_mem_ofList (by simp)
    post := by
      rw [hpost]
      exact fun entry ↦ plain_of_mem_ofList (by simp)
    farewells := by
      rw [hfarewells]
      exact fun line ↦ shows_of_mem_pool (by simp)
    prompts := by
      rw [hprompts]
      exact fun line ↦ shows_of_mem_pool (by simp)
    evasions := by
      rw [hevasions]
      exact fun line ↦ shows_of_mem_pool (by simp)
    fallback := by
      rw [hoptions]
      exact shows_fallback
    templates := fun _ hkeyword _ hrule _ ↦ hhubs.shows hkeyword hrule }

/-- **The DOCTOR speaks plainly.** Let a caller choose the seed, the size of memory, whether choices
are shuffled or random and whether input and replies are lowercased, and leave the other options as
they are. Then nothing is wrong with the script, and however its patterns are built, this holds.
Whatever was done before and whatever the random numbers are, an input is answered, and by a text
without a reference or a redirect; and consulting a keyword, in any state, follows at most one
redirect and does not fail. -/
theorem speaks_plainly :
    let options : Options :=
      { seed := seed, memorySize, shuffleChoices, randomizeChoices, lowercaseInput,
        lowercaseOutput }
    (∃ script, Script.compile .boundless document options = .ok script) ∧
    ∀ library script, Script.compile library document options = .ok script →
      (∀ (factory : Factory) (before : List Action) (input : Text),
        let s := ((Session.start script factory).run script before).2.state
        let reply := (s.transform script input).1
        reply ≠ [] ∧ '$' ∉ reply ∧ '=' ∉ reply) ∧
      ∀ (part : Text) (k : Nat) (s : State),
        (∀ ks l t, script.Trail part k s ks l t → ks.length ≤ 2) ∧
        ∃ reply t, script.consult k part s = (.ok reply, t) := by
  intro options
  refine ⟨exists_compile seed memorySize shuffleChoices randomizeChoices lowercaseInput
    lowercaseOutput, fun library script hcompile ↦ ?_⟩
  obtain ⟨hlimit, hfarewells, hshallow, hwords⟩ :=
    words_of_compile seed memorySize shuffleChoices randomizeChoices lowercaseInput lowercaseOutput
      hcompile
  refine ⟨fun factory before input ↦ ?_, fun part k s ↦ ⟨?_, ?_⟩⟩
  · obtain ⟨hne, hplain⟩ := Session.words_transform hwords hfarewells factory before input
    refine ⟨hne, fun hmem ↦ ?_, fun hmem ↦ ?_⟩
    · exact (hplain '$' hmem (by decide) (by decide)).1 rfl
    · exact (hplain '=' hmem (by decide) (by decide)).2 rfl
  · exact fun ks l t ↦ hshallow.length_trail_le
  · exact hshallow.exists_consult (by omega) part k s

end Options

/-- The second of two inputs is answered plainly, by a caller's options and by dice that always show
the same. -/
theorem speaks_plainly_when_asked :
    ∃ script, Script.compile .boundless document { memorySize := 3, randomizeChoices := true } =
        .ok script ∧
      let s := ((Session.start script fun _ _ _ ↦ 0.5).run script
        [.transform "My dog = $1, who?".toList]).2.state
      let reply := (s.transform script "Who says so?".toList).1
      reply ≠ [] ∧ '$' ∉ reply ∧ '=' ∉ reply := by
  obtain ⟨⟨script, hcompile⟩, hplain⟩ := speaks_plainly (-1) 3 false true true false
  exact ⟨script, hcompile, (hplain _ _ hcompile).1 _ _ _⟩

end Doctor

end Dialogue
