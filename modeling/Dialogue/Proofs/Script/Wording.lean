import Dialogue.Proofs.Conversation.Sayings
import Dialogue.Proofs.Segmentation.Parts

/-!
# The wording of replies

A reply is put together from three kinds of text: what a template says itself, what was captured
of the input, and what is substituted on the way. So a kind of character that none of them has is
in no reply, and a template that says something itself makes no reply of mere white space.

For a script this is stated in `Script.Words`, whose conditions can be checked line by line. They
are enough for everything that a conversation says (`Session.words_transform`): the input is
brought into plain form first, memory holds such replies only, and neither contracting nor
lowercasing a reply brings in a character in front of the small letters, but for the space.
-/

namespace Dialogue

open Text (Blank lowercase contract trim)

variable {P : Char → Prop}

/-! ## Characters that are passed on -/

namespace Pattern

/-- Replacing brings in the characters of the replacements only. -/
theorem forall_mem_replaceSpans {f : List Char → List Char}
    (hf : ∀ x, (∀ c ∈ x, P c) → ∀ c ∈ f x, P c) {rest : List Char} (h : ∀ c ∈ rest, P c) (i : Nat)
    (spans : List (Nat × Nat)) : ∀ c ∈ replaceSpans f rest i spans, P c := by
  induction spans generalizing rest i with
  | nil => exact h
  | cons span spans ih =>
    rw [replaceSpans, List.forall_mem_append, List.forall_mem_append]
    refine ⟨⟨?_, hf _ ?_⟩, ih ?_ _⟩
    · exact fun c hc ↦ h c (List.mem_of_mem_take hc)
    · exact fun c hc ↦ h c (List.mem_of_mem_drop (List.mem_of_mem_take hc))
    · exact fun c hc ↦ h c (List.mem_of_mem_drop hc)

/-- What is captured of a text has the characters of the text. -/
theorem forall_mem_capture? {p : Pattern} {s : List Char} {captures : List (List Char)}
    (h : p.capture? s = some captures) (hs : ∀ c ∈ s, P c) : ∀ x ∈ captures, ∀ c ∈ x, P c := by
  obtain ⟨spans, -, rfl⟩ := Option.map_eq_some_iff.1 h
  intro x hx c hc
  obtain ⟨⟨a, b⟩, -, rfl⟩ := List.mem_map.1 hx
  exact hs c (List.mem_of_mem_drop (List.mem_of_mem_take hc))

end Pattern

namespace Substitution

/-- A substitution brings in the characters of its replacements only. -/
theorem forall_mem_apply {table : Substitution}
    (htable : ∀ entry ∈ table.entries, ∀ c ∈ entry.2, P c) {s : Text} (hs : ∀ c ∈ s, P c) :
    ∀ c ∈ table.apply s, P c := by
  rw [apply]
  split
  · exact hs
  · refine Pattern.forall_mem_replaceSpans (fun x hx ↦ ?_) hs _ _
    rw [get?]
    rcases hentry : table.entries.find? _ with _ | entry
    · exact hx
    · exact htable entry (List.mem_of_find?_eq_some hentry)

end Substitution

namespace Character

/-- The letters that have a capital in a run are characters. -/
theorem isValidChar_of_mem_caseRuns : ∀ r ∈ caseRuns,
    r.target + (r.last - r.first) < 0xD800 ∨
      0xDFFF < r.target ∧ r.target + (r.last - r.first) < 0x110000 := by
  decide +kernel

/-- The lower case of another character is a small letter. -/
theorem lower_eq_self_of_lt {c : Char} (h : (lower c).toNat < 97) : lower c = c := by
  by_cases hascii : c.toNat < 128
  · refine forall_ascii (P := fun c ↦ (lower c).toNat < 97 → lower c = c) ?_ hascii h
    decide +kernel
  · rw [lower, if_neg hascii] at h ⊢
    rcases hfind : caseRuns.findSome? (·.lower? c.toNat) with _ | m
    · rw [hfind]
      rfl
    · obtain ⟨r, hr, hm⟩ := List.exists_of_findSome?_eq_some hfind
      have hlarge := (target_of_mem_caseRuns r hr).1
      have hchar := isValidChar_of_mem_caseRuns r hr
      rw [CaseRun.lower?, Option.ite_none_right_eq_some, Option.some_inj] at hm
      simp only [Bool.and_eq_true, decide_eq_true_eq] at hm
      have hvalid : m.isValidChar := by
        rw [Nat.isValidChar]
        omega
      rw [hfind, Option.map_some, Option.getD_some, toNat_ofNat hvalid] at h
      omega

end Character

namespace Text

theorem eq_of_mem_lowerBetween {before after : List Char} {c d : Char}
    (h : d ∈ lowerBetween before c after) (hd : d.toNat < 97) : d = c := by
  rw [lowerBetween] at h
  split at h
  · rw [List.mem_singleton] at h
    split at h
    · exact absurd hd (h ▸ (by decide))
    · exact absurd hd (h ▸ (by decide))
  · split at h
    · rw [List.mem_cons, List.mem_singleton] at h
      rcases h with rfl | rfl
      · exact absurd hd (by decide)
      · exact absurd hd (by decide)
    · obtain rfl := List.mem_singleton.1 h
      exact Character.lower_eq_self_of_lt hd

theorem mem_of_mem_lowercaseAfter {before s : Text} {d : Char} (h : d ∈ lowercaseAfter before s)
    (hd : d.toNat < 97) : d ∈ s := by
  induction s generalizing before with
  | nil => exact absurd h List.not_mem_nil
  | cons c s ih =>
    rw [lowercaseAfter, List.mem_append] at h
    rcases h with h | h
    · exact eq_of_mem_lowerBetween h hd ▸ List.mem_cons_self
    · exact List.mem_cons_of_mem _ (ih h)

/-- In front of the small letters, lower case has the characters of the text only. -/
theorem mem_of_mem_lowercase {s : Text} {d : Char} (h : d ∈ lowercase s) (hd : d.toNat < 97) :
    d ∈ s := mem_of_mem_lowercaseAfter h hd

theorem blank_trim_iff {s : Text} : Blank (trim s) ↔ Blank s := by
  obtain ⟨before, after, hs, hbefore, hafter⟩ := exists_blank_trim s
  constructor
  · intro h
    rw [hs]
    exact blank_append_iff.2 ⟨blank_append_iff.2 ⟨hbefore, h⟩, hafter⟩
  · exact fun h c hc ↦ h c ((trim_isInfix s).subset hc)

/-- The text is not blank, and all of its characters are `P`. -/
structure Shows (P : Char → Prop) (s : Text) : Prop where
  solid : ¬ Blank s
  chars : ∀ c ∈ s, P c

instance [DecidablePred P] (s : Text) : Decidable (Shows P s) :=
  decidable_of_iff (¬ Blank s ∧ s.all (P ·) = true)
    ⟨fun h ↦ ⟨h.1, by simpa using h.2⟩, fun h ↦ ⟨h.1, by simpa using h.2⟩⟩

end Text

open Text (Shows)

/-! ## Templates -/

namespace Reply

variable {opening closing template : Text} {post : Substitution} {captures : List Text}

/-- What a template says itself: the text between its references. -/
def ownText (opening closing template : Text) : Text :=
  (Text.scan (referenceAt? opening closing) template).filterMap Sum.getLeft?

theorem forall_mem_captured (hpost : ∀ entry ∈ post.entries, ∀ c ∈ entry.2, P c)
    (hcaptures : ∀ x ∈ captures, ∀ c ∈ x, P c) (n : Nat) :
    ∀ c ∈ captured post captures n, P c := by
  rcases n with _ | n
  · exact List.forall_mem_nil _
  · rw [captured]
    rcases hcapture : captures[n]? with _ | capture
    · exact List.forall_mem_nil _
    · have hcapture := hcaptures capture (List.mem_of_getElem? hcapture)
      exact Substitution.forall_mem_apply hpost
        fun c hc ↦ hcapture c ((Text.trim_isInfix capture).subset hc)

/-- A filled template shows what it does itself, what is captured and what is substituted. -/
theorem shows_fill (hown : Shows P (ownText opening closing template))
    (hpost : ∀ entry ∈ post.entries, ∀ c ∈ entry.2, P c)
    (hcaptures : ∀ x ∈ captures, ∀ c ∈ x, P c) :
    Shows P (fill opening closing post template captures) where
  solid := by
    rw [fill, Text.blank_trim_iff]
    refine fun hblank ↦ hown.solid fun c hc ↦ hblank c ?_
    obtain ⟨mark, hmark, hleft⟩ := List.mem_filterMap.1 hc
    obtain rfl : mark = .inl c := Sum.getLeft?_eq_some_iff.1 hleft
    exact List.mem_flatMap.2 ⟨_, hmark, List.mem_singleton_self c⟩
  chars c hc := by
    obtain ⟨mark, hmark, hc⟩ := List.mem_flatMap.1 ((Text.trim_isInfix _).subset hc)
    rcases mark with d | n
    · obtain rfl := List.mem_singleton.1 hc
      exact hown.chars c (List.mem_filterMap.2 ⟨_, hmark, rfl⟩)
    · exact forall_mem_captured hpost hcaptures n c hc

end Reply

/-! ## Scripts -/

/-- The texts that the script says are not blank, and all characters that can get into a reply are
`P`: those of its texts, of its substitutions and of an input in plain form. -/
structure Script.Words (script : Script) (P : Char → Prop) : Prop where
  allowed (c : Char) : script.options.allows c = true → P c
  pre : ∀ entry ∈ script.pre.entries, ∀ c ∈ entry.2, P c
  post : ∀ entry ∈ script.post.entries, ∀ c ∈ entry.2, P c
  farewells : ∀ text ∈ script.farewells, Shows P text
  prompts : ∀ text ∈ script.prompts, Shows P text
  evasions : ∀ text ∈ script.evasions, Shows P text
  fallback : Shows P script.options.fallbackReply.toList
  templates : ∀ keyword ∈ script.keywords, ∀ rule ∈ keyword.rules, ∀ template ∈ rule.replies,
    script.redirect? template = none →
      Shows P (Reply.ownText script.options.paramMarkerPre.toList
        script.options.paramMarkerPost.toList template)

namespace Script.Words

variable {script : Script}

/-- Everything that may be said is in the words of the script. -/
theorem shows (h : script.Words P) {text : Text} (hsaying : script.Saying text) :
    Shows P text := by
  cases hsaying with
  | farewell mem => exact h.farewells text mem
  | prompt mem => exact h.prompts text mem
  | evasion mem => exact h.evasions text mem
  | fallback => exact h.fallback
  | made hpart hmakes =>
    obtain ⟨keyword, hkeyword, rule, hrule, template, htemplate, captures, hcaptures, hredirect,
      rfl⟩ := hmakes
    have hown := h.templates keyword hkeyword rule hrule template htemplate hredirect
    have hplain := Options.plain_of_mem_parts hpart
    have hchars := Substitution.forall_mem_apply h.pre
      fun c hc ↦ h.allowed c (hplain.allowed c hc)
    exact Reply.shows_fill hown h.post (Pattern.forall_mem_capture? hcaptures hchars)

end Script.Words

namespace Session

variable {script : Script}

/-- **A conversation keeps to the words of its script.** Whatever was said before, an input is
answered, and in front of the small letters the answer has no characters but `P` and the space. -/
theorem words_transform (h : script.Words P) (hfarewells : script.farewells ≠ [])
    (factory : Factory) (before : List Action) (input : Text) :
    let reply := (((start script factory).run script before).2.state.transform script input).1
    reply ≠ [] ∧ ∀ c ∈ reply, c.toNat < 97 → c ≠ ' ' → P c := by
  have hshows := h.shows (saying_reply hfarewells factory before input)
  refine ⟨mt State.transform_eq_nil_iff.1 hshows.solid, fun c hc hlow hspace ↦ ?_⟩
  have hc := (Text.mem_contract hc).resolve_left hspace
  refine hshows.chars c ?_
  split at hc
  · exact Text.mem_of_mem_lowercase hc hlow
  · exact hc

end Session

end Dialogue
