import Dialogue.Proofs.Conversation.Redirects
import Dialogue.Proofs.Script.Declared
import Dialogue.Proofs.Script.Ranking
import Dialogue.Proofs.Script.Wording

/-!
# Scripts with hubs

Redirects may lead in circles, and a redirect to a keyword that the script lacks is said aloud. In
a well-made script neither happens. Some keywords are its *hubs*: a reply is either said or hands
over to a hub, and a hub hands over to nobody.

Whether a script is of this kind is seen from the declarations of its keywords, text by text
(`Script.hubs_of_arranged`). Then at most one redirect is followed, consulting a keyword never
fails, and a reply that is said shows what its template shows.
-/

namespace Dialogue

open Text (contract Shows)

variable {P : Char → Prop}

/-! ## One redirect at most -/

namespace Script

variable {script : Script} {part : Text} {k l : Nat} {s t : State} {ks : List Nat}

/-- A keyword to which another one redirects does not redirect. -/
def Shallow (script : Script) : Prop :=
  ∀ k l m, script.RedirectsTo k l → ¬ script.RedirectsTo l m

theorem Shallow.length_path_le (h : script.Shallow) {path : List Nat}
    (hpath : path.IsChain script.RedirectsTo) : path.length ≤ 2 := by
  rcases path with _ | ⟨k, _ | ⟨l, _ | ⟨m, path⟩⟩⟩
  · exact Nat.zero_le _
  · exact Nat.le_succ 1
  · exact Nat.le_refl _
  · obtain ⟨hfirst, hrest⟩ := List.isChain_cons_cons.1 hpath
    exact absurd (List.isChain_cons_cons.1 hrest).1 (h k l m hfirst)

theorem Shallow.length_trail_le (h : script.Shallow) (htrail : script.Trail part k s ks l t) :
    ks.length ≤ 2 := by
  rcases htrail with _ | ⟨first, _ | ⟨second, _⟩⟩
  · exact Nat.le_succ 1
  · exact Nat.le_refl _
  · exact absurd (redirectsTo_of_visit second) (h _ _ _ (redirectsTo_of_visit first))

/-- If one redirect may be followed, consulting a keyword does not fail. -/
theorem Shallow.exists_consult (h : script.Shallow) (hlimit : 0 < script.options.maxRedirectDepth)
    (part : Text) (k : Nat) (s : State) : ∃ reply t, script.consult k part s = (.ok reply, t) := by
  refine exists_consult_eq_ok fun path hpath ↦ ?_
  have := h.length_path_le hpath
  omega

end Script

/-! ## Hubs -/

/-- A reply of the keyword `key` either is said and then shows `P`, or it hands over to a hub and
the keyword is none. -/
def Options.Fits (o : Options) (hubs : List Text) (P : Char → Prop) (key template : Text) : Prop :=
  (Reply.target? o.gotoMarker.toList template = none ∧
    Shows P (Reply.ownText o.paramMarkerPre.toList o.paramMarkerPost.toList template)) ∨
  ((∃ hub ∈ hubs, Reply.target? o.gotoMarker.toList template = some hub) ∧ key ∉ hubs)

instance [DecidablePred P] (o : Options) (hubs : List Text) (key template : Text) :
    Decidable (o.Fits hubs P key template) :=
  inferInstanceAs (Decidable (_ ∨ _))

/-- The script has the hubs, and all replies of its keywords fit. -/
structure Script.Hubs (script : Script) (hubs : List Text) (P : Char → Prop) : Prop where
  present : ∀ hub ∈ hubs, ∃ keyword ∈ script.keywords, keyword.key = hub
  fits : ∀ keyword ∈ script.keywords, ∀ rule ∈ keyword.rules, ∀ template ∈ rule.replies,
    script.options.Fits hubs P keyword.key template

namespace Script.Hubs

variable {script : Script} {hubs : List Text}

/-- Where a keyword redirects, it is no hub and the other one is. -/
theorem key_of_redirectsTo (h : script.Hubs hubs P) {k l : Nat} (hkl : script.RedirectsTo k l) :
    ∃ keyword other, script.keywords[k]? = some keyword ∧ script.keywords[l]? = some other ∧
      keyword.key ∉ hubs ∧ other.key ∈ hubs := by
  obtain ⟨keyword, hk, rule, hrule, template, htemplate, name, hredirect⟩ := hkl
  obtain ⟨target, htarget, hplace⟩ := Option.bind_eq_some_iff.1 hredirect
  obtain ⟨place, hindex, hplace⟩ := Option.bind_eq_some_iff.1 hplace
  obtain ⟨rfl, rfl⟩ : target = name ∧ place = l := by simpa using hplace
  obtain ⟨other, hl, rfl⟩ := key_of_keywordIndex? hindex
  rcases h.fits keyword (List.mem_of_getElem? hk) rule hrule template htemplate with
    ⟨hnone, -⟩ | ⟨⟨hub, hhub, hsome⟩, hkey⟩
  · rw [hnone] at htarget
    cases htarget
  · rw [htarget] at hsome
    exact ⟨keyword, other, hk, hl, hkey, Option.some.inj hsome ▸ hhub⟩

theorem shallow (h : script.Hubs hubs P) : script.Shallow := by
  intro k l m hkl hlm
  obtain ⟨-, other, -, hl, -, hhub⟩ := h.key_of_redirectsTo hkl
  obtain ⟨keyword, -, hl', -, hnone, -⟩ := h.key_of_redirectsTo hlm
  obtain rfl : other = keyword := Option.some.inj (hl.symm.trans hl')
  exact hnone hhub

/-- A reply that does not redirect is said. -/
theorem shows (h : script.Hubs hubs P) {keyword : Keyword} (hkeyword : keyword ∈ script.keywords)
    {rule : Rule} (hrule : rule ∈ keyword.rules) {template : Text}
    (htemplate : template ∈ rule.replies) (hredirect : script.redirect? template = none) :
    Shows P (Reply.ownText script.options.paramMarkerPre.toList
      script.options.paramMarkerPost.toList template) := by
  rcases h.fits keyword hkeyword rule hrule template htemplate with
    ⟨-, hshows⟩ | ⟨⟨hub, hhub, htarget⟩, -⟩
  · exact hshows
  · obtain ⟨other, hother, rfl⟩ := h.present hub hhub
    obtain ⟨place, hplace⟩ := exists_keywordIndex? hother
    have hsome : script.redirect? template = some (other.key, place) := by
      rw [redirect?, htarget, Option.bind_eq_bind, Option.bind_some, hplace]
      rfl
    rw [hsome] at hredirect
    cases hredirect

end Script.Hubs

/-! ## Declarations -/

namespace Json

/-- The replies that the body of a keyword declares. -/
def bodyTexts : Json → List String
  | .object rules => rules.flatMap fun rule ↦ rule.2.texts
  | body => body.texts

end Json

theorem Script.exists_of_mem_texts {field : String} {value : Json} {list : List Text}
    (h : Script.texts field value = .ok list) {t : Text} (ht : t ∈ list) :
    ∃ s ∈ value.texts, t = s.toList := by
  rw [texts_eq h] at ht
  obtain ⟨s, hs, rfl⟩ := List.mem_map.1 ht
  exact ⟨s, hs, rfl⟩

namespace Keyword

variable {library : Library} {options : Options} {tags : Tags} {name : String} {body : Json}
  {position : Nat} {k : Keyword}

theorem exists_of_mem_toRules {wildcard : Text} {rules : Body}
    (h : Body.ofJson name body = .ok rules) {rule : Text × List Text}
    (hrule : rule ∈ rules.toRules wildcard) {t : Text} (ht : t ∈ rule.2) :
    ∃ s ∈ body.bodyTexts, t = s.toList := by
  rcases body
  case string s =>
    obtain rfl := Except.ok.inj h
    obtain rfl := List.mem_singleton.1 hrule
    exact ⟨s, List.mem_singleton_self s, List.mem_singleton.1 ht⟩
  case array items =>
    obtain ⟨list, hlist, hrules⟩ := Reader.bind_eq_ok_iff.1 h
    obtain rfl := Except.ok.inj hrules
    obtain rfl := List.mem_singleton.1 hrule
    exact Script.exists_of_mem_texts hlist ht
  case object declared =>
    obtain ⟨list, hlist, hrules⟩ := Reader.bind_eq_ok_iff.1 h
    obtain rfl := Except.ok.inj hrules
    obtain ⟨⟨decomposition, value⟩, hvalue, hread⟩ := Reader.exists_of_mem_mapM hlist hrule
    suffices htext : ∃ s ∈ value.texts, t = s.toList by
      obtain ⟨s, hs, hts⟩ := htext
      exact ⟨s, List.mem_flatMap.2 ⟨_, hvalue, hs⟩, hts⟩
    rcases value
    case string s =>
      obtain rfl := Except.ok.inj hread
      exact ⟨s, List.mem_singleton_self s, List.mem_singleton.1 ht⟩
    case array items =>
      obtain ⟨texts, htexts, hpair⟩ := Reader.bind_eq_ok_iff.1 hread
      obtain rfl := Except.ok.inj hpair
      exact Script.exists_of_mem_texts htexts ht
    all_goals cases hread
  all_goals cases h

/-- A compiled keyword has the declared key, and its replies are declared. -/
theorem declared_of_compile (h : compile library options tags name body position = .ok k) :
    k.key = declaredKey options name ∧
      ∀ rule ∈ k.rules, ∀ template ∈ rule.replies, ∃ s ∈ body.bodyTexts,
        template = contract s.toList := by
  replace h := declare_of_compile h
  simp only [declare] at h
  split at h
  · cases h
  · obtain ⟨rules, hrules, h⟩ := Reader.bind_eq_ok_iff.1 h
    obtain rfl := Except.ok.inj h
    refine ⟨rfl, fun rule hrule template htemplate ↦ ?_⟩
    obtain ⟨declared, hdeclared, rfl⟩ := List.mem_map.1 hrule
    obtain ⟨t, ht, rfl⟩ := List.mem_map.1 htemplate
    obtain ⟨s, hs, rfl⟩ := exists_of_mem_toRules hrules hdeclared ht
    exact ⟨s, hs, rfl⟩

end Keyword

namespace Script

variable {library : Library} {script : Script} {options : Options} {declared : Members}
  {hubs : List Text}

/-- Every declaration has its keyword, at the position that it remembers. -/
theorem Arranged.exists_keyword {tags : Tags} {keywords : List Keyword}
    (h : Arranged library options tags declared keywords) {declaration : String × Json}
    (hdeclaration : declaration ∈ declared) : ∃ keyword ∈ keywords,
      Keyword.compile library options tags declaration.1 declaration.2 keyword.position =
        .ok keyword := by
  obtain ⟨position, hposition⟩ := List.mem_iff_getElem?.1 hdeclaration
  obtain ⟨keyword, hkeyword, hcompile⟩ := h.exists_keyword_at hposition
  refine ⟨keyword, hkeyword, ?_⟩
  rwa [(Keyword.compile_unplaced hcompile).2]

/-- **A script has hubs if its declarations say so.** -/
theorem hubs_of_arranged (h : Arranged library script.options script.tags declared script.keywords)
    (hpresent : ∀ hub ∈ hubs, ∃ declaration ∈ declared,
      Keyword.declaredKey script.options declaration.1 = hub)
    (hfits : ∀ declaration ∈ declared, ∀ s ∈ declaration.2.bodyTexts,
      script.options.Fits hubs P (Keyword.declaredKey script.options declaration.1)
        (contract s.toList)) :
    script.Hubs hubs P where
  present hub hhub := by
    obtain ⟨declaration, hdeclaration, rfl⟩ := hpresent hub hhub
    obtain ⟨keyword, hkeyword, hcompile⟩ := h.exists_keyword hdeclaration
    exact ⟨keyword, hkeyword, (Keyword.declared_of_compile hcompile).1⟩
  fits keyword hkeyword rule hrule template htemplate := by
    obtain ⟨declaration, hget, hcompile⟩ := h.compiled keyword hkeyword
    obtain ⟨hkey, hreplies⟩ := Keyword.declared_of_compile hcompile
    obtain ⟨s, hs, rfl⟩ := hreplies rule hrule template htemplate
    rw [hkey]
    exact hfits declaration (List.mem_of_getElem? hget) s hs

end Script

end Dialogue
