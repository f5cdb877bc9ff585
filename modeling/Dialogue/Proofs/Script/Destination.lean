import Dialogue.Proofs.Conversation.Reordering
import Dialogue.Proofs.Script.Hubs
import Dialogue.Proofs.Script.Keyword

/-!
# Where redirects lead

A redirect finds its keyword by a name that is cut out of a reply: what stands behind the goto
marker and the white space that follows it. A keyword has its key from a declaration, without rank
and memory marker. The two meet because a key is tidy: it begins with no white space, so nothing of
it is lost behind the marker, whatever the marker is and even if the key begins like it.

Of several declarations with one key, a redirect leads to the keyword that is tried first
(`Script.Arranged.foremost`). The main statement, `Script.redirects_reach_their_keyword`, puts the
two together.
-/

namespace Dialogue

open Text (SameFold Tidy contract trimStart)

/-! ## Names behind the goto marker -/

namespace Reply

variable {marker template name key : Text}

/-- What stands behind a marker in any case. -/
theorem afterMarker?_eq_some_iff {rest : Text} : afterMarker? marker template = some rest ↔
    ∃ front, template = front ++ rest ∧ SameFold marker front := by
  induction marker generalizing template with
  | nil => simp [afterMarker?, Text.sameFold_nil_iff, eq_comm]
  | cons m marker ih =>
    rcases template with _ | ⟨c, template⟩
    · refine iff_of_false (by simp [afterMarker?]) ?_
      rintro ⟨front, hfront, hsame⟩
      obtain ⟨rfl, -⟩ := List.append_eq_nil_iff.1 hfront.symm
      cases hsame.length_eq
    · rw [afterMarker?, Option.ite_none_right_eq_some, Piece.sameFold_iff, ih]
      constructor
      · rintro ⟨hfold, front, rfl, hsame⟩
        exact ⟨c :: front, rfl, Text.sameFold_cons_iff.2 ⟨hfold, hsame⟩⟩
      · rintro ⟨front, hfront, hsame⟩
        rcases front with _ | ⟨d, front⟩
        · cases hsame.length_eq
        · obtain ⟨rfl, rfl⟩ := List.cons_eq_cons.1 hfront
          obtain ⟨hfold, hsame⟩ := Text.sameFold_cons_iff.1 hsame
          exact ⟨hfold, front, rfl, hsame⟩

/-- **A template is a redirect** if it begins with the marker, in any case, and has no line feed
behind it and the white space that follows. -/
theorem target?_eq_some_iff : target? marker template = some name ↔
    ∃ front rest, template = front ++ rest ∧ SameFold marker front ∧ name = trimStart rest ∧
      '\n' ∉ name := by
  rw [target?, Option.bind_eq_bind, Option.bind_eq_some_iff]
  simp only [afterMarker?_eq_some_iff, Option.ite_none_left_eq_some, Option.some.injEq,
    List.contains_iff_mem]
  constructor
  · rintro ⟨rest, ⟨front, rfl, hsame⟩, hline, rfl⟩
    exact ⟨front, rest, rfl, hsame, rfl, hline⟩
  · rintro ⟨front, rest, rfl, hsame, rfl, hline⟩
    exact ⟨rest, ⟨front, rfl, hsame⟩, hline, rfl⟩

/-- The name behind the marker is not shortened if it is tidy. -/
theorem target?_of_tidy (hkey : Tidy key)
    (h : template = marker ++ key ∨ template = marker ++ ' ' :: key) :
    target? marker template = some key := by
  have htrim : trimStart key = key := Text.trimStart_eq_self hkey.head
  rw [target?_eq_some_iff]
  rcases h with rfl | rfl
  · exact ⟨marker, key, rfl, rfl, htrim.symm, hkey.notMem_lineFeed⟩
  · refine ⟨marker, ' ' :: key, rfl, rfl, ?_, hkey.notMem_lineFeed⟩
    rw [trimStart, List.dropWhile_cons_of_pos rfl, ← trimStart, htrim]

end Reply

/-! ## Keywords with one key -/

namespace Script

variable {library : Library} {script : Script} {declared : Members} {key : Text} {place : Nat}

/-- What a declaration compiles to is one of the arranged keywords. -/
theorem Arranged.mem_of_compile {options : Options} {tags : Tags} {keywords : List Keyword}
    (h : Arranged library options tags declared keywords) {position : Nat}
    {declaration : String × Json} (hdeclaration : declared[position]? = some declaration)
    {k : Keyword} (hk : Keyword.compile library options tags declaration.1 declaration.2 position =
      .ok k) : k ∈ keywords := by
  obtain ⟨l, hl, hcompile⟩ := h.exists_keyword_at hdeclaration
  obtain rfl : k = l := Except.ok.inj (hk.symm.trans hcompile)
  exact hl

/-- Of all declarations with the key of the keyword, its own asks for the highest rank, and of those
that ask for it, it comes first. -/
structure Foremost (library : Library) (options : Options) (tags : Tags) (declared : Members)
    (keyword : Keyword) : Prop where
  compiled : ∃ declaration, declared[keyword.position]? = some declaration ∧
    Keyword.compile library options tags declaration.1 declaration.2 keyword.position = .ok keyword
  first (position : Nat) (declaration : String × Json) (other : Keyword) :
    declared[position]? = some declaration →
    Keyword.compile library options tags declaration.1 declaration.2 position = .ok other →
    other.key = keyword.key →
    other.rank < keyword.rank ∨ other.rank = keyword.rank ∧ keyword.position ≤ position

/-- **The keyword that is found by a key** is the foremost with that key. -/
theorem Arranged.foremost (h : Arranged library script.options script.tags declared script.keywords)
    (hplace : script.keywordIndex? key = some place) :
    ∃ keyword, script.keywords[place]? = some keyword ∧ keyword.key = key ∧
      Foremost library script.options script.tags declared keyword := by
  obtain ⟨hlt, hkey, hearlier⟩ := List.findIdx?_eq_some_iff_getElem.1 hplace
  refine ⟨_, List.getElem?_eq_getElem hlt, beq_iff_eq.1 hkey,
    h.compiled _ (List.getElem_mem hlt),
    fun position declaration other hdeclaration hother hsame ↦ ?_⟩
  obtain rfl : other.position = position := (Keyword.compile_unplaced hother).2
  obtain ⟨i, hi, rfl⟩ := List.mem_iff_getElem.1 (h.mem_of_compile hdeclaration hother)
  -- it stands behind the one that was found, or is it
  rcases Nat.lt_trichotomy i place with hip | rfl | hip
  · exact absurd (beq_iff_eq.2 (hsame.trans (beq_iff_eq.1 hkey))) (hearlier i hip)
  · exact .inr ⟨rfl, le_rfl⟩
  · have hsorted := List.pairwise_iff_getElem.1 h.sorted place i hlt hi hip
    omega

/-! ## Visits -/

/-- **Redirects reach their keyword.** However a keyword is declared, a reply that contracts to the
goto marker and the key of the keyword, with or without a space between them, is a redirect to
exactly that key. The keyword that answers is the foremost of those declared with this key, and it
is visited whenever a rule that fits has the redirect as its next reply. -/
theorem redirects_reach_their_keyword (library : Library) (document : Json) (options : Options)
    (script : Script) (h : compile library document options = .ok script) :
    let marker := script.options.gotoMarker.toList
    ∃ members declared : Members, document = .object members ∧
      members.get? "keywords" = some (.object declared) ∧
      ∀ (position : Nat) (declaration : String × Json),
        declared[position]? = some declaration →
        ∃ keyword ∈ script.keywords,
          Keyword.compile library script.options script.tags declaration.1 declaration.2 position =
            .ok keyword ∧
          ∀ template : Text, (contract template = marker ++ keyword.key ∨
              contract template = marker ++ ' ' :: keyword.key) →
            Reply.target? marker (contract template) = some keyword.key ∧
            ∃ place entered, script.redirect? (contract template) = some (keyword.key, place) ∧
              script.keywords[place]? = some entered ∧ entered.key = keyword.key ∧
              Foremost library script.options script.tags declared entered ∧
              ∀ (k i : Nat) (part : Text) (captures : List Text) (rule : Rule) (rules : List Rule)
                (s t : State), rule.decompose part = some captures →
                s.nextReply script k i rule = (some (contract template), t) →
                script.tryRules k part i (rule :: rules) s = (.redirect keyword.key place, t) := by
  intro marker
  obtain ⟨members, declared, rfl, hdeclared, harranged⟩ := arranged_of_compile h
  refine ⟨members, declared, rfl, hdeclared, fun position declaration hdeclaration ↦ ?_⟩
  obtain ⟨keyword, hkeyword, hcompile⟩ := harranged.exists_keyword_at hdeclaration
  refine ⟨keyword, hkeyword, hcompile, fun template htemplate ↦ ?_⟩
  have htarget : Reply.target? marker (contract template) = some keyword.key :=
    Reply.target?_of_tidy (Keyword.compiled_of_compile hcompile).tidy htemplate
  obtain ⟨place, hplace⟩ := exists_keywordIndex? hkeyword
  have hredirect : script.redirect? (contract template) = some (keyword.key, place) := by
    rw [redirect?, htarget, Option.bind_eq_bind, Option.bind_some, hplace]
    rfl
  obtain ⟨entered, hentered, hkey, hforemost⟩ := harranged.foremost hplace
  exact ⟨htarget, place, entered, hredirect, hentered, hkey, hforemost,
    fun _ _ _ _ _ _ _ _ hfits hnext ↦ tryRules_of_redirect hfits hnext hredirect⟩

/-- The marker may be two words, one of them in brackets. Of two declarations of one key the
redirect leads to the one of rank 7, and a visit goes there. -/
theorem two_words_lead_to_the_higher_rank :
    let declared : Members := [("x", .string " go   (to)  what "), ("what", .string "a"),
      (" @  what   7 ", .string "b")]
    let template := " go   (to)  what ".toList
    ∃ script,
      compile .boundless (.object (ofKeywords declared)) { gotoMarker := "go (to)" } =
        .ok script ∧
      contract template = "go (to)".toList ++ ' ' :: "what".toList ∧
      ∃ place entered, script.redirect? (contract template) = some ("what".toList, place) ∧
        script.keywords[place]? = some entered ∧ entered.key = "what".toList ∧
        7 ≤ entered.rank ∧
        ∃ t, script.visit 1 "x".toList (.start script fun _ ↦ 0.0) =
          (.redirect "what".toList place, t) := by
  intro declared template
  let rule (memorized : Bool) (reply : Text) : Rule :=
    ⟨"*".toList, [.textStart, .wildcard, .textEnd], [reply], memorized⟩
  let asking : Keyword :=
    ⟨"x".toList, 0, false, [rule false (contract template)], 0, .wholeWord "x".toList⟩
  let plain : Keyword :=
    ⟨"what".toList, 0, false, [rule false "a".toList], 1, .wholeWord "what".toList⟩
  let ranked : Keyword :=
    ⟨"what".toList, 7, true, [rule true "b".toList], 2, .wholeWord "what".toList⟩
  have hsort : [asking, plain, ranked].mergeSort Keyword.precedes = [ranked, asking, plain] := by
    have hasking : asking.precedes plain = true := by decide
    have hranked : asking.precedes ranked = false := by decide
    simp [List.mergeSort, hasking, hranked]
  obtain ⟨script, hscript, hoptions, htags, hkeywords⟩ :
      ∃ script,
        compile .boundless (.object (ofKeywords declared)) { gotoMarker := "go (to)" } =
          .ok script ∧
        script.options = { gotoMarker := "go (to)" } ∧ script.tags = [] ∧
        script.keywords = [asking, plain, ranked].mergeSort Keyword.precedes := by
    refine ⟨_, rfl, rfl, rfl, congrArg (List.mergeSort · Keyword.precedes) ?_⟩
    decide +kernel
  rw [hsort] at hkeywords
  have hcontract : contract template = "go (to)".toList ++ ' ' :: "what".toList := by
    decide +kernel
  obtain ⟨members, declared', hmembers, hdeclared, hreach⟩ :=
    redirects_reach_their_keyword _ _ _ script hscript
  obtain rfl := Json.object.inj hmembers
  obtain rfl : declared = declared' := Json.object.inj (Option.some.inj hdeclared)
  obtain ⟨keyword, -, hkeyword, htemplates⟩ := hreach 2 _ rfl
  have hcompile : Keyword.compile .boundless script.options script.tags " @  what   7 "
      (.string "b") 2 = .ok ranked := by
    rw [hoptions, htags]
    decide +kernel
  obtain rfl : ranked = keyword := Except.ok.inj (hcompile.symm.trans hkeyword)
  obtain ⟨-, place, entered, hredirect, hentered, hsame, hforemost, hvisit⟩ :=
    htemplates template (.inr (by rw [hoptions]; exact hcontract))
  have hfirst := hforemost.first 2 _ ranked rfl hcompile hsame.symm
  have hrank : ranked.rank = 7 := rfl
  have hasking : script.keywords[1]? = some asking := by rw [hkeywords]; rfl
  have hfits : (rule false (contract template)).decompose "x".toList = some ["x".toList] := by
    decide +kernel
  have hnext : (State.nextReply script 1 0 (rule false (contract template))
      (.start script fun _ ↦ 0.0)).1 = some (contract template) := by
    rw [State.nextReply, State.start, hkeywords, hoptions]
    rfl
  have htry := hvisit 1 0 _ _ _ [] _ _ hfits (Prod.ext hnext rfl)
  have hvisit_eq : script.visit 1 "x".toList (.start script fun _ ↦ 0.0) =
      script.tryRules 1 "x".toList 0 asking.rules (.start script fun _ ↦ 0.0) := by
    rw [visit, hasking]
  exact ⟨script, hscript, hcontract, place, entered, hredirect, hentered, hsame, by omega, _,
    hvisit_eq.trans htry⟩

end Script

end Dialogue
