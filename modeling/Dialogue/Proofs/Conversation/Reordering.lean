import Dialogue.Conversation.Session
import Dialogue.Proofs.Script.Declared
import Dialogue.Proofs.Script.Ranking

/-!
# Conversations do not see where a keyword was declared

A keyword remembers its position among the declarations, but no conversation ever looks at it:
visits, turns and whole sessions run alike about a script and about the script without positions
(`Session.run_unplaced`).

So the order of declarations matters only as far as it decides in which order keywords are tried,
that is, between keywords of equal rank. The main statement, `Script.session_run_reordered`,
follows two documents that differ in the order of declarations of different rank from their
compilation to the last response of a session.
-/

namespace Dialogue

namespace Script

/-- The script with keywords that do not know where they were declared. -/
def unplaced (script : Script) : Script :=
  { script with keywords := script.keywords.map Keyword.unplaced }

variable (script : Script)

/-! ## Visits -/

theorem redirect?_unplaced (template : Text) :
    script.unplaced.redirect? template = script.redirect? template := by
  have hindex (key : Text) : script.unplaced.keywordIndex? key = script.keywordIndex? key := by
    rw [keywordIndex?, keywordIndex?, unplaced, List.findIdx?_map]
    rfl
  rw [redirect?, redirect?]
  simp only [hindex]
  rfl

theorem tryRules_unplaced (k i : Nat) (part : Text) (rules : List Rule) (s : State) :
    script.unplaced.tryRules k part i rules s = script.tryRules k part i rules s := by
  induction rules generalizing i s with
  | nil => rfl
  | cons rule rules ih =>
    have next : s.nextReply script.unplaced k i rule = s.nextReply script k i rule := rfl
    have fill (template : Text) (captures : List Text) :
        script.unplaced.fill template captures = script.fill template captures := rfl
    simp only [tryRules, next, redirect?_unplaced, fill, ih]

theorem visit_unplaced (k : Nat) (part : Text) (s : State) :
    script.unplaced.visit k part s = script.visit k part s := by
  rw [visit, visit, unplaced, List.getElem?_map]
  rcases script.keywords[k]? with _ | keyword
  · rfl
  · exact tryRules_unplaced script k 0 part keyword.rules s

theorem follow_unplaced (part : Text) (n k : Nat) (s : State) :
    script.unplaced.follow part n k s = script.follow part n k s := by
  induction n generalizing k s with
  | zero =>
    rw [follow, follow, visit_unplaced]
    rfl
  | succ n ih =>
    rw [follow, follow, visit_unplaced]
    simp only [ih]

theorem consult_unplaced (k : Nat) (part : Text) (s : State) :
    script.unplaced.consult k part s = script.consult k part s :=
  follow_unplaced script part script.options.maxRedirectDepth k s

/-! ## Turns -/

theorem answerPart_unplaced (part : Text) (place : Nat) (keywords : List Keyword) (s : State) :
    script.unplaced.answerPart part place (keywords.map Keyword.unplaced) s =
      script.answerPart part place keywords s := by
  induction keywords generalizing place s with
  | nil => rfl
  | cons keyword keywords ih =>
    have isIn : keyword.unplaced.isIn part = keyword.isIn part := rfl
    simp only [List.map_cons, answerPart, isIn, consult_unplaced, ih]

theorem answerParts_unplaced (parts : List Text) (s : State) :
    script.unplaced.answerParts parts s = script.answerParts parts s := by
  induction parts generalizing s with
  | nil => rfl
  | cons part parts ih =>
    have hpart : script.unplaced.answerPart (script.unplaced.pre.apply part) 0
        script.unplaced.keywords s =
          script.answerPart (script.pre.apply part) 0 script.keywords s :=
      answerPart_unplaced script _ 0 script.keywords s
    have quitParts : script.unplaced.quitParts = script.quitParts := rfl
    simp only [answerParts, quitParts, hpart, ih]

end Script

namespace State

variable (script : Script) (s : State)

theorem replyToParts_unplaced (parts : List Text) :
    s.replyToParts script.unplaced parts = s.replyToParts script parts := by
  rw [replyToParts, replyToParts, Script.answerParts_unplaced]
  rfl

theorem reply_unplaced (input : Text) : s.reply script.unplaced input = s.reply script input := by
  rw [reply, reply]
  simp only [replyToParts_unplaced]
  rfl

theorem transform_unplaced (input : Text) :
    s.transform script.unplaced input = s.transform script input := by
  rw [transform, transform, reply_unplaced]
  rfl

theorem act_unplaced (action : Action) : s.act script.unplaced action = s.act script action := by
  rcases action with input | input | _ | _ | _
  · rw [act, act, transform_unplaced]
  · rcases input <;> simp only [act, transformJson, transform_unplaced]
  all_goals rfl

theorem start_unplaced (source : Source) : start script.unplaced source = start script source := by
  rw [start, start, Script.unplaced, List.map_map]
  rfl

end State

/-! ## Sessions -/

namespace Session

variable (script : Script)

theorem act_unplaced (session : Session) (action : Action) :
    session.act script.unplaced action = session.act script action := by
  rcases action with _ | _ | _ | _ | _
  case reset => rfl
  all_goals rw [act, act, State.act_unplaced] <;> exact nofun

theorem run_unplaced (session : Session) (actions : List Action) :
    session.run script.unplaced actions = session.run script actions := by
  induction actions generalizing session with
  | nil => rfl
  | cons action actions ih => simp only [run, act_unplaced, ih]

theorem start_unplaced (factory : Factory) :
    start script.unplaced factory = start script factory := by
  rw [start, start, State.start_unplaced]
  rfl

end Session

/-! ## Documents -/

theorem Members.put_put (members : Members) (name : String) (value value' : Json) :
    (members.put name value).put name value' = members.put name value' := by
  induction members with
  | nil => simp [put]
  | cons member members ih =>
    by_cases h : member.1 = name
    · simp [put, h]
    · simp [put, h, ih]

namespace Script

variable {library : Library} {options merged : Options} {members declared declared' : Members}
  {script script' : Script}

/-- The script that some members declare, as if they declared no keyword. -/
def readUnkeyed (library : Library) (options : Options) (members : Members) :
    Except Defect Script :=
  ofMembers library options (members.put "keywords" (.object []))

theorem readKeywords_put_nil (tags : Tags) :
    readKeywords library options tags (members.put "keywords" (.object [])) = .ok [] :=
  (readKeywords_eq_ok_iff (by rw [Members.get?_put, if_pos rfl])).2 ⟨[], .nil, List.mergeSort_nil⟩

/-- A script is read from the rest of its document and from its keywords. -/
theorem ofMembers_eq_ok_iff :
    ofMembers library options members = .ok script ↔
      ∃ base keywords, readUnkeyed library options members = .ok base ∧
        readKeywords library options base.tags members = .ok keywords ∧
        { base with keywords } = script := by
  simp only [readUnkeyed, ofMembers, requiredTexts, optionalTexts, readTable, required, readTags,
    Members.get?_put, String.reduceEq, reduceIte, readKeywords_put_nil, Reader.bind_eq_ok_iff]
  -- on both sides the other fields are read alike, and the expressions of the options are built
  constructor
  · rintro ⟨g, hg, f, hf, q, hq, e, he, qp, hqp, p, hp, pre, hpre, post, hpost, tags, htags, ks,
      hks, u, hbuild, h⟩
    exact ⟨_, ks, ⟨g, hg, f, hf, q, hq, e, he, qp, hqp, p, hp, pre, hpre, post, hpost, tags, htags,
      [], rfl, u, hbuild, rfl⟩, hks, Except.ok.inj h⟩
  · rintro ⟨base, ks, ⟨g, hg, f, hf, q, hq, e, he, qp, hqp, p, hp, pre, hpre, post, hpost, tags,
      htags, _, -, u, hbuild, hbase⟩, hks, rfl⟩
    obtain rfl := Except.ok.inj hbase
    exact ⟨g, hg, f, hf, q, hq, e, he, qp, hqp, p, hp, pre, hpre, post, hpost, tags, htags, ks, hks,
      u, hbuild, rfl⟩

theorem options_of_readUnkeyed (h : readUnkeyed library options members = .ok script) :
    script.options = options := by
  simp only [readUnkeyed, ofMembers, Reader.bind_eq_ok_iff] at h
  obtain ⟨_, -, _, -, _, -, _, -, _, -, _, -, _, -, _, -, _, -, _, -, _, -, h⟩ := h
  rw [← Except.ok.inj h]

/-- Without its keywords a document is read alike by every library that builds its expressions. -/
theorem readUnkeyed_boundless (h : readUnkeyed library options members = .ok script) :
    readUnkeyed .boundless options members = .ok script := by
  simp only [readUnkeyed, ofMembers, readKeywords_put_nil, Reader.bind_eq_ok_iff] at h ⊢
  obtain ⟨g, hg, f, hf, q, hq, e, he, qp, hqp, p, hp, pre, hpre, post, hpost, tags, htags, ks, hks,
    _, -, h⟩ := h
  exact ⟨g, hg, f, hf, q, hq, e, he, qp, hqp, p, hp, pre, readTable_boundless hpre, post,
    readTable_boundless hpost, tags, htags, ks, hks, (), Library.build_boundless, h⟩

/-- A script is compiled from the rest of its document and then its keywords. -/
theorem compile_eq_ok_iff :
    compile library (.object members) options = .ok script ↔
      ∃ merged base keywords, mergedOptions options members = .ok merged ∧
        readUnkeyed library merged members = .ok base ∧
        readKeywords library merged base.tags members = .ok keywords ∧
        { base with keywords } = script := by
  simp only [compile, Reader.bind_eq_ok_iff, Reader.mapError_eq_ok_iff, ofMembers_eq_ok_iff]
  constructor
  · rintro ⟨merged, hmerged, base, keywords, hbase, hkeywords, rfl⟩
    exact ⟨merged, base, keywords, hmerged, hbase, hkeywords, rfl⟩
  · rintro ⟨merged, base, keywords, hmerged, hbase, hkeywords, rfl⟩
    exact ⟨merged, hmerged, base, keywords, hbase, hkeywords, rfl⟩

/-- The keywords of a compiled script are those that its document declares. -/
theorem arranged_of_compile {document : Json} (h : compile library document options = .ok script) :
    ∃ members declared : Members, document = .object members ∧
      members.get? "keywords" = some (.object declared) ∧
      Arranged library script.options script.tags declared script.keywords := by
  rcases document
  case object members =>
    obtain ⟨merged, base, keywords, -, hbase, hkeywords, rfl⟩ := compile_eq_ok_iff.1 h
    obtain ⟨declared, hdeclared⟩ : ∃ declared : Members,
        Members.get? members "keywords" = some (.object declared) := by
      obtain ⟨value, hvalue, hkeywords⟩ := Reader.bind_eq_ok_iff.1 hkeywords
      obtain ⟨declared, hobject, -⟩ := Reader.bind_eq_ok_iff.1 hkeywords
      rw [eq_object_of_members hobject] at hvalue
      exact ⟨declared, get?_of_required hvalue⟩
    obtain rfl := options_of_readUnkeyed hbase
    exact ⟨members, declared, rfl, hdeclared, arranged_of_readKeywords hdeclared hkeywords⟩
  all_goals cases h

/-- The rest of a document does not depend on which keywords it declares. -/
theorem readUnkeyed_put (options : Options) (members declared : Members) :
    readUnkeyed library options (members.put "keywords" (.object declared)) =
      readUnkeyed library options members := by
  rw [readUnkeyed, Members.put_put, readUnkeyed]

theorem mergedOptions_put (options : Options) (members declared : Members) :
    mergedOptions options (members.put "keywords" (.object declared)) =
      mergedOptions options members := by
  rw [mergedOptions, Members.get?_put, if_neg (by decide), mergedOptions]

/-- Documents that declare different keywords, and nothing else that is different, compile to
scripts with different keywords. -/
theorem readKeywords_of_compile_put (h : compile library (.object members) options = .ok script)
    (h' : compile library (.object (members.put "keywords" (.object declared))) options =
      .ok script') :
    readKeywords library script.options script.tags members = .ok script.keywords ∧
      readKeywords library script.options script.tags (members.put "keywords" (.object declared)) =
        .ok script'.keywords ∧
      script' = { script with keywords := script'.keywords } := by
  obtain ⟨merged, base, keywords, hmerged, hbase, hkeywords, rfl⟩ := compile_eq_ok_iff.1 h
  obtain ⟨merged', base', keywords', hmerged', hbase', hkeywords', rfl⟩ := compile_eq_ok_iff.1 h'
  rw [mergedOptions_put, hmerged] at hmerged'
  obtain rfl : merged = merged' := Except.ok.inj hmerged'
  rw [readUnkeyed_put, hbase] at hbase'
  obtain rfl : base = base' := Except.ok.inj hbase'
  obtain rfl : base.options = merged := options_of_readUnkeyed hbase
  exact ⟨hkeywords, hkeywords', rfl⟩

/-- Sessions about scripts that differ in the positions of their keywords only. -/
theorem run_eq_of_unplaced_eq (h : script.unplaced = script'.unplaced) (factory : Factory)
    (actions : List Action) :
    (Session.start script factory).run script actions =
      (Session.start script' factory).run script' actions := by
  rw [← Session.run_unplaced, ← Session.start_unplaced, h, Session.run_unplaced,
    Session.start_unplaced]

/-- **The order of declarations matters only between keywords of equal rank.** Let a document
declare its keywords in another order, but those of each rank in the same one. Then it can be
compiled if it could before. The keywords are the one arrangement of the declarations by rank and
position, and but for the positions they are the same in both scripts. So redirects reach the same
keywords, and whatever the random numbers and the actions, nothing that one sees of a session is
different. -/
theorem session_run_reordered (library : Library) (options : Options)
    (members declared declared' : Members)
    (hdeclared : members.get? "keywords" = some (.object declared))
    (hreordered : Reordered declared declared') :
    ((∃ script, compile library (.object members) options = .ok script) ↔
      ∃ script', compile library (.object (members.put "keywords" (.object declared'))) options =
        .ok script') ∧
    ∀ script script', compile library (.object members) options = .ok script →
      compile library (.object (members.put "keywords" (.object declared'))) options =
          .ok script' →
        (∀ keywords, Arranged library script.options script.tags declared keywords ↔
          keywords = script.keywords) ∧
        script.keywords.map Keyword.unplaced = script'.keywords.map Keyword.unplaced ∧
        (∀ template, script.redirect? template = script'.redirect? template) ∧
        ∀ factory actions, ((Session.start script factory).run script actions).1 =
          ((Session.start script' factory).run script' actions).1 := by
  have hdeclared' : (members.put "keywords" (.object declared')).get? "keywords" =
      some (.object declared') := by
    rw [Members.get?_put, if_pos rfl]
  constructor
  · simp only [compile_eq_ok_iff, mergedOptions_put, readUnkeyed_put]
    have hread (merged : Options) (tags : Tags) :
        (∃ keywords, readKeywords library merged tags members = .ok keywords) ↔
          ∃ keywords', readKeywords library merged tags
            (members.put "keywords" (.object declared')) = .ok keywords' :=
      (readKeywords_of_reordered hdeclared hdeclared' hreordered).1
    constructor
    · rintro ⟨_, merged, base, keywords, hmerged, hbase, hkeywords, -⟩
      obtain ⟨keywords', hkeywords'⟩ := (hread _ _).1 ⟨keywords, hkeywords⟩
      exact ⟨_, merged, base, keywords', hmerged, hbase, hkeywords', rfl⟩
    · rintro ⟨_, merged, base, keywords', hmerged, hbase, hkeywords', -⟩
      obtain ⟨keywords, hkeywords⟩ := (hread _ _).2 ⟨keywords', hkeywords'⟩
      exact ⟨_, merged, base, keywords, hmerged, hbase, hkeywords, rfl⟩
  · intro script script' hscript hscript'
    obtain ⟨merged, base, keywords, hmerged, hbase, hkeywords, rfl⟩ := compile_eq_ok_iff.1 hscript
    obtain ⟨merged', base', keywords', hmerged', hbase', hkeywords', rfl⟩ :=
      compile_eq_ok_iff.1 hscript'
    -- both documents have the same options, and but for the keywords the same script
    rw [mergedOptions_put, hmerged] at hmerged'
    obtain rfl : merged = merged' := Except.ok.inj hmerged'
    rw [readUnkeyed_put, hbase] at hbase'
    obtain rfl : base = base' := Except.ok.inj hbase'
    have hunplaced : keywords.map Keyword.unplaced = keywords'.map Keyword.unplaced :=
      (readKeywords_of_reordered hdeclared hdeclared' hreordered).2 _ _ hkeywords hkeywords'
    have hscripts : ({ base with keywords } : Script).unplaced =
        ({ base with keywords := keywords' } : Script).unplaced := by
      rw [unplaced, unplaced, hunplaced]
    have harranged : Arranged library base.options base.tags declared keywords := by
      rw [options_of_readUnkeyed hbase]
      exact arranged_of_readKeywords hdeclared hkeywords
    refine ⟨fun ks ↦ ⟨fun h ↦ h.eq harranged, fun h ↦ h ▸ harranged⟩, hunplaced, ?_, ?_⟩
    · intro template
      rw [← redirect?_unplaced, hscripts, redirect?_unplaced]
    · intro factory actions
      rw [run_eq_of_unplaced_eq hscripts]

/-- Of three keywords, the one of rank 1 may be declared last as well as first. -/
theorem session_run_rank_last :
    let first := ofKeywords [("b 1", .string "=c"), ("a", .string "x"), ("c", .string "y")]
    let last := first.put "keywords"
      (.object [("a", .string "x"), ("c", .string "y"), ("b 1", .string "=c")])
    ∃ script script', compile .boundless (.object first) {} = .ok script ∧
      compile .boundless (.object last) {} = .ok script' ∧
      ∀ factory actions, ((Session.start script factory).run script actions).1 =
        ((Session.start script' factory).run script' actions).1 := by
  intro first last
  have hreordered : Reordered [("b 1", .string "=c"), ("a", .string "x"), ("c", .string "y")]
      [("a", .string "x"), ("c", .string "y"), ("b 1", .string "=c")] := by
    have ha : Keyword.declaredRank "a" = 0 := by decide +kernel
    have hb : Keyword.declaredRank "b 1" = 1 := by decide +kernel
    have hc : Keyword.declaredRank "c" = 0 := by decide +kernel
    intro rank
    by_cases h : rank = 1
    · simp [ha, hb, hc, h]
    · simp [List.filter_cons, hb, Ne.symm h]
  obtain ⟨hiff, hsame⟩ := session_run_reordered .boundless {} first _ _ rfl hreordered
  obtain ⟨script, hscript⟩ : ∃ script, compile .boundless (.object first) {} = .ok script :=
    ⟨_, rfl⟩
  obtain ⟨script', hscript'⟩ := hiff.1 ⟨script, hscript⟩
  exact ⟨script, script', hscript, hscript', (hsame script script' hscript hscript').2.2.2⟩

end Script

end Dialogue
