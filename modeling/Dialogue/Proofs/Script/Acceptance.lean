import Dialogue.Proofs.Script.Declared

/-!
# Which documents are scripts

A script is compiled by readers that stop at the first thing wrong, one for each field. Each of
them reports what the requirement of its field lists, so compiling reports what all requirements
list together (`Script.reports_ofMembers`). For this, what a reader has read must be what the
document declares, since the expressions that are built next are made of it.

The main statement is `Script.compile_accepts_exactly`: a document is compiled if it is well shaped
and the library builds every expression that it asks for, and otherwise the failure is the first
defect of the first requirement with a defect. So a document of the right shape can fail, but only
because an expression is refused.
-/

namespace Dialogue

open Reader (Reports)

/-! ## Readers of values -/

namespace Script

variable {field name : String} {value : Json} {members : Members}

theorem reports_texts : Reports (texts field value) (Defect.ofTexts field value) := by
  rcases value
  case array items =>
    refine Reports.mapM fun item _ ↦ ?_
    rcases item with ⟨_ | _ | _ | _ | _ | _, index⟩ <;> rfl
  all_goals exact Reports.error _

theorem reports_members (ofMember : String → Json → List Defect) {β : Type}
    (read : String × Json → Except Defect β)
    (h : ∀ name value, Reports (read (name, value)) (ofMember name value)) :
    Reports (Script.members field value >>= fun members ↦ members.mapM read)
      (Defect.ofObject field ofMember value) := by
  rcases value
  case object members => exact Reports.mapM fun member _ ↦ h member.1 member.2
  all_goals exact Reports.error _

theorem reports_textPairs :
    Reports (textPairs field value) (Defect.ofObject field (Defect.ofText field) value) := by
  refine reports_members _ _ fun name value ↦ ?_
  rcases value <;> rfl

end Script

namespace Keyword

variable {library : Library} {options : Options} {tags : Tags} {declared : String} {value : Json}
  {position : Nat}

theorem reports_ofJson : Reports (Body.ofJson declared value) (Defect.ofBody declared value) := by
  rcases value
  case string => exact Reports.ok _
  case array => exact Script.reports_texts.map _
  case object rules =>
    refine Reports.map (Reports.mapM fun rule _ ↦ ?_) _
    obtain ⟨decomposition, value⟩ := rule
    rcases value
    case string => exact Reports.ok _
    case array => exact Script.reports_texts.map _
    all_goals exact Reports.error _
  all_goals exact Reports.error _

theorem reports_declare :
    Reports (declare library options tags declared value position)
      (Defect.ofDeclaration options declared value) := by
  rw [declare, Defect.ofDeclaration, declaredKey]
  rcases parseName declared.toList with ⟨name, rank⟩
  dsimp only
  by_cases hkey : (afterMarker? options.memoryMarker.toList name).getD name = []
  · rw [if_pos hkey, if_pos (List.isEmpty_iff.2 hkey)]
    rfl
  · rw [if_neg hkey, if_neg (mt List.isEmpty_iff.1 hkey)]
    exact reports_ofJson.map _

theorem reports_compile :
    Reports (compile library options tags declared value position)
      (Defect.ofKeyword library options tags declared value) := by
  refine reports_declare.bind fun k hk ↦ ?_
  rw [← expressions_of_declare hk]
  exact Library.reports_build.map _

end Keyword

/-! ## Readers of fields -/

namespace Script

variable {library : Library} {options : Options} {field : String} {members : Members}

/-- Looking for a field and then at its value. -/
theorem reports_required {β : Type} {read : Json → Except Defect β} {defects : Json → List Defect}
    (h : ∀ value, Reports (read value) (defects value)) :
    Reports (required members field >>= read)
      (((members.get? field).map defects).getD [.missing field]) := by
  rw [Script.required]
  rcases members.get? field with _ | value
  · rfl
  · exact h value

theorem reports_requiredTexts :
    Reports (requiredTexts members field)
      ((Requirement.texts field).defects library options members) :=
  reports_required fun _ ↦ reports_texts

theorem reports_optionalTexts :
    Reports (optionalTexts members field)
      ((Requirement.optionalTexts field).defects library options members) := by
  rw [optionalTexts]
  simp only [Requirement.optionalTexts]
  rcases members.get? field with _ | value
  · exact Reports.ok _
  · exact reports_texts

theorem reports_readTable :
    Reports (readTable library members field)
      ((Requirement.table field).defects library options members) :=
  reports_required fun value ↦ reports_textPairs.bind fun pairs hpairs ↦ by
    rw [textPairs_eq hpairs, ← Substitution.expressions_eq]
    exact Library.reports_build.map _

theorem reports_readTags :
    Reports (readTags members) (Requirement.tags.defects library options members) :=
  reports_required fun _ ↦ reports_members _ _ fun _ _ ↦ reports_texts.map _

/-- Each keyword reports its own defects, so the positions do not matter. -/
theorem reports_readKeywords :
    Reports (readKeywords library options members.declaredTags members)
      (Requirement.keywords.defects library options members) := by
  refine reports_required fun value ↦ ?_
  rcases value
  case object declared =>
    have hdefects : Defect.ofKeywords library options members.declaredTags (.object declared) =
        declared.zipIdx.flatMap fun item ↦
          Defect.ofKeyword library options members.declaredTags item.1.1 item.1.2 := by
      rw [Defect.ofKeywords, Defect.ofObject]
      nth_rewrite 1 [← List.zipIdx_map_fst 0 declared]
      rw [List.flatMap_map]
    dsimp only
    rw [hdefects]
    exact (Reports.mapM fun item _ ↦ Keyword.reports_compile).map _
  all_goals exact Reports.error _

/-- **Reading a script reports what its requirements list.** -/
theorem reports_ofMembers :
    Reports (ofMembers library options members)
      (requirements.flatMap fun requirement ↦ requirement.defects library options members) := by
  simp only [requirements, List.flatMap_cons, List.flatMap_nil, List.append_nil]
  refine reports_requiredTexts.bind fun _ _ ↦ reports_requiredTexts.bind fun _ _ ↦
    reports_requiredTexts.bind fun _ _ ↦ reports_requiredTexts.bind fun _ _ ↦
    reports_optionalTexts.bind fun _ _ ↦ reports_optionalTexts.bind fun _ _ ↦
    reports_readTable.bind fun _ _ ↦ reports_readTable.bind fun _ _ ↦
    reports_readTags.bind fun tags htags ↦ ?_
  rw [readTags_eq htags]
  refine reports_readKeywords.bind fun _ _ ↦ ?_
  rw [optionExpressions_eq]
  exact Library.reports_build.map _

/-! ## Scripts -/

theorem mergedOptions_eq_ok_iff {merged : Options} :
    mergedOptions options members = .ok merged ↔ Merges options members merged := by
  rw [mergedOptions, Merges]
  split
  · rename_i overrides hoverrides
    rcases hmerge : options.merge? overrides with _ | o <;> simp [hoverrides, hmerge]
  · rename_i hother
    have hother (overrides : Members) : members.get? "options" ≠ some (.object overrides) :=
      hother overrides
    simp [hother, eq_comm]

/-- Options that do not merge fail in one way only. -/
theorem mergedOptions_eq_error_iff {failure : Failure} :
    mergedOptions options members = .error failure ↔
      (∀ merged, ¬ Merges options members merged) ∧ failure = .malformed := by
  simp only [← mergedOptions_eq_ok_iff]
  rw [mergedOptions]
  split
  · rename_i overrides hoverrides
    rcases options.merge? overrides with _ | o <;> simp [eq_comm]
  · simp

/-- The first defect of a document is the first one of the first requirement with a defect. -/
theorem head?_defects_eq_some_iff {list : List Requirement} {d : Defect} :
    (list.flatMap fun requirement ↦ requirement.defects library options members).head? = some d ↔
      ∃ before requirement after, list = before ++ requirement :: after ∧
        (∀ r ∈ before, r.Met options members ∧
          ∀ e ∈ r.expressions library options members, library.Builds e) ∧
        (requirement.defects library options members).head? = some d := by
  rw [List.head?_flatMap, List.findSome?_eq_some_iff]
  simp only [List.head?_eq_none_iff, Requirement.defects_eq_nil_iff]
  constructor
  · rintro ⟨before, requirement, after, hlist, hd, hbefore⟩
    exact ⟨before, requirement, after, hlist, hbefore, hd⟩
  · rintro ⟨before, requirement, after, hlist, hbefore, hd⟩
    exact ⟨before, requirement, after, hlist, hd, hbefore⟩

/-- Where all requirements are met, nothing fails but what the library refuses to build. -/
theorem map_failure_defects {list : List Requirement}
    (h : ∀ requirement ∈ list, requirement.Met options members) :
    (list.flatMap fun requirement ↦ requirement.defects library options members).map
        Defect.failure =
      (list.flatMap fun requirement ↦ requirement.expressions library options members).filterMap
        fun e ↦ (library.refusal? e).map .pattern := by
  rw [List.map_flatMap, List.filterMap_flatMap]
  refine List.flatMap_congr fun requirement hmem ↦ ?_
  rw [requirement.defects_of_met library options members (h requirement hmem), Library.refusals,
    List.map_filterMap]
  simp only [Option.map_map]
  rfl

theorem exists_compile_object_iff :
    (∃ script, compile library (.object members) options = .ok script) ↔
      ∃ merged, WellShaped options (.object members) members merged ∧
        ∀ e ∈ expressions library merged members, library.Builds e := by
  simp only [compile, Reader.bind_eq_ok_iff, Reader.mapError_eq_ok_iff, mergedOptions_eq_ok_iff]
  rw [exists_comm]
  refine exists_congr fun merged ↦ ?_
  rw [exists_and_left, reports_ofMembers.isOk_iff, List.flatMap_eq_nil_iff, expressions]
  simp only [Requirement.defects_eq_nil_iff, List.forall_mem_flatMap]
  constructor
  · rintro ⟨hmerges, hall⟩
    exact ⟨⟨rfl, hmerges, fun r hr ↦ (hall r hr).1⟩, fun r hr ↦ (hall r hr).2⟩
  · rintro ⟨⟨-, hmerges, hmet⟩, hbuilds⟩
    exact ⟨hmerges, fun r hr ↦ ⟨hmet r hr, hbuilds r hr⟩⟩

theorem compile_object_eq_error_iff {failure : Failure} :
    compile library (.object members) options = .error failure ↔
      (∀ merged, ¬ Merges options members merged) ∧ failure = .malformed ∨
      ∃ merged d, Merges options members merged ∧
        (requirements.flatMap fun requirement ↦
          requirement.defects library merged members).head? = some d ∧
        failure = d.failure := by
  simp only [compile, Reader.bind_eq_error_iff, mergedOptions_eq_error_iff,
    mergedOptions_eq_ok_iff, Reader.mapError_eq_error_iff, reports_ofMembers.eq_error_iff]
  refine or_congr_right (exists_congr fun merged ↦ ?_)
  rw [← exists_and_left]

/-- Options merge in one way only. -/
theorem Merges.eq {merged merged' : Options} (h : Merges options members merged)
    (h' : Merges options members merged') : merged = merged' := by
  rw [← mergedOptions_eq_ok_iff] at h h'
  exact Except.ok.inj (h.symm.trans h')

/-- A well-shaped document fails only where the library refuses an expression. -/
theorem WellShaped.compile_eq_error_iff {raw : Json} {merged : Options}
    (h : WellShaped options raw members merged) {failure : Failure} :
    compile library raw options = .error failure ↔
      ∃ before e after message, expressions library merged members = before ++ e :: after ∧
        (∀ e ∈ before, library.Builds e) ∧ library.refusal? e = some message ∧
        failure = .pattern message := by
  obtain ⟨rfl, hmerges, hmet⟩ := h
  have hfirst : compile library (.object members) options = .error failure ↔
      ((requirements.flatMap fun requirement ↦
        requirement.defects library merged members).map Defect.failure).head? = some failure := by
    rw [compile_object_eq_error_iff, List.head?_map, Option.map_eq_some_iff]
    constructor
    · rintro (⟨hnone, -⟩ | ⟨merged', d, hmerges', hd, rfl⟩)
      · exact absurd hmerges (hnone merged)
      · rw [hmerges.eq hmerges']
        exact ⟨d, hd, rfl⟩
    · rintro ⟨d, hd, rfl⟩
      exact .inr ⟨merged, d, hmerges, hd, rfl⟩
  rw [hfirst, map_failure_defects hmet, ← expressions, List.head?_filterMap,
    List.findSome?_eq_some_iff]
  simp only [Option.map_eq_some_iff, Option.map_eq_none_iff]
  constructor
  · rintro ⟨before, e, after, hexpressions, ⟨message, hmessage, rfl⟩, hbefore⟩
    exact ⟨before, e, after, message, hexpressions, hbefore, hmessage, rfl⟩
  · rintro ⟨before, e, after, message, hexpressions, hbefore, hmessage, rfl⟩
    exact ⟨before, e, after, hexpressions, ⟨message, hmessage, rfl⟩, hbefore⟩

/-- **A document is compiled exactly if it is well shaped and the library builds every expression
that it asks for.** Otherwise the failure is that of the first requirement that is not met: that the
document is an object, that its options merge, and then `requirements` in their order; and there it
is the first defect in the order of the document. So a well-shaped document fails exactly if an
expression is refused, with what the library says of the first one. -/
theorem compile_accepts_exactly (library : Library) (raw : Json) (options : Options) :
    ((∃ script, compile library raw options = .ok script) ↔
      ∃ members merged, WellShaped options raw members merged ∧
        ∀ e ∈ expressions library merged members, library.Builds e) ∧
    (∀ failure, compile library raw options = .error failure ↔
      ((∀ members, raw ≠ .object members) ∧ failure = (Defect.notScript raw.kind).failure) ∨
      (∃ members, raw = .object members ∧ (∀ merged, ¬ Merges options members merged) ∧
        failure = .malformed) ∨
      ∃ members merged before requirement after d, raw = .object members ∧
        Merges options members merged ∧ requirements = before ++ requirement :: after ∧
        (∀ r ∈ before, r.Met merged members ∧
          ∀ e ∈ r.expressions library merged members, library.Builds e) ∧
        (requirement.defects library merged members).head? = some d ∧
        d.Concerns requirement.field ∧ failure = d.failure) ∧
    ∀ members merged, WellShaped options raw members merged → ∀ failure,
      compile library raw options = .error failure ↔
        ∃ before e after message, expressions library merged members = before ++ e :: after ∧
          (∀ e ∈ before, library.Builds e) ∧ library.refusal? e = some message ∧
          failure = .pattern message := by
  refine ⟨?_, fun failure ↦ ?_, fun members merged h failure ↦ h.compile_eq_error_iff⟩
  · rcases raw
    case object members =>
      rw [exists_compile_object_iff]
      constructor
      · rintro ⟨merged, h⟩
        exact ⟨members, merged, h⟩
      · rintro ⟨_, merged, h, hbuilds⟩
        obtain rfl := Json.object.inj h.object
        exact ⟨merged, h, hbuilds⟩
    all_goals
      refine ⟨fun ⟨script, h⟩ ↦ ?_, fun ⟨members, merged, h, _⟩ ↦ ?_⟩
      · cases h
      · cases h.object
  · rcases raw
    case object members =>
      rw [compile_object_eq_error_iff]
      simp only [head?_defects_eq_some_iff]
      constructor
      · rintro (⟨hmerges, rfl⟩ | ⟨merged, d, hmerged, ⟨before, r, after, hlist, hbefore, hd⟩, rfl⟩)
        · exact .inr (.inl ⟨members, rfl, hmerges, rfl⟩)
        · have hconcerns := r.concerns library merged members d (List.mem_of_head? hd)
          exact .inr (.inr ⟨members, merged, before, r, after, d, rfl, hmerged, hlist, hbefore, hd,
            hconcerns, rfl⟩)
      · rintro (⟨hobject, -⟩ | ⟨_, hmembers, hmerges, rfl⟩ |
          ⟨_, merged, before, r, after, d, hmembers, hmerged, hlist, hbefore, hd, -, rfl⟩)
        · exact absurd rfl (hobject members)
        · obtain rfl := Json.object.inj hmembers
          exact .inl ⟨hmerges, rfl⟩
        · obtain rfl := Json.object.inj hmembers
          exact .inr ⟨merged, d, hmerged, ⟨before, r, after, hlist, hbefore, hd⟩, rfl⟩
    all_goals simp [compile, eq_comm]

/-- The expression of a key is at least as long as the key. -/
theorem length_le_length_wholeWord (key : Text) :
    key.length ≤ (Expression.ofPattern (.wholeWord key)).text.length := by
  have hescape : key.length ≤ (Piece.escape key).length := by
    induction key with
    | nil => exact Nat.zero_le _
    | cons c key ih =>
      rw [Piece.escape, List.flatMap_cons, List.length_append, ← Piece.escape]
      split <;> simp only [List.length_cons, List.length_nil] <;> omega
  rw [← Pattern.expression_eq]
  simp only [Pattern.expression, Pattern.wholeWord, List.flatMap_cons, List.length_append,
    Piece.render]
  omega

/-- A keyword of a million letters makes a script of the right shape. The library builds nothing
that takes more than ten mebibytes, and refuses it. -/
theorem long_name_is_refused :
    let name : Text := List.replicate 1000000 'k'
    let document : Json := .object (ofKeywords [(String.ofList name, .string "x")])
    let library : Library := .limited (fun e ↦ 24 * e.text.length) 0xA00000
    (∃ script, compile .boundless document {} = .ok script) ∧
      compile library document {} =
        .error (.pattern "Compiled regex exceeds size limit of 10485760 bytes.") := by
  intro name document library
  have hlength : name.length = 1000000 := List.length_replicate
  have hletter : ∀ c ∈ name, c = 'k' := fun c hc ↦ List.eq_of_mem_replicate hc
  clear_value name
  have hkey : Keyword.declaredKey {} (String.ofList name) = name := by
    refine Keyword.declaredKey_of_word (List.ne_nil_of_length_pos (by omega)) ?_ ?_
    · intro c hc
      rw [hletter c hc]
      decide
    · intro c hc
      rw [hletter c hc]
      decide
  have hshaped : WellShaped {} document (ofKeywords [(String.ofList name, .string "x")]) {} := by
    refine wellShaped_ofKeywords (List.forall_mem_singleton.2 ⟨?_, .inl ⟨_, rfl⟩⟩)
    rw [hkey]
    exact List.ne_nil_of_length_pos (by omega)
  have hrefused : ¬ library.Builds (.ofPattern (.wholeWord name)) := by
    have := length_le_length_wholeWord name
    rw [Library.builds_limited_iff]
    omega
  obtain ⟨haccepts, -, hrefuses⟩ := compile_accepts_exactly library document {}
  refine ⟨(compile_accepts_exactly .boundless document {}).1.2
    ⟨_, _, hshaped, fun e _ ↦ Library.builds_boundless e⟩, ?_⟩
  rcases hcompile : compile library document {} with failure | script
  · -- whatever is refused, the message is the same
    obtain ⟨_, e, _, message, -, -, hmessage, rfl⟩ := (hrefuses _ _ hshaped failure).1 hcompile
    rw [Library.message_of_limited hmessage]
    rfl
  · obtain ⟨members, merged, h, hbuilds⟩ := haccepts.1 ⟨script, hcompile⟩
    obtain rfl := Json.object.inj h.object
    obtain rfl := hshaped.merges.eq h.merges
    refine absurd (hbuilds _ (List.mem_flatMap.2 ⟨.keywords, by simp [requirements], ?_⟩)) hrefused
    refine List.mem_flatMap.2 ⟨_, List.mem_singleton_self _, List.mem_append_right _ ?_⟩
    rw [hkey]
    exact List.mem_singleton_self _

/-- The final replies are at fault although their field stands behind another defect. -/
example : compile .boundless (.object [("keywords", .null), ("initial", .array []),
    ("final", .array [.string "bye", .null])]) {} =
      .error (.script "final" "'final': index 1 needs to be string (not null)") := rfl

end Script

end Dialogue
