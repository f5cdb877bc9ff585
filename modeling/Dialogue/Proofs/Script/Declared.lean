import Dialogue.Proofs.Script.Requirements

/-!
# What is read is what is declared

What a document declares can be said of any document, as `Requirement` does, but it is read only
from one of the right shape, by readers that stop at a defect. Where such a reader succeeds, it has
read what is declared: the pairs of a table, the tags with their words, and of a keyword the
decompositions and the key. So a keyword asks for the expressions that its declaration asks for
(`Keyword.expressions_of_declare`).
-/

namespace Dialogue

open Text (contract)

/-! ## Fields -/

namespace Script

variable {field : String} {value : Json} {members : Members}

theorem texts_eq {list : List Text} (h : texts field value = .ok list) :
    list = value.texts.map String.toList := by
  rcases value
  case array items =>
    have hread : list = items.zipIdx.filterMap fun item ↦ item.1.string?.map String.toList := by
      refine Reader.eq_filterMap_of_mapM ?_ h
      rintro ⟨item, index⟩ text hitem
      rcases item
      case string => rw [← Except.ok.inj hitem]; rfl
      all_goals cases hitem
    rw [hread, Json.texts, List.map_filterMap]
    nth_rewrite 2 [← List.zipIdx_map_fst 0 items]
    rw [List.filterMap_map]
    rfl
  all_goals cases h

theorem textPairs_eq {pairs : List (Text × Text)} (h : textPairs field value = .ok pairs) :
    pairs = value.textPairs := by
  obtain ⟨members, hmembers, h⟩ := Reader.bind_eq_ok_iff.1 h
  rcases value
  case object =>
    obtain rfl := Except.ok.inj hmembers
    refine Reader.eq_filterMap_of_mapM ?_ h
    rintro ⟨name, value⟩ pair hpair
    rcases value
    case string => rw [← Except.ok.inj hpair]; rfl
    all_goals cases hpair
  all_goals cases hmembers

theorem get?_of_required (h : required members field = .ok value) :
    members.get? field = some value := by
  rw [required] at h
  split at h
  · rename_i hvalue
    rw [hvalue, Except.ok.inj h]
  · cases h

theorem eq_object_of_members {declared : Members} (h : Script.members field value = .ok declared) :
    value = .object declared := by
  rcases value
  case object members => rw [Except.ok.inj h]
  all_goals cases h

theorem readTags_eq {tags : Tags} (h : readTags members = .ok tags) :
    tags = members.declaredTags := by
  obtain ⟨value, hvalue, h⟩ := Reader.bind_eq_ok_iff.1 h
  obtain ⟨declared, hdeclared, h⟩ := Reader.bind_eq_ok_iff.1 h
  rw [Members.declaredTags, get?_of_required hvalue, eq_object_of_members hdeclared,
    Option.getD_some, Json.members, ← List.filterMap_eq_map]
  refine Reader.eq_filterMap_of_mapM ?_ h
  rintro ⟨name, words⟩ tag htag
  obtain ⟨list, hlist, htag⟩ := Reader.bind_eq_ok_iff.1 htag
  rw [← Except.ok.inj htag, texts_eq hlist]
  rfl

end Script

/-! ## Expressions -/

theorem Pattern.expression_eq (p : Pattern) : p.expression = .ofPattern p := by
  rw [expression, Expression.ofPattern, render, String.toList_ofList]

theorem Substitution.expressions_eq (value : Json) :
    (Substitution.ofList value.textPairs).expressions = value.tableExpressions := by
  have hphrases : (Substitution.ofList value.textPairs).entries.map (·.1) =
      (value.textPairs.map (contract ·.1)).filter (! ·.isEmpty) := by
    rw [ofList, List.filter_map, List.filter_map, List.map_map]
    rfl
  rw [expressions, pattern, Json.tableExpressions, ← hphrases, isEmpty]
  simp only [List.isEmpty_map]
  split
  · rfl
  · simp [Pattern.expression, Piece.render, Expression.alternatives]

/-- There are stop words if some are left when blank ones are dropped. -/
theorem Options.hasStopWords_eq (o : Options) :
    o.hasStopWords = ! ((o.stopWords.map (contract ·.toList)).filter (! ·.isEmpty)).isEmpty := by
  rw [hasStopWords]
  induction o.stopWords with
  | nil => rfl
  | cons word words ih =>
    rw [List.any_cons, ih, List.map_cons, List.filter_cons]
    split <;> simp [*]

theorem Script.optionExpressions_eq (o : Options) :
    optionExpressions o = o.askedExpressions := by
  rw [optionExpressions, Options.plainExpressions, Options.askedExpressions, o.hasStopWords_eq]
  simp only [Bool.not_eq_true', ← Bool.not_eq_true, ite_not]
  rfl

theorem Keyword.markers_eq (library : Library) (options : Options) :
    markers library options = options.knownMarkers library := rfl

/-! ## Keywords -/

namespace Keyword

/-- A text that has no character of the memory marker is not marked. -/
theorem afterMarker?_of_apart {marker s : Text} (hapart : ∀ c ∈ s, c ∉ marker) :
    afterMarker? marker s = none := by
  rw [afterMarker?]
  split
  · rfl
  · rename_i hmarker
    obtain ⟨c, marker, rfl⟩ := List.exists_cons_of_ne_nil (mt List.isEmpty_iff.2 hmarker)
    rw [Option.map_eq_none_iff, Option.eq_none_iff_forall_ne_some]
    intro rest hrest
    have hs := List.isPrefixOf?_eq_some_iff_append_eq.1 hrest
    exact hapart c (hs ▸ List.mem_cons_self) List.mem_cons_self

/-- A single word names itself, unless it begins with the memory marker. -/
theorem declaredKey_of_word {options : Options} {word : Text} (hne : word ≠ [])
    (hsolid : ∀ c ∈ word, Character.isBlank c = false)
    (hapart : ∀ c ∈ word, c ∉ options.memoryMarker.toList) :
    declaredKey options (String.ofList word) = word := by
  have hwords : Text.words word = [word] := Text.words_of_forall hne hsolid
  have hname : (parseName (String.ofList word).toList).1 = word := by
    rw [String.toList_ofList, parseName, hwords]
    simp [contract, Text.joinWords, hwords]
  rw [declaredKey, hname, afterMarker?_of_apart hapart]
  rfl

variable {library : Library} {options : Options} {tags : Tags} {name : String} {body : Json}
  {position : Nat} {k : Keyword}

theorem map_fst_toRules {rules : Body} (h : Body.ofJson name body = .ok rules) (wildcard : Text) :
    (rules.toRules wildcard).map Prod.fst = body.decompositions wildcard := by
  rcases body
  case string =>
    obtain rfl := Except.ok.inj h
    rfl
  case array =>
    obtain ⟨list, -, h⟩ := Reader.bind_eq_ok_iff.1 h
    obtain rfl := Except.ok.inj h
    rfl
  case object declared =>
    obtain ⟨list, hlist, h⟩ := Reader.bind_eq_ok_iff.1 h
    obtain rfl := Except.ok.inj h
    have hnames : List.Forall₂ (· = ·) (declared.map (·.1.toList)) (list.map Prod.fst) := by
      rw [List.forall₂_map_left_iff, List.forall₂_map_right_iff]
      refine (Reader.mapM_eq_ok_iff.1 hlist).imp ?_
      rintro ⟨decomposition, value⟩ rule hrule
      rcases value
      case string => rw [← Except.ok.inj hrule]
      case array =>
        obtain ⟨texts, -, hrule⟩ := Reader.bind_eq_ok_iff.1 hrule
        rw [← Except.ok.inj hrule]
      all_goals cases hrule
    exact (List.forall₂_eq_eq_eq ▸ hnames).symm
  all_goals cases h

/-- A keyword asks for the expressions that its declaration asks for. -/
theorem expressions_of_declare
    (h : declare library options tags name body position = .ok k) :
    k.expressions = declaredExpressions library options tags name body := by
  simp only [declare] at h
  split at h
  · cases h
  · obtain ⟨rules, hrules, h⟩ := Reader.bind_eq_ok_iff.1 h
    obtain rfl := Except.ok.inj h
    simp only [expressions, declaredExpressions, ← map_fst_toRules hrules, List.map_map,
      Pattern.expression_eq, ← markers_eq]
    rfl

end Keyword

end Dialogue
