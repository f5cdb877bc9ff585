import Dialogue.Proofs.Script.Building
import Mathlib.Data.List.Basic

/-!
# What a script has to have

A document is a script if certain fields of it have certain shapes. A `Requirement` says this of
one field in two ways: when it is met, and what all is wrong with the field if it is not, in the
order of the document. The two cannot disagree, and every defect is one of the field or of a field
below it. `Script.requirements` lists what a script has to have.

A field of the right shape may still ask for an expression that the library does not build. So a
requirement also says which expressions its field asks for. Of a field that has what it has to have,
nothing can be wrong but that some of them are refused.

Defects and expressions are listed here without regard to any reader. So the list says which defect
of a document is the first one, whether or not readers look at the document in this way.
-/

namespace Dialogue

open Text (contract)

/-! ## Shapes of values -/

namespace Json

/-- The document is a string. -/
def IsText (value : Json) : Prop := ∃ s, value = .string s

/-- The document is an array of strings. -/
def IsTexts (value : Json) : Prop := ∃ items, value = .array items ∧ ∀ item ∈ items, item.IsText

/-- The document is an object, and its members have some shape. -/
def IsObject (value : Json) (shape : String → Json → Prop) : Prop :=
  ∃ members, value = .object members ∧ ∀ member ∈ members, shape member.1 member.2

end Json

namespace Keyword

/-- What a declared name says beside the rank and the memory marker. -/
def declaredKey (options : Options) (name : String) : Text :=
  let name := (parseName name.toList).1
  (afterMarker? options.memoryMarker.toList name).getD name

/-- The document is the body of a keyword: a reply, a list of replies, or rules each of which has a
reply or a list of replies. -/
def IsBody (value : Json) : Prop :=
  value.IsText ∨ value.IsTexts ∨ value.IsObject fun _ replies ↦ replies.IsText ∨ replies.IsTexts

end Keyword

/-! ## What a document declares -/

namespace Json

/-- The members of an object. -/
def members : Json → Members
  | .object members => members
  | _ => []

/-- The texts of a document that is a text or a list of texts. -/
def texts : Json → List String
  | .string s => [s]
  | .array items => items.filterMap string?
  | _ => []

/-- The pairs of texts of an object of texts. -/
def textPairs (value : Json) : List (Text × Text) :=
  value.members.filterMap fun member ↦ member.2.string?.map fun s ↦ (member.1.toList, s.toList)

/-- The decompositions that the body of a keyword declares; a body without rules declares the
wildcard. -/
def decompositions (wildcard : Text) : Json → List Text
  | .object rules => rules.map (·.1.toList)
  | _ => [wildcard]

end Json

/-- The tags that a document declares. -/
def Members.declaredTags (members : Members) : Tags :=
  ((members.get? "tags").getD .null).members.map fun (name, words) ↦
    (Text.joinWords ['_'] name.toList, words.texts.map String.toList)

/-! ## What a document asks for

The expressions are written out here as they are handed to a library, with texts taken as they are
(`Piece.escape`), so that what is asked for does not depend on how it is put together.
-/

namespace Expression

/-- The expression of a pattern finds letters in any case. -/
def ofPattern (p : Pattern) : Expression := ⟨p.render.toList, true⟩

/-- Alternative phrases, each taken as it is. -/
def alternatives (phrases : List Text) : Text := ['|'].intercalate (phrases.map Piece.escape)

end Expression

/-- The expressions that a table asks for: a phrase is found between blanks or the ends of a text.
A table without phrases asks for none. -/
def Json.tableExpressions (value : Json) : List Expression :=
  let phrases := (value.textPairs.map (contract ·.1)).filter (! ·.isEmpty)
  if phrases.isEmpty then []
  else
    [⟨"(?:^|\\s)(".toList ++ Expression.alternatives phrases ++ ")(?:\\s|$)".toList, true⟩]

namespace Options

/-- The markers that a library lets one look for: that of a tag with the name behind it, that of a
wildcard with the white space around it. -/
def knownMarkers (o : Options) (library : Library) : Template.Markers where
  tag :=
    if library.Builds ⟨Piece.escape o.tagMarker.toList ++ "(\\S+)".toList, false⟩ then
      o.tagMarker.toList
    else []
  wildcard :=
    if library.Builds
        ⟨"\\s*".toList ++ Piece.escape o.wildcardMarker.toList ++ "\\s*".toList, false⟩ then
      o.wildcardMarker.toList
    else []

/-- The expressions that the options ask for: for redirects, for references, and for what is not
kept in the plain form of a text, for emoji, for stop characters and for stop words. -/
def askedExpressions (o : Options) : List Expression :=
  let emoji := "\\p\x7bEmoji_Presentation\x7d".toList
  let stopWords := (o.stopWords.map (contract ·.toList)).filter (! ·.isEmpty)
  [⟨"^".toList ++ Piece.escape o.gotoMarker.toList ++ "\\s*(.*)$".toList, true⟩,
    ⟨Piece.escape o.paramMarkerPre.toList ++ "([0-9]+)".toList ++
      Piece.escape o.paramMarkerPost.toList, false⟩,
    ⟨"[^a-zA-Z0-9 ".toList ++ Piece.escape o.allowChars.toList ++
      Piece.escape o.stopChars.toList ++ (if o.allowEmoji then emoji else []) ++ "]".toList,
      false⟩] ++
    (if o.allowEmoji then [⟨emoji, false⟩] else []) ++
    (if o.stopChars.isEmpty then []
      else [⟨"[".toList ++ Piece.escape o.stopChars.toList ++ "]".toList, false⟩]) ++
    (if stopWords.isEmpty then []
      else [⟨"\\b(?:".toList ++ Expression.alternatives stopWords ++ ")\\b".toList, true⟩])

end Options

namespace Keyword

/-- The expressions that a declared keyword asks for: one for each of its decompositions, and last
that of its own key. -/
def declaredExpressions (library : Library) (options : Options) (tags : Tags) (name : String)
    (body : Json) : List Expression :=
  (body.decompositions options.wildcardMarker.toList).map (fun decomposition ↦
      let contracted := contract decomposition
      let template := (afterMarker? options.memoryMarker.toList contracted).getD contracted
      .ofPattern (Template.pattern (options.knownMarkers library) tags template)) ++
    [.ofPattern (.wholeWord (declaredKey options name))]

end Keyword

/-! ## Fields of defects -/

namespace Defect

/-- The defect is one of a field, or of a field below it. -/
def Concerns (d : Defect) (field : String) : Prop :=
  d.field = field ∨ ∃ rest, d.field = field ++ "." ++ rest

theorem Concerns.of_below {d : Defect} {field below : String}
    (h : d.Concerns (field ++ "." ++ below)) : d.Concerns field := by
  rcases h with h | ⟨rest, h⟩
  · exact .inr ⟨below, h⟩
  · exact .inr ⟨below ++ "." ++ rest, by simp [h, String.append_assoc]⟩

end Defect

/-! ## Refused expressions -/

namespace Library

variable {library : Library} {field : String} {expressions : List Expression}

theorem refusals_flatMap {α : Type} (f : α → List Expression) (l : List α) :
    library.refusals field (l.flatMap f) = l.flatMap fun x ↦ library.refusals field (f x) :=
  List.filterMap_flatMap

theorem concerns_of_mem_refusals {d : Defect} (h : d ∈ library.refusals field expressions) :
    d.Concerns field := by
  obtain ⟨e, -, hd⟩ := List.mem_filterMap.1 h
  obtain ⟨message, -, rfl⟩ := Option.map_eq_some_iff.1 hd
  exact .inl rfl

end Library

/-! ## Defects of values -/

namespace Defect

/-- A defect of what has to be a string. -/
def unlessText (d : Defect) : Json → List Defect
  | .string _ => []
  | _ => [d]

/-- The items of an array that are no strings. -/
def ofItems (field : String) (items : List Json) : List Defect :=
  items.zipIdx.flatMap fun (value, index) ↦ unlessText (.item field index value.kind) value

/-- The defects of what has to be an array of strings. -/
def ofTexts (field : String) : Json → List Defect
  | .array items => ofItems field items
  | value => [.notArray field value.kind]

/-- The defects of what has to be an object, given those of a member. -/
def ofObject (field : String) (ofMember : String → Json → List Defect) : Json → List Defect
  | .object members => members.flatMap fun (name, value) ↦ ofMember name value
  | value => [.notObject field value.kind]

/-- The defects of a member that has to be a string. -/
def ofText (field name : String) (value : Json) : List Defect :=
  unlessText (.member field name value.kind) value

/-- The defects of the replies of a rule. -/
def ofReplies (declared decomposition : String) : Json → List Defect
  | .string _ => []
  | .array items => ofItems (rulesField declared ++ "." ++ decomposition) items
  | value => [.replies declared decomposition value.kind]

/-- The defects of the body of a keyword. -/
def ofBody (declared : String) : Json → List Defect
  | .string _ => []
  | .array items => ofItems (rulesField declared) items
  | .object rules => rules.flatMap fun (decomposition, value) ↦
      ofReplies declared decomposition value
  | value => [.body declared value.kind]

/-- The defects of a declaration of a keyword. -/
def ofDeclaration (options : Options) (declared : String) (body : Json) : List Defect :=
  (if Keyword.declaredKey options declared = [] then [.nameless declared] else []) ++
    ofBody declared body

/-- The defects of a declared keyword. -/
def ofKeyword (library : Library) (options : Options) (tags : Tags) (declared : String)
    (body : Json) : List Defect :=
  ofDeclaration options declared body ++
    library.refusals "keywords" (Keyword.declaredExpressions library options tags declared body)

/-- The defects of the declared keywords. -/
def ofKeywords (library : Library) (options : Options) (tags : Tags) (value : Json) : List Defect :=
  ofObject "keywords" (ofKeyword library options tags) value

/-- The defects of a table. -/
def ofTable (library : Library) (field : String) (value : Json) : List Defect :=
  ofObject field (ofText field) value ++
    library.refusals field value.tableExpressions

/-! ### No defects -/

theorem unlessText_eq_nil_iff {d : Defect} {value : Json} :
    unlessText d value = [] ↔ value.IsText := by
  rcases value <;> simp [unlessText, Json.IsText]

theorem ofItems_eq_nil_iff {field : String} {items : List Json} :
    ofItems field items = [] ↔ ∀ item ∈ items, item.IsText := by
  rw [ofItems, List.flatMap_eq_nil_iff]
  constructor
  · intro h value hmem
    obtain ⟨index, hindex⟩ := List.mem_iff_getElem?.1 hmem
    exact unlessText_eq_nil_iff.1 (h (value, index) (List.mem_zipIdx_iff_getElem?.2 hindex))
  · rintro h ⟨value, index⟩ hmem
    exact unlessText_eq_nil_iff.2
      (h value (List.mem_of_getElem? (List.mem_zipIdx_iff_getElem?.1 hmem)))

theorem ofTexts_eq_nil_iff {field : String} {value : Json} :
    ofTexts field value = [] ↔ value.IsTexts := by
  rcases value <;> simp [ofTexts, Json.IsTexts, ofItems_eq_nil_iff]

theorem ofObject_eq_nil_iff {field : String} {ofMember : String → Json → List Defect}
    {shape : String → Json → Prop} (h : ∀ name value, ofMember name value = [] ↔ shape name value)
    {value : Json} : ofObject field ofMember value = [] ↔ value.IsObject shape := by
  rcases value <;> simp [ofObject, Json.IsObject, h]

theorem ofReplies_eq_nil_iff {declared decomposition : String} {value : Json} :
    ofReplies declared decomposition value = [] ↔ value.IsText ∨ value.IsTexts := by
  rcases value <;> simp [ofReplies, Json.IsText, Json.IsTexts, ofItems_eq_nil_iff]

theorem ofBody_eq_nil_iff {declared : String} {value : Json} :
    ofBody declared value = [] ↔ Keyword.IsBody value := by
  rcases value <;>
    simp [ofBody, Keyword.IsBody, Json.IsText, Json.IsTexts, Json.IsObject, ofItems_eq_nil_iff,
      ofReplies_eq_nil_iff]

theorem ofDeclaration_eq_nil_iff {options : Options} {declared : String} {body : Json} :
    ofDeclaration options declared body = [] ↔
      Keyword.declaredKey options declared ≠ [] ∧ Keyword.IsBody body := by
  rw [ofDeclaration, List.append_eq_nil_iff, ofBody_eq_nil_iff]
  simp

/-! ### No defects but refused expressions -/

section Refused

variable {library : Library} {options : Options} {tags : Tags} {field : String} {value : Json}

theorem ofTextPairs_eq_nil_iff :
    ofObject field (ofText field) value = [] ↔ value.IsObject fun _ ↦ Json.IsText :=
  ofObject_eq_nil_iff fun _ _ ↦ unlessText_eq_nil_iff

theorem ofTable_of_isObject (h : value.IsObject fun _ ↦ Json.IsText) :
    ofTable library field value =
      library.refusals field value.tableExpressions := by
  rw [ofTable, ofTextPairs_eq_nil_iff.2 h, List.nil_append]

theorem isObject_of_ofTable_eq_nil (h : ofTable library field value = []) :
    value.IsObject fun _ ↦ Json.IsText :=
  ofTextPairs_eq_nil_iff.1 (List.append_eq_nil_iff.1 h).1

theorem ofKeywords_of_isObject (h : value.IsObject fun declared body ↦
      Keyword.declaredKey options declared ≠ [] ∧ Keyword.IsBody body) :
    ofKeywords library options tags value =
      library.refusals "keywords" (value.members.flatMap fun member ↦
        Keyword.declaredExpressions library options tags member.1 member.2) := by
  obtain ⟨declared, rfl, hdeclared⟩ := h
  have hmember : ∀ member ∈ declared, ofKeyword library options tags member.1 member.2 =
      library.refusals "keywords"
        (Keyword.declaredExpressions library options tags member.1 member.2) := by
    intro member hmember
    rw [ofKeyword, ofDeclaration_eq_nil_iff.2 (hdeclared member hmember), List.nil_append]
  rw [Library.refusals_flatMap]
  exact List.flatMap_congr hmember

theorem isObject_of_ofKeywords_eq_nil (h : ofKeywords library options tags value = []) :
    value.IsObject fun declared body ↦
      Keyword.declaredKey options declared ≠ [] ∧ Keyword.IsBody body := by
  rcases value
  case object declared =>
    refine ⟨declared, rfl, fun member hmember ↦ ofDeclaration_eq_nil_iff.1 ?_⟩
    exact (List.append_eq_nil_iff.1 (List.flatMap_eq_nil_iff.1 h member hmember)).1
  all_goals exact absurd h (List.cons_ne_nil _ _)

end Refused

/-! ### Fields to blame -/

theorem concerns_of_mem_singleton {d e : Defect} (h : d ∈ [e]) : d.Concerns e.field := by
  rw [List.mem_singleton.1 h]
  exact .inl rfl

theorem eq_of_mem_unlessText {d e : Defect} {value : Json} (h : e ∈ unlessText d value) :
    e = d := by
  unfold unlessText at h
  split at h
  · exact absurd h List.not_mem_nil
  · exact List.mem_singleton.1 h

theorem concerns_of_mem_ofItems {field : String} {items : List Json} {d : Defect}
    (h : d ∈ ofItems field items) : d.Concerns field := by
  obtain ⟨⟨value, index⟩, -, hd⟩ := List.mem_flatMap.1 h
  rw [eq_of_mem_unlessText hd]
  exact .inl rfl

theorem concerns_of_mem_ofTexts {field : String} {value : Json} {d : Defect}
    (h : d ∈ ofTexts field value) : d.Concerns field := by
  unfold ofTexts at h
  split at h
  · exact concerns_of_mem_ofItems h
  · exact concerns_of_mem_singleton h

theorem concerns_of_mem_ofObject {field : String} {ofMember : String → Json → List Defect}
    (hmember : ∀ name value, ∀ d ∈ ofMember name value, d.Concerns field) {value : Json}
    {d : Defect} (h : d ∈ ofObject field ofMember value) : d.Concerns field := by
  unfold ofObject at h
  split at h
  · obtain ⟨⟨name, value⟩, -, hd⟩ := List.mem_flatMap.1 h
    exact hmember name value d hd
  · exact concerns_of_mem_singleton h

theorem concerns_of_mem_ofText {field name : String} {value : Json} {d : Defect}
    (h : d ∈ ofText field name value) : d.Concerns field := by
  rw [eq_of_mem_unlessText h]
  exact .inl rfl

theorem concerns_of_mem_ofReplies {declared decomposition : String} {value : Json} {d : Defect}
    (h : d ∈ ofReplies declared decomposition value) : d.Concerns (rulesField declared) := by
  unfold ofReplies at h
  split at h
  · exact absurd h List.not_mem_nil
  · exact (concerns_of_mem_ofItems h).of_below
  · exact concerns_of_mem_singleton h

theorem concerns_of_mem_ofDeclaration {options : Options} {declared : String} {body : Json}
    {d : Defect} (h : d ∈ ofDeclaration options declared body) : d.Concerns "keywords" := by
  have hrules {d : Defect} (h : d.Concerns (rulesField declared)) : d.Concerns "keywords" :=
    Concerns.of_below h
  rw [ofDeclaration, List.mem_append] at h
  rcases h with h | h
  · split at h
    · exact concerns_of_mem_singleton h
    · exact absurd h List.not_mem_nil
  · unfold ofBody at h
    split at h
    · exact absurd h List.not_mem_nil
    · exact hrules (concerns_of_mem_ofItems h)
    · obtain ⟨rule, -, hd⟩ := List.mem_flatMap.1 h
      exact hrules (concerns_of_mem_ofReplies hd)
    · exact concerns_of_mem_singleton h

theorem concerns_of_mem_ofKeywords {library : Library} {options : Options} {tags : Tags}
    {value : Json} {d : Defect} (h : d ∈ ofKeywords library options tags value) :
    d.Concerns "keywords" := by
  refine concerns_of_mem_ofObject (fun name body d hd ↦ ?_) h
  rcases List.mem_append.1 hd with hd | hd
  · exact concerns_of_mem_ofDeclaration hd
  · exact Library.concerns_of_mem_refusals hd

theorem concerns_of_mem_ofTable {library : Library} {field : String} {value : Json} {d : Defect}
    (h : d ∈ ofTable library field value) : d.Concerns field := by
  rcases List.mem_append.1 h with h | h
  · exact concerns_of_mem_ofObject (fun _ _ _ ↦ concerns_of_mem_ofText) h
  · exact Library.concerns_of_mem_refusals h

end Defect

/-! ## Requirements -/

/-- What a document has to have in some field. -/
structure Requirement where
  field : String
  /-- Has the document what it has to have? -/
  Met : Options → Members → Prop
  /-- The expressions that the field asks for, in the order in which they are built. -/
  expressions : Library → Options → Members → List Expression
  /-- All that is wrong with the field, in the order of the document. -/
  defects : Library → Options → Members → List Defect
  met_of_defects_eq_nil : ∀ library options members, defects library options members = [] →
    Met options members
  defects_of_met : ∀ library options members, Met options members →
    defects library options members =
      library.refusals field (expressions library options members)
  concerns : ∀ library options members, ∀ d ∈ defects library options members, d.Concerns field

namespace Requirement

/-- Nothing is wrong with a field exactly if the document has what it has to have there, and all
expressions that the field asks for are built. -/
theorem defects_eq_nil_iff (requirement : Requirement) {library : Library} {options : Options}
    {members : Members} : requirement.defects library options members = [] ↔
      requirement.Met options members ∧
        ∀ e ∈ requirement.expressions library options members, library.Builds e := by
  constructor
  · intro h
    have hmet := requirement.met_of_defects_eq_nil library options members h
    rw [requirement.defects_of_met library options members hmet] at h
    exact ⟨hmet, Library.refusals_eq_nil_iff.1 h⟩
  · rintro ⟨hmet, hbuilds⟩
    rw [requirement.defects_of_met library options members hmet]
    exact Library.refusals_eq_nil_iff.2 hbuilds

/-- The document has the field, and its value has some shape and asks for some expressions. -/
def required (field : String) (shape : Options → Json → Prop)
    (expressions : Library → Options → Members → Json → List Expression)
    (defects : Library → Options → Members → Json → List Defect)
    (hshape : ∀ library options members value, defects library options members value = [] →
      shape options value)
    (hdefects : ∀ library options members value, shape options value →
      defects library options members value =
        library.refusals field (expressions library options members value))
    (hfield : ∀ library options members value, ∀ d ∈ defects library options members value,
      d.Concerns field) : Requirement where
  field := field
  Met options members := ∃ value, members.get? field = some value ∧ shape options value
  expressions library options members :=
    ((members.get? field).map (expressions library options members)).getD []
  defects library options members :=
    ((members.get? field).map (defects library options members)).getD [.missing field]
  met_of_defects_eq_nil library options members := by
    rcases members.get? field with _ | value
    · exact fun h ↦ absurd h (List.cons_ne_nil _ _)
    · exact fun h ↦ ⟨value, rfl, hshape library options members value h⟩
  defects_of_met library options members := by
    rintro ⟨value, hvalue, h⟩
    rw [hvalue]
    exact hdefects library options members value h
  concerns library options members := by
    rcases members.get? field with _ | value
    · intro d hd
      exact Defect.concerns_of_mem_singleton hd
    · exact hfield library options members value

/-- The field is an array of strings. -/
def texts (field : String) : Requirement :=
  required field (fun _ ↦ Json.IsTexts) (fun _ _ _ _ ↦ []) (fun _ _ _ ↦ Defect.ofTexts field)
    (fun _ _ _ _ ↦ Defect.ofTexts_eq_nil_iff.1) (fun _ _ _ _ ↦ Defect.ofTexts_eq_nil_iff.2)
    (fun _ _ _ _ _ ↦ Defect.concerns_of_mem_ofTexts)

/-- If the document has the field, it is an array of strings. -/
def optionalTexts (field : String) : Requirement where
  field := field
  Met _ members := ∀ value, members.get? field = some value → value.IsTexts
  expressions _ _ _ := []
  defects _ _ members := ((members.get? field).map (Defect.ofTexts field)).getD []
  met_of_defects_eq_nil _ _ members := by
    rcases members.get? field with _ | value
    · simp
    · simp [Defect.ofTexts_eq_nil_iff]
  defects_of_met _ _ members := by
    rcases members.get? field with _ | value
    · exact fun _ ↦ rfl
    · exact fun h ↦ Defect.ofTexts_eq_nil_iff.2 (h value rfl)
  concerns _ _ members := by
    rcases members.get? field with _ | value
    · exact fun _ hd ↦ absurd hd List.not_mem_nil
    · exact fun _ ↦ Defect.concerns_of_mem_ofTexts

/-- The field is an object of strings, whose names are phrases to look for. -/
def table (field : String) : Requirement :=
  required field (fun _ value ↦ value.IsObject fun _ ↦ Json.IsText)
    (fun _ _ _ value ↦ value.tableExpressions)
    (fun library _ _ ↦ Defect.ofTable library field)
    (fun _ _ _ _ ↦ Defect.isObject_of_ofTable_eq_nil) (fun _ _ _ _ ↦ Defect.ofTable_of_isObject)
    (fun _ _ _ _ _ ↦ Defect.concerns_of_mem_ofTable)

/-- The tags are an object of arrays of strings. -/
def tags : Requirement :=
  required "tags" (fun _ value ↦ value.IsObject fun _ ↦ Json.IsTexts) (fun _ _ _ _ ↦ [])
    (fun _ _ _ ↦ Defect.ofObject "tags" fun name ↦ Defect.ofTexts ("tags." ++ name))
    (fun _ _ _ _ ↦ (Defect.ofObject_eq_nil_iff fun _ _ ↦ Defect.ofTexts_eq_nil_iff).1)
    (fun _ _ _ _ ↦ (Defect.ofObject_eq_nil_iff fun _ _ ↦ Defect.ofTexts_eq_nil_iff).2)
    (fun _ _ _ _ _ ↦ Defect.concerns_of_mem_ofObject fun _ _ _ hd ↦
      Defect.Concerns.of_below (Defect.concerns_of_mem_ofTexts hd))

/-- The keywords are an object; each declared name says something beside rank and memory marker,
and each body is one of a keyword. -/
def keywords : Requirement :=
  required "keywords"
    (fun options value ↦ value.IsObject fun declared body ↦
      Keyword.declaredKey options declared ≠ [] ∧ Keyword.IsBody body)
    (fun library options members value ↦ value.members.flatMap fun member ↦
      Keyword.declaredExpressions library options members.declaredTags member.1 member.2)
    (fun library options members ↦ Defect.ofKeywords library options members.declaredTags)
    (fun _ _ _ _ ↦ Defect.isObject_of_ofKeywords_eq_nil)
    (fun _ _ _ _ ↦ Defect.ofKeywords_of_isObject)
    (fun _ _ _ _ _ ↦ Defect.concerns_of_mem_ofKeywords)

/-- Of the options nothing more is asked once they are merged, but that the expressions for which
they ask are built. -/
def patterns : Requirement where
  field := "options"
  Met _ _ := True
  expressions _ options _ := options.askedExpressions
  defects library options _ := library.refusals "options" options.askedExpressions
  met_of_defects_eq_nil _ _ _ _ := trivial
  defects_of_met _ _ _ _ := rfl
  concerns _ _ _ _ := Library.concerns_of_mem_refusals

end Requirement

namespace Script

/-- What a script has to have, in the order in which it is looked at. -/
def requirements : List Requirement :=
  [.texts "initial", .texts "final", .texts "quit", .texts "none", .optionalTexts "quit*",
    .optionalTexts "empty", .table "pre", .table "post", .tags, .keywords, .patterns]

/-- The options under which a script is read: those of the caller, overridden by those that the
document has as an object. -/
def Merges (options : Options) (members : Members) (merged : Options) : Prop :=
  (∃ overrides, members.get? "options" = some (.object overrides) ∧
    options.merge? overrides = some merged) ∨
  (∀ overrides, members.get? "options" ≠ some (.object overrides)) ∧ merged = options

/-- The document is well shaped: an object whose options merge, and which has all that a script has
to have. -/
structure WellShaped (options : Options) (document : Json) (members : Members)
    (merged : Options) : Prop where
  object : document = .object members
  merges : Merges options members merged
  met : ∀ requirement ∈ requirements, requirement.Met merged members

/-- The expressions that a document asks for, in the order in which they are built. -/
def expressions (library : Library) (merged : Options) (members : Members) : List Expression :=
  requirements.flatMap fun requirement ↦ requirement.expressions library merged members

/-! ### Keywords and little else -/

/-- A document of some keywords and little else. -/
def ofKeywords (declared : Members) : Members :=
  [("initial", .array []), ("final", .array []), ("quit", .array []), ("none", .array []),
    ("pre", .object []), ("post", .object []), ("tags", .object []), ("keywords", .object declared)]

theorem wellShaped_ofKeywords {options : Options} {declared : Members}
    (h : ∀ member ∈ declared,
      Keyword.declaredKey options member.1 ≠ [] ∧ Keyword.IsBody member.2) :
    WellShaped options (.object (ofKeywords declared)) (ofKeywords declared) options where
  object := rfl
  merges := .inr ⟨fun _ hsome ↦ absurd hsome (Option.some_ne_none _).symm, rfl⟩
  met := by
    have htexts : (Json.array []).IsTexts := ⟨[], rfl, List.forall_mem_nil _⟩
    have htable (shape : String → Json → Prop) : (Json.object []).IsObject shape :=
      ⟨[], rfl, List.forall_mem_nil _⟩
    simp only [requirements, List.forall_mem_cons]
    exact ⟨⟨_, rfl, htexts⟩, ⟨_, rfl, htexts⟩, ⟨_, rfl, htexts⟩, ⟨_, rfl, htexts⟩,
      fun _ hsome ↦ absurd hsome (Option.some_ne_none _).symm,
      fun _ hsome ↦ absurd hsome (Option.some_ne_none _).symm,
      ⟨_, rfl, htable _⟩, ⟨_, rfl, htable _⟩, ⟨_, rfl, htable _⟩, ⟨_, rfl, declared, rfl, h⟩,
      trivial, List.forall_mem_nil _⟩

end Script

end Dialogue
