import Dialogue.Proofs.Json.Members
import Dialogue.Proofs.Options.Fields

/-!
# Options laid over options

A script overrides the options of its caller field by field. What comes out is described here by
the values of the fields alone: overriding succeeds exactly if the last entry for each option has
the type of that option, and then every field holds the value of that entry, or its old value if
there is no entry (`Options.merge?_eq_some_iff`). Everything else follows by comparing fields:
entries that name no option do nothing, two objects in a row are one object laid over the other,
and writing the options down, inserting the entries and reading the result back is the same as
overriding in place.
-/

namespace Dialogue.Options

variable {o r : Options} {field other : Field}

/-! ## Entries -/

/-- The entries under the names by which options go in `fields`. -/
def renamed (entries : Members) : Members :=
  entries.map fun (name, value) ↦ (canonicalName name, value)

/-- The value of the last entry for the option `name`, under whichever of its names. An object
that was read has a name only once, so there are two entries at most, `goto_marker` and
`redirect_marker`. -/
def lastValue? (entries : Members) (name : String) : Option Json :=
  (entries.filter fun entry ↦ canonicalName entry.1 == name).getLast?.map (·.2)

/-- One object laid over another: its entries replace those of the other for the same option. -/
def laidOver (lower upper : Members) : Members := Members.ofList (renamed (lower ++ upper))

variable {entries lower upper : Members} {name : String}

theorem renamed_append : renamed (lower ++ upper) = renamed lower ++ renamed upper :=
  List.map_append

theorem canonicalName_idem (name : String) :
    canonicalName (canonicalName name) = canonicalName name := by
  rw [canonicalName, canonicalName]
  split <;> simp_all

theorem lastValue?_append :
    lastValue? (lower ++ upper) name = (lastValue? upper name).or (lastValue? lower name) := by
  rw [lastValue?, List.filter_append, List.getLast?_append, Option.map_or]
  rfl

theorem get?_ofList_renamed :
    (Members.ofList (renamed entries)).get? name = lastValue? entries name := by
  rw [Members.get?_ofList, renamed, List.filter_map, List.getLast?_map, Option.map_map]
  rfl

theorem canonical_of_mem_ofList_renamed {entry : String × Json}
    (h : entry ∈ Members.ofList (renamed entries)) : canonicalName entry.1 = entry.1 := by
  have hname : entry.1 ∈ (renamed entries).map (·.1) :=
    (Members.mem_names_ofList _ _).1 (List.mem_map_of_mem h)
  obtain ⟨entry', hentry', heq⟩ := List.mem_map.1 hname
  obtain ⟨source, -, rfl⟩ := List.mem_map.1 hentry'
  rw [← heq]
  exact canonicalName_idem source.1

theorem ofList_laidOver : Members.ofList (laidOver lower upper) = laidOver lower upper :=
  Members.ofList_eq_self _ (Members.nodup_ofList _)

/-- In an object that is laid over another, the entries of the upper one count first. -/
theorem lastValue?_laidOver :
    lastValue? (laidOver lower upper) name =
      (lastValue? upper name).or (lastValue? lower name) := by
  have hfilter : (laidOver lower upper).filter (fun entry ↦ canonicalName entry.1 == name) =
      (laidOver lower upper).filter (·.1 == name) :=
    List.filter_congr fun entry hentry ↦ by rw [canonical_of_mem_ofList_renamed hentry]
  calc
    lastValue? (laidOver lower upper) name
    _ = ((laidOver lower upper).filter (·.1 == name)).getLast?.map (·.2) := by
      rw [lastValue?, hfilter]
    _ = (laidOver lower upper).get? name := by
      rw [← Members.get?_ofList, ofList_laidOver]
    _ = lastValue? (lower ++ upper) name := get?_ofList_renamed
    _ = (lastValue? upper name).or (lastValue? lower name) := lastValue?_append

theorem lastValue?_filter_isOption (hfield : field ∈ fields) :
    lastValue? (entries.filter (isOption ·.1)) field.name = lastValue? entries field.name := by
  have hoption (entry : String × Json) :
      (canonicalName entry.1 == field.name && isOption entry.1) =
        (canonicalName entry.1 == field.name) := by
    rw [Bool.and_eq_left_iff_imp, beq_iff_eq, isOption, List.any_eq_true]
    exact fun h ↦ ⟨field, hfield, beq_iff_eq.2 h.symm⟩
  rw [lastValue?, List.filter_filter, List.filter_congr fun entry _ ↦ hoption entry]
  rfl

/-! ## Overriding by an object -/

theorem isSome_merge?_iff :
    (o.merge? entries).isSome ↔
      ∀ field ∈ fields, ∀ value,
        lastValue? entries field.name = some value → Admits field.name value := by
  simp only [← get?_ofList_renamed, ← isSome_override?_iff (o := o)]
  rfl

/-- **Field by field**: overriding succeeds if the last entry of each option fits, and gives every
field the value of that entry, or its old value if there is no entry. -/
theorem merge?_eq_some_iff :
    o.merge? entries = some r ↔
      (∀ field ∈ fields, ∀ value,
        lastValue? entries field.name = some value → Admits field.name value) ∧
      ∀ field ∈ fields, field.value r = (lastValue? entries field.name).getD (field.value o) := by
  simp only [← get?_ofList_renamed, ← override?_eq_some_iff]
  rfl

/-- Only the last entries matter. -/
theorem merge?_congr {entries' : Members}
    (h : ∀ field ∈ fields, lastValue? entries field.name = lastValue? entries' field.name) :
    o.merge? entries = o.merge? entries' := by
  refine Option.ext fun r ↦ ?_
  rw [merge?_eq_some_iff, merge?_eq_some_iff]
  refine and_congr (forall₂_congr fun field hfield ↦ ?_) (forall₂_congr fun field hfield ↦ ?_)
  · rw [h field hfield]
  · rw [h field hfield]

theorem merge?_filter_isOption :
    o.merge? (entries.filter (isOption ·.1)) = o.merge? entries :=
  merge?_congr fun _ ↦ lastValue?_filter_isOption

theorem merge?_nil (o : Options) : o.merge? [] = some o :=
  merge?_eq_some_iff.2 ⟨fun _ _ _ h ↦ absurd h (Option.some_ne_none _).symm, fun _ _ ↦ rfl⟩

/-- Two objects in a row are one object laid over the other. -/
theorem merge?_merge? {a : Options} (h : o.merge? lower = some a) :
    a.merge? upper = o.merge? (laidOver lower upper) := by
  obtain ⟨hadmits, hvalue⟩ := merge?_eq_some_iff.1 h
  refine Option.ext fun r ↦ ?_
  rw [merge?_eq_some_iff, merge?_eq_some_iff]
  refine and_congr (forall₂_congr fun field hfield ↦ ?_) (forall₂_congr fun field hfield ↦ ?_)
  · rw [lastValue?_laidOver]
    rcases lastValue? upper field.name with _ | value
    · simpa using hadmits field hfield
    · rfl
  · rw [lastValue?_laidOver, hvalue field hfield]
    rcases lastValue? upper field.name with _ | value <;> rfl

/-! ## Writing down and reading back -/

/-- The numbers of the options fit the machine words that hold them. -/
structure InRange (o : Options) : Prop where
  seed : -0x8000000000000000 ≤ o.seed ∧ o.seed < 0x8000000000000000
  memorySize : o.memorySize < 0x10000000000000000
  fixedInitial : o.fixedInitial < 0x10000000000000000
  fixedFinal : o.fixedFinal < 0x10000000000000000
  maxRedirectDepth : o.maxRedirectDepth < 0x10000000000000000

theorem inRange_iff : o.InRange ↔ ∀ field ∈ fields, Admits field.name (field.value o) := by
  have hsome : (∀ field ∈ fields, Admits field.name (field.value o)) ↔
      ∀ field ∈ fields, (field.set? o (field.value o)).isSome :=
    forall₂_congr fun field hfield ↦ (isSome_set?_iff hfield o _).symm
  have hwords : (strings? (.array (o.stopWords.map .string))).isSome :=
    (reads_texts.isSome_iff _).2 (.texts _)
  have hset : (∀ field ∈ fields, (field.set? o (field.value o)).isSome) ↔
      (-0x8000000000000000 ≤ o.seed ∧ o.seed < 0x8000000000000000) ∧
        (o.memorySize : Int) < 0x10000000000000000 ∧
        (o.fixedInitial : Int) < 0x10000000000000000 ∧ (o.fixedFinal : Int) < 0x10000000000000000 ∧
        (o.maxRedirectDepth : Int) < 0x10000000000000000 := by
    simp [fields, signed?, word?, flag?, Json.string?, hwords]
  rw [hsome, hset]
  constructor
  · rintro ⟨hseed, hmemory, hinitial, hfinal, hdepth⟩
    exact ⟨hseed, by omega, by omega, by omega, by omega⟩
  · rintro ⟨hseed, hmemory, hinitial, hfinal, hdepth⟩
    exact ⟨hseed, by omega, by omega, by omega, by omega⟩

theorem names_toMembers (o : Options) : o.toMembers.map (·.1) = fields.map (·.name) := by
  rw [toMembers, List.map_map]
  rfl

theorem renamed_toMembers (o : Options) : renamed o.toMembers = o.toMembers := by
  simp [renamed, toMembers, fields, canonicalName]

theorem ofList_renamed_toMembers (o : Options) :
    Members.ofList (renamed o.toMembers) = o.toMembers := by
  rw [renamed_toMembers, Members.ofList_eq_self _ (names_toMembers o ▸ nodup_names)]

theorem lastValue?_toMembers (hfield : field ∈ fields) :
    lastValue? o.toMembers field.name = some (field.value o) := by
  rw [← get?_ofList_renamed, ofList_renamed_toMembers]
  exact Members.get?_of_mem _ _ _ (names_toMembers o ▸ nodup_names) (List.mem_map_of_mem hfield)

/-- Any options are read back from what is written for them, over whichever others. -/
theorem merge?_toMembers (h : r.InRange) (o : Options) : o.merge? r.toMembers = some r := by
  refine merge?_eq_some_iff.2 ⟨fun field hfield value hvalue ↦ ?_, fun field hfield ↦ ?_⟩
  · rw [lastValue?_toMembers hfield] at hvalue
    exact Option.some.inj hvalue ▸ inRange_iff.1 h field hfield
  · rw [lastValue?_toMembers hfield, Option.getD_some]

theorem inRange_of_merge? (h : o.InRange) (hmerge : o.merge? entries = some r) : r.InRange := by
  obtain ⟨hadmits, hvalue⟩ := merge?_eq_some_iff.1 hmerge
  refine inRange_iff.2 fun field hfield ↦ ?_
  rw [hvalue field hfield]
  rcases hentry : lastValue? entries field.name with _ | value
  · exact inRange_iff.1 h field hfield
  · exact hadmits field hfield value hentry

/-- The document of the options with the entries inserted one by one under canonical names. -/
def document (o : Options) (entries : Members) : Members :=
  (renamed entries).foldl (fun members (name, value) ↦ members.put name value) o.toMembers

theorem document_eq (o : Options) (entries : Members) :
    o.document entries = laidOver o.toMembers entries := by
  rw [laidOver, renamed_append, Members.ofList, List.foldl_append, ← Members.ofList,
    ofList_renamed_toMembers, document]

theorem eraseDups_of_nodup {l : List String} (h : l.Nodup) : l.eraseDups = l := by
  induction l with
  | nil => rfl
  | cons a l ih =>
    rw [List.nodup_cons] at h
    have hfilter : l.filter (fun b ↦ !b == a) = l :=
      List.filter_eq_self.2 fun b hb ↦ by simpa using ne_of_mem_of_not_mem hb h.1
    rw [List.eraseDups_cons, hfilter, ih h.2]

/-- Reading an object that gives each option at most once is overriding the defaults by it. -/
theorem ofPairs?_eq_merge? {pairs : Members}
    (h : ((renamed (pairs.filter (isOption ·.1))).map (·.1)).Nodup) :
    ofPairs? pairs = ({} : Options).merge? pairs := by
  rw [← merge?_filter_isOption, merge?]
  change _ = override? {} (Members.ofList (renamed (pairs.filter (isOption ·.1))))
  rw [Members.ofList_eq_self _ h]
  have hlength : ((renamed (pairs.filter (isOption ·.1))).map (·.1)).eraseDups.length =
      (renamed (pairs.filter (isOption ·.1))).length := by
    rw [eraseDups_of_nodup h, List.length_map]
  exact if_pos hlength

theorem nodup_renamed_laidOver :
    ((renamed ((laidOver lower upper).filter (isOption ·.1))).map (·.1)).Nodup := by
  have hcanonical : (renamed ((laidOver lower upper).filter (isOption ·.1))).map (·.1) =
      ((laidOver lower upper).filter (isOption ·.1)).map (·.1) := by
    rw [renamed, List.map_map]
    exact List.map_congr_left fun entry hentry ↦
      canonical_of_mem_ofList_renamed (List.mem_of_mem_filter hentry)
  rw [hcanonical]
  exact (Members.nodup_ofList _).sublist (List.filter_sublist.map _)

/-- Writing the options down, inserting the entries and reading the result is overriding in
place. -/
theorem ofPairs?_document (h : o.InRange) (entries : Members) :
    ofPairs? (o.document entries) = o.merge? entries := by
  rw [document_eq, ofPairs?_eq_merge? nodup_renamed_laidOver,
    ← merge?_merge? (merge?_toMembers h {})]

/-- **Options of a script overlay those of its caller.** Overriding succeeds exactly if the last
entry of every option has its type and range. The result has the values of these entries, and the
old values in all other fields; entries that name no option have no effect. Two objects in a row
are one object, the second laid over the first, and the empty object changes nothing. The way
through a document, with the entries inserted under canonical names, gives the same result and no
number that its machine word cannot hold. -/
theorem overlay_field_by_field (o : Options) (entries : Members) :
    ((o.merge? entries).isSome ↔
      ∀ field ∈ fields, ∀ value,
        lastValue? entries field.name = some value → Admits field.name value) ∧
    (∀ r, o.merge? entries = some r → ∀ field ∈ fields,
      field.value r = (lastValue? entries field.name).getD (field.value o)) ∧
    o.merge? (entries.filter (isOption ·.1)) = o.merge? entries ∧
    (∀ r, o.merge? entries = some r →
      ∀ later, r.merge? later = o.merge? (laidOver entries later)) ∧
    o.merge? [] = some o ∧
    (o.InRange → ofPairs? (o.document entries) = o.merge? entries ∧
      ∀ r, o.merge? entries = some r → r.InRange) := by
  refine ⟨isSome_merge?_iff, fun r h ↦ (merge?_eq_some_iff.1 h).2, merge?_filter_isOption,
    fun r h later ↦ merge?_merge? h, merge?_nil o, fun h ↦ ?_⟩
  exact ⟨ofPairs?_document h entries, fun r hmerge ↦ inRange_of_merge? h hmerge⟩

/-- Two entries for one option, and one for none. -/
theorem redirect_marker_overrides_goto_marker :
    let caller : Options := { seed := 7 }
    let entries : Members :=
      [("goto_marker", .string "->"), ("mystery", .null), ("redirect_marker", .string "go"),
        ("fixed_initial", .number (.int 2))]
    let overridden : Options := { seed := 7, gotoMarker := "go", fixedInitial := 2 }
    caller.merge? entries = some overridden ∧ caller.InRange ∧
      ofPairs? (caller.document entries) = some overridden ∧
      overridden.merge? [("goto_marker", .string "=")] =
        caller.merge? (laidOver entries [("goto_marker", .string "=")]) := by
  intro caller entries overridden
  have hmerge : caller.merge? entries = some overridden := rfl
  have hrange : caller.InRange := ⟨by decide, by decide, by decide, by decide, by decide⟩
  obtain ⟨-, -, -, htwice, -, hdocument⟩ := overlay_field_by_field caller entries
  exact ⟨hmerge, hrange, (hdocument hrange).1.trans hmerge, htwice overridden hmerge _⟩

end Dialogue.Options
