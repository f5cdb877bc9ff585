import Dialogue.Options
import Mathlib.Data.List.Nodup

/-!
# Setting options

Every option is read from a document, and set, in the same way: a `Kind` tells which values fit,
and a value that fits is put in one place of the list of all values (`Sets`). The table of options
is consulted row by row in `sets_of_mem_zipIdx`, and nowhere else. Behind that an option is its name
and its type: setting it succeeds for the values that it admits (`isSome_set?_iff`) and leaves the
other options as they were (`value_of_set?`).

Overriding sets one option after the other. As each is set once and none disturbs another, what
comes out is described field by field (`override?_eq_some_iff`).
-/

namespace Dialogue

namespace Options

/-! ## Types of options -/

/-- The types that options have. -/
inductive Kind where
  | signed
  | word
  | flag
  | text
  | texts

/-- The values of a type: numbers are whole and in the range of a machine word. -/
inductive Kind.Holds : Kind → Json → Prop where
  | signed {n : Int} (low : -0x8000000000000000 ≤ n) (high : n < 0x8000000000000000) :
      Holds .signed (.number (.int n))
  | word {n : Int} (low : 0 ≤ n) (high : n < 0x10000000000000000) : Holds .word (.number (.int n))
  | flag (b : Bool) : Holds .flag (.bool b)
  | text (s : String) : Holds .text (.string s)
  | texts (l : List String) : Holds .texts (.array (l.map .string))

/-- The type of each option, in the order of `fields`. -/
def kinds : List (String × Kind) :=
  [("seed", .signed), ("memory_size", .word), ("shuffle_choices", .flag),
    ("randomize_choices", .flag), ("lowercase_input", .flag), ("lowercase_output", .flag),
    ("wildcard_marker", .text), ("tag_marker", .text), ("memory_marker", .text),
    ("goto_marker", .text), ("param_marker_pre", .text), ("param_marker_post", .text),
    ("stop_chars", .text), ("stop_words", .texts), ("allow_chars", .text), ("allow_emoji", .flag),
    ("fallback_reply", .text), ("fixed_initial", .word), ("fixed_final", .word),
    ("max_redirect_depth", .word)]

/-- The value has the type of the option `name`. A name that no option has admits any value. -/
def Admits (name : String) (value : Json) : Prop :=
  ∀ kind, (name, kind) ∈ kinds → kind.Holds value

/-- `read?` reads the values of one type and no others, and `write` writes what was read. -/
structure Reads {α : Type} (kind : Kind) (read? : Json → Option α) (write : α → Json) : Prop where
  isSome_iff (value : Json) : (read? value).isSome ↔ kind.Holds value
  write_eq {value : Json} {v : α} : read? value = some v → write v = value

theorem reads_signed : Reads .signed signed? fun n ↦ .number (.int n) where
  isSome_iff value := by
    constructor
    · fun_cases signed? value with
      | case1 n h => exact fun _ ↦ .signed h.1 h.2
      | case2 | case3 => simp
    · intro h
      cases h with
      | signed low high =>
        rw [signed?, if_pos ⟨low, high⟩]
        rfl
  write_eq {value v} h := by
    revert h
    fun_cases signed? value <;> simp +contextual

theorem reads_word : Reads .word word? fun n : Nat ↦ .number (.int n) where
  isSome_iff value := by
    constructor
    · fun_cases word? value with
      | case1 n h => exact fun _ ↦ .word h.1 h.2
      | case2 | case3 => simp
    · intro h
      cases h with
      | word low high =>
        rw [word?, if_pos ⟨low, high⟩]
        rfl
  write_eq {value v} h := by
    revert h
    fun_cases word? value with
    | case1 n h =>
      intro hv
      rw [← Option.some.inj hv, Int.toNat_of_nonneg h.1]
    | case2 | case3 => simp

theorem reads_flag : Reads .flag flag? .bool where
  isSome_iff value := by
    constructor
    · fun_cases flag? value with
      | case1 b => exact fun _ ↦ .flag b
      | case2 => simp
    · intro h
      cases h
      rfl
  write_eq {value v} h := by
    revert h
    fun_cases flag? value <;> simp +contextual

theorem reads_text : Reads .text Json.string? .string where
  isSome_iff value := by
    constructor
    · fun_cases Json.string? value with
      | case1 s => exact fun _ ↦ .text s
      | case2 => simp
    · intro h
      cases h
      rfl
  write_eq {value v} h := by
    revert h
    fun_cases Json.string? value <;> simp +contextual

theorem mapM_string?_eq_some_iff (items : List Json) (l : List String) :
    items.mapM Json.string? = some l ↔ items = l.map .string := by
  induction items generalizing l with
  | nil => cases l <;> simp
  | cons item items ih =>
    cases l with
    | nil => simp [List.mapM_cons, Option.bind_eq_some_iff]
    | cons s l =>
      have hitem : item.string? = some s ↔ item = .string s := by
        cases item <;> simp [Json.string?]
      simp [List.mapM_cons, Option.bind_eq_some_iff, ih, hitem]

theorem reads_texts : Reads .texts strings? fun l ↦ .array (l.map .string) where
  isSome_iff value := by
    constructor
    · fun_cases strings? value with
      | case1 items =>
        intro h
        obtain ⟨l, hl⟩ := Option.isSome_iff_exists.1 h
        rw [(mapM_string?_eq_some_iff items l).1 hl]
        exact .texts l
      | case2 => simp
    · intro h
      cases h with
      | texts l =>
        rw [strings?, (mapM_string?_eq_some_iff _ l).2 rfl]
        rfl
  write_eq {value v} h := by
    revert h
    fun_cases strings? value with
    | case1 items =>
      intro h
      rw [(mapM_string?_eq_some_iff items v).1 h]
    | case2 => simp

/-! ## Setting one option -/

/-- The values of all options, in the order of `fields`. -/
def values (o : Options) : List Json := fields.map (·.value o)

theorem values_injective : Function.Injective values := by
  intro o o' h
  obtain ⟨⟩ := o
  obtain ⟨⟩ := o'
  have hwords := List.map_injective_iff.2 fun (s s' : String) (h : Json.string s = .string s') ↦
    Json.string.inj h
  simpa [values, fields, hwords.eq_iff, Int.natCast_inj] using h

/-- `set?` takes the values of one type and no others, and puts them in one place among the values
of the options. -/
structure Sets (kind : Kind) (place : Nat) (set? : Options → Json → Option Options) : Prop where
  isSome_iff (o : Options) (value : Json) : (set? o value).isSome ↔ kind.Holds value
  values_eq {o r : Options} {value : Json} :
    set? o value = some r → r.values = o.values.set place value

theorem Reads.sets {α : Type} {kind : Kind} {place : Nat} {read? : Json → Option α}
    {write : α → Json} {put : Options → α → Options} (h : Reads kind read? write)
    (hput : ∀ o v, (put o v).values = o.values.set place (write v)) :
    Sets kind place fun o value ↦ (read? value).map (put o) where
  isSome_iff o value := by rw [Option.isSome_map, h.isSome_iff]
  values_eq {o r value} hset := by
    obtain ⟨v, hv, rfl⟩ := Option.map_eq_some_iff.1 hset
    rw [hput, h.write_eq hv]

/-- The table of options agrees with the table of their types, row by row. -/
theorem sets_of_mem_zipIdx :
    ∀ row ∈ (fields.zip kinds).zipIdx,
      row.1.1.name = row.1.2.1 ∧ Sets row.1.2.2 row.2 row.1.1.set? := by
  simp only [fields, kinds, List.zip_cons_cons, List.zip_nil_right, List.zipIdx_cons,
    List.zipIdx_nil, List.forall_mem_cons]
  refine ⟨⟨trivial, reads_signed.sets ?_⟩, ⟨trivial, reads_word.sets ?_⟩,
    ⟨trivial, reads_flag.sets ?_⟩, ⟨trivial, reads_flag.sets ?_⟩, ⟨trivial, reads_flag.sets ?_⟩,
    ⟨trivial, reads_flag.sets ?_⟩, ⟨trivial, reads_text.sets ?_⟩, ⟨trivial, reads_text.sets ?_⟩,
    ⟨trivial, reads_text.sets ?_⟩, ⟨trivial, reads_text.sets ?_⟩, ⟨trivial, reads_text.sets ?_⟩,
    ⟨trivial, reads_text.sets ?_⟩, ⟨trivial, reads_text.sets ?_⟩, ⟨trivial, reads_texts.sets ?_⟩,
    ⟨trivial, reads_text.sets ?_⟩, ⟨trivial, reads_flag.sets ?_⟩, ⟨trivial, reads_text.sets ?_⟩,
    ⟨trivial, reads_word.sets ?_⟩, ⟨trivial, reads_word.sets ?_⟩, ⟨trivial, reads_word.sets ?_⟩,
    List.forall_mem_nil _⟩ <;>
  exact fun _ _ ↦ rfl

theorem nodup_names : (fields.map (·.name)).Nodup := by decide

theorem nodup_kinds : (kinds.map (·.1)).Nodup := by decide

variable {o r : Options} {field other : Field}

theorem exists_sets (hfield : field ∈ fields) :
    ∃ kind place, (field.name, kind) ∈ kinds ∧ fields[place]? = some field ∧
      Sets kind place field.set? := by
  obtain ⟨place, hplace⟩ := List.mem_iff_getElem?.1 hfield
  have hlength : fields.length = kinds.length := rfl
  have hlt := (List.getElem?_eq_some_iff.1 hplace).1
  have hkind := List.getElem?_eq_getElem (hlength ▸ hlt : place < kinds.length)
  have hrow : ((field, kinds[place]), place) ∈ (fields.zip kinds).zipIdx := by
    rw [List.mem_zipIdx_iff_getElem?, List.getElem?_zip_eq_some]
    exact ⟨hplace, hkind⟩
  obtain ⟨hname, hsets⟩ := sets_of_mem_zipIdx _ hrow
  exact ⟨_, place, by rw [hname]; exact List.getElem_mem _, hplace, hsets⟩

/-- A field takes the values that its name admits and no others. -/
theorem isSome_set?_iff (hfield : field ∈ fields) (o : Options) (value : Json) :
    (field.set? o value).isSome ↔ Admits field.name value := by
  obtain ⟨kind, place, hkind, -, hsets⟩ := exists_sets hfield
  rw [hsets.isSome_iff]
  refine ⟨fun h kind' hkind' ↦ ?_, fun h ↦ h kind hkind⟩
  have heq := List.inj_on_of_nodup_map nodup_kinds hkind hkind' rfl
  rwa [← (Prod.mk.inj heq).2]

/-- Setting a field leaves all others as they were. -/
theorem value_of_set? {value : Json} (hfield : field ∈ fields) (hother : other ∈ fields)
    (h : field.set? o value = some r) :
    other.value r = if other.name = field.name then value else other.value o := by
  obtain ⟨kind, place, -, hplace, hsets⟩ := exists_sets hfield
  obtain ⟨i, hi⟩ := List.mem_iff_getElem?.1 hother
  have hvalue (o : Options) : o.values[i]? = some (other.value o) := by
    rw [values, List.getElem?_map, hi]
    rfl
  have hname : place = i ↔ other.name = field.name := by
    constructor
    · rintro rfl
      rw [Option.some.inj (hi.symm.trans hplace)]
    · intro heq
      have hlt : place < (fields.map (·.name)).length := by
        rw [List.length_map]
        exact (List.getElem?_eq_some_iff.1 hplace).1
      refine (List.getElem?_inj hlt nodup_names).1 ?_
      rw [List.getElem?_map, List.getElem?_map, hplace, hi, Option.map_some, Option.map_some, heq]
  have hr := hvalue r
  rw [hsets.values_eq h, List.getElem?_set] at hr
  by_cases hi' : place = i
  · subst hi'
    have hlt : place < o.values.length := (List.getElem?_eq_some_iff.1 (hvalue o)).1
    rw [if_pos rfl, if_pos hlt] at hr
    rw [if_pos (hname.1 rfl), Option.some.inj hr]
  · rw [if_neg hi', hvalue o] at hr
    rw [if_neg (mt hname.2 hi'), Option.some.inj hr]

/-! ## Setting one option after the other -/

/-- Options with the value that some members give to one field, if they do: a step of
`override?`. -/
def overrideField? (members : Members) (o : Options) (field : Field) : Option Options :=
  match members.get? field.name with
  | none => some o
  | some value => field.set? o value

variable {members : Members}

theorem override?_eq (o : Options) (members : Members) :
    o.override? members = fields.foldlM (overrideField? members) o := rfl

theorem isSome_overrideField?_iff (hfield : field ∈ fields) :
    (overrideField? members o field).isSome ↔
      ∀ value, members.get? field.name = some value → Admits field.name value := by
  rw [overrideField?]
  rcases members.get? field.name with _ | value
  · simp
  · simp [isSome_set?_iff hfield]

theorem value_of_overrideField? (hfield : field ∈ fields) (hother : other ∈ fields)
    (h : overrideField? members o field = some r) :
    other.value r =
      if other.name = field.name then (members.get? other.name).getD (other.value o)
      else other.value o := by
  rw [overrideField?] at h
  rcases hget : members.get? field.name with _ | value
  · rw [hget] at h
    rw [← Option.some.inj h]
    split
    · next hname => rw [hname, hget, Option.getD_none]
    · rfl
  · rw [hget] at h
    rw [value_of_set? hfield hother h]
    split
    · next hname => rw [hname, hget, Option.getD_some]
    · rfl

variable {table : List Field}

theorem isSome_foldlM_iff (htable : ∀ field ∈ table, field ∈ fields) (o : Options) :
    (table.foldlM (overrideField? members) o).isSome ↔
      ∀ field ∈ table, ∀ value,
        members.get? field.name = some value → Admits field.name value := by
  induction table generalizing o with
  | nil => simp
  | cons field table ih =>
    obtain ⟨hfield, hrest⟩ := List.forall_mem_cons.1 htable
    rw [List.foldlM_cons, List.forall_mem_cons, ← isSome_overrideField?_iff (o := o) hfield]
    rcases overrideField? members o field with _ | o'
    · simp
    · simp [ih hrest]

theorem value_of_foldlM (htable : ∀ field ∈ table, field ∈ fields) (hother : other ∈ fields)
    (h : table.foldlM (overrideField? members) o = some r) :
    other.value r =
      if other.name ∈ table.map (·.name) then (members.get? other.name).getD (other.value o)
      else other.value o := by
  induction table generalizing o with
  | nil => simp_all
  | cons field table ih =>
    obtain ⟨hfield, hrest⟩ := List.forall_mem_cons.1 htable
    rw [List.foldlM_cons] at h
    obtain ⟨o', hfirst, hrun⟩ := Option.bind_eq_some_iff.1 h
    rw [ih hrest hrun, value_of_overrideField? hfield hother hfirst, List.map_cons]
    rcases members.get? other.name with _ | value
    · simp
    · by_cases hname : other.name = field.name <;> simp [hname]

theorem isSome_override?_iff :
    (o.override? members).isSome ↔
      ∀ field ∈ fields, ∀ value,
        members.get? field.name = some value → Admits field.name value := by
  rw [override?_eq, isSome_foldlM_iff fun _ ↦ id]

theorem ext_fields (h : ∀ field ∈ fields, field.value o = field.value r) : o = r :=
  values_injective (List.map_congr_left h)

/-- Overriding, told by the values of the fields. -/
theorem override?_eq_some_iff :
    o.override? members = some r ↔
      (∀ field ∈ fields, ∀ value,
        members.get? field.name = some value → Admits field.name value) ∧
      ∀ field ∈ fields, field.value r = (members.get? field.name).getD (field.value o) := by
  have hvalue {a : Options} (h : o.override? members = some a) (field : Field)
      (hfield : field ∈ fields) :
      field.value a = (members.get? field.name).getD (field.value o) := by
    rw [value_of_foldlM (fun _ ↦ id) hfield h, if_pos (List.mem_map_of_mem hfield)]
  rw [← isSome_override?_iff (o := o)]
  constructor
  · intro h
    exact ⟨by rw [h]; rfl, hvalue h⟩
  · rintro ⟨hsome, hr⟩
    obtain ⟨a, ha⟩ := Option.isSome_iff_exists.1 hsome
    rw [ha, ext_fields fun field hfield ↦ (hvalue ha field hfield).trans (hr field hfield).symm]

end Options

end Dialogue
