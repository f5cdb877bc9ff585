import Mathlib.Data.List.Forall2

/-!
# Readers that stop at the first defect

A script is read by small readers one after the other, each of which gives a value or stops the
whole reading. Of such a reading two things are said here. It succeeds exactly if every reader in
it does (`Reader.bind_eq_ok_iff`, `Reader.mapM_eq_ok_iff`). And if each reader in it *reports* some
list of defects, in that it stops at the first of them and succeeds if there is none, then so does
the whole, for the lists put one behind the other (`Reader.Reports.bind`, `Reader.Reports.mapM`).

So what is wrong with a document can be listed in full, without regard to where a reader stops.
-/

namespace Dialogue.Reader

variable {ε α β : Type}

/-! ## Success -/

theorem bind_eq_ok_iff {x : Except ε α} {f : α → Except ε β} {b : β} :
    x >>= f = .ok b ↔ ∃ a, x = .ok a ∧ f a = .ok b := by
  rcases x with e | a
  · constructor
    · intro h
      cases h
    · rintro ⟨a, h, -⟩
      cases h
  · constructor
    · intro h
      exact ⟨a, rfl, h⟩
    · rintro ⟨a', h, hb⟩
      rwa [← Except.ok.inj h] at hb

theorem map_eq_ok_iff {x : Except ε α} {f : α → β} {b : β} :
    x.map f = .ok b ↔ ∃ a, x = .ok a ∧ f a = b := by
  rcases x with e | a <;> simp [Except.map]

theorem mapError_eq_ok_iff {δ : Type} {x : Except ε α} {f : ε → δ} {a : α} :
    x.mapError f = .ok a ↔ x = .ok a := by
  rcases x with e | a' <;> simp [Except.mapError]

theorem bind_eq_error_iff {x : Except ε α} {f : α → Except ε β} {e : ε} :
    x >>= f = .error e ↔ x = .error e ∨ ∃ a, x = .ok a ∧ f a = .error e := by
  rcases x with e' | a
  · constructor
    · intro h
      exact .inl (congrArg Except.error (Except.error.inj h))
    · rintro (h | ⟨a, h, -⟩)
      · rw [Except.error.inj h]
        rfl
      · cases h
  · constructor
    · intro h
      exact .inr ⟨a, rfl, h⟩
    · rintro (h | ⟨a', h, he⟩)
      · cases h
      · rwa [← Except.ok.inj h] at he

theorem mapError_eq_error_iff {δ : Type} {x : Except ε α} {f : ε → δ} {e : δ} :
    x.mapError f = .error e ↔ ∃ d, x = .error d ∧ e = f d := by
  rcases x with d | a <;> simp [Except.mapError, eq_comm]

/-- A list is read if each of its items is. -/
theorem mapM_eq_ok_iff {f : α → Except ε β} {items : List α} {values : List β} :
    items.mapM f = .ok values ↔
      List.Forall₂ (fun item value ↦ f item = .ok value) items values := by
  induction items generalizing values with
  | nil =>
    rw [List.mapM_nil, List.forall₂_nil_left_iff]
    exact ⟨fun h ↦ (Except.ok.inj h).symm, fun h ↦ h ▸ rfl⟩
  | cons item items ih =>
    simp only [List.mapM_cons, bind_eq_ok_iff, ih, List.forall₂_cons_left_iff]
    constructor
    · rintro ⟨value, hvalue, values, hvalues, h⟩
      exact ⟨value, values, hvalue, hvalues, (Except.ok.inj h).symm⟩
    · rintro ⟨value, values, hvalue, hvalues, rfl⟩
      exact ⟨value, hvalue, values, hvalues, rfl⟩

theorem exists_mapM_eq_ok_iff {f : α → Except ε β} {items : List α} :
    (∃ values, items.mapM f = .ok values) ↔ ∀ item ∈ items, ∃ value, f item = .ok value := by
  induction items with
  | nil => exact ⟨fun _ ↦ List.forall_mem_nil _, fun _ ↦ ⟨[], rfl⟩⟩
  | cons item items ih =>
    rw [List.forall_mem_cons, ← ih]
    simp only [mapM_eq_ok_iff, List.forall₂_cons_left_iff]
    constructor
    · rintro ⟨_, value, values, hvalue, hvalues, rfl⟩
      exact ⟨⟨value, hvalue⟩, values, hvalues⟩
    · rintro ⟨⟨value, hvalue⟩, values, hvalues⟩
      exact ⟨_, value, values, hvalue, hvalues, rfl⟩

theorem exists_of_mem_mapM {f : α → Except ε β} {items : List α} {values : List β}
    (h : items.mapM f = .ok values) {value : β} (hvalue : value ∈ values) :
    ∃ item ∈ items, f item = .ok value := by
  have hitems := mapM_eq_ok_iff.1 h
  obtain ⟨i, hi, rfl⟩ := List.mem_iff_getElem.1 hvalue
  obtain ⟨hlength, hitem⟩ := List.forall₂_iff_get.1 hitems
  exact ⟨_, List.get_mem _ _, hitem i (hlength ▸ hi) hi⟩

/-- If each item says by itself what is read from it, then so does the list. -/
theorem eq_filterMap_of_mapM {f : α → Except ε β} {g : α → Option β} {items : List α}
    {values : List β} (hg : ∀ item value, f item = .ok value → g item = some value)
    (h : items.mapM f = .ok values) : values = items.filterMap g := by
  induction mapM_eq_ok_iff.1 h with
  | nil => rfl
  | cons hvalue hvalues ih =>
    rw [List.filterMap_cons, hg _ _ hvalue, ← ih (mapM_eq_ok_iff.2 hvalues)]

/-! ## Defects -/

/-- The defect at which a reading stops. -/
def stop? : Except ε α → Option ε
  | .error defect => some defect
  | .ok _ => none

/-- The reading stops at the first of some defects, and succeeds if there is none. -/
def Reports (x : Except ε α) (defects : List ε) : Prop := stop? x = defects.head?

namespace Reports

variable {x : Except ε α} {ds es : List ε}

theorem ok (a : α) : Reports (.ok a : Except ε α) [] := rfl

theorem error (e : ε) : Reports (.error e : Except ε α) [e] := rfl

theorem isOk_iff (h : Reports x ds) : (∃ a, x = .ok a) ↔ ds = [] := by
  rw [Reports] at h
  rcases x with e | a
  · have hhead : ds.head? = some e := h.symm
    constructor
    · rintro ⟨a, ha⟩
      simp at ha
    · rintro rfl
      simp at hhead
  · simpa using List.head?_eq_none_iff.1 h.symm

theorem eq_error_iff (h : Reports x ds) {e : ε} : x = .error e ↔ ds.head? = some e := by
  rw [← show stop? x = ds.head? from h]
  rcases x with e' | a <;> simp [stop?]

/-- What is read later is not looked at if there is a defect before. -/
theorem bind {f : α → Except ε β} (h : Reports x ds) (hf : ∀ a, x = .ok a → Reports (f a) es) :
    Reports (x >>= f) (ds ++ es) := by
  rcases x with e | a
  · have hhead : ds.head? = some e := h.symm
    rw [Reports, List.head?_append, hhead]
    rfl
  · have hnil : ds = [] := List.head?_eq_none_iff.1 h.symm
    rw [hnil, List.nil_append]
    exact hf a rfl

theorem map (h : Reports x ds) (f : α → β) : Reports (f <$> x) ds := by
  rcases x with e | a <;> exact h

/-- The defects of the items of a list, in their order. -/
theorem mapM {f : α → Except ε β} {defects : α → List ε} {items : List α}
    (h : ∀ item ∈ items, Reports (f item) (defects item)) :
    Reports (items.mapM f) (items.flatMap defects) := by
  induction items with
  | nil => exact ok []
  | cons item items ih =>
    rw [List.mapM_cons, List.flatMap_cons]
    have hrest := ih fun i hi ↦ h i (List.mem_cons_of_mem _ hi)
    exact (h item List.mem_cons_self).bind fun value _ ↦ hrest.map (value :: ·)

end Reports

end Dialogue.Reader
