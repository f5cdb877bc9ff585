import Dialogue.Json.Basic
import Mathlib.Data.List.Induction
import Mathlib.Data.List.Nodup

/-!
# Members that are set one after the other

The members of an object come from a list of entries, each of which sets its name. What an object
holds under a name is the last value that the entries give it, and each name is there once. An
object whose names are distinct comes out of its own entries as it is.
-/

namespace Dialogue.Members

variable (members pairs : Members) (name : String) (value : Json)

theorem names_put :
    (put members name value).map (·.1) =
      if name ∈ members.map (·.1) then members.map (·.1) else members.map (·.1) ++ [name] := by
  induction members with
  | nil => simp [put]
  | cons entry rest ih =>
    obtain ⟨n, v⟩ := entry
    rw [put]
    by_cases h : n = name
    · simp [h]
    · rw [if_neg (by simpa using h), List.map_cons, ih, List.map_cons]
      by_cases hrest : name ∈ rest.map (·.1)
      · rw [if_pos hrest, if_pos (List.mem_cons_of_mem n hrest)]
      · rw [if_neg hrest, if_neg (by simp_all [eq_comm]), List.cons_append]

variable {members pairs name} in
theorem put_of_notMem (h : name ∉ members.map (·.1)) :
    put members name value = members ++ [(name, value)] := by
  induction members with
  | nil => rfl
  | cons entry rest ih =>
    rw [List.map_cons, List.mem_cons, not_or] at h
    rw [put, if_neg (by simpa using Ne.symm h.1), ih h.2, List.cons_append]

theorem ofList_concat : ofList (pairs ++ [(name, value)]) = put (ofList pairs) name value := by
  rw [ofList, List.foldl_append]
  rfl

theorem nodup_ofList : ((ofList pairs).map (·.1)).Nodup := by
  induction pairs using List.reverseRecOn with
  | nil => exact List.nodup_nil
  | append_singleton pairs entry ih =>
    rw [ofList_concat, names_put]
    split
    · exact ih
    · next h =>
      refine List.nodup_append.2 ⟨ih, List.nodup_singleton _, fun n hn m hm hnm ↦ h ?_⟩
      rwa [← List.mem_singleton.1 hm, ← hnm]

theorem ofList_eq_self (h : (pairs.map (·.1)).Nodup) : ofList pairs = pairs := by
  induction pairs using List.reverseRecOn with
  | nil => rfl
  | append_singleton pairs entry ih =>
    rw [List.map_append, List.nodup_append] at h
    rw [ofList_concat, ih h.1, put_of_notMem]
    exact fun hmem ↦ h.2.2 _ hmem entry.1 (List.mem_singleton_self _) rfl

theorem get?_of_mem (hnodup : (members.map (·.1)).Nodup) (hmem : (name, value) ∈ members) :
    members.get? name = some value := by
  obtain ⟨before, after, rfl⟩ := List.append_of_mem hmem
  rw [List.map_append, List.map_cons, List.nodup_append] at hnodup
  refine List.lookup_eq_some_iff.2 ⟨before, after, rfl, fun entry hentry ↦ ?_⟩
  have hne := hnodup.2.2 entry.1 (List.mem_map_of_mem hentry) name List.mem_cons_self
  exact bne_iff_ne.2 hne.symm

/-- Of the entries of one name, the last counts. -/
theorem get?_ofList :
    (ofList pairs).get? name = (pairs.filter (·.1 == name)).getLast?.map (·.2) := by
  induction pairs using List.reverseRecOn with
  | nil => rfl
  | append_singleton pairs entry ih =>
    rw [ofList_concat, get?_put, ih, List.filter_append]
    by_cases h : name = entry.1
    · simp [h]
    · simp [h, Ne.symm h]

theorem mem_names_ofList : name ∈ (ofList pairs).map (·.1) ↔ name ∈ pairs.map (·.1) := by
  induction pairs using List.reverseRecOn with
  | nil => rfl
  | append_singleton pairs entry ih =>
    rw [ofList_concat, names_put, List.map_append, List.mem_append, ← ih]
    split
    · next h => exact ⟨.inl, fun hmem ↦ hmem.elim id fun hn ↦ List.mem_singleton.1 hn ▸ h⟩
    · exact List.mem_append

end Dialogue.Members
