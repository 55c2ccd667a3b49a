import Mathlib.Data.List.Nodup
import TagNavigator.Json.Basic

/-!
# Fields of objects

Setting a field changes the value of its name and of no other, keeps one value for each name, and
keeps the names in their order, a new one after the others.
-/

namespace TagNavigator.Json

variable {fields : List (JsonString × Json)} {name : JsonString} {value : Json}

theorem setField_of_notMem (h : name ∉ fields.map Prod.fst) :
  setField name value fields = fields ++ [(name, value)]
  := by
  induction fields with
  | nil => rfl
  | cons f fields ih =>
      rw [List.map_cons, List.mem_cons, not_or] at h
      rw [setField, if_neg (Ne.symm h.1), ih h.2, List.cons_append]

theorem map_fst_setField_of_mem (h : name ∈ fields.map Prod.fst) :
  (setField name value fields).map Prod.fst = fields.map Prod.fst
  := by
  induction fields with
  | nil => exact absurd h List.not_mem_nil
  | cons f fields ih =>
      rw [setField]
      split
      · rename_i heq
        rw [List.map_cons, List.map_cons, heq]
      · rename_i hne
        rw [List.map_cons, List.mem_cons] at h
        rw [List.map_cons, List.map_cons, ih (h.resolve_left (Ne.symm hne))]

theorem nodup_setField (h : (fields.map Prod.fst).Nodup) :
  ((setField name value fields).map Prod.fst).Nodup
  := by
  by_cases hmem : name ∈ fields.map Prod.fst
  · rw [map_fst_setField_of_mem hmem]
    exact h
  · rw [setField_of_notMem hmem, List.map_append]
    apply h.append (List.nodup_singleton name)
    exact List.disjoint_singleton.mpr hmem

theorem mem_setField {f : JsonString × Json} (h : f ∈ setField name value fields) :
  f = (name, value) ∨ f ∈ fields
  := by
  induction fields with
  | nil => exact .inl (List.mem_singleton.mp h)
  | cons g fields ih =>
      rw [setField] at h
      split at h
      · rcases List.mem_cons.mp h with heq | hmem
        · exact .inl heq
        · exact .inr (List.mem_cons_of_mem g hmem)
      · rcases List.mem_cons.mp h with rfl | hmem
        · exact .inr List.mem_cons_self
        · exact (ih hmem).imp_right (List.mem_cons_of_mem g)

/-- The names stay in their order. -/
theorem map_fst_prefix_setField :
  fields.map Prod.fst <+: (setField name value fields).map Prod.fst
  := by
  by_cases hmem : name ∈ fields.map Prod.fst
  · simp only [map_fst_setField_of_mem hmem, List.prefix_rfl]
  · rw [setField_of_notMem hmem, List.map_append]
    exact List.prefix_append _ _

theorem field?_setField_self :
  field? (setField name value fields) name = some value
  := by
  induction fields with
  | nil => simp [field?, setField]
  | cons f fields ih =>
      rw [setField]
      split
      · simp [field?]
      · rename_i hne
        obtain ⟨k, v⟩ := f
        simpa [field?, List.lookup_cons, beq_false_of_ne (Ne.symm hne)] using ih

theorem field?_setField_of_ne {other : JsonString} (h : other ≠ name) :
  field? (setField name value fields) other = field? fields other
  := by
  induction fields with
  | nil => simp [field?, setField, List.lookup_cons, beq_false_of_ne h]
  | cons f fields ih =>
      obtain ⟨k, v⟩ := f
      rw [field?, field?] at ih
      rw [setField, field?, field?]
      split
      · rename_i heq
        dsimp only at heq
        rw [heq, List.lookup_cons, List.lookup_cons, beq_false_of_ne h]
      · rw [List.lookup_cons, List.lookup_cons, ih]

end TagNavigator.Json
