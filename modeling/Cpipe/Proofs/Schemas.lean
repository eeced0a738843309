import Cpipe.Proofs.Fields
import Cpipe.Schemas.Pipeline

namespace Cpipe.Proofs.Schemas
open Cpipe.Runtime Cpipe.Schemas Cpipe.Proofs.Fields

variable {fields : Params} {names : List String} {props : List (String × Schema)} {v : Json}

/-! ### Keywords -/

theorem allOf_iff {schemas : List Schema} :
    allOf schemas v = true ↔ ∀ schema ∈ schemas, schema v = true := by
  simp [allOf]

theorem properties_object : properties props (.object fields) = true ↔
    ∀ p ∈ props, ∀ value, Params.lookup fields p.1 = some value → p.2 value = true := by
  simp only [properties, List.all_eq_true, Option.all_eq_true_iff_get]
  refine forall₂_congr (fun p _ => ?_)
  cases Params.lookup fields p.1 <;> simp

theorem noAdditional_object : noAdditionalProperties props (.object fields) = true ↔
    ∀ f ∈ fields, f.1 ∈ props.map Prod.fst := by
  simp [noAdditionalProperties]

theorem required_object : required names (.object fields) = true ↔
    ∀ name ∈ names, Params.lookup fields name ≠ none := by
  simp [required, Option.isSome_iff_ne_none]

theorem closed_object : closed names props (.object fields) = true ↔
    (∀ name ∈ names, Params.lookup fields name ≠ none) ∧
    (∀ f ∈ fields, f.1 ∈ props.map Prod.fst) ∧
    ∀ p ∈ props, ∀ value, Params.lookup fields p.1 = some value → p.2 value = true := by
  rw [closed, allOf_iff, ← required_object, ← noAdditional_object, ← properties_object]
  simp [type]

theorem closed_isObject (h : closed names props v = true) : ∃ fields, v = .object fields := by
  have htype := allOf_iff.mp h (type .object) List.mem_cons_self
  cases v with
  | object fields => exact ⟨fields,rfl⟩
  | _ => cases htype

theorem key_of_lookup {key : String} {value : Json} (h : Params.lookup fields key = some value) :
    ∃ f ∈ fields, f.1 = key := by
  obtain ⟨f,hf,_⟩ := Option.map_eq_some_iff.mp h
  exact ⟨f,List.mem_of_find?_eq_some hf,by simpa using List.find?_some hf⟩

theorem lookup_ne_none_iff {key : String} :
    Params.lookup fields key ≠ none ↔ key ∈ fields.map Prod.fst := by
  simp [Params.lookup]

theorem version_of_const {text : String} (h : const text v = true) : v = .string text := by
  cases v with
  | string s => exact congrArg Json.string (of_decide_eq_true h)
  | _ => cases h

theorem pipeline_version {version : String} {node : Schema}
    (h : pipeline version node (.object fields) = true) :
    Params.lookup fields "version" = some (.string version) := by
  obtain ⟨hrequired,_,hprops⟩ := closed_object.mp h
  obtain ⟨value,hvalue⟩ := Option.ne_none_iff_exists'.mp (hrequired "version" (by simp))
  have hconst := hprops ("version",const version) (by simp [pipelineProperties]) value hvalue
  rw [hvalue, version_of_const hconst]

/-- The version that is looked at first is the one the schema asks for. -/
theorem validate_iff : validatePipelineJson v = .ok () ↔ pipelineV04 v = true := by
  constructor
  · intro h
    unfold validatePipelineJson at h
    simp only at h
    split at h
    · split at h
      · split_ifs at h with hversion hadmits
        exact hadmits
      · cases h
    · cases h
  · intro h
    obtain ⟨fields,rfl⟩ := closed_isObject h
    have hversion := pipeline_version h
    simp [validatePipelineJson, hversion, h]

end Cpipe.Proofs.Schemas
