import Cpipe.Core.Manifest

/-! Lookups and assignments in JSON objects. -/

namespace Cpipe.Proofs.Fields

variable {α β : Type}

theorem lookup_cons (p : String × α) (ps : List (String × α)) (key : String) :
    Params.lookup (p :: ps) key = if p.1 = key then some p.2 else Params.lookup ps key := by
  by_cases h : p.1 = key
  · simp [Params.lookup, h]
  · simp [Params.lookup, h]

theorem assign_cons_ne {p : String × α} {key : String} (h : p.1 ≠ key) (ps : List (String × α))
    (value : α) : Params.assign (p :: ps) key value = p :: Params.assign ps key value := by
  simp only [Params.assign, List.any_cons, beq_iff_eq, h, List.map_cons, if_false,
    beq_eq_false_iff_ne.mpr h, Bool.false_or]
  split
  · rfl
  · rfl

theorem assign_cons_eq {p : String × α} {key : String} (h : p.1 = key) (ps : List (String × α))
    (value : α) : Params.assign (p :: ps) key value =
      (key,value) :: ps.map (fun q => if q.1 == key then (key,value) else q) := by
  simp [Params.assign, h]

theorem lookup_assign_self (ps : List (String × α)) (key : String) (value : α) :
    Params.lookup (Params.assign ps key value) key = some value := by
  induction ps with
  | nil => simp [Params.assign, Params.lookup]
  | cons p ps ih =>
    by_cases h : p.1 = key
    · rw [assign_cons_eq h, lookup_cons, if_pos rfl]
    · rw [assign_cons_ne h, lookup_cons, if_neg h]
      exact ih

theorem lookup_replace_ne (ps : List (String × α)) {key other : String} (value : α) (hne : other ≠ key) :
    Params.lookup (ps.map (fun q => if q.1 == key then (key,value) else q)) other =
      Params.lookup ps other := by
  induction ps with
  | nil => rfl
  | cons p ps ih =>
    rw [List.map_cons, lookup_cons, lookup_cons, ih]
    by_cases h : p.1 = key
    · simp [h, hne.symm]
    · simp [h]

theorem lookup_assign_ne (ps : List (String × α)) {key other : String} (value : α) (hne : other ≠ key) :
    Params.lookup (Params.assign ps key value) other = Params.lookup ps other := by
  induction ps with
  | nil => simp [Params.assign, Params.lookup, hne.symm]
  | cons p ps ih =>
    by_cases h : p.1 = key
    · rw [assign_cons_eq h, lookup_cons, lookup_cons, if_neg hne.symm, if_neg (h ▸ hne.symm),
        lookup_replace_ne ps value hne]
    · rw [assign_cons_ne h, lookup_cons, lookup_cons, ih]

theorem replace_absent {ps : List (String × α)} {key : String} (value : α)
    (h : key ∉ ps.map Prod.fst) :
    ps.map (fun q => if q.1 == key then (key,value) else q) = ps := by
  refine (List.map_congr_left (fun q hq => ?_)).trans (List.map_id ps)
  have hne : q.1 ≠ key := fun he => h (List.mem_map.mpr ⟨q,hq,he⟩)
  simp [hne]

/-- Writing the value a field has changes nothing where every key stands once. -/
theorem assign_same {ps : List (String × α)} {key : String} {value : α}
    (hkeys : (ps.map Prod.fst).Nodup) (h : Params.lookup ps key = some value) :
    Params.assign ps key value = ps := by
  induction ps with
  | nil => cases h
  | cons p ps ih =>
    obtain ⟨hnot,hrest⟩ := List.nodup_cons.mp hkeys
    rw [lookup_cons] at h
    by_cases hp : p.1 = key
    · rw [if_pos hp] at h
      subst hp
      obtain rfl := Option.some.inj h
      rw [assign_cons_eq rfl, replace_absent p.2 hnot]
    · rw [if_neg hp] at h
      rw [assign_cons_ne hp, ih hrest h]

/-- Nor does writing one that a function does not tell from it, as far as that function goes. -/
theorem map_assign {ps : List (String × α)} {key : String} {old value : α} {f : α → β}
    (hkeys : (ps.map Prod.fst).Nodup) (h : Params.lookup ps key = some old)
    (hf : f value = f old) :
    (Params.assign ps key value).map (fun p => f p.2) = ps.map (fun p => f p.2) := by
  induction ps with
  | nil => cases h
  | cons p ps ih =>
    obtain ⟨hnot,hrest⟩ := List.nodup_cons.mp hkeys
    rw [lookup_cons] at h
    by_cases hp : p.1 = key
    · rw [if_pos hp] at h
      obtain rfl := Option.some.inj h
      rw [assign_cons_eq hp, replace_absent value (hp ▸ hnot), List.map_cons, List.map_cons, hf]
    · rw [if_neg hp] at h
      rw [assign_cons_ne hp, List.map_cons, List.map_cons, ih hrest h]

theorem lookup_map (f : α → β) (ps : List (String × α)) (key : String) :
    Params.lookup (ps.map (fun p => (p.1,f p.2))) key = (Params.lookup ps key).map f := by
  induction ps with
  | nil => rfl
  | cons p ps ih =>
    rw [List.map_cons, lookup_cons, lookup_cons, ih]
    split_ifs
    · rfl
    · rfl

theorem keys_assign {ps : List (String × α)} {key : String} {old value : α}
    (h : Params.lookup ps key = some old) :
    (Params.assign ps key value).map Prod.fst = ps.map Prod.fst := by
  induction ps with
  | nil => cases h
  | cons p ps ih =>
    rw [lookup_cons] at h
    by_cases hp : p.1 = key
    · rw [assign_cons_eq hp, List.map_cons, List.map_cons, List.map_map, hp]
      congr 1
      refine List.map_congr_left (fun q _ => ?_)
      by_cases hq : q.1 = key
      · simp [hq]
      · simp [hq]
    · rw [if_neg hp] at h
      rw [assign_cons_ne hp, List.map_cons, List.map_cons, ih h]

end Cpipe.Proofs.Fields
