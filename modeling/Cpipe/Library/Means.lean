import Mathlib.Algebra.BigOperators.Ring.List
import Mathlib.Algebra.Order.BigOperators.Group.List
import Mathlib.Algebra.Order.Field.Basic
import Mathlib.Tactic.Ring

namespace Library.Means

/-! Means over the cells around a cell, and mixtures of values. -/

variable {K : Type} [Field K] [LinearOrder K] [IsStrictOrderedRing K]

/-- The mean over the cells at some offsets. -/
def mean (offsets : List (Int × Int)) (image : Int → Int → K) (x y : Int) : K :=
  (offsets.map (fun o => image (x + o.1) (y + o.2))).sum/offsets.length

variable {offsets : List (Int × Int)} {image other : Int → Int → K} {x y : Int} {low high v : K}

omit [LinearOrder K] [IsStrictOrderedRing K] in
theorem mean_congr (h : ∀ o ∈ offsets, image (x + o.1) (y + o.2) = other (x + o.1) (y + o.2)) :
    mean offsets image x y = mean offsets other x y := by
  rw [mean, mean, List.map_congr_left h]

theorem mean_between (hne : offsets ≠ [])
    (h : ∀ o ∈ offsets, low ≤ image (x + o.1) (y + o.2) ∧ image (x + o.1) (y + o.2) ≤ high) :
    low ≤ mean offsets image x y ∧ mean offsets image x y ≤ high := by
  have hpos : (0 : K) < offsets.length := Nat.cast_pos.mpr (List.length_pos_iff.mpr hne)
  constructor
  · rw [mean, le_div_iff₀ hpos, mul_comm, ← nsmul_eq_mul]
    refine List.card_nsmul_le_sum (offsets.map _) low (fun v hv => ?_) |>.trans' ?_
    · obtain ⟨o,ho,rfl⟩ := List.mem_map.mp hv
      exact (h o ho).1
    · rw [List.length_map]
  · rw [mean, div_le_iff₀ hpos, mul_comm, ← nsmul_eq_mul]
    refine (List.sum_le_card_nsmul (offsets.map _) high (fun v hv => ?_)).trans ?_
    · obtain ⟨o,ho,rfl⟩ := List.mem_map.mp hv
      exact (h o ho).2
    · rw [List.length_map]

theorem mean_const (hne : offsets ≠ [])
    (h : ∀ o ∈ offsets, image (x + o.1) (y + o.2) = v) : mean offsets image x y = v := by
  have hmean := mean_between hne (fun o ho => ⟨(h o ho).ge,(h o ho).le⟩)
  exact le_antisymm hmean.2 hmean.1

omit [LinearOrder K] [IsStrictOrderedRing K] in
/-- Means of lines are lines. -/
theorem mean_mul_add (v : K) : mean offsets image x y*v + mean offsets other x y =
    mean offsets (fun a b => image a b*v + other a b) x y := by
  rw [mean, mean, mean, List.sum_map_add, List.sum_map_mul_right, add_div, div_mul_eq_mul_div]

/-- A mixture lies between bounds of what is mixed. -/
theorem mix_between {s a b : K} (hs : 0 ≤ s ∧ s ≤ 1) (ha : low ≤ a ∧ a ≤ high)
    (hb : low ≤ b ∧ b ≤ high) : low ≤ a*(1 - s) + b*s ∧ a*(1 - s) + b*s ≤ high := by
  have hrest : 0 ≤ 1 - s := sub_nonneg.mpr hs.2
  constructor
  · calc low = low*(1 - s) + low*s := by ring
      _ ≤ a*(1 - s) + b*s := add_le_add (mul_le_mul_of_nonneg_right ha.1 hrest)
          (mul_le_mul_of_nonneg_right hb.1 hs.1)
  · calc a*(1 - s) + b*s ≤ high*(1 - s) + high*s := add_le_add
          (mul_le_mul_of_nonneg_right ha.2 hrest) (mul_le_mul_of_nonneg_right hb.2 hs.1)
      _ = high := by ring

end Library.Means
