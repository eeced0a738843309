import Mathlib.Algebra.BigOperators.Ring.List
import Mathlib.Algebra.Order.BigOperators.Group.List
import Mathlib.Algebra.Order.Ring.Nat

namespace Library.Stencil

/-! Images as functions of their coordinates, and what a stencil does at their borders. -/

variable {α ι : Type}

def clamp (v low high : Int) : Int := max (min v high) low

theorem clamp_of_mem {v low high : Int} (hlow : low ≤ v) (hhigh : v ≤ high) :
    clamp v low high = v := by
  unfold clamp
  omega

theorem clamp_mem (v : Int) {low high : Int} (h : low ≤ high) :
    low ≤ clamp v low high ∧ clamp v low high ≤ high := by
  unfold clamp
  omega

/-- The image continued by its border. -/
def repeatEdge (width height : Nat) (image : Int → Int → α) (x y : Int) : α :=
  image (clamp x 0 (width - 1)) (clamp y 0 (height - 1))

theorem repeatEdge_of_mem {width height : Nat} {x y : Int} (image : Int → Int → α)
    (hx : 0 ≤ x ∧ x < width) (hy : 0 ≤ y ∧ y < height) :
    repeatEdge width height image x y = image x y := by
  rw [repeatEdge, clamp_of_mem hx.1 (by omega), clamp_of_mem hy.1 (by omega)]

/-- A property of a cell and its eight neighbours. -/
def Around (p : Int → Int → Prop) (x y : Int) : Prop :=
  ∀ u v, x - 1 ≤ u ∧ u ≤ x + 1 → y - 1 ≤ v ∧ v ≤ y + 1 → p u v

/-! ### Weighted means -/

variable {w v : ι → Nat} {l : List ι} {low high : Nat}

theorem mul_sum_le (h : ∀ i ∈ l, w i ≠ 0 → low ≤ v i) :
    low * (l.map w).sum ≤ (l.map (fun i => w i * v i)).sum := by
  rw [← List.sum_map_mul_left]
  refine List.sum_le_sum fun i hi => ?_
  by_cases h0 : w i = 0
  · simp [h0]
  · rw [Nat.mul_comm]
    exact Nat.mul_le_mul_left _ (h i hi h0)

theorem sum_le_mul (h : ∀ i ∈ l, w i ≠ 0 → v i ≤ high) :
    (l.map (fun i => w i * v i)).sum ≤ high * (l.map w).sum := by
  rw [← List.sum_map_mul_left]
  refine List.sum_le_sum fun i hi => ?_
  by_cases h0 : w i = 0
  · simp [h0]
  · rw [Nat.mul_comm high]
    exact Nat.mul_le_mul_left _ (h i hi h0)

/-- A rounded mean lies between bounds of the values that have a weight. -/
theorem mean_between (h : ∀ i ∈ l, w i ≠ 0 → low ≤ v i ∧ v i ≤ high) (hsum : (l.map w).sum ≠ 0) :
    low ≤ ((l.map (fun i => w i * v i)).sum + (l.map w).sum/2)/(l.map w).sum ∧
      ((l.map (fun i => w i * v i)).sum + (l.map w).sum/2)/(l.map w).sum ≤ high := by
  have hpos : 0 < (l.map w).sum := Nat.pos_of_ne_zero hsum
  have hlow := mul_sum_le fun i hi h0 => (h i hi h0).1
  have hhigh := sum_le_mul fun i hi h0 => (h i hi h0).2
  constructor
  · rw [Nat.le_div_iff_mul_le hpos]
    omega
  · rw [← Nat.lt_succ_iff, Nat.div_lt_iff_lt_mul hpos, Nat.succ_mul]
    omega

end Library.Stencil
