import Cpipe.Proofs.ToneCurves

namespace Cpipe.Proofs.ExposureFusion
open Cpipe.Nodes.Kernels Cpipe.Proofs.Kernels Cpipe.Proofs.KernelChains

variable {h : Intrinsics} {params : MertensLocalParams} {dark normal bright colour : Nat → ℚ}
  {low high : ℚ} {c : Nat}

/-- What the functions of the C library give that the weights are made of. -/
structure Weighing (h : Intrinsics) : Prop where
  exp : Monotone h.exp
  exp_nonneg : ∀ v, 0 ≤ h.exp v
  exp_far : 43/1000 ≤ h.exp (-(25/8))
  sqrt_nonneg : ∀ v, 0 ≤ h.sqrt v
  sqrt_small : ∀ v, 13743895/2^37 ≤ v → 1/101 ≤ h.sqrt v
  pow_nonneg : ∀ v p, 0 ≤ v → 0 ≤ h.pow v p

theorem wellExposed_nonneg (hw : Weighing h) (r g b : ℚ) :
    0 ≤ channelExposureWeight h r*channelExposureWeight h g*channelExposureWeight h b :=
  mul_nonneg (mul_nonneg (hw.exp_nonneg _) (hw.exp_nonneg _)) (hw.exp_nonneg _)

theorem exposureWeight_nonneg (hw : Weighing h) : 0 ≤ exposureWeight h params colour := by
  have hcontrast : 0 ≤ |mertensLuma colour - 1/2| + 5368709/2^29 :=
    add_nonneg (abs_nonneg _) (by norm_num)
  have hsaturation : ∀ v, 0 ≤ h.sqrt v + 5368709/2^29 := fun v =>
    add_nonneg (hw.sqrt_nonneg v) (by norm_num)
  simp only [exposureWeight]
  refine mul_nonneg (mul_nonneg ?_ ?_) ?_
  · split
    · exact zero_le_one
    · exact hw.pow_nonneg _ _ hcontrast
  · split
    · exact hsaturation _
    · exact hw.pow_nonneg _ _ (hsaturation _)
  · split
    · exact wellExposed_nonneg hw _ _ _
    · exact hw.pow_nonneg _ _ (add_nonneg (wellExposed_nonneg hw _ _ _) (by norm_num))

/-- A weighted mean whose weights are divided by at least their sum. -/
theorem fused_le {a b d u v w total : ℚ} (ha : 0 ≤ a) (hb : 0 ≤ b) (hd : 0 ≤ d)
    (htotal : a + b + d ≤ total) (hpos : 0 < total) (hhigh : 0 ≤ high) (hu : u ≤ high)
    (hv : v ≤ high) (hw : w ≤ high) : (a*u + b*v + d*w)/total ≤ high := by
  rw [div_le_iff₀ hpos]
  calc a*u + b*v + d*w ≤ a*high + b*high + d*high := add_le_add (add_le_add
        (mul_le_mul_of_nonneg_left hu ha) (mul_le_mul_of_nonneg_left hv hb))
        (mul_le_mul_of_nonneg_left hw hd)
    _ = high*(a + b + d) := by ring
    _ ≤ high*total := mul_le_mul_of_nonneg_left htotal hhigh

theorem le_fused {a b d u v w total : ℚ} (ha : 0 ≤ a) (hb : 0 ≤ b) (hd : 0 ≤ d)
    (htotal : total = a + b + d) (hpos : 0 < total) (hu : low ≤ u) (hv : low ≤ v)
    (hw : low ≤ w) : low ≤ (a*u + b*v + d*w)/total := by
  rw [le_div_iff₀ hpos, htotal]
  calc low*(a + b + d) = a*low + b*low + d*low := by ring
    _ ≤ a*u + b*v + d*w := add_le_add (add_le_add (mul_le_mul_of_nonneg_left hu ha)
        (mul_le_mul_of_nonneg_left hv hb)) (mul_le_mul_of_nonneg_left hw hd)

theorem leastWeight_pos : 0 < kLeastWeight := by norm_num [kLeastWeight]

/-! ### The weights by default -/

def Unit01 (colour : Nat → ℚ) : Prop := ∀ c < 3, 0 ≤ colour c ∧ colour c ≤ 1

theorem channelExposureWeight_ge (hw : Weighing h) {v : ℚ} (hv : 0 ≤ v ∧ v ≤ 1) :
    43/1000 ≤ channelExposureWeight h v := by
  refine hw.exp_far.trans (hw.exp ?_)
  have hd : (v - 1/2)*(v - 1/2) ≤ 1/4 := by
    have hprod : 0 ≤ v*(1 - v) := mul_nonneg hv.1 (sub_nonneg.mpr hv.2)
    linarith [show (v - 1/2)*(v - 1/2) = 1/4 - v*(1 - v) by ring]
  have hden : (0 : ℚ) < 2*(13421773/2^26)*(13421773/2^26) := by norm_num
  rw [neg_div, neg_le_neg_iff, div_le_iff₀ hden]
  refine hd.trans ?_
  norm_num

/-- With the weights by default, colours in range weigh so much that the floor of the total
never matters. -/
theorem exposureWeight_default (hw : Weighing h) (hcolour : Unit01 colour) :
    kLeastWeight ≤ exposureWeight h ⟨0,1,1⟩ colour := by
  have hmax : ∀ c < 3, max 0 (colour c) = colour c := fun c hc => max_eq_right (hcolour c hc).1
  have hone : ∀ c < 3, 43/1000 ≤ channelExposureWeight h (max 0 (colour c)) := fun c hc => by
    rw [hmax c hc]
    exact channelExposureWeight_ge hw (hcolour c hc)
  have hexposed : (43/1000)*(43/1000)*(43/1000) ≤ channelExposureWeight h (max 0 (colour 0))*
      channelExposureWeight h (max 0 (colour 1))*channelExposureWeight h (max 0 (colour 2)) := by
    refine mul_le_mul (mul_le_mul (hone 0 (by decide)) (hone 1 (by decide)) (by norm_num)
      (hw.exp_nonneg _)) (hone 2 (by decide)) (by norm_num) ?_
    exact mul_nonneg (hw.exp_nonneg _) (hw.exp_nonneg _)
  have hsaturation : ∀ a b d : ℚ, 0 ≤ a*a → 0 ≤ b*b → 0 ≤ d*d →
      1/101 + 5368709/2^29 ≤ h.sqrt ((a*a + b*b + d*d)/3 + 13743895/2^37) + 5368709/2^29 := by
    intro a b d ha hb hd
    refine add_le_add_left (hw.sqrt_small _ ?_) _
    linarith
  simp only [exposureWeight, if_true, one_mul]
  refine le_trans ?_ (mul_le_mul (hsaturation _ _ _ (mul_self_nonneg _) (mul_self_nonneg _)
    (mul_self_nonneg _)) hexposed (by norm_num)
    (add_nonneg (hw.sqrt_nonneg _) (by norm_num)))
  norm_num [kLeastWeight]

theorem fused_between (hw : Weighing h) (hunder : Unit01 dark) (hnormal : Unit01 normal)
    (hover : Unit01 bright) (hhigh : 0 ≤ high) (hu : low ≤ dark c ∧ dark c ≤ high)
    (hn : low ≤ normal c ∧ normal c ≤ high) (ho : low ≤ bright c ∧ bright c ≤ high) :
    low ≤ mertensFused h ⟨0,1,1⟩ dark normal bright c ∧
      mertensFused h ⟨0,1,1⟩ dark normal bright c ≤ high := by
  have hleast := leastWeight_pos
  have ha := exposureWeight_default hw hunder
  have hb := exposureWeight_default hw hnormal
  have hd := exposureWeight_default hw hover
  have htotal : max (exposureWeight h ⟨0,1,1⟩ dark + exposureWeight h ⟨0,1,1⟩ normal +
      exposureWeight h ⟨0,1,1⟩ bright) kLeastWeight = exposureWeight h ⟨0,1,1⟩ dark +
      exposureWeight h ⟨0,1,1⟩ normal + exposureWeight h ⟨0,1,1⟩ bright :=
    max_eq_left (by linarith)
  simp only [mertensFused]
  rw [htotal]
  exact ⟨le_fused (by linarith) (by linarith) (by linarith) rfl (by linarith) hu.1 hn.1 ho.1,
    fused_le (by linarith) (by linarith) (by linarith) le_rfl (by linarith) hhigh hu.2 hn.2 ho.2⟩

/-- Fusing three exposures never makes a channel brighter than its brightest exposure nor less
than zero, whatever the weights. By default it is a mean of the three: it lies between bounds
of them, and three exposures that agree in a channel are fused to that value. -/
theorem mertens_between (hw : Weighing h) (dark normal bright : Nat → ℚ) (c : Nat) (hc : c < 3) :
    (∀ params high, Rounds h.half 0 high → (0 ≤ dark c ∧ dark c ≤ high) →
      (0 ≤ normal c ∧ normal c ≤ high) → (0 ≤ bright c ∧ bright c ≤ high) →
      0 ≤ mertensLocal h params dark normal bright c ∧
        mertensLocal h params dark normal bright c ≤ high) ∧
    (Unit01 dark → Unit01 normal → Unit01 bright → ∀ low high, Rounds h.half low high →
      (low ≤ dark c ∧ dark c ≤ high) → (low ≤ normal c ∧ normal c ≤ high) →
      (low ≤ bright c ∧ bright c ≤ high) →
      low ≤ mertensLocal h ⟨0,1,1⟩ dark normal bright c ∧
        mertensLocal h ⟨0,1,1⟩ dark normal bright c ≤ high) := by
  have hne : c ≠ 3 := by omega
  constructor
  · intro params high hr hu hn ho
    have hhigh : 0 ≤ high := hu.1.trans hu.2
    have hpos : 0 < max (exposureWeight h params dark + exposureWeight h params normal +
      exposureWeight h params bright) kLeastWeight := lt_of_lt_of_le leastWeight_pos (le_max_right _ _)
    have hle : mertensFused h params dark normal bright c ≤ high :=
      fused_le (exposureWeight_nonneg hw) (exposureWeight_nonneg hw) (exposureWeight_nonneg hw)
        (le_max_left _ _) hpos hhigh hu.2 hn.2 ho.2
    refine hr.between ?_
    rw [if_neg hne]
    exact ⟨le_max_right _ _,max_le ((min_le_left _ _).trans hle) hhigh⟩
  · intro hunder hnormal hover low high hr hu hn ho
    have hhigh : 0 ≤ high := (hunder c hc).1.trans hu.2
    have hfused := fused_between hw hunder hnormal hover hhigh hu hn ho
    have hunit := fused_between hw hunder hnormal hover zero_le_one (hunder c hc) (hnormal c hc)
      (hover c hc)
    refine hr.between ?_
    rw [if_neg hne, clampTo, min_eq_left hunit.2, max_eq_left hunit.1]
    exact hfused

theorem weighing_unrounded : Weighing unrounded where
  exp := by
    intro v w hvw
    simp only [unrounded]
    split
    · split
      · exact le_rfl
      split <;> norm_num
    rename_i hv
    rw [if_neg (not_lt.mpr ((not_lt.mp hv).trans hvw))]
    split
    · split <;> norm_num
    rename_i hv0
    rw [if_neg (not_lt.mpr ((not_lt.mp hv0).trans hvw))]
  exp_nonneg := by
    intro v
    simp only [unrounded]
    split
    · exact le_rfl
    split <;> norm_num
  exp_far := by norm_num [unrounded]
  sqrt_nonneg := fun v => div_nonneg (Nat.cast_nonneg _) (by norm_num)
  sqrt_small := by
    intro v hv
    have hfloor : (109951160 : Int) ≤ (v*2^40).floor := by
      rw [Rat.le_floor_iff]
      norm_num
      linarith
    have hsqrt : 10485 ≤ Nat.sqrt (v*2^40).floor.toNat := Nat.le_sqrt.mpr (by omega)
    have hcast : (10485 : ℚ) ≤ Nat.sqrt (v*2^40).floor.toNat := by exact_mod_cast hsqrt
    simp only [unrounded]
    rw [le_div_iff₀ (by norm_num)]
    refine le_trans ?_ hcast
    norm_num
  pow_nonneg := fun _ _ hv => hv

/-- Exposures of one grey and a bright one, and three exposures of the same grey. -/
theorem mertens_between_grey :
    (0 ≤ mertensLocal unrounded ⟨1,1/2,2⟩ (fun _ => 1/4) (fun _ => 1/4) (fun _ => 2) 0 ∧
      mertensLocal unrounded ⟨1,1/2,2⟩ (fun _ => 1/4) (fun _ => 1/4) (fun _ => 2) 0 ≤ 2) ∧
    1/2 ≤ mertensLocal unrounded ⟨0,1,1⟩ (fun _ => 1/2) (fun _ => 1/2) (fun _ => 1/2) 0 ∧
      mertensLocal unrounded ⟨0,1,1⟩ (fun _ => 1/2) (fun _ => 1/2) (fun _ => 1/2) 0 ≤ 1/2 := by
  have hunit : Unit01 (fun _ => 1/2) := fun _ _ => by norm_num
  exact ⟨(mertens_between weighing_unrounded _ _ _ 0 (by decide)).1 _ 2 ⟨monotone_id,rfl,rfl⟩
      (by norm_num) (by norm_num) (by norm_num),
    (mertens_between weighing_unrounded _ _ _ 0 (by decide)).2 hunit hunit hunit (1/2) (1/2)
      ⟨monotone_id,rfl,rfl⟩ ⟨le_rfl,le_rfl⟩ ⟨le_rfl,le_rfl⟩ ⟨le_rfl,le_rfl⟩⟩

end Cpipe.Proofs.ExposureFusion
