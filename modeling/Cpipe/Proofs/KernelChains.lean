import Cpipe.Proofs.Kernels

namespace Cpipe.Proofs.KernelChains
open Cpipe.Nodes.Kernels Cpipe.Proofs.Kernels Library.Stencil Library.Means

variable {h : Intrinsics} {image : Image} {x y : Int} {noiseProfile : List (ℚ × ℚ)}
  {low high : ℚ}

/-! ### Alpha -/

theorem clamped_of_mem (hin : InImage image x y) (c : Nat) :
    image.clamped x y c = image.samples x y c :=
  repeatEdge_of_mem (fun u v => image.samples u v c) hin.1 hin.2

theorem generate_alpha (stage : Stage) (hin : InImage image x y)
    (hhalf : h.half (image.samples x y 3) = image.samples x y 3)
    (hpos : 0 ≤ image.samples x y 3) : stage.generate h image x y 3 = image.samples x y 3 := by
  have hclamped := clamped_of_mem hin 3
  cases stage with
  | bm3dStep1 sigma => simp only [Stage.generate, bm3dStep1, if_true, hclamped, hhalf]
  | bm3dStep2 sigma => simp only [Stage.generate, bm3dStep2, mul_zero, add_zero, hclamped, hhalf]
  | guidedFilter radius eps => simp only [Stage.generate, guidedFilter, if_true, hclamped, hhalf]
  | waveletBayesShrink chromaStrength =>
    have hrgb : waveletRgb chromaStrength image.clamped x y 3 = image.samples x y 3 := hclamped
    rw [Stage.generate, waveletBayesShrink, hrgb, max_eq_right hpos, hhalf]
  | edgeAwareUsm strength radius threshold =>
    simp only [Stage.generate, edgeAwareUsm, if_true, hclamped, hhalf]
  | acesFilmic enabled => simp only [Stage.generate, acesFilmic, true_or, if_true, hhalf]
  | reinhard whitePoint => simp only [Stage.generate, reinhard, if_true, hhalf]
  | filmicRgb params => simp only [Stage.generate, filmicRgb, if_true, hhalf]

theorem develop_alpha (chain : List (Node × ParamView)) (hin : InImage image x y)
    (hhalf : h.half (image.samples x y 3) = image.samples x y 3)
    (hpos : 0 ≤ image.samples x y 3) :
    (develop h noiseProfile chain image).samples x y 3 = image.samples x y 3 := by
  induction chain generalizing image with
  | nil => rfl
  | cons node chain ih =>
    have hstep : ((node.1.stage h node.2 noiseProfile).apply h image).samples x y 3 =
        image.samples x y 3 := generate_alpha _ hin hhalf hpos
    rw [← hstep] at hhalf hpos ⊢
    exact ih hin hhalf hpos

/-! ### Grey -/

/-- The three colour channels are the same all over. -/
def Grey (image : Image) : Prop :=
  ∀ x y, InImage image x y → ∀ c < 3, image.samples x y c = image.samples x y 0

theorem grey_clamped (hgrey : Grey image) (hin : InImage image x y) (u v : Int) {c : Nat}
    (hc : c < 3) : image.clamped u v c = image.clamped u v 0 := by
  have hx := clamp_mem u (show (0 : Int) ≤ image.width - 1 by have := hin.1; omega)
  have hy := clamp_mem v (show (0 : Int) ≤ image.height - 1 by have := hin.2; omega)
  exact hgrey _ _ ⟨⟨hx.1,by omega⟩,hy.1,by omega⟩ c hc

theorem wavelet_grey {chromaStrength : ℚ} (hs : 0 ≤ chromaStrength)
    {value : Int → Int → Nat → ℚ} (hvalue : ∀ u v, value u v 1 = value u v 0 ∧ value u v 2 = value u v 0)
    {c : Nat} (hc : c < 3) : waveletRgb chromaStrength value x y c = value x y 0 := by
  have hthreshold : 0 ≤ kChromaThreshold*chromaStrength :=
    mul_nonneg (by norm_num [kChromaThreshold]) hs
  have hco : (fun u v => value u v 0 - value u v 2) = fun _ _ => 0 := by
    funext u v
    rw [(hvalue u v).2, sub_self]
  have hcg : (fun u v => value u v 1 - (value u v 0 + value u v 2)*(1/2)) = fun _ _ => 0 := by
    funext u v
    rw [(hvalue u v).1, (hvalue u v).2]
    ring
  have hluma : waveletLuma (value x y 0) (value x y 1) (value x y 2) = value x y 0 := by
    rw [waveletLuma, (hvalue x y).1, (hvalue x y).2]
    ring
  simp only [waveletRgb, hco, hcg, blockValue_flat hthreshold, hluma, mul_zero, sub_zero, add_zero]
  obtain rfl | rfl | rfl : c = 0 ∨ c = 1 ∨ c = 2 := by omega
  · rfl
  · rfl
  · rfl

theorem generate_grey (stage : Stage) (hclamped : Clamped stage) (hgrey : Grey image)
    (hin : InImage image x y) {c : Nat} (hc : c < 3) :
    stage.generate h image x y c = stage.generate h image x y 0 := by
  have hne : c ≠ 3 := by omega
  have hplane : (fun u v => image.clamped u v c) = fun u v => image.clamped u v 0 := by
    funext u v
    exact grey_clamped hgrey hin u v hc
  have hvalue : image.clamped x y c = image.clamped x y 0 := grey_clamped hgrey hin x y hc
  have hsample := hgrey x y hin c hc
  cases stage with
  | bm3dStep1 sigma =>
    simp only [Stage.generate, bm3dStep1, hplane, hvalue, if_neg hne]
    rfl
  | bm3dStep2 sigma => simp only [Stage.generate, bm3dStep2, hvalue]
  | guidedFilter radius eps =>
    simp only [Stage.generate, guidedFilter, hplane, hvalue, if_neg hne]
    rfl
  | waveletBayesShrink chromaStrength =>
    have hgreys : ∀ u v, image.clamped u v 1 = image.clamped u v 0 ∧
        image.clamped u v 2 = image.clamped u v 0 := fun u v =>
      ⟨grey_clamped hgrey hin u v (by decide),grey_clamped hgrey hin u v (by decide)⟩
    rw [Stage.generate, Stage.generate, waveletBayesShrink, waveletBayesShrink,
      wavelet_grey hclamped hgreys hc, wavelet_grey hclamped hgreys (by decide)]
  | edgeAwareUsm strength radius threshold =>
    simp only [Stage.generate, edgeAwareUsm, hplane, hvalue, if_neg hne]
    rfl
  | acesFilmic enabled =>
    simp [Stage.generate, acesFilmic, hsample, hne]
  | reinhard whitePoint =>
    simp only [Stage.generate, reinhard, hsample, if_neg hne]
    rfl
  | filmicRgb params =>
    simp only [Stage.generate, filmicRgb, filmicSaturated, hsample, if_neg hne]
    rfl

theorem develop_grey (chain : List (Node × ParamView)) (hgrey : Grey image) :
    Grey (develop h noiseProfile chain image) := by
  induction chain generalizing image with
  | nil => exact hgrey
  | cons node chain ih =>
    refine ih (fun u v hin c hc => ?_)
    exact generate_grey _ (stage_clamped h node.2 noiseProfile node.1) hgrey hin hc

/-- Whatever nodes of denoising, sharpening and tone follow each other with whatever parameters,
each pixel keeps its alpha, and a grey image stays grey. -/
theorem develop_keeps (h : Intrinsics) (noiseProfile : List (ℚ × ℚ))
    (chain : List (Node × ParamView)) (image : Image) :
    (∀ x y, InImage image x y → h.half (image.samples x y 3) = image.samples x y 3 →
      0 ≤ image.samples x y 3 →
      (develop h noiseProfile chain image).samples x y 3 = image.samples x y 3) ∧
      (Grey image → Grey (develop h noiseProfile chain image)) :=
  ⟨fun _ _ hin hhalf hpos => develop_alpha chain hin hhalf hpos,develop_grey chain⟩

/-! ### Bounds of denoising -/

/-- A channel has its samples between the bounds, that far around. -/
def Within (low high : ℚ) (c : Nat) (r : Int) (image : Image) (x y : Int) : Prop :=
  ∀ u v, InImage image u v → Near r x y u v → low ≤ image.samples u v c ∧ image.samples u v c ≤ high

theorem Within.clamped {c : Nat} {r u v : Int} (hw : Within low high c r image x y)
    (hin : InImage image x y) (hu : Near r x y u v) :
    low ≤ image.clamped u v c ∧ image.clamped u v c ≤ high := by
  have hx := clamp_near hin.1 hu.1
  have hy := clamp_near hin.2 hu.2
  exact hw _ _ ⟨hx.1,hy.1⟩ ⟨hx.2,hy.2⟩

theorem boxMean_between {plane : Int → Int → ℚ} {radius : Int}
    (hplane : ∀ u v, Near (reach radius) x y u v → low ≤ plane u v ∧ plane u v ≤ high) :
    low ≤ boxMean radius plane x y ∧ boxMean radius plane x y ≤ high := by
  rw [boxMean_eq]
  exact mean_between boxOffsets_ne (fun o ho => hplane _ _ (near_offset ho))

/-- The coefficient of the local line is a weight. -/
theorem guidedA_mem {plane : Int → Int → ℚ} {radius : Int} {eps : ℚ} (heps : 0 < eps) :
    0 ≤ guidedA radius eps plane x y ∧ guidedA radius eps plane x y ≤ 1 := by
  unfold guidedA
  have hvariance := le_max_left 0 (boxMean radius (fun u v => plane u v*plane u v) x y -
    boxMean radius plane x y*boxMean radius plane x y)
  simp only
  generalize max 0 (boxMean radius (fun u v => plane u v*plane u v) x y -
    boxMean radius plane x y*boxMean radius plane x y) = variance at *
  have hsum : 0 < variance + eps := add_pos_of_nonneg_of_pos hvariance heps
  exact ⟨div_nonneg hvariance hsum.le,(div_le_one hsum).mpr (le_add_of_nonneg_right heps.le)⟩

/-- The filtered value is a mean of mixtures of the value and the means around. -/
theorem filtered_between {plane : Int → Int → ℚ} {radius : Int} {eps : ℚ} (heps : 0 < eps)
    (hplane : ∀ u v, Near (reach radius + reach radius) x y u v → low ≤ plane u v ∧ plane u v ≤ high) :
    low ≤ boxMean radius (guidedA radius eps plane) x y*plane x y +
        boxMean radius (guidedB radius eps plane) x y ∧
      boxMean radius (guidedA radius eps plane) x y*plane x y +
        boxMean radius (guidedB radius eps plane) x y ≤ high := by
  rw [boxMean_eq, boxMean_eq, mean_mul_add, ← boxMean_eq]
  have hreach : 1 ≤ reach radius := reach_pos
  refine boxMean_between (fun u v hu => ?_)
  have hmean : low ≤ boxMean radius plane u v ∧ boxMean radius plane u v ≤ high :=
    boxMean_between (fun a b ha => hplane a b (hu.trans ha))
  have hline : guidedA radius eps plane u v*plane x y + guidedB radius eps plane u v =
      boxMean radius plane u v*(1 - guidedA radius eps plane u v) +
        plane x y*guidedA radius eps plane u v := by
    rw [guidedB]
    ring
  rw [hline]
  exact mix_between (guidedA_mem heps) hmean (hplane x y (near_self (by omega)))

/-- The rounding to half keeps the order and the bounds. -/
structure Rounds (half : ℚ → ℚ) (low high : ℚ) : Prop where
  monotone : Monotone half
  low : half low = low
  high : half high = high

theorem Rounds.between {half : ℚ → ℚ} {v : ℚ} (hr : Rounds half low high)
    (hv : low ≤ v ∧ v ≤ high) : low ≤ half v ∧ half v ≤ high := by
  have hl := hr.monotone hv.1
  have hh := hr.monotone hv.2
  rw [hr.low] at hl
  rw [hr.high] at hh
  exact ⟨hl,hh⟩

def Denoises : Stage → Prop
  | .bm3dStep1 _ | .bm3dStep2 _ | .guidedFilter _ _ => True
  | _ => False

theorem max_between {v : ℚ} (hlow : 0 ≤ low) (hv : low ≤ v ∧ v ≤ high) :
    low ≤ max 0 v ∧ max 0 v ≤ high := by
  rw [max_eq_right (hlow.trans hv.1)]
  exact hv

theorem generate_within {stage : Stage} {c : Nat} (hdenoises : Denoises stage)
    (hclamped : Clamped stage) (hr : Rounds h.half low high) (hlow : 0 ≤ low)
    (hin : InImage image x y) (hw : Within low high c (lookAround stage) image x y) :
    low ≤ stage.generate h image x y c ∧ stage.generate h image x y c ≤ high := by
  have hplane : ∀ u v, Near (lookAround stage) x y u v → _ := fun u v hu => hw.clamped hin hu
  have hself := hplane x y (near_self (lookAround_nonneg stage))
  cases stage with
  | bm3dStep1 sigma =>
    have hmean : low ≤ mean2x2 (fun u v => image.clamped u v c) x y ∧
        mean2x2 (fun u v => image.clamped u v c) x y ≤ high := by
      refine mean_between (by simp) (fun o ho => hplane _ _ ?_)
      have hmem := (by decide : ∀ o ∈ ([(0,0),(1,0),(0,1),(1,1)] : List (Int × Int)),
        (0 ≤ o.1 ∧ o.1 ≤ 1) ∧ 0 ≤ o.2 ∧ o.2 ≤ 1) o ho
      exact block_near hmem.1 hmem.2
    have hstrength : 0 ≤ min 1 (max 0 (sigma/kSigmaScale)) ∧ min 1 (max 0 (sigma/kSigmaScale)) ≤ 1 :=
      ⟨le_min zero_le_one (le_max_left _ _),min_le_left _ _⟩
    have hmix := max_between hlow (mix_between hstrength hself hmean)
    refine hr.between ?_
    split
    · exact hself
    · exact hmix
  | bm3dStep2 sigma =>
    refine hr.between ?_
    rw [mul_zero, add_zero]
    exact hself
  | guidedFilter radius eps =>
    have hfiltered := max_between hlow (filtered_between hclamped hplane)
    refine hr.between ?_
    split
    · exact hself
    · exact hfiltered
  | waveletBayesShrink | edgeAwareUsm | acesFilmic | reinhard | filmicRgb => cases hdenoises

theorem develop_within {c : Nat} (chain : List (Node × ParamView)) {r : Int}
    (hdenoises : ∀ node ∈ chain, node.1 = .bm3d ∨ node.1 = .guidedFilter)
    (hr : Rounds h.half low high) (hlow : 0 ≤ low)
    (hw : Within low high c (r + chainReach h noiseProfile chain) image x y) :
    Within low high c r (develop h noiseProfile chain image) x y := by
  induction chain generalizing image with
  | nil =>
    rw [chainReach, List.map_nil, List.sum_nil, Int.add_zero] at hw
    exact hw
  | cons node chain ih =>
    refine ih (fun other hother => hdenoises other (List.mem_cons_of_mem _ hother))
      (fun u v hin hu => ?_)
    have hstage : Denoises (node.1.stage h node.2 noiseProfile) := by
      rcases hdenoises node List.mem_cons_self with hnode | hnode <;> rw [hnode] <;> exact trivial
    refine generate_within hstage (stage_clamped h node.2 noiseProfile node.1) hr hlow hin
      (fun a b hin' ha => hw a b hin' ?_)
    rw [chainReach, List.map_cons, List.sum_cons, Int.add_comm (lookAround _), ← Int.add_assoc]
    exact hu.trans ha

/-- A chain of the BM3D node and the guided filter, with whatever parameters, leaves each sample
between the bounds that the samples of its channel have as far around as the windows reach. -/
theorem develop_between (h : Intrinsics) (noiseProfile : List (ℚ × ℚ))
    (chain : List (Node × ParamView))
    (hdenoises : ∀ node ∈ chain, node.1 = .bm3d ∨ node.1 = .guidedFilter) (c : Nat)
    (hr : Rounds h.half low high) (hlow : 0 ≤ low) (hin : InImage image x y)
    (hw : Within low high c (chainReach h noiseProfile chain) image x y) :
    low ≤ (develop h noiseProfile chain image).samples x y c ∧
      (develop h noiseProfile chain image).samples x y c ≤ high := by
  rw [← Int.zero_add (chainReach _ _ _)] at hw
  exact develop_within chain hdenoises hr hlow hw x y
    ((inImage_develop chain).mpr hin) (near_self (Int.le_refl 0))

theorem develop_between_first :
    0 ≤ (develop unrounded [] [(.bm3d,noParams),(.guidedFilter,noParams)] (lastColumn 1)).samples 2 0 0 ∧
    (develop unrounded [] [(.bm3d,noParams),(.guidedFilter,noParams)] (lastColumn 1)).samples 2 0 0 ≤
      1 := by
  refine develop_between unrounded [] _ (fun node hnode => ?_) 0 ⟨monotone_id,rfl,rfl⟩ le_rfl
    ⟨⟨by decide,by decide⟩,by decide,by decide⟩ (fun u v _ _ => ?_)
  · rcases List.mem_pair.mp hnode with rfl | rfl
    · exact .inl rfl
    · exact .inr rfl
  · simp only [lastColumn]
    split <;> norm_num

end Cpipe.Proofs.KernelChains
