import Cpipe.Proofs.KernelChains
import Mathlib.Tactic.Linarith
import Mathlib.Tactic.Positivity

namespace Cpipe.Proofs.ToneCurves
open Cpipe.Nodes.Kernels Cpipe.Proofs.Kernels Cpipe.Proofs.KernelChains

variable {h : Intrinsics} {image : Image} {x y : Int} {noiseProfile : List (ℚ × ℚ)} {v w : ℚ}

theorem clampTo_mono {low high : ℚ} (h : v ≤ w) : clampTo v low high ≤ clampTo w low high :=
  max_le_max_right _ (min_le_min_right _ h)

/-- A quotient of two quadratic curves that rises from zero on. -/
theorem quotient_mono {a b c d e : ℚ} (ha : 0 ≤ a) (hb : 0 ≤ b) (hc : 0 ≤ c) (hd : 0 ≤ d)
    (he : 0 < e) (hrise : b*c ≤ a*d) (hv : 0 ≤ v) (hw : v ≤ w) :
    v*(a*v + b)/(v*(c*v + d) + e) ≤ w*(a*w + b)/(w*(c*w + d) + e) := by
  have hw0 : 0 ≤ w := hv.trans hw
  have hpos : ∀ u, 0 ≤ u → 0 < u*(c*u + d) + e := fun u hu => by positivity
  rw [div_le_div_iff₀ (hpos v hv) (hpos w hw0)]
  have hstep : 0 ≤ w - v := sub_nonneg.mpr hw
  have hgain : 0 ≤ (w - v)*(e*(a*(w + v) + b) + v*w*(a*d - b*c)) := by
    have hrest : 0 ≤ a*d - b*c := sub_nonneg.mpr hrise
    positivity
  have hdiff : w*(a*w + b)*(v*(c*v + d) + e) - v*(a*v + b)*(w*(c*w + d) + e) =
      (w - v)*(e*(a*(w + v) + b) + v*w*(a*d - b*c)) := by ring
  linarith

theorem acesFit_mono (hw : v ≤ w) : acesFit v ≤ acesFit w := by
  refine clampTo_mono ?_
  exact quotient_mono (by norm_num) (by norm_num) (by norm_num) (by norm_num) (by norm_num)
    (by norm_num) (le_max_left _ _) (max_le_max_left _ hw)

theorem reinhardCurve_mono {whitePoint : ℚ} (hw : v ≤ w) :
    reinhardCurve v whitePoint ≤ reinhardCurve w whitePoint := by
  have hform : ∀ u, reinhardCurve u whitePoint =
      clampTo (max 0 u*(1/(whitePoint*whitePoint)*max 0 u + 1)/(max 0 u*(0*max 0 u + 1) + 1)) 0 1 := by
    intro u
    simp only [reinhardCurve]
    congr 1
    ring
  have hq : 0 ≤ 1/(whitePoint*whitePoint) := div_nonneg zero_le_one (mul_self_nonneg _)
  have hrise : 1*0 ≤ 1/(whitePoint*whitePoint)*1 := by rwa [mul_zero, mul_one]
  rw [hform, hform]
  exact clampTo_mono (quotient_mono hq zero_le_one le_rfl zero_le_one zero_lt_one hrise
    (le_max_left _ _) (max_le_max_left _ hw))

theorem acesFit_mem (v : ℚ) : 0 ≤ acesFit v ∧ acesFit v ≤ 1 := clampTo_mem zero_le_one

theorem reinhardCurve_mem (v whitePoint : ℚ) :
    0 ≤ reinhardCurve v whitePoint ∧ reinhardCurve v whitePoint ≤ 1 := clampTo_mem zero_le_one

theorem filmicSaturated_mem (params : FilmicRgbParams) (colour : Nat → ℚ) (c : Nat) :
    0 ≤ filmicSaturated h params colour c ∧ filmicSaturated h params colour c ≤ 1 :=
  clampTo_mem zero_le_one

/-- What the conversions and the functions of the C library keep. -/
structure Ordered (h : Intrinsics) : Prop where
  half : Monotone h.half
  log : ∀ v w, 1 ≤ v → v ≤ w → h.log v ≤ h.log w
  log_one : h.log 1 = 0
  pow : ∀ v w p, 0 ≤ v → v ≤ w → 0 < p → h.pow v p ≤ h.pow w p
  pow_nonneg : ∀ v p, 0 ≤ v → 0 ≤ h.pow v p
  pow_one : ∀ p, h.pow 1 p = 1

theorem filmicCurve_mono (ho : Ordered h) (hw : v ≤ w) : filmicCurve h v ≤ filmicCurve h w := by
  refine clampTo_mono (div_le_div_of_nonneg_right ?_ ?_)
  · have hv0 : 0 ≤ max 0 v := le_max_left _ _
    have hmax : max 0 v ≤ max 0 w := max_le_max_left _ hw
    refine ho.log _ _ ?_ ?_ <;> linarith
  · have hlog := ho.log 1 (1 + 6*18) le_rfl (by norm_num)
    rwa [ho.log_one] at hlog

/-- Lifting the shadows and the highlights bends the curve too little to turn it back. -/
theorem adjustRange_mono {highlights shadows : ℚ} (hh : 0 ≤ highlights ∧ highlights ≤ 2)
    (hs : 0 ≤ shadows ∧ shadows ≤ 2) (hv : 0 ≤ v) (hw : v ≤ w) (hw1 : w ≤ 1) :
    adjustRange v highlights shadows ≤ adjustRange w highlights shadows := by
  refine clampTo_mono ?_
  have hk : 0 ≤ kRangeStep ∧ kRangeStep ≤ 1/4 := by norm_num [kRangeStep]
  have hstep : 0 ≤ w - v := sub_nonneg.mpr hw
  have hshadow : (shadows - 1)*(kRangeStep*(2 - v - w)) ≤ 1/2 := by
    have hbound : kRangeStep*(2 - v - w) ≤ 1/4*2 :=
      mul_le_mul hk.2 (by linarith) (by linarith) (by norm_num)
    have hnonneg : 0 ≤ kRangeStep*(2 - v - w) := mul_nonneg hk.1 (by linarith)
    have hone : (shadows - 1)*(kRangeStep*(2 - v - w)) ≤ 1*(kRangeStep*(2 - v - w)) :=
      mul_le_mul_of_nonneg_right (by linarith) hnonneg
    linarith
  have hhighlight : -(1/2) ≤ (highlights - 1)*(kRangeStep*(v + w)) := by
    have hbound : kRangeStep*(v + w) ≤ 1/4*2 :=
      mul_le_mul hk.2 (by linarith) (by linarith) (by norm_num)
    have hnonneg : 0 ≤ kRangeStep*(v + w) := mul_nonneg hk.1 (by linarith)
    have hone : -1*(kRangeStep*(v + w)) ≤ (highlights - 1)*(kRangeStep*(v + w)) :=
      mul_le_mul_of_nonneg_right (by linarith) hnonneg
    linarith
  have hgain := mul_nonneg hstep (show 0 ≤ 1 - (shadows - 1)*(kRangeStep*(2 - v - w)) +
    (highlights - 1)*(kRangeStep*(v + w)) by linarith)
  have hdiff : w + (shadows - 1)*kRangeStep*(1 - w)*(1 - w) + (highlights - 1)*kRangeStep*w*w -
      (v + (shadows - 1)*kRangeStep*(1 - v)*(1 - v) + (highlights - 1)*kRangeStep*v*v) =
      (w - v)*(1 - (shadows - 1)*(kRangeStep*(2 - v - w)) +
        (highlights - 1)*(kRangeStep*(v + w))) := by ring
  linarith

theorem filmicToned_mono (ho : Ordered h) {params : FilmicRgbParams}
    (hclamped : Clamped (.filmicRgb params)) (hw : v ≤ w) :
    filmicToned h params v ≤ filmicToned h params w := by
  obtain ⟨hcontrast,hsaturation,hhighlights,hshadows⟩ := hclamped
  have hcurve : filmicCurve h (v*h.pow 2 params.ev) ≤ filmicCurve h (w*h.pow 2 params.ev) :=
    filmicCurve_mono ho (mul_le_mul_of_nonneg_right hw (ho.pow_nonneg _ _ (by norm_num)))
  have hexponent : 0 < 1/params.contrast := by
    have hpos : 0 < params.contrast := lt_of_lt_of_le (by norm_num) hcontrast.1
    positivity
  have hv0 := le_max_left 0 (filmicCurve h (v*h.pow 2 params.ev))
  have htop : max 0 (filmicCurve h (w*h.pow 2 params.ev)) ≤ 1 :=
    max_le zero_le_one (clampTo_mem zero_le_one).2
  have hmax := max_le_max_left 0 hcurve
  refine adjustRange_mono hhighlights hshadows (ho.pow_nonneg _ _ hv0)
    (ho.pow _ _ _ hv0 hmax hexponent) ?_
  have hone := ho.pow _ _ _ (hv0.trans hmax) htop hexponent
  rwa [ho.pow_one] at hone

/-! ### Chains of curves -/

def IsTone : Node → Prop
  | .acesFilmic | .filmicRgb | .reinhard => True
  | _ => False

/-- A curve keeps the order of the channels of a colour. -/
theorem tone_order (ho : Ordered h) {node : Node} {params : ParamView} (htone : IsTone node)
    {c c' : Nat} (hc : c < 3) (hc' : c' < 3)
    (horder : image.samples x y c ≤ image.samples x y c') :
    (node.stage h params noiseProfile).generate h image x y c ≤
      (node.stage h params noiseProfile).generate h image x y c' := by
  have hclamped := stage_clamped h params noiseProfile node
  have hne : c ≠ 3 := by omega
  have hne' : c' ≠ 3 := by omega
  cases node with
  | acesFilmic =>
    refine ho.half ?_
    by_cases henabled : (if paramBoolOr params "toggle" true then (1 : Int) else 0) = 0
    · rw [if_pos (.inr henabled), if_pos (.inr henabled)]
      exact horder
    · rw [if_neg (not_or.mpr ⟨hne,henabled⟩), if_neg (not_or.mpr ⟨hne',henabled⟩)]
      exact acesFit_mono horder
  | reinhard =>
    refine ho.half ?_
    rw [if_neg hne, if_neg hne']
    exact reinhardCurve_mono horder
  | filmicRgb =>
    refine ho.half ?_
    rw [if_neg hne, if_neg hne']
    refine clampTo_mono (add_le_add_right (mul_le_mul_of_nonneg_right ?_ hclamped.2.1) _)
    exact sub_le_sub_right (filmicToned_mono ho hclamped horder) _
  | bm3d | guidedFilter | waveletBayesShrink | edgeAwareUsm => cases htone

theorem tone_unit {node : Node} {params : ParamView} (htone : IsTone node)
    (hr : Rounds h.half 0 1) {c : Nat} (hc : c < 3)
    (hunit : 0 ≤ image.samples x y c ∧ image.samples x y c ≤ 1) :
    0 ≤ (node.stage h params noiseProfile).generate h image x y c ∧
      (node.stage h params noiseProfile).generate h image x y c ≤ 1 := by
  have hne : c ≠ 3 := by omega
  cases node with
  | acesFilmic =>
    refine hr.between ?_
    by_cases henabled : (if paramBoolOr params "toggle" true then (1 : Int) else 0) = 0
    · rw [if_pos (.inr henabled)]
      exact hunit
    · rw [if_neg (not_or.mpr ⟨hne,henabled⟩)]
      exact acesFit_mem _
  | reinhard =>
    refine hr.between ?_
    rw [if_neg hne]
    exact reinhardCurve_mem _ _
  | filmicRgb =>
    refine hr.between ?_
    rw [if_neg hne]
    exact filmicSaturated_mem _ _ _
  | bm3d | guidedFilter | waveletBayesShrink | edgeAwareUsm => cases htone

/-- Tone curves after each other, with whatever parameters, never swap the order of a pixel's
channels, and they do not leave the range from zero to one. -/
theorem tone_chain (ho : Ordered h) (chain : List (Node × ParamView))
    (htone : ∀ node ∈ chain, IsTone node.1) (image : Image) (x y : Int) :
    (∀ c c', c < 3 → c' < 3 → image.samples x y c ≤ image.samples x y c' →
      (develop h noiseProfile chain image).samples x y c ≤
        (develop h noiseProfile chain image).samples x y c') ∧
    (Rounds h.half 0 1 → ∀ c < 3, 0 ≤ image.samples x y c ∧ image.samples x y c ≤ 1 →
      0 ≤ (develop h noiseProfile chain image).samples x y c ∧
        (develop h noiseProfile chain image).samples x y c ≤ 1) := by
  induction chain generalizing image with
  | nil => exact ⟨fun _ _ _ _ horder => horder,fun _ _ _ hunit => hunit⟩
  | cons node chain ih =>
    have hfirst := htone node List.mem_cons_self
    obtain ⟨horder,hunit⟩ := ih (fun other hother => htone other (List.mem_cons_of_mem _ hother))
      ((node.1.stage h node.2 noiseProfile).apply h image)
    exact ⟨fun c c' hc hc' hle => horder c c' hc hc' (tone_order ho hfirst hc hc' hle),
      fun hr c hc hin => hunit hr c hc (tone_unit hfirst hr hc hin)⟩

/-- Halves cut to multiples of `2^-11`, and functions of the C library at the arguments that
come up below. -/
def stepped : Intrinsics where
  half := fun v => (v*2^11).floor/2^11
  float := id
  log := fun v => if v < 4 then 0 else if v < 7 then 1386294/10^6 else
    if v < 109 then 1945910/10^6 else 4691348/10^6
  exp := unrounded.exp
  sqrt := unrounded.sqrt
  pow := fun v p => v^p.floor.toNat

theorem ordered_stepped : Ordered stepped where
  half := by
    intro v w hvw
    have hscaled : v*2^11 ≤ w*2^11 := by linarith
    have hfloor : ((v*2^11).floor : ℚ) ≤ (w*2^11).floor := by
      exact_mod_cast Rat.floor_monotone hscaled
    exact div_le_div_of_nonneg_right hfloor (by norm_num)
  log := by
    intro v w _ hvw
    simp only [stepped]
    split_ifs <;> linarith
  log_one := by norm_num [stepped]
  pow := fun v w p hv hvw _ => pow_le_pow_left₀ hv hvw _
  pow_nonneg := fun v p hv => pow_nonneg hv _
  pow_one := fun p => one_pow _

/-- Half the contrast, which squares the curve. -/
def contrastParams : ParamView :=
  ⟨fun key => if key = "contrast" then some (1/2) else none,fun _ => none⟩

theorem tone_chain_first :
    let chain := [(.filmicRgb,contrastParams),(.acesFilmic,noParams),(.reinhard,noParams)]
    let image : Image := ⟨1,1,fun _ _ c => (c : ℚ)/2⟩
    (develop stepped [] chain image).samples 0 0 0 ≤ (develop stepped [] chain image).samples 0 0 1 ∧
      0 ≤ (develop stepped [] chain image).samples 0 0 1 ∧
        (develop stepped [] chain image).samples 0 0 1 ≤ 1 := by
  intro chain image
  have htone : ∀ node ∈ chain, IsTone node.1 := by
    intro node hnode
    simp only [chain, List.mem_cons, List.not_mem_nil, or_false] at hnode
    rcases hnode with rfl | rfl | rfl <;> exact trivial
  have hrounds : Rounds stepped.half 0 1 := ⟨ordered_stepped.half,by decide +kernel,by decide +kernel⟩
  exact ⟨(tone_chain ordered_stepped chain htone image 0 0).1 0 1 (by decide) (by decide)
      (by norm_num [image]),
    (tone_chain ordered_stepped chain htone image 0 0).2 hrounds 1 (by decide)
      (by norm_num [image])⟩

end Cpipe.Proofs.ToneCurves
