import Cpipe.Nodes.Kernels
import Mathlib.Tactic.NormNum

namespace Cpipe.Proofs.Kernels
open Cpipe.Nodes.Kernels Library.Stencil Library.Means

variable {h : Intrinsics} {image image' : Image} {value value' : Int → Int → Nat → ℚ}
  {plane plane' : Int → Int → ℚ} {x y : Int} {radius : Int} {noiseProfile : List (ℚ × ℚ)}

/-! ### How far a kernel looks -/

/-- The cells at most so far away, in columns and in rows. -/
def Near (r x y u v : Int) : Prop := (x - r ≤ u ∧ u ≤ x + r) ∧ y - r ≤ v ∧ v ≤ y + r

/-- The offsets of the mean that a radius selects. -/
def boxOffsets (radius : Int) : List (Int × Int) := if radius ≤ 1 then offsets3x3 else offsets5x5

def reach (radius : Int) : Int := if radius ≤ 1 then 1 else 2

theorem boxMean_eq : boxMean radius plane x y = mean (boxOffsets radius) plane x y := by
  rw [boxMean, boxOffsets]
  split <;> rfl

theorem boxOffsets_ne : boxOffsets radius ≠ [] := by
  rw [boxOffsets]
  split <;> decide

theorem mem_boxOffsets {o : Int × Int} (ho : o ∈ boxOffsets radius) :
    (-reach radius ≤ o.1 ∧ o.1 ≤ reach radius) ∧ -reach radius ≤ o.2 ∧ o.2 ≤ reach radius := by
  rw [boxOffsets] at ho
  rw [reach]
  split at ho
  · rename_i hradius
    rw [if_pos hradius]
    exact (by decide : ∀ o ∈ offsets3x3, (-1 ≤ o.1 ∧ o.1 ≤ 1) ∧ -1 ≤ o.2 ∧ o.2 ≤ 1) o ho
  · rename_i hradius
    rw [if_neg hradius]
    exact (by decide : ∀ o ∈ offsets5x5, (-2 ≤ o.1 ∧ o.1 ≤ 2) ∧ -2 ≤ o.2 ∧ o.2 ≤ 2) o ho

theorem reach_pos : 1 ≤ reach radius := by
  rw [reach]
  split <;> decide

theorem near_self {r : Int} (hr : 0 ≤ r) : Near r x y x y := by
  unfold Near
  omega

theorem near_offset {o : Int × Int} (ho : o ∈ boxOffsets radius) :
    Near (reach radius) x y (x + o.1) (y + o.2) := by
  have hmem := mem_boxOffsets ho
  unfold Near
  omega

theorem Near.trans {r s u v a b : Int} (h : Near r x y u v) (h' : Near s u v a b) :
    Near (r + s) x y a b := by
  unfold Near at *
  omega

/-- Both planes have the same values that far around. -/
def Alike (r : Int) (plane plane' : Int → Int → ℚ) (x y : Int) : Prop :=
  ∀ u v, Near r x y u v → plane u v = plane' u v

theorem Alike.near {r s u v : Int} (h : Alike (r + s) plane plane' x y) (hu : Near r x y u v) :
    Alike s plane plane' u v := fun _ _ ha => h _ _ (hu.trans ha)

theorem boxMean_congr (h : Alike (reach radius) plane plane' x y) :
    boxMean radius plane x y = boxMean radius plane' x y := by
  rw [boxMean_eq, boxMean_eq]
  exact mean_congr (fun o ho => h _ _ (near_offset ho))

theorem guided_congr (eps : ℚ) (h : Alike (reach radius) plane plane' x y) :
    guidedA radius eps plane x y = guidedA radius eps plane' x y ∧
      guidedB radius eps plane x y = guidedB radius eps plane' x y := by
  have hmean := boxMean_congr h
  have hsquare : boxMean radius (fun u v => plane u v*plane u v) x y =
      boxMean radius (fun u v => plane' u v*plane' u v) x y :=
    boxMean_congr (fun u v hu => by simp only [h u v hu])
  have ha : guidedA radius eps plane x y = guidedA radius eps plane' x y := by
    rw [guidedA, guidedA, hmean, hsquare]
  refine ⟨ha,?_⟩
  rw [guidedB, guidedB, hmean, ha]

/-- The two by two block of a pixel. -/
theorem block_near {i j : Int} (hi : 0 ≤ i ∧ i ≤ 1) (hj : 0 ≤ j ∧ j ≤ 1) :
    Near 1 x y (x/2*2 + i) (y/2*2 + j) := by
  unfold Near
  omega

theorem mean2x2_congr (h : Alike 1 plane plane' x y) : mean2x2 plane x y = mean2x2 plane' x y := by
  refine mean_congr (fun o ho => h _ _ ?_)
  have hmem := (by decide : ∀ o ∈ ([(0,0),(1,0),(0,1),(1,1)] : List (Int × Int)),
    (0 ≤ o.1 ∧ o.1 ≤ 1) ∧ 0 ≤ o.2 ∧ o.2 ≤ 1) o ho
  exact block_near hmem.1 hmem.2

theorem blockValue_congr {ox oy : Int} {threshold : ℚ} (h : Alike 1 plane plane' x y) :
    blockValue plane x y ox oy threshold = blockValue plane' x y ox oy threshold := by
  have hblock : ∀ i j : Int, (0 ≤ i ∧ i ≤ 1) → (0 ≤ j ∧ j ≤ 1) →
      plane (x/2*2 + i) (y/2*2 + j) = plane' (x/2*2 + i) (y/2*2 + j) :=
    fun i j hi hj => h _ _ (block_near hi hj)
  have h00 := hblock 0 0 (by decide) (by decide)
  have h10 := hblock 1 0 (by decide) (by decide)
  have h01 := hblock 0 1 (by decide) (by decide)
  have h11 := hblock 1 1 (by decide) (by decide)
  simp only [Int.add_zero] at h00 h10 h01
  simp only [blockValue, h00, h10, h01, h11]

/-! ### How far a chain looks -/

def lookAround : Stage → Int
  | .bm3dStep1 _ => 1
  | .bm3dStep2 _ => 0
  | .guidedFilter radius _ => reach radius + reach radius
  | .waveletBayesShrink _ => 1
  | .edgeAwareUsm _ radius _ => reach radius
  | .acesFilmic _ | .reinhard _ | .filmicRgb _ => 0

theorem lookAround_nonneg (stage : Stage) : 0 ≤ lookAround stage := by
  have hreach : ∀ r, 1 ≤ reach r := fun _ => reach_pos
  cases stage with
  | guidedFilter r eps =>
    have hr := hreach r
    rw [lookAround]
    omega
  | edgeAwareUsm strength r threshold =>
    have hr := hreach r
    rw [lookAround]
    omega
  | bm3dStep1 | bm3dStep2 | waveletBayesShrink | acesFilmic | reinhard | filmicRgb =>
    simp [lookAround]

def InImage (image : Image) (x y : Int) : Prop := (0 ≤ x ∧ x < image.width) ∧ 0 ≤ y ∧ y < image.height

/-- Two images of the same size that have the same samples that far around. -/
structure Agree (r : Int) (image image' : Image) (x y : Int) : Prop where
  width : image.width = image'.width
  height : image.height = image'.height
  samples : ∀ u v, InImage image u v → Near r x y u v → image.samples u v = image'.samples u v

theorem clamp_near {r v a : Int} {n : Nat} (ha : 0 ≤ a ∧ a < n) (hv : a - r ≤ v ∧ v ≤ a + r) :
    (0 ≤ clamp v 0 (n - 1) ∧ clamp v 0 (n - 1) < n) ∧
      a - r ≤ clamp v 0 (n - 1) ∧ clamp v 0 (n - 1) ≤ a + r := by
  unfold clamp
  omega

theorem Agree.clamped {r : Int} (h : Agree r image image' x y) (hin : InImage image x y)
    (c : Nat) : Alike r (fun u v => image.clamped u v c)
      (fun u v => image'.clamped u v c) x y := by
  intro u v hu
  have hx := clamp_near hin.1 hu.1
  have hy := clamp_near hin.2 hu.2
  have hsamples := h.samples _ _ ⟨hx.1,hy.1⟩ ⟨hx.2,hy.2⟩
  simp only [Image.clamped, repeatEdge, ← h.width, ← h.height]
  exact congrFun hsamples c

theorem Agree.near {r s u v : Int} (h : Agree (r + s) image image' x y) (hu : Near r x y u v) :
    Agree s image image' u v :=
  ⟨h.width,h.height,fun _ _ hin ha => h.samples _ _ hin (hu.trans ha)⟩

theorem generate_congr (stage : Stage) (hagree : Agree (lookAround stage) image image' x y)
    (hin : InImage image x y) (c : Nat) :
    stage.generate h image x y c = stage.generate h image' x y c := by
  have hclamped := fun c => hagree.clamped hin c
  have hself := fun c => hclamped c x y (near_self (lookAround_nonneg stage))
  have hsamples := hagree.samples x y hin (near_self (lookAround_nonneg stage))
  cases stage with
  | bm3dStep1 sigma =>
    have hmean := mean2x2_congr (hclamped c)
    simp only [Stage.generate, bm3dStep1, hmean, hself]
  | bm3dStep2 sigma => simp only [Stage.generate, bm3dStep2, hself]
  | guidedFilter radius eps =>
    have hguided : ∀ u v, Near (reach radius) x y u v → _ := fun u v hu =>
      guided_congr eps ((hclamped c).near hu)
    have ha : boxMean radius (guidedA radius eps (fun u v => image.clamped u v c)) x y =
        boxMean radius (guidedA radius eps (fun u v => image'.clamped u v c)) x y :=
      boxMean_congr (fun u v hu => (hguided u v hu).1)
    have hb : boxMean radius (guidedB radius eps (fun u v => image.clamped u v c)) x y =
        boxMean radius (guidedB radius eps (fun u v => image'.clamped u v c)) x y :=
      boxMean_congr (fun u v hu => (hguided u v hu).2)
    simp only [Stage.generate, guidedFilter, ha, hb, hself]
  | waveletBayesShrink chromaStrength =>
    have hco : Alike 1 (fun u v => image.clamped u v 0 - image.clamped u v 2)
        (fun u v => image'.clamped u v 0 - image'.clamped u v 2) x y := by
      intro u v hu
      simp only [hclamped 0 u v hu, hclamped 2 u v hu]
    have hcg : Alike 1
        (fun u v => image.clamped u v 1 - (image.clamped u v 0 + image.clamped u v 2)*(1/2))
        (fun u v => image'.clamped u v 1 - (image'.clamped u v 0 + image'.clamped u v 2)*(1/2))
        x y := by
      intro u v hu
      simp only [hclamped 0 u v hu, hclamped 1 u v hu, hclamped 2 u v hu]
    simp only [Stage.generate, waveletBayesShrink, waveletRgb, blockValue_congr hco,
      blockValue_congr hcg, hself]
  | edgeAwareUsm strength radius threshold =>
    have hmean := boxMean_congr (hclamped c)
    simp only [Stage.generate, edgeAwareUsm, hmean, hself]
  | acesFilmic enabled => simp only [Stage.generate, hsamples]
  | reinhard whitePoint => simp only [Stage.generate, hsamples]
  | filmicRgb params => simp only [Stage.generate, hsamples]

/-- How far a chain looks around a pixel. -/
def chainReach (h : Intrinsics) (noiseProfile : List (ℚ × ℚ)) (chain : List (Node × ParamView)) :
    Int :=
  (chain.map (fun node => lookAround (node.1.stage h node.2 noiseProfile))).sum

theorem apply_agree (stage : Stage) {r : Int}
    (hagree : Agree (r + lookAround stage) image image' x y) :
    Agree r (stage.apply h image) (stage.apply h image') x y := by
  refine ⟨hagree.width,hagree.height,fun u v hin hu => ?_⟩
  funext c
  exact generate_congr stage (hagree.near hu) hin c

theorem develop_agree (chain : List (Node × ParamView)) {r : Int}
    (hagree : Agree (r + chainReach h noiseProfile chain) image image' x y) :
    Agree r (develop h noiseProfile chain image) (develop h noiseProfile chain image') x y := by
  induction chain generalizing image image' with
  | nil =>
    rw [chainReach, List.map_nil, List.sum_nil, Int.add_zero] at hagree
    exact hagree
  | cons node chain ih =>
    rw [chainReach, List.map_cons, List.sum_cons, Int.add_comm (lookAround _),
      ← Int.add_assoc] at hagree
    exact ih (apply_agree _ hagree)

theorem develop_size (chain : List (Node × ParamView)) :
    (develop h noiseProfile chain image).width = image.width ∧
      (develop h noiseProfile chain image).height = image.height := by
  induction chain generalizing image with
  | nil => exact ⟨rfl,rfl⟩
  | cons node chain ih => exact ih

theorem inImage_develop (chain : List (Node × ParamView)) :
    InImage (develop h noiseProfile chain image) x y ↔ InImage image x y := by
  rw [InImage, InImage, (develop_size chain).1, (develop_size chain).2]

/-- What a chain of nodes makes of a pixel is decided by the pixels around it, as far as the
windows of the chain's kernels reach together, whatever parameters the nodes are given. -/
theorem develop_local (h : Intrinsics) (noiseProfile : List (ℚ × ℚ))
    (chain : List (Node × ParamView))
    (hagree : Agree (chainReach h noiseProfile chain) image image' x y) (hin : InImage image x y) :
    (develop h noiseProfile chain image).samples x y =
      (develop h noiseProfile chain image').samples x y := by
  rw [← Int.zero_add (chainReach _ _ _)] at hagree
  exact (develop_agree chain hagree).samples x y ((inImage_develop chain).mpr hin)
    (near_self (Int.le_refl 0))

/-- Without rounding, and with coarse functions of the C library. -/
def unrounded : Intrinsics where
  half := id
  float := id
  log := fun v => v - 1
  exp := fun v => if v < -(25/8) then 0 else if v < 0 then 43/1000 else 1
  sqrt := fun v => (Nat.sqrt (v*2^40).floor.toNat : ℚ)/2^20
  pow := fun v _ => v

/-- A suite that answers nothing. -/
def noParams : ParamView := ⟨fun _ => none,fun _ => none⟩

/-- Four columns, the last one with a value of its own. -/
def lastColumn (last : ℚ) : Image := ⟨4,1,fun x _ _ => if x = 3 then last else 1/2⟩

theorem develop_local_first : (develop unrounded [] [(.waveletBayesShrink,noParams)]
    (lastColumn 0)).samples 0 0 =
      (develop unrounded [] [(.waveletBayesShrink,noParams)] (lastColumn 1)).samples 0 0 := by
  refine develop_local unrounded [] _ ⟨rfl,rfl,fun u v hin hu => ?_⟩ ⟨⟨by decide,by decide⟩,by decide,by decide⟩
  have hne : u ≠ 3 := by
    have hreach : chainReach unrounded [] [(.waveletBayesShrink,noParams)] = 1 := rfl
    rw [hreach] at hu
    unfold Near at hu
    omega
  funext c
  simp only [lastColumn, if_neg hne]

/-! ### Flat parts -/

/-- The image of one colour. -/
def flat (width height : Nat) (colour : Nat → ℚ) : Image := ⟨width,height,fun _ _ => colour⟩

/-- What a stage makes of a pixel amid its own colour. Denoising and sharpening only take away
what is below zero. -/
def tone (h : Intrinsics) (colour : Nat → ℚ) (c : Nat) : Stage → ℚ
  | .bm3dStep1 _ | .guidedFilter _ _ | .edgeAwareUsm _ _ _ =>
    h.half (if c = 3 then colour c else max 0 (colour c))
  | .bm3dStep2 _ => h.half (colour c)
  | .waveletBayesShrink _ => h.half (max 0 (if c < 3 then colour c else colour 3))
  | .acesFilmic enabled => Nodes.Kernels.acesFilmic h enabled colour c
  | .reinhard whitePoint => Nodes.Kernels.reinhard h whitePoint colour c
  | .filmicRgb params => Nodes.Kernels.filmicRgb h params colour c

/-- The parameters that the clamps let through. -/
def Clamped : Stage → Prop
  | .guidedFilter _ eps => 0 < eps
  | .waveletBayesShrink chromaStrength => 0 ≤ chromaStrength
  | .edgeAwareUsm strength _ threshold => 0 ≤ strength ∧ 0 ≤ threshold
  | .reinhard whitePoint => 0 < whitePoint
  | .filmicRgb params => (1/2 ≤ params.contrast ∧ params.contrast ≤ 2) ∧ 0 ≤ params.saturation ∧
      (0 ≤ params.highlights ∧ params.highlights ≤ 2) ∧ 0 ≤ params.shadows ∧ params.shadows ≤ 2
  | _ => True

theorem clampTo_mem {v low high : ℚ} (h : low ≤ high) :
    low ≤ clampTo v low high ∧ clampTo v low high ≤ high :=
  ⟨le_max_right _ _,max_le (min_le_right _ _) h⟩

theorem stage_clamped (h : Intrinsics) (params : ParamView) (noiseProfile : List (ℚ × ℚ))
    (node : Node) : Clamped (node.stage h params noiseProfile) := by
  cases node with
  | bm3d | acesFilmic => exact trivial
  | guidedFilter => exact lt_of_lt_of_le (by norm_num) (clampTo_mem (by norm_num)).1
  | waveletBayesShrink => exact (clampTo_mem (by norm_num)).1
  | edgeAwareUsm => exact ⟨(clampTo_mem (by norm_num)).1,(clampTo_mem (by norm_num)).1⟩
  | filmicRgb =>
    exact ⟨clampTo_mem (by norm_num),(clampTo_mem (by norm_num)).1,clampTo_mem (by norm_num),
      clampTo_mem (by norm_num)⟩
  | reinhard =>
    simp only [Node.stage, Clamped]
    split
    · norm_num
    · exact lt_of_lt_of_le (by norm_num) (clampTo_mem (by norm_num)).1

theorem boxMean_flat (v : ℚ) : boxMean radius (fun _ _ => v) x y = v := by
  rw [boxMean_eq]
  exact mean_const boxOffsets_ne (fun _ _ => rfl)

theorem mean2x2_flat (v : ℚ) : mean2x2 (fun _ _ => v) x y = v :=
  mean_const (by simp) (fun _ _ => rfl)

/-- A flat part has no variance. -/
theorem guided_flat (eps v : ℚ) : guidedA radius eps (fun _ _ => v) x y = 0 ∧
    guidedB radius eps (fun _ _ => v) x y = v := by
  have ha : guidedA radius eps (fun _ _ => v) x y = 0 := by
    simp only [guidedA, boxMean_flat, sub_self, max_self, zero_div]
  refine ⟨ha,?_⟩
  rw [guidedB, ha, boxMean_flat, zero_mul, sub_zero]

theorem softThreshold_zero {threshold : ℚ} (h : 0 ≤ threshold) : softThreshold 0 threshold = 0 := by
  rw [softThreshold, if_neg (not_lt.mpr h), if_neg (not_lt.mpr (neg_nonpos.mpr h))]

theorem blockValue_flat {ox oy : Int} {threshold v : ℚ} (h : 0 ≤ threshold) :
    blockValue (fun _ _ => v) x y ox oy threshold = v := by
  have hll : 1/4*(v + v + v + v) = v := by ring
  have hhor : 1/4*(v - v + v - v) = 0 := by ring
  have hver : 1/4*(v + v - v - v) = 0 := by ring
  have hdia : 1/4*(v - v - v + v) = 0 := by ring
  simp only [blockValue, hll, hhor, hver, hdia, softThreshold_zero h, add_zero, sub_zero, ite_self]

theorem wavelet_flat {chromaStrength : ℚ} (hs : 0 ≤ chromaStrength) (colour : Nat → ℚ) (c : Nat) :
    waveletRgb chromaStrength (fun _ _ => colour) x y c = if c < 3 then colour c else colour 3 := by
  have hthreshold : 0 ≤ kChromaThreshold*chromaStrength :=
    mul_nonneg (by norm_num [kChromaThreshold]) hs
  simp only [waveletRgb, blockValue_flat hthreshold, waveletLuma]
  by_cases h0 : c = 0
  · subst h0
    simp only [if_pos, Nat.zero_lt_succ]
    ring
  by_cases h1 : c = 1
  · subst h1
    norm_num
    ring
  by_cases h2 : c = 2
  · subst h2
    norm_num
    ring
  · have hc : ¬c < 3 := by omega
    rw [if_neg h0, if_neg h1, if_neg h2, if_neg hc]

theorem generate_flat (stage : Stage) (hclamped : Clamped stage) (width height : Nat)
    (colour : Nat → ℚ) (x y : Int) (c : Nat) :
    stage.generate h (flat width height colour) x y c = tone h colour c stage := by
  have hvalue : (flat width height colour).clamped = fun _ _ => colour := rfl
  cases stage with
  | bm3dStep1 sigma =>
    simp only [Stage.generate, bm3dStep1, tone, hvalue, mean2x2_flat]
    rw [← mul_add, sub_add_cancel, mul_one]
  | bm3dStep2 sigma => simp only [Stage.generate, bm3dStep2, tone, hvalue, mul_zero, add_zero]
  | guidedFilter radius eps =>
    have ha : guidedA radius eps (fun _ _ => colour c) = fun _ _ => 0 :=
      funext fun _ => funext fun _ => (guided_flat eps (colour c)).1
    have hb : guidedB radius eps (fun _ _ => colour c) = fun _ _ => colour c :=
      funext fun _ => funext fun _ => (guided_flat eps (colour c)).2
    simp only [Stage.generate, guidedFilter, tone, hvalue, ha, hb, boxMean_flat, zero_mul, zero_add]
  | waveletBayesShrink chromaStrength =>
    simp only [Stage.generate, waveletBayesShrink, tone, hvalue, wavelet_flat hclamped]
  | edgeAwareUsm strength radius threshold =>
    simp only [Stage.generate, edgeAwareUsm, tone, hvalue, boxMean_flat, sub_self, mul_zero,
      add_zero, ite_self]
  | acesFilmic enabled => rfl
  | reinhard whitePoint => rfl
  | filmicRgb params => rfl

/-- The colour that a chain makes of a colour. -/
def developColour (h : Intrinsics) (noiseProfile : List (ℚ × ℚ)) (chain : List (Node × ParamView))
    (colour : Nat → ℚ) : Nat → ℚ :=
  chain.foldl (fun colour node c => tone h colour c (node.1.stage h node.2 noiseProfile)) colour

theorem develop_flat_image (width height : Nat) (chain : List (Node × ParamView))
    (colour : Nat → ℚ) : develop h noiseProfile chain (flat width height colour) =
      flat width height (developColour h noiseProfile chain colour) := by
  induction chain generalizing colour with
  | nil => rfl
  | cons node chain ih =>
    have hstep : (node.1.stage h node.2 noiseProfile).apply h (flat width height colour) =
        flat width height (fun c => tone h colour c (node.1.stage h node.2 noiseProfile)) := by
      rw [Stage.apply, flat, flat]
      congr 1
      funext x y c
      exact generate_flat _ (stage_clamped h node.2 noiseProfile node.1) width height colour x y c
    rw [develop, List.foldl_cons, hstep]
    exact ih _

/-- Where the image has one colour as far around a pixel as the windows of a chain reach, up to
its border, the chain makes of that colour what its tone curves do, whichever kernels of
denoising and sharpening are among them. -/
theorem develop_flat (h : Intrinsics) (noiseProfile : List (ℚ × ℚ))
    (chain : List (Node × ParamView)) (colour : Nat → ℚ) (hin : InImage image x y)
    (hflat : ∀ u v, InImage image u v → Near (chainReach h noiseProfile chain) x y u v →
      image.samples u v = colour) :
    (develop h noiseProfile chain image).samples x y = developColour h noiseProfile chain colour := by
  have hagree : Agree (chainReach h noiseProfile chain) image
      (flat image.width image.height colour) x y := ⟨rfl,rfl,hflat⟩
  rw [develop_local h noiseProfile chain hagree hin, develop_flat_image]
  rfl

theorem develop_flat_first : (develop unrounded [] [(.edgeAwareUsm,noParams),(.acesFilmic,noParams)]
    (lastColumn 1)).samples 0 0 =
      developColour unrounded [] [(.edgeAwareUsm,noParams),(.acesFilmic,noParams)]
        (fun _ => 1/2) := by
  refine develop_flat unrounded [] _ _ ⟨⟨by decide,by decide⟩,by decide,by decide⟩ (fun u v hin hu => ?_)
  have hne : u ≠ 3 := by
    have hreach : chainReach unrounded [] [(.edgeAwareUsm,noParams),(.acesFilmic,noParams)] = 1 := rfl
    rw [hreach] at hu
    unfold Near at hu
    omega
  funext c
  simp only [lastColumn, if_neg hne]

end Cpipe.Proofs.Kernels
