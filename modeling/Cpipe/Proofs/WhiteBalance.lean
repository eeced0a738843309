import Cpipe.Nodes.WhiteBalance
import Mathlib.Algebra.BigOperators.Group.List.Basic
import Mathlib.Tactic.FieldSimp
import Mathlib.Tactic.Linarith
import Mathlib.Tactic.NormNum
import Mathlib.Tactic.Ring

namespace Cpipe.Nodes.WhiteBalance

/-! ### Colours and matrices -/

def scale (s : ℚ) (v : Vec3) : Vec3 := ⟨s*v.v0,s*v.v1,s*v.v2⟩

def grey (level : ℚ) : Vec3 := ⟨level,level,level⟩

def halves (half : ℚ → ℚ) (v : Vec3) : Vec3 := ⟨half v.v0,half v.v1,half v.v2⟩

theorem scale_scale (s t : ℚ) (v : Vec3) : scale s (scale t v) = scale (s*t) v := by
  simp only [scale, mul_assoc]

theorem scale_grey (s level : ℚ) : scale s (grey level) = grey (s*level) := rfl

theorem mulMatrixVec_scale (m : Matrix3) (s : ℚ) (v : Vec3) :
    mulMatrixVec m (scale s v) = scale s (mulMatrixVec m v) := by
  simp only [mulMatrixVec, scale, Vec3.mk.injEq]
  refine ⟨?_,?_,?_⟩ <;> ring

theorem mulMatrixVec_mul3 (lhs rhs : Matrix3) (v : Vec3) :
    mulMatrixVec (mul3 lhs rhs) v = mulMatrixVec lhs (mulMatrixVec rhs v) := by
  simp only [mulMatrixVec, mul3, Vec3.mk.injEq]
  refine ⟨?_,?_,?_⟩ <;> ring

theorem mulMatrixVec_lerp (first second : Matrix3) (weight : ℚ) (v : Vec3) :
    mulMatrixVec (lerpMatrix first second weight) v =
      ⟨weight*(mulMatrixVec first v).v0 + (1 - weight)*(mulMatrixVec second v).v0,
        weight*(mulMatrixVec first v).v1 + (1 - weight)*(mulMatrixVec second v).v1,
        weight*(mulMatrixVec first v).v2 + (1 - weight)*(mulMatrixVec second v).v2⟩ := by
  simp only [mulMatrixVec, lerpMatrix, Vec3.mk.injEq]
  refine ⟨?_,?_,?_⟩ <;> ring

theorem determinant_ne_zero {m i : Matrix3} (h : inverseMatrix m = some i) :
    determinant m ≠ 0 := by
  intro hzero
  have hsmall : |determinant m| ≤ kFloatEpsilon := by
    rw [hzero, abs_zero]
    norm_num [kFloatEpsilon]
  rw [inverseMatrix, if_pos hsmall] at h
  cases h

theorem inverse_eq {m i : Matrix3} (h : inverseMatrix m = some i) :
    i = { m0 := (m.m4*m.m8 - m.m5*m.m7)*(1/determinant m)
          m1 := (m.m2*m.m7 - m.m1*m.m8)*(1/determinant m)
          m2 := (m.m1*m.m5 - m.m2*m.m4)*(1/determinant m)
          m3 := (m.m5*m.m6 - m.m3*m.m8)*(1/determinant m)
          m4 := (m.m0*m.m8 - m.m2*m.m6)*(1/determinant m)
          m5 := (m.m2*m.m3 - m.m0*m.m5)*(1/determinant m)
          m6 := (m.m3*m.m7 - m.m4*m.m6)*(1/determinant m)
          m7 := (m.m1*m.m6 - m.m0*m.m7)*(1/determinant m)
          m8 := (m.m0*m.m4 - m.m1*m.m3)*(1/determinant m) } := by
  simp only [inverseMatrix] at h
  split at h
  · cases h
  · exact (Option.some.inj h).symm

theorem inverse_mul {m i : Matrix3} (h : inverseMatrix m = some i) (v : Vec3) :
    mulMatrixVec i (mulMatrixVec m v) = v := by
  have hdet := determinant_ne_zero h
  rw [inverse_eq h]
  obtain ⟨v0,v1,v2⟩ := v
  simp only [mulMatrixVec, Vec3.mk.injEq]
  refine ⟨?_,?_,?_⟩ <;> field_simp <;> rw [determinant] <;> ring

theorem mul_inverse {m i : Matrix3} (h : inverseMatrix m = some i) (v : Vec3) :
    mulMatrixVec m (mulMatrixVec i v) = v := by
  have hdet := determinant_ne_zero h
  rw [inverse_eq h]
  obtain ⟨v0,v1,v2⟩ := v
  simp only [mulMatrixVec, Vec3.mk.injEq]
  refine ⟨?_,?_,?_⟩ <;> field_simp <;> rw [determinant] <;> ring

theorem mulMatrixVec_injective {m i : Matrix3} (h : inverseMatrix m = some i) {v w : Vec3}
    (hvw : mulMatrixVec m v = mulMatrixVec m w) : v = w := by
  rw [← inverse_mul h v, hvw, inverse_mul h]

/-! ### The working space -/

/-- From a colour under D50 to the working space. -/
def toRec2020 : Matrix3 := mul3 kXyzD65ToRec2020 kD50ToD65

theorem toRec2020_invertible : ∃ i, inverseMatrix toRec2020 = some i := by
  have hlarge : ¬|determinant toRec2020| ≤ kFloatEpsilon := by
    norm_num [determinant, toRec2020, mul3, kXyzD65ToRec2020, kD50ToD65, kFloatEpsilon, abs_le]
  rw [inverseMatrix, if_neg hlarge]
  exact ⟨_,rfl⟩

/-- The white of daylight at 5000 kelvins. -/
def d50 : Vec3 := ⟨9642/10000,1,8249/10000⟩

def NearD50 (tolerance : ℚ) (w : Vec3) : Prop :=
  |w.v0 - d50.v0| ≤ tolerance ∧ |w.v1 - d50.v1| ≤ tolerance ∧ |w.v2 - d50.v2| ≤ tolerance

/-- Every channel is next to the level, relative to it. -/
def NearGrey (tolerance : ℚ) (v : Vec3) (level : ℚ) : Prop :=
  |v.v0 - level| ≤ tolerance*|level| ∧ |v.v1 - level| ≤ tolerance*|level| ∧
    |v.v2 - level| ≤ tolerance*|level|

/-- Blends of two matrices keep a bound of both on the white. -/
theorem nearD50_lerp {first second : Matrix3} {weight tolerance : ℚ} {v : Vec3}
    (hweight : 0 ≤ weight ∧ weight ≤ 1) (h1 : NearD50 tolerance (mulMatrixVec first v))
    (h2 : NearD50 tolerance (mulMatrixVec second v)) :
    NearD50 tolerance (mulMatrixVec (lerpMatrix first second weight) v) := by
  have hblend {a b d : ℚ} (ha : |a - d| ≤ tolerance) (hb : |b - d| ≤ tolerance) :
      |weight*a + (1 - weight)*b - d| ≤ tolerance := by
    have hsplit : weight*a + (1 - weight)*b - d = weight*(a - d) + (1 - weight)*(b - d) := by ring
    have hrest : 0 ≤ 1 - weight := sub_nonneg.mpr hweight.2
    calc |weight*a + (1 - weight)*b - d|
        ≤ |weight*(a - d)| + |(1 - weight)*(b - d)| := hsplit ▸ abs_add_le _ _
      _ = weight*|a - d| + (1 - weight)*|b - d| := by
        rw [abs_mul, abs_mul, abs_of_nonneg hweight.1, abs_of_nonneg hrest]
      _ ≤ weight*tolerance + (1 - weight)*tolerance :=
        add_le_add (mul_le_mul_of_nonneg_left ha hweight.1) (mul_le_mul_of_nonneg_left hb hrest)
      _ = tolerance := by ring
  rw [mulMatrixVec_lerp]
  exact ⟨hblend h1.1 h2.1,hblend h1.2.1 h2.2.1,hblend h1.2.2 h2.2.2⟩

/-- A row of a matrix takes what is next to D50 next to what it takes D50 to. -/
theorem row_nearD50 {tolerance : ℚ} {w : Vec3} (h : NearD50 tolerance w) (a b c : ℚ) :
    |a*w.v0 + b*w.v1 + c*w.v2 - 1| ≤
      |a*d50.v0 + b*d50.v1 + c*d50.v2 - 1| + (|a| + |b| + |c|)*tolerance := by
  have hsplit : a*w.v0 + b*w.v1 + c*w.v2 - 1 = (a*d50.v0 + b*d50.v1 + c*d50.v2 - 1) +
      (a*(w.v0 - d50.v0) + b*(w.v1 - d50.v1) + c*(w.v2 - d50.v2)) := by ring
  have hterm (a : ℚ) {d : ℚ} (hd : |d| ≤ tolerance) : |a*d| ≤ |a| * tolerance := by
    rw [abs_mul]
    exact mul_le_mul_of_nonneg_left hd (abs_nonneg a)
  have hsum := abs_add_three (a*(w.v0 - d50.v0)) (b*(w.v1 - d50.v1)) (c*(w.v2 - d50.v2))
  have hfirst := hterm a h.1
  have hsecond := hterm b h.2.1
  have hthird := hterm c h.2.2
  rw [hsplit]
  refine (abs_add_le _ _).trans (add_le_add le_rfl ?_)
  linarith

/-- What is next to D50 is next to a grey in the working space. -/
theorem nearGrey_of_nearD50 {tolerance : ℚ} {w : Vec3} (h : NearD50 tolerance w) (level : ℚ) :
    NearGrey (61/100000 + 47/20*tolerance) (scale level (mulMatrixVec toRec2020 w)) level := by
  have hpositive : 0 ≤ tolerance := (abs_nonneg _).trans h.1
  have hrow {a b c : ℚ} (hwhite : |a*d50.v0 + b*d50.v1 + c*d50.v2 - 1| ≤ 61/100000)
      (hsum : |a| + |b| + |c| ≤ 47/20) :
      |level*(a*w.v0 + b*w.v1 + c*w.v2) - level| ≤ (61/100000 + 47/20*tolerance)*|level| := by
    have hfactor : level*(a*w.v0 + b*w.v1 + c*w.v2) - level =
        (a*w.v0 + b*w.v1 + c*w.v2 - 1)*level := by ring
    rw [hfactor, abs_mul]
    refine mul_le_mul_of_nonneg_right ((row_nearD50 h a b c).trans ?_) (abs_nonneg level)
    exact add_le_add hwhite (mul_le_mul_of_nonneg_right hsum hpositive)
  exact ⟨hrow (by decide +kernel) (by decide +kernel),
    hrow (by decide +kernel) (by decide +kernel),hrow (by decide +kernel) (by decide +kernel)⟩

/-! ### From the white balance to the matrix -/

/-- The nodes that balance white. -/
inductive Balance where
  | dualIlluminant | greyworldAuto

def Balance.process (half : ℚ → ℚ) (estimateSceneCct : SceneCct) : Balance → Image →
    Except Error Image
  | .dualIlluminant, image => wbDualIlluminant half estimateSceneCct image
  | .greyworldAuto, image => wbGreyworldAuto half estimateSceneCct image

variable {half : ℚ → ℚ} {estimateSceneCct : SceneCct} {image balanced : Image} {b : Balance}

/-- An image balanced to a neutral. -/
structure Balanced (half : ℚ → ℚ) (image : Image) (neutral : Vec3) (known : Illuminants)
    (calibration : CalibrationResult) (balanced : Image) : Prop where
  illuminated : illuminants image.calibration = .ok known
  interpolated : blended image.calibration known calibration.sceneCct = .ok calibration
  positive : 0 < neutral.v0 ∧ 0 < neutral.v1 ∧ 0 < neutral.v2
  image : balanced =
    { image with
      pixels := image.pixels.map (divided half neutral)
      metadata := addAppliedStep "white_balance"
        (emitWbBlobs neutral calibration { image.metadata with asShotNeutral := neutral }) }

theorem blended_sceneCct {calibration : CalibrationView} {known : Illuminants} {sceneCct : ℚ}
    {result : CalibrationResult} (h : blended calibration known sceneCct = .ok result) :
    result.sceneCct = sceneCct := by
  simp only [blended] at h
  split at h
  · cases h
    rfl
  · split at h
    · cases h
    · cases h
      rfl

/-- An estimate is the ratio of three positive sums. -/
theorem estimate_ok {pixels : List Pixel} {neutral : Vec3}
    (h : estimateNeutralFromPixels pixels = .ok neutral) :
    0 < (channelSums pixels).v0 ∧ 0 < (channelSums pixels).v1 ∧ 0 < (channelSums pixels).v2 ∧
      neutral = ⟨(channelSums pixels).v0/(channelSums pixels).v1,1,
        (channelSums pixels).v2/(channelSums pixels).v1⟩ := by
  simp only [estimateNeutralFromPixels] at h
  split at h
  · cases h
  · rename_i hsums
    push Not at hsums
    exact ⟨hsums.1,hsums.2.1,hsums.2.2,(Except.ok.inj h).symm⟩

theorem estimate_positive {pixels : List Pixel} {neutral : Vec3}
    (h : estimateNeutralFromPixels pixels = .ok neutral) :
    0 < neutral.v0 ∧ 0 < neutral.v1 ∧ 0 < neutral.v2 := by
  obtain ⟨h0,h1,h2,rfl⟩ := estimate_ok h
  exact ⟨div_pos h0 h1,one_pos,div_pos h2 h1⟩

/-- Both nodes balance to a positive neutral and hand the matrix of its light on. -/
theorem Balance.process_cases (h : b.process half estimateSceneCct image = .ok balanced) :
    ∃ neutral known calibration, Balanced half image neutral known calibration balanced := by
  cases b with
  | dualIlluminant =>
    simp only [Balance.process, wbDualIlluminant] at h
    cases hknown : illuminants image.calibration with
    | error e => simp [hknown, bind, Except.bind] at h
    | ok known =>
      simp only [hknown, bind, Except.bind] at h
      split at h
      · cases h
      · rename_i hpositive
        split at h
        · cases h
        · rename_i calibration hblended
          push Not at hpositive
          refine ⟨image.metadata.asShotNeutral,known,calibration,hknown,?_,hpositive,?_⟩
          · rw [blended_sceneCct hblended]
            exact hblended
          · exact (Except.ok.inj h).symm
  | greyworldAuto =>
    simp only [Balance.process, wbGreyworldAuto, interpolateCalibration] at h
    cases hneutral : estimateNeutralFromPixels image.pixels with
    | error e => simp [hneutral, bind, Except.bind] at h
    | ok neutral =>
      cases hknown : illuminants image.calibration with
      | error e => simp [hneutral, hknown, bind, Except.bind] at h
      | ok known =>
        simp only [hneutral, hknown, bind, Except.bind] at h
        split at h
        · cases h
        · rename_i calibration hblended
          refine ⟨neutral,known,calibration,hknown,?_,?_,(Except.ok.inj h).symm⟩
          · rw [blended_sceneCct hblended]
            exact hblended
          · exact estimate_positive hneutral

section Developed

variable {neutral : Vec3} {known : Illuminants} {calibration : CalibrationResult}

/-- The matrix node finds the matrix the balance left. -/
theorem Balanced.camera_to_xyz
    (h : Balanced half image neutral known calibration balanced) :
    requiredCameraToXyzBlob balanced.metadata = .ok calibration.cameraToXyzD50 := by
  rw [h.image]
  rfl

theorem Balanced.neutral_eq
    (h : Balanced half image neutral known calibration balanced) :
    balanced.metadata.asShotNeutral = neutral := by
  rw [h.image]
  rfl

/-- What the two nodes make of a pixel together. -/
def developed (half : ℚ → ℚ) (neutral : Vec3) (cameraToXyz : Matrix3) (p : Pixel) : Pixel where
  rgb := halves half
    (mulMatrixVec toRec2020 (mulMatrixVec cameraToXyz (divided half neutral p).rgb))
  alpha := p.alpha

/-- After either balance the matrix node takes a raw image. -/
theorem Balanced.colormatrix
    (h : Balanced half image neutral known calibration balanced)
    (hrole : image.metadata.csRole = "raw_camera") :
    ∃ out, colormatrixDngToWorking half balanced = .ok out ∧
      out.metadata.csRole = "scene_linear_rec2020" ∧
      out.metadata.appliedSteps =
        image.metadata.appliedSteps ++ ["white_balance","color_matrix"] ∧
      out.pixels = image.pixels.map (developed half neutral calibration.cameraToXyzD50) := by
  have hguard : ¬(balanced.metadata.csRole ≠ "raw_camera" ∨
      "white_balance" ∉ balanced.metadata.appliedSteps) := by
    have hstep : "white_balance" ∈ balanced.metadata.appliedSteps := by
      rw [h.image]
      exact List.mem_append_right _ List.mem_cons_self
    have hsame : balanced.metadata.csRole = "raw_camera" := by
      rw [h.image]
      exact hrole
    simp [hstep, hsame]
  simp only [colormatrixDngToWorking, hguard, if_false, h.camera_to_xyz, bind, Except.bind]
  refine ⟨_,rfl,rfl,?_,?_⟩
  · rw [h.image]
    exact List.append_assoc _ _ _
  · rw [h.image]
    refine (List.map_map).trans (List.map_congr_left fun p _ => ?_)
    simp only [Function.comp_apply, mapped, developed, halves, toRec2020, mulMatrixVec_mul3]
    rfl

theorem divided_neutral (hpos : 0 < neutral.v0 ∧ 0 < neutral.v1 ∧ 0 < neutral.v2)
    {p : Pixel} {s : ℚ} (hp : p.rgb = scale s neutral) :
    (divided half neutral p).rgb = grey (half s) := by
  obtain ⟨h0,h1,h2⟩ := hpos
  simp only [divided, hp, scale, grey]
  rw [mul_div_cancel_right₀ s h0.ne', mul_div_cancel_right₀ s h1.ne',
    mul_div_cancel_right₀ s h2.ne']

end Developed

theorem grey_eq_scale (level : ℚ) : grey level = scale level (grey 1) := by
  rw [scale_grey, mul_one]

theorem reciprocalCctWeight_mem (cct1 cct2 cct : ℚ) :
    0 ≤ reciprocalCctWeight cct1 cct2 cct ∧ reciprocalCctWeight cct1 cct2 cct ≤ 1 := by
  simp only [reciprocalCctWeight]
  split
  · exact ⟨zero_le_one,le_rfl⟩
  · exact ⟨le_min zero_le_one (le_max_left _ _),min_le_left _ _⟩

/-- After either balance of a raw image the matrix node succeeds. Whatever temperature the search
finds, what has the colour of the neutral comes out a grey, when both ForwardMatrix tags map
white next to D50. -/
theorem greys_stay_grey (h : b.process half estimateSceneCct image = .ok balanced)
    (hrole : image.metadata.csRole = "raw_camera") :
    ∃ out, colormatrixDngToWorking half balanced = .ok out ∧
      out.metadata.csRole = "scene_linear_rec2020" ∧
      out.metadata.appliedSteps =
        image.metadata.appliedSteps ++ ["white_balance","color_matrix"] ∧
      ∀ forward1 forward2 tolerance, image.calibration.forwardMatrix1 = some forward1 →
        image.calibration.forwardMatrix2 = some forward2 →
        NearD50 tolerance (mulMatrixVec forward1 (grey 1)) →
        NearD50 tolerance (mulMatrixVec forward2 (grey 1)) →
        List.Forall₂ (fun p q => q.alpha = p.alpha ∧
          ∀ s, p.rgb = scale s balanced.metadata.asShotNeutral →
            ∃ v, q.rgb = halves half v ∧ NearGrey (61/100000 + 47/20*tolerance) v (half s))
          image.pixels out.pixels := by
  obtain ⟨neutral,known,calibration,hbalanced⟩ := Balance.process_cases h
  obtain ⟨out,hout,hcs,hsteps,hpixels⟩ := hbalanced.colormatrix hrole
  refine ⟨out,hout,hcs,hsteps,?_⟩
  intro forward1 forward2 tolerance hforward1 hforward2 hwhite1 hwhite2
  have hmatrix : NearD50 tolerance (mulMatrixVec calibration.cameraToXyzD50 (grey 1)) := by
    have hblended := hbalanced.interpolated
    simp only [blended, hforward1, hforward2] at hblended
    rw [← Except.ok.inj hblended]
    exact nearD50_lerp (reciprocalCctWeight_mem _ _ _) hwhite1 hwhite2
  rw [hpixels, List.forall₂_map_right_iff, List.forall₂_same]
  intro p _
  refine ⟨rfl,fun s hs => ⟨_,rfl,?_⟩⟩
  rw [hbalanced.neutral_eq] at hs
  rw [divided_neutral hbalanced.positive hs, grey_eq_scale, mulMatrixVec_scale,
    mulMatrixVec_scale]
  exact nearGrey_of_nearD50 hmatrix _

/-! ### Without ForwardMatrix tags -/

theorem illuminants_colors {calibration : CalibrationView} {known : Illuminants}
    (h : illuminants calibration = .ok known) :
    calibration.colorMatrix1 = some known.colorMatrix1 ∧
      calibration.colorMatrix2 = some known.colorMatrix2 := by
  unfold illuminants requiredMatrix at h
  cases h1 : calibration.colorMatrix1 with
  | none => simp [h1, bind, Except.bind] at h
  | some color1 =>
    cases h2 : calibration.colorMatrix2 with
    | none => simp [h1, h2, bind, Except.bind] at h
    | some color2 =>
      simp only [h1, h2, bind, Except.bind] at h
      split at h
      · cases h
        exact ⟨rfl,rfl⟩
      · cases h

theorem blended_without {calibration : CalibrationView} {known : Illuminants} {sceneCct : ℚ}
    {result : CalibrationResult} (h : blended calibration known sceneCct = .ok result)
    (hmissing : calibration.forwardMatrix1 = none ∨ calibration.forwardMatrix2 = none) :
    ∃ inverse, inverseMatrix (lerpMatrix known.colorMatrix1 known.colorMatrix2
        (reciprocalCctWeight known.cct1 known.cct2 sceneCct)) = some inverse ∧
      result = ⟨inverse,sceneCct,reciprocalCctWeight known.cct1 known.cct2 sceneCct⟩ := by
  simp only [blended] at h
  split at h
  · rename_i h1 h2
    rcases hmissing with hnone | hnone
    · rw [hnone] at h1
      cases h1
    · rw [hnone] at h2
      cases h2
  · split at h
    · cases h
    · rename_i inverse hinverse
      exact ⟨inverse,hinverse,(Except.ok.inj h).symm⟩

/-- The colour that the matrix node makes white. -/
def workingWhite : Vec3 := (inverseMatrix toRec2020).elim (grey 0) (mulMatrixVec · (grey 1))

theorem toRec2020_workingWhite : mulMatrixVec toRec2020 workingWhite = grey 1 := by
  obtain ⟨i,hi⟩ := toRec2020_invertible
  rw [workingWhite, hi]
  exact mul_inverse hi _

/-- A colour that a matrix maps to a grey is shown as a grey just when the matrix maps the
working white to one. -/
theorem grey_iff {m i : Matrix3} (hi : inverseMatrix m = some i) {v : Vec3} {level : ℚ}
    (hlevel : level ≠ 0) (hv : mulMatrixVec m v = grey level) :
    (∃ shown, mulMatrixVec toRec2020 v = grey shown) ↔
      ∃ c, c ≠ 0 ∧ mulMatrixVec m workingWhite = grey c := by
  obtain ⟨t,ht⟩ := toRec2020_invertible
  constructor
  · rintro ⟨shown,hshown⟩
    have hsame : v = scale shown workingWhite := by
      refine mulMatrixVec_injective ht ?_
      rw [hshown, mulMatrixVec_scale, toRec2020_workingWhite, grey_eq_scale]
    rw [hsame, mulMatrixVec_scale] at hv
    have hne : shown ≠ 0 := by
      rintro rfl
      have hzero : (0 : ℚ)*_ = level := congrArg Vec3.v0 hv
      exact hlevel (by rw [← hzero, zero_mul])
    refine ⟨level/shown,div_ne_zero hlevel hne,?_⟩
    have hscaled : scale (1/shown) (scale shown (mulMatrixVec m workingWhite)) =
        scale (1/shown) (grey level) := by rw [hv]
    rw [scale_scale, one_div_mul_cancel hne, scale_grey, one_div_mul_eq_div] at hscaled
    rw [← hscaled]
    simp [scale]
  · rintro ⟨c,hc,hwhite⟩
    refine ⟨level/c,?_⟩
    have hsame : v = scale (level/c) workingWhite := by
      refine mulMatrixVec_injective hi ?_
      rw [hv, mulMatrixVec_scale, hwhite, scale_grey, div_mul_cancel₀ level hc]
    rw [hsame, mulMatrixVec_scale, toRec2020_workingWhite, ← grey_eq_scale]

/-- Without both ForwardMatrix tags the matrix node shows the one colour that the blend of the
ColorMatrix tags maps to the balanced pixel. So the neutral comes out grey just when that blend
maps the working white to a grey. -/
theorem neutral_without_forward (h : b.process half estimateSceneCct image = .ok balanced)
    (hrole : image.metadata.csRole = "raw_camera")
    (hmissing : image.calibration.forwardMatrix1 = none ∨
      image.calibration.forwardMatrix2 = none) :
    ∃ out color1 color2 weight, colormatrixDngToWorking half balanced = .ok out ∧
      image.calibration.colorMatrix1 = some color1 ∧
      image.calibration.colorMatrix2 = some color2 ∧
      balanced.metadata.blobs kBlendWeightBlob = some [weight] ∧ 0 ≤ weight ∧ weight ≤ 1 ∧
      List.Forall₂ (fun p q => q.alpha = p.alpha ∧
        ∃ v, mulMatrixVec (lerpMatrix color1 color2 weight) v =
            (divided half balanced.metadata.asShotNeutral p).rgb ∧
          (∀ w, mulMatrixVec (lerpMatrix color1 color2 weight) w =
            (divided half balanced.metadata.asShotNeutral p).rgb → w = v) ∧
          q.rgb = halves half (mulMatrixVec toRec2020 v) ∧
          ∀ s, half s ≠ 0 → p.rgb = scale s balanced.metadata.asShotNeutral →
            ((∃ shown, mulMatrixVec toRec2020 v = grey shown) ↔
              ∃ c, c ≠ 0 ∧
                mulMatrixVec (lerpMatrix color1 color2 weight) workingWhite = grey c))
        image.pixels out.pixels := by
  obtain ⟨neutral,known,calibration,hbalanced⟩ := Balance.process_cases h
  obtain ⟨out,hout,_,_,hpixels⟩ := hbalanced.colormatrix hrole
  obtain ⟨hcolor1,hcolor2⟩ := illuminants_colors hbalanced.illuminated
  obtain ⟨inverse,hinverse,hcalibration⟩ := blended_without hbalanced.interpolated hmissing
  have hweight := reciprocalCctWeight_mem known.cct1 known.cct2 calibration.sceneCct
  refine ⟨out,known.colorMatrix1,known.colorMatrix2,_,hout,hcolor1,hcolor2,?_,hweight.1,hweight.2,?_⟩
  · rw [hbalanced.image, hcalibration]
    rfl
  rw [hpixels, List.forall₂_map_right_iff, List.forall₂_same, hbalanced.neutral_eq]
  intro p _
  have hmatrix : calibration.cameraToXyzD50 = inverse := by rw [hcalibration]
  have hv := mul_inverse hinverse (divided half neutral p).rgb
  refine ⟨rfl,_,hv,fun w hw => mulMatrixVec_injective hinverse (hw.trans hv.symm),
    by rw [developed, hmatrix],?_⟩
  intro s hs hp
  rw [divided_neutral hbalanced.positive hp] at hv ⊢
  exact grey_iff hinverse hs hv

/-! ### Grey world -/

/-- The image under another light: red and blue are multiplied. -/
def tinted (red blue : ℚ) (p : Pixel) : Pixel :=
  { p with rgb := ⟨red*p.rgb.v0,p.rgb.v1,blue*p.rgb.v2⟩ }

theorem sum_mul (gain : ℚ) (values : List ℚ) :
    (values.map (fun v => gain*v)).sum = gain*values.sum := by
  induction values with
  | nil => simp
  | cons v values ih => simp [ih, mul_add]

theorem channelSums_tinted (red blue : ℚ) (pixels : List Pixel) :
    channelSums (pixels.map (tinted red blue)) =
      ⟨red*(channelSums pixels).v0,(channelSums pixels).v1,blue*(channelSums pixels).v2⟩ := by
  have hred := sum_mul red (pixels.map (fun p => p.rgb.v0))
  have hblue := sum_mul blue (pixels.map (fun p => p.rgb.v2))
  simp only [List.map_map] at hred hblue
  simp only [channelSums, List.map_map, ← hred, ← hblue]
  rfl

/-- The estimate follows the light. -/
theorem estimate_tinted {red blue : ℚ} (hred : 0 < red) (hblue : 0 < blue) (pixels : List Pixel) :
    estimateNeutralFromPixels (pixels.map (tinted red blue)) =
      (estimateNeutralFromPixels pixels).map (fun n => ⟨red*n.v0,n.v1,blue*n.v2⟩) := by
  have hsign : ∀ {gain : ℚ} (v : ℚ), 0 < gain → (gain*v ≤ 0 ↔ v ≤ 0) := fun v hgain => by
    rw [← not_lt, ← not_lt, mul_pos_iff_of_pos_left hgain]
  simp only [estimateNeutralFromPixels, channelSums_tinted, hsign _ hred, hsign _ hblue]
  split
  · rfl
  · simp only [Except.map, mul_div_assoc]

theorem divided_tinted {red blue : ℚ} (hred : 0 < red) (hblue : 0 < blue) (neutral : Vec3)
    (p : Pixel) : divided half ⟨red*neutral.v0,neutral.v1,blue*neutral.v2⟩ (tinted red blue p) =
      divided half neutral p := by
  simp only [divided, tinted, mul_div_mul_left _ _ hred.ne', mul_div_mul_left _ _ hblue.ne']

theorem estimate_grey {pixels : List Pixel} {neutral : Vec3}
    (h : estimateNeutralFromPixels pixels = .ok neutral) :
    channelSums (applyNeutral id pixels neutral) = grey (channelSums pixels).v1 := by
  obtain ⟨h0,_,h2,rfl⟩ := estimate_ok h
  have hdivided : ∀ (n : ℚ) (values : List ℚ), (values.map (fun v => v/n)).sum = values.sum/n := by
    intro n values
    simp only [div_eq_inv_mul, sum_mul]
  have hred := hdivided ((channelSums pixels).v0/(channelSums pixels).v1)
    (pixels.map (fun p => p.rgb.v0))
  have hblue := hdivided ((channelSums pixels).v2/(channelSums pixels).v1)
    (pixels.map (fun p => p.rgb.v2))
  simp only [List.map_map] at hred hblue
  have hback : ∀ {a b : ℚ}, 0 < a → a/(a/b) = b := fun ha => by
    rw [div_div_eq_mul_div, mul_div_cancel_left₀ _ ha.ne']
  simp only [channelSums, applyNeutral, List.map_map, grey, Vec3.mk.injEq]
  refine ⟨?_,?_,?_⟩
  · exact hred.trans (hback h0)
  · simp only [Function.comp_def, divided, id, div_one]
  · exact hblue.trans (hback h2)

/-- With both ForwardMatrix tags the pixels do not depend on the search. -/
theorem greyworld_pixels (image : Image) (hforward1 : image.calibration.forwardMatrix1.isSome)
    (hforward2 : image.calibration.forwardMatrix2.isSome) :
    (wbGreyworldAuto half estimateSceneCct image).map Image.pixels =
      (do let neutral ← estimateNeutralFromPixels image.pixels
          let _ ← illuminants image.calibration
          return applyNeutral half image.pixels neutral) := by
  obtain ⟨forward1,h1⟩ := Option.isSome_iff_exists.mp hforward1
  obtain ⟨forward2,h2⟩ := Option.isSome_iff_exists.mp hforward2
  simp only [wbGreyworldAuto, interpolateCalibration, blended, h1, h2]
  cases estimateNeutralFromPixels image.pixels with
  | error e => rfl
  | ok neutral =>
    cases illuminants image.calibration with
    | error e => rfl
    | ok known => rfl

/-- Grey world takes the light out of an image: under a light that multiplies red and blue it
answers with the same pixels or the same error, however halves are rounded. Without rounding
the channels of its image have one mean. -/
theorem greyworld_takes_light_out {red blue : ℚ} (hred : 0 < red) (hblue : 0 < blue)
    (hforward1 : image.calibration.forwardMatrix1.isSome)
    (hforward2 : image.calibration.forwardMatrix2.isSome) :
    (wbGreyworldAuto half estimateSceneCct
        { image with pixels := image.pixels.map (tinted red blue) }).map Image.pixels =
      (wbGreyworldAuto half estimateSceneCct image).map Image.pixels ∧
    ∀ pixels, (wbGreyworldAuto id estimateSceneCct image).map Image.pixels = .ok pixels →
      ∃ level, 0 < level ∧ channelSums pixels = grey level := by
  constructor
  · rw [greyworld_pixels { image with pixels := image.pixels.map (tinted red blue) } hforward1
      hforward2, greyworld_pixels image hforward1 hforward2, estimate_tinted hred hblue]
    cases estimateNeutralFromPixels image.pixels with
    | error e => rfl
    | ok neutral =>
      have hsame : applyNeutral half (image.pixels.map (tinted red blue))
          ⟨red*neutral.v0,neutral.v1,blue*neutral.v2⟩ = applyNeutral half image.pixels neutral := by
        simp only [applyNeutral, List.map_map]
        exact List.map_congr_left fun p _ => divided_tinted hred hblue neutral p
      simp only [Except.map, bind, Except.bind, hsame]
  · intro pixels h
    rw [greyworld_pixels image hforward1 hforward2] at h
    cases hneutral : estimateNeutralFromPixels image.pixels with
    | error e => simp [hneutral, bind, Except.bind] at h
    | ok neutral =>
      simp only [hneutral, bind, Except.bind] at h
      split at h
      · cases h
      · cases h
        exact ⟨_,(estimate_ok hneutral).2.1,estimate_grey hneutral⟩

/-! ### A small calibration -/

def identity : Matrix3 := ⟨1,0,0,0,1,0,0,0,1⟩

/-- White to white, channel by channel and as near as multiples of `2^-14` come. -/
def toD50 : Matrix3 := ⟨15797/2^14,0,0,0,1,0,0,0,13515/2^14⟩

def calibrated (forward : Option Matrix3) : CalibrationView :=
  ⟨some identity,some identity,forward,forward,17,21⟩

/-- A raw image of one pixel, half as bright as its neutral. -/
def patch (forward : Option Matrix3) : Image where
  pixels := [⟨⟨1/4,1/2,1/3⟩,1⟩]
  calibration := calibrated forward
  metadata := ⟨"raw_camera",["black_level"],⟨1/2,1,2/3⟩,fun _ => none⟩

/-- The blend of the identity with itself. -/
theorem lerp_identity (weight : ℚ) : lerpMatrix identity identity weight = identity := by
  simp [lerpMatrix, identity]

theorem toD50_white : NearD50 (1/2^14) (mulMatrixVec toD50 (grey 1)) := by
  norm_num [NearD50, mulMatrixVec, toD50, grey, d50, abs_le]

theorem inverse_identity : inverseMatrix identity = some identity := by
  norm_num [inverseMatrix, determinant, identity, kFloatEpsilon]

theorem patch_process (forward : Option Matrix3) : ∃ balanced,
    Balance.dualIlluminant.process id (fun _ _ _ _ _ => 5000) (patch forward) = .ok balanced := by
  cases forward <;>
    norm_num [Balance.process, wbDualIlluminant, patch, calibrated, illuminants, requiredMatrix,
      calibrationIlluminantCct, blended, lerp_identity, inverse_identity, bind, Except.bind, pure,
      Except.pure]

theorem greys_stay_grey_patch : ∃ balanced out,
    wbDualIlluminant id (fun _ _ _ _ _ => 5000) (patch (some toD50)) = .ok balanced ∧
    colormatrixDngToWorking id balanced = .ok out ∧
      out.metadata.csRole = "scene_linear_rec2020" ∧
      out.metadata.appliedSteps = ["black_level","white_balance","color_matrix"] ∧
      List.Forall₂ (fun p q => q.alpha = p.alpha ∧
        ∀ s, p.rgb = scale s balanced.metadata.asShotNeutral →
          ∃ v, q.rgb = halves id v ∧ NearGrey (61/100000 + 47/20*(1/2^14)) v (id s))
        (patch (some toD50)).pixels out.pixels := by
  obtain ⟨balanced,h⟩ := patch_process (some toD50)
  obtain ⟨out,hout,hcs,hsteps,hgreys⟩ := greys_stay_grey h rfl
  exact ⟨balanced,out,h,hout,hcs,hsteps,hgreys _ _ _ rfl rfl toD50_white toD50_white⟩

theorem neutral_without_forward_patch : ∃ balanced out color1 color2 weight,
    wbDualIlluminant id (fun _ _ _ _ _ => 5000) (patch none) = .ok balanced ∧
    colormatrixDngToWorking id balanced = .ok out ∧
      (patch none).calibration.colorMatrix1 = some color1 ∧
      (patch none).calibration.colorMatrix2 = some color2 ∧
      balanced.metadata.blobs kBlendWeightBlob = some [weight] ∧ 0 ≤ weight ∧ weight ≤ 1 ∧
      List.Forall₂ (fun p q => q.alpha = p.alpha ∧
        ∃ v, mulMatrixVec (lerpMatrix color1 color2 weight) v =
            (divided id balanced.metadata.asShotNeutral p).rgb ∧
          (∀ w, mulMatrixVec (lerpMatrix color1 color2 weight) w =
            (divided id balanced.metadata.asShotNeutral p).rgb → w = v) ∧
          q.rgb = halves id (mulMatrixVec toRec2020 v) ∧
          ∀ s, id s ≠ 0 → p.rgb = scale s balanced.metadata.asShotNeutral →
            ((∃ shown, mulMatrixVec toRec2020 v = grey shown) ↔
              ∃ c, c ≠ 0 ∧
                mulMatrixVec (lerpMatrix color1 color2 weight) workingWhite = grey c))
        (patch none).pixels out.pixels := by
  obtain ⟨balanced,h⟩ := patch_process none
  obtain ⟨out,color1,color2,weight,hout⟩ := neutral_without_forward h rfl (.inl rfl)
  exact ⟨balanced,out,color1,color2,weight,h,hout⟩

theorem greyworld_takes_light_out_patch :
    (wbGreyworldAuto id (fun _ _ _ _ _ => 5000)
        { patch (some toD50) with pixels := (patch (some toD50)).pixels.map (tinted 2 3) }).map
          Image.pixels =
      (wbGreyworldAuto id (fun _ _ _ _ _ => 5000) (patch (some toD50))).map Image.pixels ∧
    ∀ pixels, (wbGreyworldAuto id (fun _ _ _ _ _ => 5000) (patch (some toD50))).map
        Image.pixels = .ok pixels →
      ∃ level, 0 < level ∧ channelSums pixels = grey level :=
  greyworld_takes_light_out two_pos three_pos rfl rfl

end Cpipe.Nodes.WhiteBalance
