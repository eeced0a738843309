import Cpipe.Library.Binary64Nan
import Cpipe.Nodes.WarpCoordinates
import Cpipe.Proofs.OpcodeKernel
import Mathlib.Data.Int.Log

namespace Cpipe.Nodes.WarpCoordinates
open Ingest.OpcodeList3 Library.Binary64 Library.Ieee
open DngOpcodeList3 (Frame Opcode3DispatchRecord cellsOf kChannels warpCoefficient packWarp
  packRecord packRecords opcodePoints opcodeRects planeCoefficient mem_cellsOf
  warpCoefficient_packed)

/-! ### The distance of the corners -/

theorem holds_ofInt {n : Nat} (h : n < 2^32) : Holds (ofInt n) n := by
  have hn : (UInt32.ofNat n).toNat = n := UInt32.toNat_ofNat_of_lt' h
  change Holds (.ofModel (Float.Model.ofNat (UInt32.ofNat n).toNat)) n
  rw [hn]
  exact holds_ofNat (by omega)

theorem larger_left {a b : Float} {v : ℚ} (h : AtLeast v a) : AtLeast v (larger a b) := by
  unfold larger
  split_ifs with hlt
  · rcases float_cases b with hb | ⟨y,hy⟩ | ⟨s,hs⟩
    · exact absurd hlt (not_lt_nan hb)
    · rcases h with h | ⟨w,hw,hle⟩
      · have := (infinity_lt hy h).mp hlt
        cases this
      · exact .inr ⟨y,hy,hle.trans ((lt_iff hw hy).mp hlt).le⟩
    · rcases h with h | ⟨w,hw,-⟩
      · exact absurd hlt (not_infinity_lt h b)
      · exact .inl ((lt_infinity hw hs).mp hlt ▸ hs)
  · exact h

theorem larger_right {a b : Float} {v : ℚ} (ha : AtLeast 0 a) (hb : AtLeast v b) :
    AtLeast v (larger a b) := by
  unfold larger
  split_ifs with hlt
  · exact hb
  · rcases ha with ha | ⟨x,hx,-⟩
    · exact .inl ha
    · rcases hb with hb | ⟨y,hy,hle⟩
      · exact absurd ((lt_infinity hx hb).mpr rfl) hlt
      · exact .inr ⟨x,hx,hle.trans (not_lt.mp (fun h => hlt ((lt_iff hx hy).mpr h)))⟩

section Squares

variable {u v : Float} {k : Int}

theorem sumSquares_nonneg (hu : u.isNaN = false) (hv : v.isNaN = false) :
    AtLeast 0 ((u*u) + (v*v)) :=
  (square_atLeast hu).add_nonneg (square_atLeast hv)

theorem sumSquares_left (hu : Beyond (2^k) u) (hv : v.isNaN = false) (hk : -537 ≤ k) :
    AtLeast (2^(2*k)) ((u*u) + (v*v)) :=
  (hu.square hk).add (square_atLeast hv) (by omega)

theorem sumSquares_right (hu : u.isNaN = false) (hv : Beyond (2^k) v) (hk : -537 ≤ k) :
    AtLeast (2^(2*k)) ((u*u) + (v*v)) :=
  (square_atLeast hu).add_left (hv.square hk) (by omega)

end Squares

/-- How far a row of pixels is from a centre. -/
def reach (extent : Nat) (p : ℚ) : ℚ := max |p| |((extent - 1 : Nat) : ℚ) - p|

theorem half_le_reach {extent : Nat} (h : 1 < extent) (p : ℚ) : 2^(-1 : Int) ≤ reach extent p := by
  have hone : (1 : ℚ) ≤ ((extent - 1 : Nat) : ℚ) := by exact_mod_cast Nat.le_sub_one_of_lt h
  have htriangle := abs_add_le p (((extent - 1 : Nat) : ℚ) - p)
  rw [add_sub_cancel, abs_of_nonneg (by linarith)] at htriangle
  have hl : |p| ≤ reach extent p := le_max_left _ _
  have hr : |((extent - 1 : Nat) : ℚ) - p| ≤ reach extent p := le_max_right _ _
  rw [zpow_neg_one]
  linarith

theorem le_reach {extent x : Nat} (h : x < extent) (p : ℚ) : |(x : ℚ) - p| ≤ reach extent p := by
  have hx : (x : ℚ) ≤ ((extent - 1 : Nat) : ℚ) := by exact_mod_cast Nat.le_sub_one_of_lt h
  have hx0 : (0 : ℚ) ≤ x := Nat.cast_nonneg x
  rw [abs_le]
  constructor
  · have := neg_abs_le p
    have hl : |p| ≤ reach extent p := le_max_left _ _
    linarith [le_abs_self p]
  · have hr : |((extent - 1 : Nat) : ℚ) - p| ≤ reach extent p := le_max_right _ _
    linarith [le_abs_self (((extent - 1 : Nat) : ℚ) - p)]

/-- The power of two a number is below, and less than one power away. -/
theorem exists_power {r : ℚ} (hlow : 2^(-1 : Int) ≤ r) :
    ∃ k : Int, -1 ≤ k ∧ 2^(k - 1) ≤ r ∧ r ≤ 2^k := by
  have hpos : 0 < r := lt_of_lt_of_le (by positivity) hlow
  have hbelow : (2 : ℚ)^(Int.clog 2 r - 1) < r := by
    exact_mod_cast Int.zpow_pred_clog_lt_self (by decide : 1 < 2) hpos
  have habove : r ≤ 2^Int.clog 2 r := by
    exact_mod_cast Int.self_le_zpow_clog (by decide : 1 < 2) r
  have hk := (zpow_le_zpow_iff_right₀ (by norm_num : (1 : ℚ) < 2)).mp (hlow.trans habove)
  exact ⟨Int.clog 2 r,hk,hbelow.le,habove⟩

/-- What `max_corner_distance` takes the root of. -/
def farthestSquare (cx cy : Float) (width height : Nat) : Float :=
  let x1 := ofInt (width - 1)
  let y1 := ofInt (height - 1)
  larger (larger (larger ((cx*cx) + (cy*cy)) (((x1 - cx)*(x1 - cx)) + (cy*cy)))
    ((cx*cx) + ((y1 - cy)*(y1 - cy)))) (((x1 - cx)*(x1 - cx)) + ((y1 - cy)*(y1 - cy)))

section Distance

variable {cx cy : Float} {p q : ℚ} {width height : Nat} {k : Int}

theorem farthest_left {v : ℚ} (h : AtLeast v ((cx*cx) + (cy*cy))) :
    AtLeast v (farthestSquare cx cy width height) :=
  larger_left (larger_left (larger_left h))

/-- A centre that is far from the first corner, or infinite. -/
theorem distance_far (hcx : cx.isNaN = false) (hcy : cy.isNaN = false)
    (h : Beyond (2^k) cx ∨ Beyond (2^k) cy) (hk : -537 ≤ k) :
    AtLeast (2^k) (maxCornerDistance cx cy width height) := by
  have hfirst : AtLeast (2^(2*k)) ((cx*cx) + (cy*cy)) :=
    h.elim (sumSquares_left · hcy hk) (sumSquares_right hcx · hk)
  exact (farthest_left hfirst).sqrt (by omega)

/-- The corner of `max_corner_distance` that is the farthest in a direction. -/
theorem distance_reach (hcx : Holds cx p) (hcy : Holds cy q) (hw : width < 2^31)
    (hh : height < 2^31) (h : 2^k ≤ max (reach width p) (reach height q)) (hk : -537 ≤ k) :
    AtLeast (2^k) (maxCornerDistance cx cy width height) := by
  have hx1 := rounds_sub (holds_ofInt (n := width - 1) (by omega)) hcx
  have hy1 := rounds_sub (holds_ofInt (n := height - 1) (by omega)) hcy
  have hfar : ∀ {v : ℚ} {a : Float}, Rounds v a → 2^k ≤ |v| → Beyond (2^k) a :=
    fun h hv => h.beyond (by omega) hv
  have h00 := sumSquares_nonneg hcx.not_nan hcy.not_nan
  simp only [reach, le_max_iff] at h
  rcases h with (h | h) | (h | h)
  · exact distance_far hcx.not_nan hcy.not_nan (.inl (hfar hcx.rounds h)) hk
  · have h10 := sumSquares_left (hfar hx1 h) hcy.not_nan hk
    exact (larger_left (larger_left (larger_right h00 h10))).sqrt (by omega)
  · exact distance_far hcx.not_nan hcy.not_nan (.inr (hfar hcy.rounds h)) hk
  · have h01 := sumSquares_right hcx.not_nan (hfar hy1 h) hk
    exact (larger_left (larger_right (larger_left h00) h01)).sqrt (by omega)

/-- The distance of the corners is no NaN and not degenerate, whether or not it is finite. -/
theorem distance_atLeast (hcx : cx.isNaN = false) (hcy : cy.isNaN = false) (hw : 1 < width)
    (hw' : width < 2^31) (hh' : height < 2^31) :
    AtLeast (2^(-1 : Int)) (maxCornerDistance cx cy width height) := by
  rcases number_cases hcx with ⟨p,hp⟩ | ⟨s,hs⟩
  · rcases number_cases hcy with ⟨q,hq⟩ | ⟨s,hs⟩
    · exact distance_reach hp hq hw' hh' (le_max_of_le_left (half_le_reach hw p)) (by norm_num)
    · exact distance_far hcx hcy (.inr (.inl (isInf_iff.mpr ⟨s,hs⟩))) (by norm_num)
  · exact distance_far hcx hcy (.inl (.inl (isInf_iff.mpr ⟨s,hs⟩))) (by norm_num)

/-- Around an infinite centre the distance is infinite. -/
theorem distance_infinite (hcx : cx.isNaN = false) (hcy : cy.isNaN = false)
    (h : cx.isInf = true ∨ cy.isInf = true) :
    (maxCornerDistance cx cy width height).isFinite = false := by
  rw [Bool.eq_false_iff, Ne, isFinite_iff]
  rintro ⟨r,hr⟩
  obtain ⟨n,hn⟩ := pow_unbounded_of_one_lt r (one_lt_two (α := ℚ))
  have hfar : AtLeast (2^(n : Int)) (maxCornerDistance cx cy width height) :=
    distance_far hcx hcy (h.imp .inl .inl) (by omega)
  rcases hfar with hinf | ⟨w,hw,hle⟩
  · exact hr.not_infinity _ hinf
  · rw [hw.unique hr, zpow_natCast] at hle
    exact absurd hle (not_le_of_gt hn)

/-- A finite distance has a finite centre, and every pixel is within it up to a factor of two. -/
theorem distance_finite (hcx : cx.isNaN = false) (hcy : cy.isNaN = false) (hw : 1 < width)
    (hw' : width < 2^31) (hh' : height < 2^31)
    (h : (maxCornerDistance cx cy width height).isFinite = true) :
    ∃ (p q m : ℚ) (k : Int), Holds cx p ∧ Holds cy q ∧
      Holds (maxCornerDistance cx cy width height) m ∧ -1 ≤ k ∧ k ≤ 513 ∧ 2^(k - 1) ≤ m ∧
      reach width p ≤ 2^k ∧ reach height q ≤ 2^k := by
  obtain ⟨m,hm⟩ := isFinite_iff.mp h
  have hcentre : ¬(cx.isInf = true ∨ cy.isInf = true) := fun hinf => by
    rw [distance_infinite hcx hcy hinf] at h
    cases h
  obtain ⟨p,hp⟩ := (number_cases hcx).resolve_right
    (fun hs => hcentre (.inl (isInf_iff.mpr hs)))
  obtain ⟨q,hq⟩ := (number_cases hcy).resolve_right
    (fun hs => hcentre (.inr (isInf_iff.mpr hs)))
  obtain ⟨k,hk,hlow,hhigh⟩ := exists_power (r := max (reach width p) (reach height q))
    (le_max_of_le_left (half_le_reach hw p))
  have hge : (2 : ℚ)^(k - 1) ≤ m := by
    rcases distance_reach hp hq hw' hh' hlow (by omega) with hinf | ⟨w,hw,hle⟩
    · exact absurd hinf (hm.not_infinity _)
    · exact hw.unique hm ▸ hle
  have hmax := (farthest_left (sumSquares_nonneg hcx hcy)).sqrt_le hm
  have hpow : (2 : ℚ)^(k - 1) ≤ 2^(512 : Int) := (hge.trans (le_abs_self m)).trans hmax
  have hk' := (zpow_le_zpow_iff_right₀ (by norm_num : (1 : ℚ) < 2)).mp hpow
  exact ⟨p,q,m,k,hp,hq,hm,hk,by omega,hge,(le_max_left _ _).trans hhigh,
    (le_max_right _ _).trans hhigh⟩

theorem within_larger {a b : Float} (ha : Within k a) (hb : Within k b) :
    Within k (larger a b) := by
  unfold larger
  split_ifs
  · exact hb
  · exact ha

theorem within_sumSquares {u v : Float} (hu : Within 511 u) (hv : Within 511 v) :
    Within 1023 ((u*u) + (v*v)) :=
  (hu.mul (n := 1022) hu (by norm_num)).add (hv.mul (n := 1022) hv (by norm_num)) (by norm_num)

theorem within_far {extent : Nat} (he : extent < 2^31) (h : Within 510 cx) :
    Within 511 cx ∧ Within 511 (ofInt (extent - 1) - cx) := by
  obtain ⟨w,hw,hle⟩ := h
  have hn : |((extent - 1 : Nat) : ℚ)| ≤ 2^31 := by
    rw [abs_of_nonneg (Nat.cast_nonneg _)]
    exact_mod_cast (by omega : extent - 1 ≤ 2^31)
  have hbig : (2 : ℚ)^31 ≤ 2^(510 : Int) := by
    rw [← zpow_natCast]
    exact two_zpow_le (by norm_num)
  have hpow : (2 : ℚ)^(511 : Int) = 2^(510 : Int) + 2^(510 : Int) := by
    rw [show (511 : Int) = 510 + 1 by norm_num, two_zpow_add]
    ring
  refine ⟨⟨w,hw,hle.trans (two_zpow_le (by norm_num))⟩,?_⟩
  refine (rounds_sub (holds_ofInt (n := extent - 1) (by omega)) hw).upper 511 (by norm_num)
    (by norm_num) ?_
  rw [hpow]
  generalize (2 : ℚ)^(510 : Int) = half at hle hbig ⊢
  linarith [abs_sub ((extent - 1 : Nat) : ℚ) w]

/-- A centre that is not too far has a finite distance to the corners. -/
theorem distance_within (hcx : Within 510 cx) (hcy : Within 510 cy) (hw : width < 2^31)
    (hh : height < 2^31) : (maxCornerDistance cx cy width height).isFinite = true := by
  obtain ⟨hx,hx1⟩ := within_far hw hcx
  obtain ⟨hy,hy1⟩ := within_far hh hcy
  obtain ⟨x,hx0,hle⟩ : Within 1023 (farthestSquare cx cy width height) :=
    within_larger (within_larger (within_larger (within_sumSquares hx hy)
      (within_sumSquares hx1 hy)) (within_sumSquares hx hy1)) (within_sumSquares hx1 hy1)
  obtain ⟨p,hp,-⟩ := hcx
  obtain ⟨q,hq,-⟩ := hcy
  have hfirst : AtLeast 0 (farthestSquare cx cy width height) :=
    farthest_left (sumSquares_nonneg hp.not_nan hq.not_nan)
  have hnonneg : 0 ≤ x := by
    rcases hfirst with hinf | ⟨w,hw,hw0⟩
    · exact absurd hinf (hx0.not_infinity _)
    · exact hw.unique hx0 ▸ hw0
  have hroot : |√(x : ℝ)| ≤ 2^(1023 : Int) := by
    have hsquare : (x : ℝ) ≤ (2^(1023 : Int))^2 := by
      have hone : (1 : ℚ) ≤ 2^(1023 : Int) := one_le_zpow₀ (by norm_num) (by norm_num)
      have hmax : x ≤ (2^(1023 : Int))^2 :=
        ((le_abs_self x).trans hle).trans (le_self_pow₀ hone (by decide))
      rw [← cast_two_zpow, ← Rat.cast_pow]
      exact Rat.cast_le.mpr hmax
    rw [abs_of_nonneg (Real.sqrt_nonneg _), Real.sqrt_le_left (by positivity)]
    exact hsquare
  obtain ⟨r,hr,-⟩ := (rounds_sqrt hx0 hnonneg).upper 1023 (by norm_num) (by norm_num) hroot
  exact isFinite_iff.mpr ⟨r,hr⟩

end Distance

/-! ### The distortion -/

/-- A pixel in the frame is at most twice the unit from the centre. -/
theorem within_normalised {c m : Float} {p r : ℚ} {k : Int} {extent x : Nat} (hc : Holds c p)
    (hm : Holds m r) (hr : 2^(k - 1) ≤ r) (hk : -1 ≤ k) (hk' : k ≤ 513)
    (hreach : reach extent p ≤ 2^k) (hx : x < extent) (he : extent < 2^31) :
    Within 1 ((ofInt x - c)/m) := by
  have hr0 : 0 < r := lt_of_lt_of_le (by positivity) hr
  obtain ⟨d,hd,hle⟩ := (rounds_sub (holds_ofInt (n := x) (by omega)) hc).upper k (by omega)
    (by omega) ((le_reach hx p).trans hreach)
  refine (rounds_div hd hm hr0.ne').upper 1 (by norm_num) (by norm_num) ?_
  rw [abs_div, abs_of_pos hr0, div_le_iff₀ hr0]
  calc |d| ≤ 2^k := hle
    _ = 2^(1 : Int)*2^(k - 1) := by rw [← two_zpow_add]; congr 1; ring
    _ ≤ 2^(1 : Int)*r := mul_le_mul_of_nonneg_left hr (by positivity)

theorem holds_two : Holds 2.0 2 := by
  have h : (2.0 : Float) = .ofModel (.ofNat 2) := by rfl
  rw [h]
  exact holds_ofNat (n := 2) (by decide)

def coefficientDoubles (k : WarpCoefficient) : List Double :=
  [k.kr0,k.kr1,k.kr2,k.kr3,k.kt0,k.kt1]

section Terms

variable {kr0 kr1 kr2 kr3 kt r2 r4 r6 dx dy : Float}

theorem within_radial (h0 : Within 1011 kr0) (h1 : Within 1011 kr1) (h2 : Within 1011 kr2)
    (h3 : Within 1011 kr3) (hr2 : Within 3 r2) (hr4 : Within 6 r4) (hr6 : Within 9 r6) :
    Within 1021 (kr0 + (kr1*r2) + (kr2*r4) + (kr3*r6)) := by
  have ht1 : Within 1014 (kr1*r2) := h1.mul hr2 (by norm_num)
  have ht2 : Within 1017 (kr2*r4) := h2.mul hr4 (by norm_num)
  have ht3 : Within 1020 (kr3*r6) := h3.mul hr6 (by norm_num)
  have hs1 : Within 1015 (kr0 + (kr1*r2)) := h0.add ht1 (by norm_num)
  have hs2 : Within 1018 (kr0 + (kr1*r2) + (kr2*r4)) := hs1.add ht2 (by norm_num)
  exact hs2.add ht3 (by norm_num)

theorem within_two : Within 1 2.0 := ⟨2,holds_two,by norm_num⟩

theorem within_product (hkt : Within 1011 kt) (hdx : Within 1 dx) (hdy : Within 1 dy) :
    Within 1014 (2.0*kt*dx*dy) := by
  have htwice : Within 1012 (2.0*kt) := within_two.mul hkt (by norm_num)
  have hx : Within 1013 (2.0*kt*dx) := htwice.mul hdx (by norm_num)
  exact hx.mul hdy (by norm_num)

theorem within_stretched (hkt : Within 1011 kt) (hr2 : Within 3 r2) (hdx : Within 1 dx) :
    Within 1015 (kt*(r2 + 2.0*dx*dx)) := by
  have htwice : Within 2 (2.0*dx) := within_two.mul hdx (by norm_num)
  have hx : Within 3 (2.0*dx*dx) := htwice.mul hdx (by norm_num)
  have hsum : Within 4 (r2 + 2.0*dx*dx) := hr2.add hx (by norm_num)
  exact hkt.mul hsum (by norm_num)

end Terms

theorem within_squaredRadius {dx dy : Float} (hdx : Within 1 dx) (hdy : Within 1 dy) :
    Within 3 (squaredRadius dx dy) :=
  (hdx.mul (n := 2) hdx (by norm_num)).add (hdy.mul (n := 2) hdy (by norm_num)) (by norm_num)

theorem within_distorted {k : WarpCoefficient} {dx dy : Float}
    (hk : ∀ x ∈ coefficientDoubles k, Within 1011 (ofDouble x)) (hdx : Within 1 dx)
    (hdy : Within 1 dy) :
    Within 1023 (distorted k dx dy).1 ∧ Within 1023 (distorted k dx dy).2 := by
  have hr2 := within_squaredRadius hdx hdy
  have hr4 : Within 6 (squaredRadius dx dy*squaredRadius dx dy) := hr2.mul hr2 (by norm_num)
  have hr6 : Within 9 (squaredRadius dx dy*squaredRadius dx dy*squaredRadius dx dy) :=
    hr4.mul hr2 (by norm_num)
  have hkt0 : Within 1011 (ofDouble k.kt0) := hk _ (by simp [coefficientDoubles])
  have hkt1 : Within 1011 (ofDouble k.kt1) := hk _ (by simp [coefficientDoubles])
  have hradial : Within 1021 (radial k (squaredRadius dx dy)) :=
    within_radial (hk k.kr0 (by simp [coefficientDoubles]))
      (hk k.kr1 (by simp [coefficientDoubles])) (hk k.kr2 (by simp [coefficientDoubles]))
      (hk k.kr3 (by simp [coefficientDoubles])) hr2 hr4 hr6
  constructor
  · have hfx : Within 1022 (radial k (squaredRadius dx dy)*dx) := hradial.mul hdx (by norm_num)
    have hx : Within 1022 (tangentialX k dx dy) :=
      (within_product hkt0 hdx hdy).add (within_stretched hkt1 hr2 hdx) (by norm_num)
    exact hfx.add hx (by norm_num)
  · have hfy : Within 1022 (radial k (squaredRadius dx dy)*dy) := hradial.mul hdy (by norm_num)
    have hy : Within 1022 (tangentialY k dx dy) :=
      (within_stretched hkt0 hr2 hdy).add (within_product hkt1 hdx hdy) (by norm_num)
    exact hfy.add hy (by norm_num)

/-! ### Coefficients whose terms overflow -/

/-- The sum of the radial terms adds no infinity to one of the other sign. -/
def RadialSettled (k : WarpCoefficient) (r2 : Float) : Prop :=
  ¬Opposed (ofDouble k.kr0 + (ofDouble k.kr1*r2)) (ofDouble k.kr2*(r2*r2)) ∧
    ¬Opposed (ofDouble k.kr0 + (ofDouble k.kr1*r2) + (ofDouble k.kr2*(r2*r2)))
      (ofDouble k.kr3*(r2*r2*r2))

/-- `2.0*kt*dx*dy` multiplies no infinity by zero. -/
def ProductSettled (kt dx dy : Float) : Prop :=
  ¬((2.0*kt).isInf = true ∧ Holds dx 0) ∧ ¬((2.0*kt*dx).isInf = true ∧ Holds dy 0)

/-- Where terms of a pixel are infinite, none of them is multiplied by zero, as it would be in
the row and the column of the centre, and no two are added that have opposite signs. -/
structure Settled (k : WarpCoefficient) (dx dy : Float) : Prop where
  radial : RadialSettled k (squaredRadius dx dy)
  centre : (WarpCoordinates.radial k (squaredRadius dx dy)).isInf = true →
    ¬Holds dx 0 ∧ ¬Holds dy 0
  productX : ProductSettled (ofDouble k.kt0) dx dy
  productY : ProductSettled (ofDouble k.kt1) dx dy
  tangentialX : ¬Opposed (2.0*ofDouble k.kt0*dx*dy)
    (ofDouble k.kt1*(squaredRadius dx dy + 2.0*dx*dx))
  tangentialY : ¬Opposed (ofDouble k.kt0*(squaredRadius dx dy + 2.0*dy*dy))
    (2.0*ofDouble k.kt1*dx*dy)
  x : ¬Opposed (WarpCoordinates.radial k (squaredRadius dx dy)*dx)
    (WarpCoordinates.tangentialX k dx dy)
  y : ¬Opposed (WarpCoordinates.radial k (squaredRadius dx dy)*dy)
    (WarpCoordinates.tangentialY k dx dy)

section Overflow

variable {k : WarpCoefficient} {kt r2 dx dy : Float}

theorem number_radial_iff (hk : ∀ x ∈ coefficientDoubles k, ∃ v, Holds (ofDouble x) v)
    (hr2 : Within 3 r2) : (radial k r2).isNaN = false ↔ RadialSettled k r2 := by
  have hr4 : Within 6 (r2*r2) := hr2.mul hr2 (by norm_num)
  have hr6 : Within 9 (r2*r2*r2) := hr4.mul hr2 (by norm_num)
  have h1 := number_mul_finite (hk k.kr1 (by simp [coefficientDoubles])) hr2.holds
  have h2 := number_mul_finite (hk k.kr2 (by simp [coefficientDoubles])) hr4.holds
  have h3 := number_mul_finite (hk k.kr3 (by simp [coefficientDoubles])) hr6.holds
  obtain ⟨v,hv⟩ := hk k.kr0 (by simp [coefficientDoubles])
  have h01 := number_add hv h1
  constructor
  · intro h
    have h012 := (number_of_add h).1
    exact ⟨(number_add_iff h01 h2).mp h012,(number_add_iff h012 h3).mp h⟩
  · rintro ⟨ho2,ho3⟩
    exact (number_add_iff ((number_add_iff h01 h2).mpr ho2) h3).mpr ho3

theorem number_product_iff (hkt : ∃ v, Holds kt v) (hdx : ∃ v, Holds dx v)
    (hdy : ∃ v, Holds dy v) : (2.0*kt*dx*dy).isNaN = false ↔ ProductSettled kt dx dy := by
  have htwice := number_mul_finite ⟨2,holds_two⟩ hkt
  constructor
  · intro h
    have hx := (number_of_mul h).1
    exact ⟨(number_mul_iff htwice hdx).mp hx,(number_mul_iff hx hdy).mp h⟩
  · rintro ⟨hx,hy⟩
    exact (number_mul_iff ((number_mul_iff htwice hdx).mpr hx) hdy).mpr hy

theorem number_stretched (hkt : ∃ v, Holds kt v) (hr2 : Within 3 r2) (hdx : Within 1 dx) :
    (kt*(r2 + 2.0*dx*dx)).isNaN = false := by
  have htwice : Within 2 (2.0*dx) := within_two.mul hdx (by norm_num)
  have hx : Within 3 (2.0*dx*dx) := htwice.mul hdx (by norm_num)
  have hsum : Within 4 (r2 + 2.0*dx*dx) := hr2.add hx (by norm_num)
  exact number_mul_finite hkt hsum.holds

/-- A distorted pixel is a number exactly where its infinite terms, if any, settle. -/
theorem number_distorted_iff (hk : ∀ x ∈ coefficientDoubles k, ∃ v, Holds (ofDouble x) v)
    (hdx : Within 1 dx) (hdy : Within 1 dy) :
    ((distorted k dx dy).1.isNaN = false ∧ (distorted k dx dy).2.isNaN = false) ↔
      Settled k dx dy := by
  have hr2 := within_squaredRadius hdx hdy
  have hkt0 := hk k.kt0 (by simp [coefficientDoubles])
  have hkt1 := hk k.kt1 (by simp [coefficientDoubles])
  have hradial := number_radial_iff hk hr2
  have hproductX := number_product_iff hkt0 hdx.holds hdy.holds
  have hproductY := number_product_iff hkt1 hdx.holds hdy.holds
  have hstretchedX := number_stretched hkt1 hr2 hdx
  have hstretchedY := number_stretched hkt0 hr2 hdy
  constructor
  · rintro ⟨hx,hy⟩
    obtain ⟨hfx,htx⟩ := number_of_add hx
    obtain ⟨hfy,hty⟩ := number_of_add hy
    have hf := (number_of_mul hfx).1
    exact {
      radial := hradial.mp hf
      centre := fun hinf => ⟨fun h => (number_mul_iff hf hdx.holds).mp hfx ⟨hinf,h⟩,
        fun h => (number_mul_iff hf hdy.holds).mp hfy ⟨hinf,h⟩⟩
      productX := hproductX.mp (number_of_add htx).1
      productY := hproductY.mp (number_of_add hty).2
      tangentialX := (number_add_iff (number_of_add htx).1 hstretchedX).mp htx
      tangentialY := (number_add_iff hstretchedY (number_of_add hty).2).mp hty
      x := (number_add_iff hfx htx).mp hx
      y := (number_add_iff hfy hty).mp hy }
  · intro h
    have hf := hradial.mpr h.radial
    have hfx := (number_mul_iff hf hdx.holds).mpr (fun hz => (h.centre hz.1).1 hz.2)
    have hfy := (number_mul_iff hf hdy.holds).mpr (fun hz => (h.centre hz.1).2 hz.2)
    have htx := (number_add_iff (hproductX.mpr h.productX) hstretchedX).mpr h.tangentialX
    have hty := (number_add_iff hstretchedY (hproductY.mpr h.productY)).mpr h.tangentialY
    exact ⟨(number_add_iff hfx htx).mpr h.x,(number_add_iff hfy hty).mpr h.y⟩

/-- In a frame of no finite size every pixel is NaN. -/
theorem null_distorted (k : WarpCoefficient) (hdx : Null dx) (hdy : Null dy) :
    Null (distorted k dx dy).1 ∧ Null (distorted k dx dy).2 := by
  have hr2 : Null (squaredRadius dx dy) := (hdx.mul_right dx).add (hdy.mul_right dy)
  have hstretched (kt : Float) {d : Float} (hd : Null d) :
      Null (kt*(squaredRadius dx dy + 2.0*d*d)) :=
    (hr2.add (hd.mul_left (2.0*d))).mul_left kt
  have hproduct (kt : Float) : Null (2.0*kt*dx*dy) := (hdx.mul_left (2.0*kt)).mul_right dy
  exact ⟨(hdx.mul_left _).add ((hproduct _).add (hstretched _ hdx)),
    (hdy.mul_left _).add ((hstretched _ hdy).add (hproduct _))⟩

end Overflow

/-! ### The conversion -/

/-- A clamped number is one of the row, infinities included. -/
theorem clampCoordinate_spec {v : Float} {extent : Nat} (hv : v.isNaN = false)
    (he : extent < 2^31) :
    ∃ c : ℚ, Holds (clampCoordinate v extent) c ∧ 0 ≤ c ∧ c ≤ (extent - 1 : Nat) := by
  have hzero : Holds 0.0 0 := by rfl
  have hlast := holds_ofInt (n := extent - 1) (by omega)
  have hnonneg : (0 : ℚ) ≤ (extent - 1 : Nat) := Nat.cast_nonneg _
  unfold clampCoordinate
  split_ifs with hlow hhigh
  · exact ⟨0,hzero,le_rfl,hnonneg⟩
  · exact ⟨_,hlast,hnonneg,le_rfl⟩
  · rcases number_cases hv with ⟨x,hx⟩ | ⟨s,hs⟩
    · rw [lt_iff hx hzero, not_lt] at hlow
      rw [lt_iff hlast hx, not_lt] at hhigh
      exact ⟨x,hx,hlow,hhigh⟩
    · rw [infinity_lt hzero hs] at hlow
      rw [lt_infinity hlast hs] at hhigh
      cases s <;> contradiction

theorem castFloor_isSome {v : Float} {c : ℚ} {extent : Nat} (h : Holds v c) (hc : 0 ≤ c)
    (hle : c ≤ (extent - 1 : Nat)) (he : extent < 2^31) : (castFloor v).isSome := by
  have hfloor : 0 ≤ ⌊c⌋ := Int.floor_nonneg.mpr hc
  have hlt : ⌊c⌋ ≤ ((extent - 1 : Nat) : Int) := by
    rw [Int.floor_le_iff]
    push_cast
    exact lt_of_le_of_lt hle (by norm_num)
  unfold castFloor
  rw [show Library.Binary64.value v.toModel.unpack = some c from h]
  rw [Option.bind_eq_bind, Option.bind_some, if_pos ⟨by omega,by omega⟩]
  rfl

/-- `sample_bicubic` converts no NaN, and what it converts is in the range of `int`. -/
def Converts (p : Float × Nat) : Prop :=
  p.1.isNaN = false ∧ (castFloor (clampCoordinate p.1 p.2)).isSome

theorem converts_of_number {v : Float} {extent : Nat} (hv : v.isNaN = false)
    (he : extent < 2^31) : Converts (v,extent) := by
  obtain ⟨c,hc,hnonneg,hle⟩ := clampCoordinate_spec hv he
  exact ⟨hv,castFloor_isSome hc hnonneg hle he⟩

/-! ### Records -/

theorem within_ofInt {n : Nat} (h : n < 2^31) : Within 31 (ofInt n) := by
  refine ⟨n,holds_ofInt (by omega),?_⟩
  rw [abs_of_nonneg (Nat.cast_nonneg n)]
  exact_mod_cast h.le

theorem holds_ofDouble {x : Double} (h : x.isFinite = true) : ∃ v, Holds (ofDouble x) v := by
  have hlt : x.exponent < 2048 := Nat.mod_lt _ (by decide)
  have hne : x.exponent ≠ 2047 := bne_iff_ne.mp h
  have hle : x.exponent ≤ 2046 := by omega
  exact (within_ofBits (n := 2046) hle (by norm_num)).holds

theorem number_centre {cxHat cyHat : Double} (hcx : cxHat.isFinite = true)
    (hcy : cyHat.isFinite = true) {width height : Nat} (hw : width < 2^31) (hh : height < 2^31) :
    (frame cxHat cyHat width height).cx.isNaN = false ∧
      (frame cxHat cyHat width height).cy.isNaN = false :=
  ⟨number_mul_finite (holds_ofDouble hcx) ⟨_,holds_ofInt (by omega)⟩,
    number_mul_finite (holds_ofDouble hcy) ⟨_,holds_ofInt (by omega)⟩⟩

theorem holds_epsilon : Holds epsilon (2^(-52 : Int)) := by
  have h : epsilon.toModel.unpack = .finite .positive (2^52) (-104) (by decide) := by rfl
  rw [Holds, h, Library.Binary64.value, scaled_positive, Nat.cast_pow, ← zpow_natCast]
  norm_num

/-- Where a pixel comes from is a number exactly where the corners are at a finite distance and
the infinite terms of the pixel settle. -/
theorem number_source_iff {cxHat cyHat : Double} {k : WarpCoefficient} {width height x y : Nat}
    (hcx : cxHat.isFinite = true) (hcy : cyHat.isFinite = true)
    (hk : ∀ c ∈ coefficientDoubles k, c.isFinite = true) (hw : 1 < width) (hw' : width < 2^31)
    (hh' : height < 2^31) (hx : x < width) (hy : y < height) :
    ((warpSource (frame cxHat cyHat width height) k x y).1.isNaN = false ∧
        (warpSource (frame cxHat cyHat width height) k x y).2.isNaN = false) ↔
      (frame cxHat cyHat width height).m.isFinite = true ∧
        Settled k (normalised (frame cxHat cyHat width height) x y).1
          (normalised (frame cxHat cyHat width height) x y).2 := by
  obtain ⟨hcentreX,hcentreY⟩ := number_centre hcx hcy hw' hh'
  cases hm : (frame cxHat cyHat width height).m.isFinite with
  | false =>
    obtain ⟨hpx,-⟩ := null_distorted k
      (null_div hm (ofInt x - (frame cxHat cyHat width height).cx))
      (null_div hm (ofInt y - (frame cxHat cyHat width height).cy))
    have hnan : (warpSource (frame cxHat cyHat width height) k x y).1.isNaN = true :=
      nan_add_right (hpx.nan_mul hm)
    rw [hnan]
    simp
  | true =>
    obtain ⟨p,q,m,e,hp,hq,hm',he,he',hge,hpe,hqe⟩ :=
      distance_finite hcentreX hcentreY hw hw' hh' hm
    have hm0 : m ≠ 0 := (lt_of_lt_of_le (by positivity) hge).ne'
    have hsettled := number_distorted_iff (fun c hc => holds_ofDouble (hk c hc))
      (within_normalised hp hm' hge he he' hpe hx hw')
      (within_normalised hq hm' hge he he' hqe hy hh')
    constructor
    · rintro ⟨h1,h2⟩
      exact ⟨rfl,hsettled.mp ⟨(number_of_mul (number_of_add h1).2).2,
        (number_of_mul (number_of_add h2).2).2⟩⟩
    · rintro ⟨-,h⟩
      obtain ⟨h1,h2⟩ := hsettled.mpr h
      exact ⟨number_add hp (number_mul hm' hm0 h1),number_add hq (number_mul hm' hm0 h2)⟩

/-! ### Payloads -/

def warpDoubles (warp : WarpRectilinear) : List Double :=
  warp.coefficients.flatMap coefficientDoubles ++ [warp.cxHat,warp.cyHat]

def vignetteDoubles (vignette : FixVignetteRadial) : List Double :=
  vignette.k.toList ++ [vignette.cxHat,vignette.cyHat]

/-- A finite payload with a centre from which the corners of every image are at a finite
distance, and with coefficients whose infinite terms, if any, settle at every pixel. -/
structure Steady (warp : WarpRectilinear) : Prop where
  finite : ∀ x ∈ warpDoubles warp, x.isFinite
  distance : ∀ width height, 1 < width → width < 2^31 → 1 < height → height < 2^31 →
    (frame warp.cxHat warp.cyHat width height).m.isFinite
  settled : ∀ width height, 1 < width → width < 2^31 → 1 < height → height < 2^31 →
    ∀ x < width, ∀ y < height, ∀ k ∈ warp.coefficients,
      Settled k (normalised (frame warp.cxHat warp.cyHat width height) x y).1
        (normalised (frame warp.cxHat warp.cyHat width height) x y).2

theorem mem_warpDoubles {warp : WarpRectilinear} {k : WarpCoefficient} {x : Double}
    (hk : k ∈ warp.coefficients) (hx : x ∈ coefficientDoubles k) : x ∈ warpDoubles warp :=
  List.mem_append_left _ (List.mem_flatMap.mpr ⟨k,hk,hx⟩)

theorem planeCoefficient_mem {warp : WarpRectilinear} (h : warp.Planes) (c : Nat) :
    planeCoefficient warp c ∈ warp.coefficients := by
  have hindex : min c (warp.coefficients.length - 1) < warp.coefficients.length := by
    have := h.1
    omega
  rw [planeCoefficient, List.getD_eq_getElem _ _ hindex]
  exact List.getElem_mem hindex

/-- Each plane is that of a channel. -/
theorem exists_channel {warp : WarpRectilinear} (h : warp.Planes) {k : WarpCoefficient}
    (hk : k ∈ warp.coefficients) : ∃ c < kChannels, planeCoefficient warp c = k := by
  obtain ⟨c,hc,rfl⟩ := List.getElem_of_mem hk
  have hmin : min c (warp.coefficients.length - 1) = c := by omega
  refine ⟨c,lt_of_lt_of_le hc h.2,?_⟩
  rw [planeCoefficient, hmin, List.getD_eq_getElem _ _ hc]

/-- The record of a warp whose coordinates are those of the payload. -/
structure Packs (record : Opcode3DispatchRecord) (warp : WarpRectilinear) : Prop where
  count : record.coefficientCount ≠ 0
  cx : record.cxHat = warp.cxHat
  cy : record.cyHat = warp.cyHat
  coefficient : ∀ c, warpCoefficient record c = planeCoefficient warp c

theorem sampled_nil {record : Opcode3DispatchRecord} {width height : Nat}
    (h : record.coefficientCount = 0 ∨ width ≤ 1 ∨ height ≤ 1) :
    sampledCoordinates record width height = [] := by
  rw [sampledCoordinates, if_pos h]

theorem sampled_eq {record : Opcode3DispatchRecord} {warp : WarpRectilinear}
    (h : Packs record warp) (hcx : warp.cxHat.isFinite = true) (hcy : warp.cyHat.isFinite = true)
    {width height : Nat} (hw : 1 < width) (hw' : width < 2^31) (hh : 1 < height)
    (hh' : height < 2^31) :
    sampledCoordinates record width height =
      (cellsOf width height kChannels).flatMap (fun p =>
        [((warpSource (frame warp.cxHat warp.cyHat width height)
            (planeCoefficient warp p.2.2) p.1 p.2.1).1,width),
          ((warpSource (frame warp.cxHat warp.cyHat width height)
            (planeCoefficient warp p.2.2) p.1 p.2.1).2,height)]) := by
  obtain ⟨hcentreX,hcentreY⟩ := number_centre hcx hcy hw' hh'
  have hm : ¬(frame warp.cxHat warp.cyHat width height).m ≤ epsilon :=
    (distance_atLeast hcentreX hcentreY hw hw' hh').not_le holds_epsilon (by norm_num)
  have hnone : ¬(record.coefficientCount = 0 ∨ width ≤ 1 ∨ height ≤ 1) := by
    rintro (h0 | h0 | h0)
    · exact h.count h0
    · omega
    · omega
  unfold sampledCoordinates
  simp only [h.cx, h.cy, h.coefficient, if_neg hnone, if_neg hm]

theorem forall_sampled {record : Opcode3DispatchRecord} {warp : WarpRectilinear}
    (h : Packs record warp) (hcx : warp.cxHat.isFinite = true) (hcy : warp.cyHat.isFinite = true)
    {width height : Nat} (hw : 1 < width) (hw' : width < 2^31) (hh : 1 < height)
    (hh' : height < 2^31) :
    (∀ p ∈ sampledCoordinates record width height, Converts p) ↔
      ∀ x < width, ∀ y < height, ∀ c < kChannels,
        (warpSource (frame warp.cxHat warp.cyHat width height)
          (planeCoefficient warp c) x y).1.isNaN = false ∧
        (warpSource (frame warp.cxHat warp.cyHat width height)
          (planeCoefficient warp c) x y).2.isNaN = false := by
  rw [sampled_eq h hcx hcy hw hw' hh hh']
  simp only [List.forall_mem_flatMap, List.forall_mem_cons]
  constructor
  · intro hall x hx y hy c hc
    obtain ⟨h1,h2,-⟩ := hall (x,y,c) (mem_cellsOf.mpr ⟨hx,hy,hc⟩)
    exact ⟨h1.1,h2.1⟩
  · intro hall p hp
    obtain ⟨hx,hy,hc⟩ := mem_cellsOf.mp hp
    obtain ⟨h1,h2⟩ := hall p.1 hx p.2.1 hy p.2.2 hc
    exact ⟨converts_of_number h1 hw',converts_of_number h2 hh',List.forall_mem_nil _⟩

/-- Every coordinate of a finite warp converts exactly where the warp is steady. -/
theorem sampled_converts_iff {record : Opcode3DispatchRecord} {warp : WarpRectilinear}
    (hplanes : warp.Planes) (h : Packs record warp)
    (hfinite : ∀ x ∈ warpDoubles warp, x.isFinite = true) :
    (∀ width height, width < 2^31 → height < 2^31 →
        ∀ p ∈ sampledCoordinates record width height, Converts p) ↔ Steady warp := by
  have hcx := hfinite warp.cxHat (List.mem_append_right _ (by simp))
  have hcy := hfinite warp.cyHat (List.mem_append_right _ (by simp))
  have hk : ∀ k ∈ warp.coefficients, ∀ c ∈ coefficientDoubles k, c.isFinite = true :=
    fun k hk c hc => hfinite c (mem_warpDoubles hk hc)
  constructor
  · intro hconverts
    have hsource : ∀ width height, 1 < width → width < 2^31 → 1 < height → height < 2^31 →
        ∀ x < width, ∀ y < height, ∀ k ∈ warp.coefficients,
          (frame warp.cxHat warp.cyHat width height).m.isFinite = true ∧
            Settled k (normalised (frame warp.cxHat warp.cyHat width height) x y).1
              (normalised (frame warp.cxHat warp.cyHat width height) x y).2 := by
      intro width height hw hw' hh hh' x hx y hy k hmem
      obtain ⟨c,hc,rfl⟩ := exists_channel hplanes hmem
      have hall := (forall_sampled h hcx hcy hw hw' hh hh').mp (hconverts width height hw' hh')
      exact (number_source_iff hcx hcy (hk _ hmem) hw hw' hh' hx hy).mp (hall x hx y hy c hc)
    have hfirst := planeCoefficient_mem hplanes 0
    refine ⟨hfinite,?_,?_⟩
    · intro width height hw hw' hh hh'
      exact (hsource width height hw hw' hh hh' 0 (by omega) 0 (by omega) _ hfirst).1
    · intro width height hw hw' hh hh' x hx y hy k hmem
      exact (hsource width height hw hw' hh hh' x hx y hy k hmem).2
  · intro hsteady width height hw' hh'
    by_cases hnone : width ≤ 1 ∨ height ≤ 1
    · rw [sampled_nil (.inr hnone)]
      exact List.forall_mem_nil _
    have hw : 1 < width := by omega
    have hh : 1 < height := by omega
    refine (forall_sampled h hcx hcy hw hw' hh hh').mpr fun x hx y hy c _ => ?_
    have hmem := planeCoefficient_mem hplanes c
    exact (number_source_iff hcx hcy (hk _ hmem) hw hw' hh' hx hy).mpr
      ⟨hsteady.distance width height hw hw' hh hh',
        hsteady.settled width height hw hw' hh hh' x hx y hy _ hmem⟩

/-! ### Opcodes -/

theorem mem_packRecords {record : Opcode3DispatchRecord} : ∀ (opcodes : List Opcode)
    (points rects : Nat), record ∈ packRecords opcodes points rects →
      ∃ opcode ∈ opcodes, ∃ p r, record = packRecord p r opcode := by
  intro opcodes
  induction opcodes with
  | nil =>
    intro points rects h
    cases h
  | cons opcode opcodes ih =>
    intro points rects h
    rcases List.mem_cons.mp h with h | h
    · exact ⟨opcode,List.mem_cons_self,points,rects,h⟩
    · obtain ⟨op,hop,p,r,hr⟩ := ih _ _ h
      exact ⟨op,List.mem_cons_of_mem _ hop,p,r,hr⟩

theorem packRecord_mem {opcode : Opcode} : ∀ {opcodes : List Opcode}, opcode ∈ opcodes →
    ∀ points rects, ∃ p r, packRecord p r opcode ∈ packRecords opcodes points rects := by
  intro opcodes h
  induction h with
  | head opcodes => exact fun points rects => ⟨points,rects,List.mem_cons_self⟩
  | tail first _ ih =>
    intro points rects
    obtain ⟨p,r,hmem⟩ := ih (points + (opcodePoints first).length)
      (rects + (opcodeRects first).length)
    exact ⟨p,r,List.mem_cons_of_mem _ hmem⟩

theorem packed_none {opcode : Opcode} (h : opcode.warpRectilinear = none) (points rects : Nat) :
    (packRecord points rects opcode).coefficientCount = 0 := by
  unfold packRecord
  rw [h]
  cases opcode.trimBounds <;> cases opcode.fixBadPixelsList <;>
    cases opcode.fixBadPixelsConstant <;> cases opcode.fixVignetteRadial <;> rfl

theorem packed_warp {opcode : Opcode} (hop : opcode.WellFormed) {warp : WarpRectilinear}
    (h : opcode.warpRectilinear = some warp) :
    warp.Planes ∧ ∀ points rects, Packs (packRecord points rects opcode) warp := by
  obtain ⟨shape,-⟩ := hop
  cases shape with
  | warpRectilinear version flags w hplanes =>
    obtain rfl : w = warp := Option.some.inj h
    refine ⟨hplanes,fun points rects => ⟨?_,rfl,rfl,fun c => warpCoefficient_packed hplanes c⟩⟩
    change UInt32.ofNat (min w.coefficients.length 4) ≠ 0
    rw [Nat.min_eq_left hplanes.2, Ne, ← UInt32.toNat_inj,
      UInt32.toNat_ofNat_of_lt' (lt_of_le_of_lt hplanes.2 (by decide))]
    exact Nat.ne_of_gt hplanes.1
  | fixVignetteRadial version flags v => cases h
  | fixBadPixelsConstant version flags c => cases h
  | fixBadPixelsList version flags l => cases h
  | trimBounds version flags t => cases h
  | unknown rawId version flags params hid hflag => cases h

/-- Only finite parameters reach the image: those of the payloads are finite, and on every
image every coordinate of a warp is one that `sample_bicubic` can convert. -/
structure OnlyFinite (opcodes : List Opcode) : Prop where
  warp : ∀ opcode ∈ opcodes, ∀ warp, opcode.warpRectilinear = some warp →
    ∀ x ∈ warpDoubles warp, x.isFinite
  vignette : ∀ opcode ∈ opcodes, ∀ vignette, opcode.fixVignetteRadial = some vignette →
    ∀ x ∈ vignetteDoubles vignette, x.isFinite
  converts : ∀ record ∈ packRecords opcodes 0 0, ∀ width height, width < 2^31 → height < 2^31 →
    ∀ p ∈ sampledCoordinates record width height, Converts p

/-- The opcode has a finite vignette and a steady warp. -/
structure SteadyOpcode (opcode : Opcode) : Prop where
  warp : ∀ warp, opcode.warpRectilinear = some warp → Steady warp
  vignette : ∀ vignette, opcode.fixVignetteRadial = some vignette →
    ∀ x ∈ vignetteDoubles vignette, x.isFinite

theorem OnlyFinite.steady {opcodes : List Opcode} (hwell : ∀ opcode ∈ opcodes, opcode.WellFormed)
    (h : OnlyFinite opcodes) : ∀ opcode ∈ opcodes, SteadyOpcode opcode := by
  refine fun opcode hop => ⟨fun warp hwarp => ?_,h.vignette opcode hop⟩
  obtain ⟨hplanes,hpacks⟩ := packed_warp (hwell opcode hop) hwarp
  obtain ⟨p,r,hrecord⟩ := packRecord_mem hop 0 0
  exact (sampled_converts_iff hplanes (hpacks p r) (h.warp opcode hop warp hwarp)).mp
    (h.converts _ hrecord)

theorem onlyFinite_of_steady {opcodes : List Opcode}
    (hwell : ∀ opcode ∈ opcodes, opcode.WellFormed)
    (h : ∀ opcode ∈ opcodes, SteadyOpcode opcode) : OnlyFinite opcodes := by
  refine ⟨fun opcode hop warp hwarp => ((h opcode hop).warp warp hwarp).finite,
    fun opcode hop => (h opcode hop).vignette,?_⟩
  intro record hrecord
  obtain ⟨opcode,hop,points,rects,rfl⟩ := mem_packRecords _ _ _ hrecord
  cases hwarp : opcode.warpRectilinear with
  | none =>
    intro width height _ _
    rw [sampled_nil (.inl (packed_none hwarp points rects))]
    exact List.forall_mem_nil _
  | some warp =>
    obtain ⟨hplanes,hpacks⟩ := packed_warp (hwell opcode hop) hwarp
    have hsteady := (h opcode hop).warp warp hwarp
    exact (sampled_converts_iff hplanes (hpacks points rects) hsteady.finite).mpr hsteady

/-! ### A bound under which nothing overflows -/

/-- Biased exponents below which no result of the kernel on a warp exceeds the doubles. -/
structure Moderate (warp : WarpRectilinear) : Prop where
  cx : warp.cxHat.exponent ≤ 1501
  cy : warp.cyHat.exponent ≤ 1501
  coefficient : ∀ k ∈ warp.coefficients, ∀ x ∈ coefficientDoubles k, x.exponent ≤ 2033

theorem isFinite_of_lt {x : Double} (h : x.exponent < 2047) : x.isFinite := by
  unfold Double.isFinite
  rw [bne_iff_ne]
  omega

theorem Moderate.finite {warp : WarpRectilinear} (h : Moderate warp) :
    ∀ x ∈ warpDoubles warp, x.isFinite := by
  intro x hx
  rcases List.mem_append.mp hx with hx | hx
  · obtain ⟨k,hk,hx⟩ := List.mem_flatMap.mp hx
    have := h.coefficient k hk x hx
    exact isFinite_of_lt (by omega)
  · simp only [List.mem_cons, List.not_mem_nil, or_false] at hx
    rcases hx with rfl | rfl
    · have := h.cx
      exact isFinite_of_lt (by omega)
    · have := h.cy
      exact isFinite_of_lt (by omega)

theorem Moderate.steady {warp : WarpRectilinear} (h : Moderate warp) : Steady warp := by
  have hcentre {hat : Double} (hhat : hat.exponent ≤ 1501) {extent : Nat} (he : extent < 2^31) :
      Within 510 (ofDouble hat*ofInt (extent - 1)) := by
    have hwithin : Within 479 (ofDouble hat) := within_ofBits (n := 1501) hhat (by norm_num)
    exact hwithin.mul (within_ofInt (by omega)) (by norm_num)
  have hdistance : ∀ width height, 1 < width → width < 2^31 → 1 < height → height < 2^31 →
      (frame warp.cxHat warp.cyHat width height).m.isFinite = true :=
    fun width height _ hw' _ hh' => distance_within (hcentre h.cx hw') (hcentre h.cy hh') hw' hh'
  refine ⟨h.finite,hdistance,?_⟩
  intro width height hw hw' hh hh' x hx y hy k hk
  have hcoefficient : ∀ c ∈ coefficientDoubles k, Within 1011 (ofDouble c) :=
    fun c hc => within_ofBits (n := 2033) (h.coefficient k hk c hc) (by norm_num)
  obtain ⟨p,q,m,e,hp,hq,hm,he,he',hge,hpe,hqe⟩ := distance_finite
    (hcentre h.cx hw').not_nan (hcentre h.cy hh').not_nan hw hw' hh'
    (hdistance width height hw hw' hh hh')
  have hdx := within_normalised hp hm hge he he' hpe hx hw'
  have hdy := within_normalised hq hm hge he he' hqe hy hh'
  obtain ⟨hpx,hpy⟩ := within_distorted hcoefficient hdx hdy
  exact (number_distorted_iff (fun c hc => (hcoefficient c hc).holds) hdx hdy).mp
    ⟨hpx.not_nan,hpy.not_nan⟩

/-- The opcode has a finite vignette and a warp whose numbers cannot overflow. -/
structure ModerateOpcode (opcode : Opcode) : Prop where
  warp : ∀ warp, opcode.warpRectilinear = some warp → Moderate warp
  vignette : ∀ vignette, opcode.fixVignetteRadial = some vignette →
    ∀ x ∈ vignetteDoubles vignette, x.isFinite

/-- The doubles of an accepted list reach the image as finite numbers and its warps convert no
NaN exactly where every vignette is finite and every warp steady. A warp is where none of its
numbers is so large that a result overflows. -/
theorem only_finite_iff {bytes : List UInt8} {result : ParseResult}
    (hp : parse bytes = .ok result) (hok : result.status = .ok) :
    (OnlyFinite result.opcodes ↔ ∀ opcode ∈ result.opcodes, SteadyOpcode opcode) ∧
      ∀ opcode ∈ result.opcodes, ModerateOpcode opcode → SteadyOpcode opcode := by
  have hwell := (parse_wellFormed hp hok).1
  exact ⟨⟨fun h => h.steady hwell,onlyFinite_of_steady hwell⟩,
    fun opcode _ h => ⟨fun warp hwarp => (h.warp warp hwarp).steady,h.vignette⟩⟩

/-! ### A warp of one plane -/

/-- A warp that keeps every pixel, around this column of the image. -/
def warpAround (cxHat : UInt64) : WarpRectilinear where
  coefficients := [⟨⟨0x3FF0000000000000⟩,⟨0⟩,⟨0⟩,⟨0⟩,⟨0⟩,⟨0⟩⟩]
  cxHat := ⟨cxHat⟩
  cyHat := ⟨0x3FE0000000000000⟩

def opcodeAround (cxHat : UInt64) : Opcode :=
  { Opcode.base 1 0x01030000 0 (warpAround cxHat).encode with
    warpRectilinear := some (warpAround cxHat) }

theorem parse_around (cxHat : UInt64) :
    parse (encode [opcodeAround cxHat]) =
      .ok { status := .ok, opcodes := [opcodeAround cxHat] } := by
  have hone : (warpAround cxHat).coefficients.length = 1 := rfl
  refine parse_encode (by simp) fun op hop => ?_
  rw [List.mem_singleton.mp hop]
  refine ⟨.warpRectilinear 0x01030000 0 (warpAround cxHat) ⟨hone.ge,by omega⟩,?_⟩
  change (warpAround cxHat).encode.length < 2^32
  rw [WarpRectilinear.encode_length, hone]
  decide

/-- Around the middle of the image. -/
theorem middle_only_finite : OnlyFinite [opcodeAround 0x3FE0000000000000] := by
  obtain ⟨hiff,hmoderate⟩ := only_finite_iff (parse_around 0x3FE0000000000000) rfl
  refine hiff.mpr fun op hop => hmoderate op hop ?_
  rw [List.mem_singleton.mp hop]
  refine ⟨fun warp hw => ?_,nofun⟩
  obtain rfl : warpAround 0x3FE0000000000000 = warp := Option.some.inj hw
  exact ⟨by decide,by decide,by decide⟩

theorem nan_of_all {coordinates : List (Float × Nat)}
    (h : coordinates.all (fun p => p.1.isNaN && (castFloor (clampCoordinate p.1 p.2)).isNone)) :
    ∀ p ∈ coordinates, p.1.isNaN ∧ castFloor (clampCoordinate p.1 p.2) = none := by
  intro p hp
  have hall := List.all_eq_true.mp h p hp
  rw [Bool.and_eq_true, Option.isNone_iff_eq_none] at hall
  exact hall

/-- A list with a NaN for its column is accepted, and so is one with a column of 2^520. Both
hand `sample_bicubic` NaN alone on an image of four pixels, and no conversion is defined. -/
theorem nan_converted :
    ¬(∀ bytes result, parse bytes = .ok result → result.status = .ok →
        OnlyFinite result.opcodes) ∧
      ∀ cxHat ∈ [0x7FF8000000000000,0x6070000000000000],
        ∀ record ∈ packRecords [opcodeAround cxHat] 0 0,
          (sampledCoordinates record 2 2).length = 32 ∧ ∀ p ∈ sampledCoordinates record 2 2,
            p.1.isNaN ∧ castFloor (clampCoordinate p.1 p.2) = none := by
  constructor
  · intro h
    have hfinite := (h _ _ (parse_around 0x7FF8000000000000) rfl).warp _ List.mem_cons_self _ rfl
      ⟨0x7FF8000000000000⟩ (by decide)
    revert hfinite
    decide
  · intro cxHat hcx record hrecord
    obtain rfl : record = packRecord 0 0 (opcodeAround cxHat) := List.mem_singleton.mp hrecord
    simp only [List.mem_cons, List.not_mem_nil, or_false] at hcx
    rcases hcx with rfl | rfl
    · exact ⟨by decide +kernel,nan_of_all (by decide +kernel)⟩
    · exact ⟨by decide +kernel,nan_of_all (by decide +kernel)⟩

end Cpipe.Nodes.WarpCoordinates
