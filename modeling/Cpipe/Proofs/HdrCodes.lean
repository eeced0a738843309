import Cpipe.Runtime.OcioOutput
import Mathlib.Tactic.NormNum

namespace Cpipe.Proofs.HdrCodes
open Cpipe.Color.OcioVulkanProcessor Cpipe.Runtime.OcioOutput Library.Ieee Library.Rounding

/-- Half the distance to the `float` below `k + 1/2`: so much earlier the product rounds up. -/
def slack (k : Nat) : Rat := if k = 0 then 2^(-26 : Int) else 2^((Nat.log 2 k : Int) - 24)

/-- Where code `k + 1` begins on the CPU. -/
def cpuBoundary (k : Nat) : Rat := (k + 1/2 - slack k) / 1023

/-- Where code `k + 1` begins in the shader's image. -/
def vulkanBoundary (k : Nat) : Rat := (64 * (k + 1) - 1/2) / 65535

/-- One path has gone on to code `k + 1` and the other has not. -/
def InGap (k : Nat) (x : Rat) : Prop :=
  min (cpuBoundary k) (vulkanBoundary k) ≤ x ∧ x < max (cpuBoundary k) (vulkanBoundary k)

instance decidableInGap (k : Nat) (x : Rat) : Decidable (InGap k x) :=
  inferInstanceAs (Decidable (_ ∧ _))

variable {x : Rat} {k : Nat}

/-! ### The CPU -/

theorem half_le_product (hk : k ≤ 1023) {r : Rat} (hr : 0 ≤ r) :
    (k : Rat) + 1/2 ≤ Format.single.nearest r ↔ k + 1/2 - slack k ≤ r := by
  rcases Nat.eq_zero_or_pos k with rfl | hpos
  · have hstep : slack 0 = 2^((-2 : Int) - ((24 : Nat) - 1)) / 2 := by norm_num [slack]
    rw [hstep]
    refine Format.le_nearest_iff (f := Format.single) (e := -2) (n := 2^24) ?_ ?_ hr ?_ ?_ ?_ ?_
    · decide
    · decide
    · norm_num
    · norm_num
    · decide
    · norm_num [Format.single]
  · have hlog : Nat.log 2 k ≤ 9 := by
      have := Nat.log_lt_of_lt_pow hpos.ne' (show k < 2^10 by omega)
      omega
    have hlow : (2 : Rat)^Nat.log 2 k ≤ k := by exact_mod_cast Nat.pow_log_le_self 2 hpos.ne'
    have hhigh : (k : Rat) + 1 ≤ 2^(Nat.log 2 k + 1) := by
      exact_mod_cast Nat.lt_pow_succ_log_self (by norm_num) k
    have hstep : slack k = 2^((Nat.log 2 k : Int) - ((24 : Nat) - 1)) / 2 := by
      have hsplit : (Nat.log 2 k : Int) - ((24 : Nat) - 1) = (Nat.log 2 k : Int) - 24 + 1 := by
        omega
      rw [slack, if_neg hpos.ne', hsplit, zpow_add_one₀ (by norm_num)]
      ring
    have hgrid : (2 : Rat)^(22 - Nat.log 2 k) *
        2^((Nat.log 2 k : Int) - ((24 : Nat) - 1)) = 1/2 := by
      have hsum : ((22 - Nat.log 2 k : Nat) : Int) +
          ((Nat.log 2 k : Int) - ((24 : Nat) - 1)) = -1 := by
        omega
      rw [← zpow_natCast, ← zpow_add₀ (by norm_num : (2 : Rat) ≠ 0), hsum]
      norm_num
    rw [hstep]
    refine Format.le_nearest_iff (f := Format.single) (e := Nat.log 2 k)
      (n := (2 * k + 1) * 2^(22 - Nat.log 2 k)) ?_ ?_ hr ?_ ?_ ?_ ?_
    · simp only [Format.single]
      omega
    · decide
    · rw [zpow_natCast]
      linarith
    · rw [← Nat.cast_succ, Nat.succ_eq_add_one, zpow_natCast]
      linarith
    · exact Even.mul_left (Int.even_pow.mpr ⟨even_two,by omega⟩) _
    · push_cast
      rw [mul_assoc]
      refine Eq.trans ?_ (congrArg ((2 * (k : Rat) + 1) * ·) hgrid.symm)
      ring

theorem slack_lt (hk : k ≤ 1023) : slack k < 1/2 := by
  have hlog : Nat.log 2 k ≤ 9 := by
    rcases Nat.eq_zero_or_pos k with rfl | hpos
    · simp
    · have := Nat.log_lt_of_lt_pow hpos.ne' (show k < 2^10 by omega)
      omega
  unfold slack
  split
  · norm_num
  · calc (2 : Rat)^((Nat.log 2 k : Int) - 24) ≤ 2^(-15 : Int) :=
        zpow_le_zpow_right₀ (by norm_num) (by omega)
      _ < 1/2 := by norm_num

theorem cpu_reaches (hk : k ≤ 1023) (hx : 0 ≤ x) :
    (k : Int) + 1 ≤ roundAway (Format.single.nearest (x * 1023)) ↔ cpuBoundary k ≤ x := by
  rw [le_roundAway (by omega), cpuBoundary, div_le_iff₀ (by norm_num),
    ← half_le_product hk (by linarith)]
  push_cast
  constructor
  · intro h
    linarith
  · intro h
    linarith

theorem product_nonneg (hx : 0 ≤ x) : 0 ≤ roundAway (Format.single.nearest (x * 1023)) := by
  have hproduct : (0 : Rat) ≤ Format.single.nearest (x * 1023) := by
    simpa using @Format.le_nearest Format.single (x * 1023) 0 (by simpa using hx)
  rw [roundAway, if_pos hproduct]
  exact Int.floor_nonneg.mpr (by linarith)

theorem product_le (hx : 0 ≤ x) (hx1 : x ≤ 1) :
    roundAway (Format.single.nearest (x * 1023)) ≤ 1023 := by
  by_contra h
  have hreach := (cpu_reaches (le_refl 1023) hx).mp (by push_cast; omega)
  have hslack := slack_lt (le_refl 1023)
  rw [cpuBoundary, div_le_iff₀ (by norm_num)] at hreach
  push_cast at hreach
  linarith

/-! ### The shader -/

theorem vulkan_reaches (x : Rat) (k : Nat) :
    64 * ((k : Int) + 1) ≤ roundAway (65535 * x) ↔ vulkanBoundary k ≤ x := by
  rw [le_roundAway (by omega), vulkanBoundary, div_le_iff₀ (by norm_num)]
  push_cast
  rw [mul_comm x]

theorem stored_nonneg (hx : 0 ≤ x) : 0 ≤ roundAway (65535 * x) := by
  rw [roundAway, if_pos (by linarith)]
  exact Int.floor_nonneg.mpr (by linarith)

theorem stored_le (hx1 : x ≤ 1) : roundAway (65535 * x) ≤ 65535 := by
  by_contra h
  have hreach := (vulkan_reaches x 1023).mp (by push_cast; omega)
  rw [vulkanBoundary, div_le_iff₀ (by norm_num)] at hreach
  push_cast at hreach
  linarith

/-! ### The codes -/

theorem toNat_ofInt {q : Int} (h : 0 ≤ q) (hq : q ≤ 65535) :
    (UInt16.ofInt q).toNat = q.toNat := by
  obtain ⟨n,rfl⟩ := Int.eq_ofNat_of_zero_le h
  rw [UInt16.ofInt]
  simp
  omega

theorem code_topAligned {q : Int} (h : 0 ≤ q) (hq : q ≤ 1023) :
    (hdrCode (UInt16.ofInt q <<< 6)).toNat = q.toNat := by
  have hword := toNat_ofInt h (by omega)
  simp [hdrCode, hword]
  omega

theorem code_stored {q : Int} (h : 0 ≤ q) (hq : q ≤ 65535) :
    (hdrCode (UInt16.ofInt q)).toNat = q.toNat / 64 := by
  have hword := toNat_ofInt h hq
  simp [hdrCode, hword]
  omega

/-- Two numbers below a bound are equal when they pass the same thresholds. -/
theorem eq_iff_thresholds {m n bound : Nat} (hm : m ≤ bound) (hn : n ≤ bound) :
    m = n ↔ ∀ k < bound, k + 1 ≤ m ↔ k + 1 ≤ n := by
  constructor
  · rintro rfl k _
    exact Iff.rfl
  · intro h
    rcases Nat.lt_trichotomy m n with hlt | heq | hlt
    · have := (h m (by omega)).mpr hlt
      omega
    · exact heq
    · have := (h n (by omega)).mp hlt
      omega

/-- A number of the range the transform gives. -/
structure InUnit (x : Single) : Prop where
  notNaN : x.isNaN = false
  nonneg : 0 ≤ x.value
  le_one : x.value ≤ 1

theorem clampUnit_eq {x : Single} (h : InUnit x) : clampUnit x = x.value := by
  rw [clampUnit, if_neg (not_lt.mpr h.nonneg), if_neg (not_lt.mpr h.le_one)]

theorem not_inGap_iff : ¬ InGap k x ↔ (cpuBoundary k ≤ x ↔ vulkanBoundary k ≤ x) := by
  rw [InGap, min_le_iff, lt_max_iff, ← not_le, ← not_le]
  tauto

/-- A value for which both paths are behind one boundary and before the next is in no gap. -/
theorem not_inGap_of_between {n : Nat} (hn : n < 1023) (hx : 0 ≤ x)
    (hcpu : cpuBoundary n ≤ x ∧ x < cpuBoundary (n+1))
    (hvulkan : vulkanBoundary n ≤ x ∧ x < vulkanBoundary (n+1)) (hk : k ≤ 1023) :
    ¬ InGap k x := by
  have hreached := (cpu_reaches hn.le hx).mpr hcpu.1
  have hnext := mt (cpu_reaches (Nat.succ_le_of_lt hn) hx).mp (not_le.mpr hcpu.2)
  have hreached' := (vulkan_reaches x n).mpr hvulkan.1
  have hnext' := mt (vulkan_reaches x (n+1)).mp (not_le.mpr hvulkan.2)
  rw [not_inGap_iff, ← cpu_reaches hk hx, ← vulkan_reaches]
  push_cast at hnext hnext'
  omega

theorem code_agrees_iff (lroundNaN : Int) {x : Single} (h : InUnit x) :
    hdrCode (floatToUnorm10TopAligned lroundNaN x) = hdrCode (UInt16.ofInt (storeUnorm 65535 x)) ↔
      ∀ k < 1023, ¬ InGap k x.value := by
  have hcpu : quantize lroundNaN 1023 x = roundAway (Format.single.nearest (x.value * 1023)) := by
    rw [quantize, h.notNaN, clampUnit_eq h]
    rfl
  have hstore : storeUnorm 65535 x = roundAway (65535 * x.value) := by
    rw [storeUnorm, clampUnit_eq h]
    rfl
  have hlow := product_nonneg h.nonneg
  have hhigh := product_le h.nonneg h.le_one
  have hlow' := stored_nonneg h.nonneg
  have hhigh' := stored_le h.le_one
  rw [floatToUnorm10TopAligned, hcpu, hstore, ← UInt16.toNat_inj, code_topAligned hlow hhigh,
    code_stored hlow' hhigh', eq_iff_thresholds (by omega) (show _ ≤ 1023 by omega)]
  refine forall₂_congr (fun k hk => ?_)
  rw [not_inGap_iff, ← cpu_reaches hk.le h.nonneg, ← vulkan_reaches]
  omega

/-- Boundary by boundary, the two images read alike exactly where no value lies between the
place where one path goes on to the next code and the place where the other does. -/
theorem hdr_codes_agree_iff (lroundNaN : Int) (half : Single → UInt16) (rgba : List Single)
    (h : ∀ x ∈ rgba, InUnit x) :
    ∃ cpu vulkan, writeOcioOutput lroundNaN .r16g16b16a16Unorm rgba = .ok (.words cpu) ∧
      (storageFormat .r16g16b16a16Unorm).map (imageStore half · rgba) = some (.words vulkan) ∧
      (cpu.map hdrCode = vulkan.map hdrCode ↔ ∀ x ∈ rgba, ∀ k < 1023, ¬ InGap k x.value) := by
  refine ⟨_,_,rfl,rfl,?_⟩
  rw [List.map_map, List.map_map, List.map_inj_left]
  exact forall₂_congr (fun x hx => code_agrees_iff lroundNaN (h x hx))

/-- The last float below the place where code 100 begins on the CPU, the first above the place where
it begins in the shader's image, the middle and white. -/
def nearHundred : List Single := [⟨0x3DC731CB⟩,⟨0x3DC7FCC8⟩,⟨0x3F000000⟩,⟨0x3F800000⟩]

theorem near_codes_agree : ∃ cpu vulkan,
    writeOcioOutput 0 .r16g16b16a16Unorm nearHundred = .ok (.words cpu) ∧
    (storageFormat .r16g16b16a16Unorm).map (imageStore floatToHalf · nearHundred) =
      some (.words vulkan) ∧
    cpu.map hdrCode = vulkan.map hdrCode := by
  have hunit : ∀ x ∈ nearHundred, x.isNaN = false ∧ 0 ≤ x.value ∧ x.value ≤ 1 := by
    decide +kernel
  have hbetween : ∀ x ∈ nearHundred, ∃ n ∈ [98,99,511,1022],
      (cpuBoundary n ≤ x.value ∧ x.value < cpuBoundary (n+1)) ∧
        vulkanBoundary n ≤ x.value ∧ x.value < vulkanBoundary (n+1) := by
    decide +kernel
  have hgap : ∀ x ∈ nearHundred, ∀ k < 1023, ¬ InGap k x.value := by
    intro x hx k hk
    obtain ⟨n,hn,hcpu,hvulkan⟩ := hbetween x hx
    have hcode : ∀ n ∈ [98,99,511,1022], n < 1023 := by decide
    exact not_inGap_of_between (hcode n hn) (hunit x hx).2.1 hcpu hvulkan hk.le
  obtain ⟨cpu,vulkan,hcpu,hvulkan,hagree⟩ := hdr_codes_agree_iff 0 floatToHalf nearHundred
    (fun x hx => ⟨(hunit x hx).1,(hunit x hx).2.1,(hunit x hx).2.2⟩)
  exact ⟨cpu,vulkan,hcpu,hvulkan,hagree.mpr hgap⟩

/-- `3/4096`: code 1 from the CPU, and 48 of 65535 levels from the shader, which is code 0. -/
theorem dark_codes_differ :
    InUnit ⟨0x3A400000⟩ ∧
    writeOcioOutput 0 .r16g16b16a16Unorm [⟨0x3A400000⟩] = .ok (.words [64]) ∧
    (storageFormat .r16g16b16a16Unorm).map (imageStore floatToHalf · [⟨0x3A400000⟩]) =
      some (.words [48]) ∧
    [64].map hdrCode ≠ [48].map hdrCode := by
  refine ⟨⟨by decide,by decide +kernel,by decide +kernel⟩,?_,?_,by decide⟩
  · have : floatToUnorm10TopAligned 0 ⟨0x3A400000⟩ = 64 := by decide +kernel
    simp [writeOcioOutput, this]
  · have : UInt16.ofInt (storeUnorm 65535 ⟨0x3A400000⟩) = 48 := by decide +kernel
    simp [storageFormat, imageStore, this]

end Cpipe.Proofs.HdrCodes
