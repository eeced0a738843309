import Cpipe.Nodes.Float16
import Cpipe.Runtime.OcioOutput
import Mathlib.Data.Nat.Bitwise

namespace Cpipe.Proofs.HalfFloats
open Library.Ieee
open Nodes.Float16 (shiftEven halfMagnitude halfOfBits floatMagnitude)
open Runtime.OcioOutput (floatToHalf halfToFloat halfToBits normalizeHalf)

/-! ### Fields of a word -/

theorem and_two_pow_toNat (n k : Nat) : n &&& 2^k = n/2^k % 2*2^k := by
  rw [Nat.and_two_pow, Nat.toNat_testBit]

theorem or_eq_add {a b k : Nat} (h : b < 2^k) : a*2^k ||| b = a*2^k + b := by
  rw [← Nat.shiftLeft_eq, Nat.shiftLeft_add_eq_or_of_lt h]

/-! ### The host's conversion -/

/-- The host's pattern without its sign, of a pattern without its sign. -/
def hostMagnitude (magnitude : Nat) : Nat :=
  let exponent := magnitude/2^23
  if exponent < 102 then 0
  else if exponent ≤ 112 then (2^23 + magnitude % 2^23)/2^(126 - exponent)
  else if 143 ≤ exponent then 0x7c00
  else (magnitude - 112*2^23)/2^13

theorem lost_lt {m e : Nat} (hm : m < 2^24) (he : e ≤ 112) : m/2^(126 - e) < 2^10 := by
  have h : 2^14 ≤ 2^(126 - e) := Nat.pow_le_pow_right (by decide) (by omega)
  have := Nat.div_le_div_left h (Nat.two_pow_pos 14) (a := m)
  omega

theorem hostMagnitude_lt (n : Nat) : hostMagnitude n < 2^15 := by
  unfold hostMagnitude
  dsimp only
  split_ifs with h1 h2 h3
  · decide
  · have := lost_lt (m := 2^23 + n % 2^23) (by omega) h2
    omega
  · decide
  · omega

theorem floatToHalf_eq (x : Single) : floatToHalf x =
    UInt16.ofNat (x.bits.toNat/2^31*2^15 + hostMagnitude (x.bits.toNat % 2^31)) := by
  obtain ⟨bits⟩ := x
  have hn := bits.toNat_lt
  have hsign : ((bits >>> 16) &&& 0x8000).toNat = bits.toNat/2^31*2^15 := by
    rw [UInt32.toNat_and, UInt32.toNat_shiftRight]
    change bits.toNat >>> 16 &&& 2^15 = _
    rw [and_two_pow_toNat, Nat.shiftRight_eq_div_pow]
    omega
  have hexp : ((bits >>> 23) &&& 0xff).toNat = bits.toNat % 2^31/2^23 := by
    rw [UInt32.toNat_and, UInt32.toNat_shiftRight]
    change bits.toNat >>> 23 &&& (2^8 - 1) = _
    rw [Nat.and_two_pow_sub_one_eq_mod, Nat.shiftRight_eq_div_pow]
    omega
  have hman : (bits &&& 0x7fffff).toNat = bits.toNat % 2^31 % 2^23 := by
    rw [UInt32.toNat_and]
    change bits.toNat &&& (2^23 - 1) = _
    rw [Nat.and_two_pow_sub_one_eq_mod]
    omega
  have hor (word : UInt32) (h : word.toNat < 2^15) :
      (((bits >>> 16) &&& 0x8000) ||| word).toUInt16 =
        UInt16.ofNat (bits.toNat/2^31*2^15 + word.toNat) := by
    rw [← or_eq_add h, ← hsign, ← UInt32.toNat_or]
    rfl
  generalize hm : bits.toNat % 2^31 = magnitude at *
  have hlt : magnitude < 2^31 := by omega
  unfold floatToHalf hostMagnitude
  dsimp only
  rw [hexp]
  by_cases h1 : magnitude/2^23 < 102
  · rw [if_pos (by omega), if_pos (by omega), if_pos h1, Nat.add_zero, ← hsign]
    rfl
  by_cases h2 : magnitude/2^23 ≤ 112
  · rw [if_pos (by omega), if_neg (by omega), if_neg h1, if_pos h2]
    have hshift : (1 - ((magnitude/2^23 : Nat) - 127 + 15 : Int) + 13).toNat =
        126 - magnitude/2^23 := by omega
    have hword : (((bits &&& 0x7fffff) ||| 0x800000) >>>
        UInt32.ofNat (126 - magnitude/2^23)).toNat =
          (2^23 + magnitude % 2^23)/2^(126 - magnitude/2^23) := by
      have hmod : (UInt32.ofNat (126 - magnitude/2^23)).toNat % 32 = 126 - magnitude/2^23 := by
        rw [UInt32.toNat_ofNat']
        omega
      rw [UInt32.toNat_shiftRight, hmod, Nat.shiftRight_eq_div_pow, UInt32.toNat_or, hman,
        Nat.or_comm]
      change (1*2^23 ||| magnitude % 2^23)/_ = _
      rw [or_eq_add (Nat.mod_lt _ (by decide)), Nat.one_mul]
    have hfit := lost_lt (m := 2^23 + magnitude % 2^23) (by omega) h2
    rw [hshift, hor _ (by rw [hword]; omega), hword]
  by_cases h3 : 143 ≤ magnitude/2^23
  · rw [if_neg (by omega), if_pos (by omega), if_neg h1, if_neg h2, if_pos h3]
    exact hor 0x7c00 (by decide)
  · rw [if_neg (by omega), if_neg (by omega), if_neg h1, if_neg h2, if_neg h3]
    have hexponent : ((magnitude/2^23 : Nat) - 127 + 15 : Int).toNat = magnitude/2^23 - 112 := by
      omega
    have hword : ((UInt32.ofNat (magnitude/2^23 - 112) <<< 10) |||
        ((bits &&& 0x7fffff) >>> 13)).toNat = (magnitude - 112*2^23)/2^13 := by
      have hlow : ((bits &&& 0x7fffff) >>> 13).toNat = magnitude % 2^23/2^13 := by
        rw [UInt32.toNat_shiftRight, hman]
        exact Nat.shiftRight_eq_div_pow _ 13
      have hhigh : (UInt32.ofNat (magnitude/2^23 - 112) <<< 10).toNat =
          (magnitude/2^23 - 112)*2^10 := by
        rw [UInt32.toNat_shiftLeft, UInt32.toNat_ofNat']
        change ((magnitude/2^23 - 112) % 2^32) <<< 10 % 2^32 = _
        rw [Nat.shiftLeft_eq]
        omega
      rw [UInt32.toNat_or, hhigh, hlow, or_eq_add (by omega)]
      omega
    rw [hexponent, UInt32.or_assoc, hor _ (by rw [hword]; omega), hword]

/-! ### Agreement -/

/-- The significand of a float. -/
def significand (x : Single) : Nat := (if x.exponent = 0 then 0 else 2^23) + x.fraction

/-- How many of its bits a half cannot hold. -/
def lostBits (x : Single) : Nat := if 113 ≤ x.exponent then 13 else 126 - x.exponent

/-- Without its last `k` bits the number is rounded up. -/
def RoundsUp (m k : Nat) : Prop := 2^k < 2*(m % 2^k) ∨ 2*(m % 2^k) = 2^k ∧ m/2^k % 2 = 1

/-- The nearest half is not larger than the float, or both conversions overflow. -/
def Truncates (x : Single) : Prop :=
  x.isNaN = false ∧ (143 ≤ x.exponent ∨ ¬RoundsUp (significand x) (lostBits x))

def halfIsNaN (half : UInt16) : Bool := half.toNat/2^10 % 2^5 == 31 && half.toNat % 2^10 != 0

/-- The two conversions give one pattern, and for a NaN each some NaN. -/
def SameHalf (x : Single) : Prop :=
  if x.isNaN then halfIsNaN (floatToHalf x) ∧ halfIsNaN (halfOfBits x.bits)
  else floatToHalf x = halfOfBits x.bits

theorem shiftEven_eq_iff (m k : Nat) : m/2^k = shiftEven m k ↔ ¬RoundsUp m k := by
  unfold shiftEven RoundsUp
  dsimp only
  split_ifs with h
  · simp [h]
  · simp [h]

theorem shiftEven_le (m k : Nat) : shiftEven m k ≤ m/2^k + 1 := by
  unfold shiftEven
  dsimp only
  split_ifs <;> omega

theorem exponent_eq (x : Single) : x.exponent = x.bits.toNat % 2^31/2^23 := by
  unfold Single.exponent
  omega

theorem fraction_eq (x : Single) : x.fraction = x.bits.toNat % 2^31 % 2^23 := by
  unfold Single.fraction
  omega

theorem halfMagnitude_lt (n : Nat) : halfMagnitude n < 2^15 := by
  unfold halfMagnitude
  dsimp only
  split_ifs with h1 h2 h3 h4 h5
  · decide
  · omega
  · decide
  · have := shiftEven_le (n - 112*2^23) 13
    omega
  · have := shiftEven_le (0 + n % 2^23) (126 - n/2^23)
    have := lost_lt (m := 0 + n % 2^23) (e := n/2^23) (by omega) (by omega)
    omega
  · have := shiftEven_le (2^23 + n % 2^23) (126 - n/2^23)
    have := lost_lt (m := 2^23 + n % 2^23) (e := n/2^23) (by omega) (by omega)
    omega

theorem pattern_inj {s a b : Nat} (ha : a < 2^15) (hb : b < 2^15) :
    UInt16.ofNat (s*2^15 + a) = UInt16.ofNat (s*2^15 + b) ↔ a = b := by
  rw [← UInt16.toNat_inj, UInt16.toNat_ofNat', UInt16.toNat_ofNat']
  omega

theorem magnitudes_large {n : Nat} (h : 143 ≤ n/2^23) (hnan : n/2^23 = 255 → n % 2^23 = 0) :
    hostMagnitude n = halfMagnitude n := by
  unfold hostMagnitude halfMagnitude
  dsimp only
  rw [if_neg (by omega), if_neg (by omega), if_pos h]
  split_ifs with h255 hzero
  · rfl
  · exact absurd (hnan h255) hzero
  · rfl

theorem magnitudes_normal {n : Nat} (h : 113 ≤ n/2^23) (h' : n/2^23 < 143) :
    hostMagnitude n = halfMagnitude n ↔ ¬RoundsUp (2^23 + n % 2^23) 13 := by
  unfold hostMagnitude halfMagnitude
  dsimp only
  rw [if_neg (by omega), if_neg (by omega), if_neg (by omega), if_neg (by omega),
    if_neg (by omega), if_pos h, shiftEven_eq_iff]
  unfold RoundsUp
  omega

theorem magnitudes_small {n : Nat} (h : n/2^23 < 113) :
    hostMagnitude n = halfMagnitude n ↔
      ¬RoundsUp ((if n/2^23 = 0 then 0 else 2^23) + n % 2^23) (126 - n/2^23) := by
  have hhalf : halfMagnitude n =
      shiftEven ((if n/2^23 = 0 then 0 else 2^23) + n % 2^23) (126 - n/2^23) := by
    unfold halfMagnitude
    dsimp only
    rw [if_neg (by omega), if_neg (by omega), if_neg (by omega)]
  have hhost : hostMagnitude n =
      ((if n/2^23 = 0 then 0 else 2^23) + n % 2^23)/2^(126 - n/2^23) := by
    unfold hostMagnitude
    dsimp only
    by_cases h102 : n/2^23 < 102
    · have hpow : 2^25 ≤ 2^(126 - n/2^23) := Nat.pow_le_pow_right (by decide) (by omega)
      rw [if_pos h102, Nat.div_eq_of_lt]
      split_ifs <;> omega
    · rw [if_neg h102, if_pos (by omega), if_neg (by omega)]
  rw [hhalf, hhost, shiftEven_eq_iff]

theorem magnitudes_agree_iff {x : Single} (h : x.isNaN = false) :
    hostMagnitude (x.bits.toNat % 2^31) = halfMagnitude (x.bits.toNat % 2^31) ↔
      143 ≤ x.exponent ∨ ¬RoundsUp (significand x) (lostBits x) := by
  have hnan : x.exponent = 255 → x.fraction = 0 := by
    simpa [Single.isNaN] using h
  unfold significand lostBits
  rw [exponent_eq, fraction_eq] at *
  by_cases h143 : 143 ≤ x.bits.toNat % 2^31/2^23
  · exact iff_of_true (magnitudes_large h143 hnan) (.inl h143)
  rw [or_iff_right h143]
  by_cases h113 : 113 ≤ x.bits.toNat % 2^31/2^23
  · rw [if_neg (by omega), if_pos h113]
    exact magnitudes_normal h113 (by omega)
  · rw [if_neg h113]
    exact magnitudes_small (by omega)

theorem hostMagnitude_nan {x : Single} (h : x.isNaN) :
    hostMagnitude (x.bits.toNat % 2^31) = 0x7c00 := by
  have hexp : x.exponent = 255 := by
    unfold Single.isNaN at h
    simp_all
  rw [exponent_eq] at hexp
  unfold hostMagnitude
  dsimp only
  rw [if_neg (by omega), if_neg (by omega), if_pos (by omega)]

theorem sameHalf_iff (x : Single) : SameHalf x ↔ Truncates x := by
  unfold SameHalf Truncates
  by_cases h : x.isNaN
  · have hlt := x.bits.toNat_lt
    have hinf : halfIsNaN (floatToHalf x) = false := by
      rw [floatToHalf_eq, hostMagnitude_nan h, halfIsNaN, UInt16.toNat_ofNat']
      have hfraction : (x.bits.toNat/2^31*2^15 + 0x7c00) % 2^16 % 2^10 = 0 := by omega
      rw [hfraction, bne_self_eq_false, Bool.and_false]
    simp [h, hinf]
  · rw [Bool.not_eq_true] at h
    rw [if_neg (by simp [h]), floatToHalf_eq, halfOfBits,
      pattern_inj (hostMagnitude_lt _) (halfMagnitude_lt _), magnitudes_agree_iff h]
    simp [h]

/-! ### There and back -/

theorem bit_iff (m : UInt32) : m &&& 0x0400 = 0 ↔ m.toNat/2^10 % 2 = 0 := by
  rw [← UInt32.toNat_inj, UInt32.toNat_and]
  change m.toNat &&& 2^10 = 0 ↔ _
  rw [and_two_pow_toNat]
  omega

/-- The loop stops by itself after as many rounds as it takes to move the bit up. -/
theorem normalizeHalf_eq : ∀ (k n : Nat) (mantissa exponent : UInt32), k ≤ n →
    2^10 ≤ mantissa.toNat*2^k → mantissa.toNat*2^k < 2^11 →
      (normalizeHalf n mantissa exponent).1.toNat = mantissa.toNat*2^k ∧
        (normalizeHalf n mantissa exponent).2 = exponent - UInt32.ofNat k := by
  intro k
  induction k with
  | zero =>
    intro n mantissa exponent _ hlo hhi
    have hstop : normalizeHalf n mantissa exponent = (mantissa,exponent) := by
      cases n with
      | zero => rfl
      | succ n =>
        rw [normalizeHalf, if_neg]
        rw [bit_iff]
        omega
    rw [hstop]
    exact ⟨(Nat.mul_one _).symm,(UInt32.sub_zero exponent).symm⟩
  | succ k ih =>
    intro n mantissa exponent hn hlo hhi
    obtain ⟨n,rfl⟩ : ∃ n', n = n' + 1 := ⟨n - 1,by omega⟩
    have hpow : 2^(k + 1) = 2*2^k := by ring
    have hpos : 0 < 2^k := Nat.two_pow_pos k
    have hsmall : mantissa.toNat < 2^10 := by
      by_contra h
      have : 2^10*(2*1) ≤ mantissa.toNat*(2*2^k) :=
        Nat.mul_le_mul (by omega) (Nat.mul_le_mul_left 2 hpos)
      rw [hpow] at hhi
      omega
    have hshift : (mantissa <<< 1).toNat = mantissa.toNat*2 := by
      rw [UInt32.toNat_shiftLeft]
      change mantissa.toNat <<< 1 % 2^32 = _
      rw [Nat.shiftLeft_eq]
      omega
    have hsame : (mantissa <<< 1).toNat*2^k = mantissa.toNat*2^(k + 1) := by
      rw [hshift, hpow, Nat.mul_assoc]
    obtain ⟨hm,he⟩ := ih n (mantissa <<< 1) (exponent - 1) (by omega) (hsame ▸ hlo) (hsame ▸ hhi)
    rw [normalizeHalf, if_pos ((bit_iff mantissa).mpr (by omega))]
    refine ⟨hm.trans hsame,he.trans ?_⟩
    apply UInt32.toNat_inj.mp
    simp only [UInt32.toNat_sub, UInt32.toNat_ofNat', UInt32.reduceToNat]
    omega

/-- A subnormal half with its leading bit. -/
theorem log2_bounds {m : Nat} (h : m < 1024) (h0 : m ≠ 0) :
    Nat.log2 m ≤ 9 ∧ 2^Nat.log2 m ≤ m ∧ m < 2*2^Nat.log2 m := by
  have hlo := Nat.log2_self_le h0
  have hhi := Nat.lt_log2_self (n := m)
  have hlog : Nat.log2 m < 10 := (Nat.log2_lt h0).mpr h
  refine ⟨by omega,hlo,?_⟩
  rw [Nat.pow_succ] at hhi
  omega

theorem floatMagnitude_subnormal {m : Nat} (h : m < 1024) (h0 : m ≠ 0) : floatMagnitude m =
    (Nat.log2 m + 103)*2^23 + (m - 2^Nat.log2 m)*2^(23 - Nat.log2 m) := by
  have hfraction : m % 2^10 = m := by omega
  rw [floatMagnitude, hfraction, if_neg (by omega), if_neg (by omega), if_neg h0]

/-- The fraction of a subnormal half, moved up to its leading bit. -/
theorem fraction_lt {m : Nat} (h : m < 1024) (h0 : m ≠ 0) :
    (m - 2^Nat.log2 m)*2^(10 - Nat.log2 m) < 2^10 ∧
      m*2^(10 - Nat.log2 m) = 2^10 + (m - 2^Nat.log2 m)*2^(10 - Nat.log2 m) := by
  obtain ⟨hlog,hlo,hhi⟩ := log2_bounds h h0
  have hpow : 2^Nat.log2 m*2^(10 - Nat.log2 m) = 2^10 := by
    rw [← Nat.pow_add]
    congr 1
    omega
  constructor
  · rw [← hpow]
    exact Nat.mul_lt_mul_of_pos_right (by omega) (Nat.two_pow_pos _)
  · rw [← hpow, ← Nat.add_mul]
    congr 1
    omega

theorem scale_eq {l : Nat} (h : l ≤ 9) : 2^(23 - l) = 2^(10 - l)*2^13 := by
  rw [← Nat.pow_add]
  congr 1
  omega

/-- What the loop makes of a subnormal half. -/
theorem normalized {m : Nat} (h : m < 1024) (h0 : m ≠ 0) :
    ((((normalizeHalf 10 (UInt32.ofNat m) 1).2 + 112) <<< 23) |||
      (((normalizeHalf 10 (UInt32.ofNat m) 1).1 &&& 0x03ff) <<< 13)).toNat = floatMagnitude m := by
  obtain ⟨hlog,-,-⟩ := log2_bounds h h0
  obtain ⟨hlt,hup⟩ := fraction_lt h h0
  have hm : (UInt32.ofNat m).toNat = m := by
    rw [UInt32.toNat_ofNat']
    omega
  obtain ⟨hmantissa,hexponent⟩ := normalizeHalf_eq (10 - Nat.log2 m) 10 (UInt32.ofNat m) 1
    (by omega) (by rw [hm]; omega) (by rw [hm]; omega)
  generalize normalizeHalf 10 (UInt32.ofNat m) 1 = p at hmantissa hexponent
  rw [floatMagnitude_subnormal h h0, scale_eq hlog]
  generalize Nat.log2 m = l at *
  have hhigh : ((p.2 + 112) <<< 23).toNat = (l + 103)*2^23 := by
    simp only [hexponent, UInt32.toNat_shiftLeft, UInt32.toNat_add, UInt32.toNat_sub,
      UInt32.toNat_ofNat', UInt32.reduceToNat, Nat.shiftLeft_eq, Nat.reduceMod, Nat.reducePow]
    omega
  have hlow : ((p.1 &&& 0x03ff) <<< 13).toNat = (m - 2^l)*(2^(10 - l)*2^13) := by
    rw [UInt32.toNat_shiftLeft, UInt32.toNat_and, hmantissa, hm]
    change (m*2^(10 - l) &&& (2^10 - 1)) <<< 13 % 2^32 = _
    rw [Nat.and_two_pow_sub_one_eq_mod, Nat.shiftLeft_eq, ← Nat.mul_assoc]
    omega
  rw [UInt32.toNat_or, hhigh, hlow, or_eq_add (by rw [← Nat.mul_assoc]; omega)]

theorem hostMagnitude_subnormal {m : Nat} (h : m < 1024) (h0 : m ≠ 0) :
    hostMagnitude (floatMagnitude m) = m := by
  obtain ⟨hlog,hlo,hhi⟩ := log2_bounds h h0
  obtain ⟨hlt,hup⟩ := fraction_lt h h0
  have hscale := scale_eq hlog
  rw [floatMagnitude_subnormal h h0, hscale, ← Nat.mul_assoc]
  generalize Nat.log2 m = l at *
  generalize hw : (m - 2^l)*2^(10 - l) = w at *
  have hexponent : ((l + 103)*2^23 + w*2^13)/2^23 = l + 103 := by omega
  have hfraction : ((l + 103)*2^23 + w*2^13) % 2^23 = w*2^13 := by omega
  have hback : 2^23 + w*2^13 = m*2^(23 - l) := by
    rw [hscale, ← Nat.mul_assoc, hup]
    omega
  have hshift : 126 - (l + 103) = 23 - l := by omega
  rw [hostMagnitude, hexponent, hfraction, if_neg (by omega), if_pos (by omega), hback, hshift,
    Nat.mul_div_cancel _ (Nat.two_pow_pos _)]

theorem floatMagnitude_subnormal_lt {m : Nat} (h : m < 1024) (h0 : m ≠ 0) :
    floatMagnitude m < 2^31 := by
  obtain ⟨hlog,-,-⟩ := log2_bounds h h0
  obtain ⟨hlt,-⟩ := fraction_lt h h0
  rw [floatMagnitude_subnormal h h0, scale_eq hlog, ← Nat.mul_assoc]
  omega

theorem floatMagnitude_zero : floatMagnitude 0 = 0 := rfl

theorem floatMagnitude_infinity : floatMagnitude 0x7c00 = 0x7f800000 := rfl

theorem floatMagnitude_normal {p : Nat} (h : 1024 ≤ p) (h' : p < 0x7c00) :
    floatMagnitude p = p*2^13 + 112*2^23 := by
  rw [floatMagnitude, if_neg (by omega), if_pos (by omega)]

theorem hostMagnitude_floatMagnitude {p : Nat} (h : p ≤ 0x7c00) :
    hostMagnitude (floatMagnitude p) = p := by
  by_cases hzero : p = 0
  · subst hzero
    rw [floatMagnitude_zero]
    rfl
  by_cases hsub : p < 1024
  · exact hostMagnitude_subnormal hsub hzero
  by_cases hinf : p = 0x7c00
  · subst hinf
    rw [floatMagnitude_infinity]
    rfl
  rw [floatMagnitude_normal (by omega) (by omega), hostMagnitude, if_neg (by omega),
    if_neg (by omega), if_neg (by omega)]
  omega

theorem floatMagnitude_lt {p : Nat} (h : p ≤ 0x7c00) : floatMagnitude p < 2^31 := by
  by_cases hzero : p = 0
  · subst hzero
    rw [floatMagnitude_zero]
    decide
  by_cases hsub : p < 1024
  · exact floatMagnitude_subnormal_lt hsub hzero
  by_cases hinf : p = 0x7c00
  · subst hinf
    rw [floatMagnitude_infinity]
    decide
  · rw [floatMagnitude_normal (by omega) (by omega)]
    omega

theorem halfToBits_toNat {half : UInt16} (h : half.toNat % 2^15 ≤ 0x7c00) :
    (halfToBits half).toNat = half.toNat/2^15*2^31 + floatMagnitude (half.toNat % 2^15) := by
  have hn := half.toNat_lt
  have hsign : ((half &&& 0x8000).toUInt32 <<< 16).toNat = half.toNat/2^15*2^31 := by
    have hand : (half &&& 0x8000).toNat = half.toNat/2^15*2^15 := by
      rw [UInt16.toNat_and]
      change half.toNat &&& 2^15 = _
      rw [and_two_pow_toNat]
      omega
    rw [UInt32.toNat_shiftLeft, UInt16.toNat_toUInt32, hand]
    change _ <<< 16 % 2^32 = _
    rw [Nat.shiftLeft_eq]
    omega
  have hexp : ((half >>> 10) &&& 0x1f).toUInt32 = UInt32.ofNat (half.toNat % 2^15/2^10) := by
    rw [← UInt32.toNat_inj, UInt16.toNat_toUInt32, UInt16.toNat_and, UInt16.toNat_shiftRight,
      UInt32.toNat_ofNat']
    change half.toNat >>> 10 &&& (2^5 - 1) = _
    rw [Nat.and_two_pow_sub_one_eq_mod, Nat.shiftRight_eq_div_pow]
    omega
  have hman : (half &&& 0x03ff).toUInt32 = UInt32.ofNat (half.toNat % 2^15 % 2^10) := by
    rw [← UInt32.toNat_inj, UInt16.toNat_toUInt32, UInt16.toNat_and, UInt32.toNat_ofNat']
    change half.toNat &&& (2^10 - 1) = _
    rw [Nat.and_two_pow_sub_one_eq_mod]
    omega
  have hor (word : UInt32) (h : word.toNat < 2^31) :
      (((half &&& 0x8000).toUInt32 <<< 16) ||| word).toNat = half.toNat/2^15*2^31 + word.toNat := by
    rw [UInt32.toNat_or, hsign, or_eq_add h]
  unfold halfToBits
  dsimp only
  rw [hexp, hman]
  generalize half.toNat % 2^15 = p at *
  by_cases hsub : p < 1024
  · have hquot : p/2^10 = 0 := by omega
    have hrest : p % 2^10 = p := by omega
    have hfirst : UInt32.ofNat 0 = 0 := rfl
    rw [hquot, hrest, if_pos hfirst]
    by_cases hzero : p = 0
    · subst hzero
      rw [if_pos hfirst, hsign, floatMagnitude_zero, Nat.add_zero]
    · have hne : UInt32.ofNat p ≠ 0 := by
        rw [Ne, ← UInt32.toNat_inj, UInt32.toNat_ofNat']
        change ¬p % 2^32 = 0
        omega
      have hword := normalized hsub hzero
      have hlt := floatMagnitude_lt h
      rw [if_neg hne, UInt32.or_assoc, hor _ (by rw [hword]; exact hlt), hword]
  by_cases hinf : p = 0x7c00
  · subst hinf
    rw [if_neg (by decide), if_pos (by decide), UInt32.or_assoc, hor _ (by decide)]
    rfl
  · have hzero : UInt32.ofNat (p/2^10) ≠ 0 := by
      rw [Ne, ← UInt32.toNat_inj, UInt32.toNat_ofNat']
      change ¬p/2^10 % 2^32 = 0
      omega
    have htop : UInt32.ofNat (p/2^10) ≠ 31 := by
      rw [Ne, ← UInt32.toNat_inj, UInt32.toNat_ofNat']
      change ¬p/2^10 % 2^32 = 31
      omega
    have hword : (((UInt32.ofNat (p/2^10) + 112) <<< 23) |||
        (UInt32.ofNat (p % 2^10) <<< 13)).toNat = p*2^13 + 112*2^23 := by
      have hhigh : ((UInt32.ofNat (p/2^10) + 112) <<< 23).toNat = (p/2^10 + 112)*2^23 := by
        rw [UInt32.toNat_shiftLeft, UInt32.toNat_add, UInt32.toNat_ofNat']
        change ((p/2^10 % 2^32 + 112) % 2^32) <<< 23 % 2^32 = _
        rw [Nat.shiftLeft_eq]
        omega
      have hlow : (UInt32.ofNat (p % 2^10) <<< 13).toNat = p % 2^10*2^13 := by
        rw [UInt32.toNat_shiftLeft, UInt32.toNat_ofNat']
        change (p % 2^10 % 2^32) <<< 13 % 2^32 = _
        rw [Nat.shiftLeft_eq]
        omega
      rw [UInt32.toNat_or, hhigh, hlow, or_eq_add (by omega)]
      omega
    rw [if_neg hzero, if_neg htop, UInt32.or_assoc, hor _ (by rw [hword]; omega), hword,
      floatMagnitude_normal (by omega) (by omega)]

/-- A half that is not a NaN comes back through the host's two conversions. -/
theorem floatToHalf_halfToFloat {half : UInt16} (h : halfIsNaN half = false) :
    floatToHalf (halfToFloat half) = half := by
  have hn := half.toNat_lt
  have hle : half.toNat % 2^15 ≤ 0x7c00 := by
    simp only [halfIsNaN, Bool.and_eq_false_iff, beq_eq_false_iff_ne, bne_eq_false_iff_eq] at h
    omega
  have hbits := halfToBits_toNat hle
  have hlt := floatMagnitude_lt hle
  rw [floatToHalf_eq, halfToFloat, hbits]
  have hhigh : (half.toNat/2^15*2^31 + floatMagnitude (half.toNat % 2^15))/2^31 =
      half.toNat/2^15 := by omega
  have hlow : (half.toNat/2^15*2^31 + floatMagnitude (half.toNat % 2^15)) % 2^31 =
      floatMagnitude (half.toNat % 2^15) := by omega
  rw [hhigh, hlow, hostMagnitude_floatMagnitude hle, Nat.div_add_mod']
  exact UInt16.ofNat_toNat

/-- The host's conversion to half agrees with the nodes' exactly where nothing is to be
rounded up, and it takes back each half that is not a NaN. -/
theorem half_semantics_iff (x : Single) (half : UInt16) : (SameHalf x ↔ Truncates x) ∧
    (halfIsNaN half = false → floatToHalf (halfToFloat half) = half) :=
  ⟨sameHalf_iff x,floatToHalf_halfToFloat⟩

/-- A float that is a half, and the smallest half. -/
theorem half_semantics_smallest :
    SameHalf ⟨0x3f802000⟩ ∧ halfIsNaN 1 = false ∧ floatToHalf (halfToFloat 1) = 1 := by
  have hexact : Truncates ⟨0x3f802000⟩ := by
    refine ⟨rfl,.inr ?_⟩
    unfold RoundsUp
    decide
  have hnumber : halfIsNaN 1 = false := rfl
  obtain ⟨hsame,hback⟩ := half_semantics_iff ⟨0x3f802000⟩ 1
  exact ⟨hsame.mpr hexact,hnumber,hback hnumber⟩

/-- Half way between two halves with the lower one odd: the host takes the lower. -/
theorem host_truncates :
    floatToHalf ⟨0x3f803000⟩ = 0x3c01 ∧ halfOfBits 0x3f803000 = 0x3c02 ∧
      ¬SameHalf ⟨0x3f803000⟩ := by
  have hhost : floatToHalf ⟨0x3f803000⟩ = 0x3c01 := rfl
  have hnode : halfOfBits 0x3f803000 = 0x3c02 := rfl
  have hnumber : (Single.mk 0x3f803000).isNaN = false := rfl
  refine ⟨hhost,hnode,?_⟩
  rw [SameHalf, if_neg (by simp [hnumber]), hhost, hnode]
  decide

end Cpipe.Proofs.HalfFloats
