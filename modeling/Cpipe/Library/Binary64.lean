import Mathlib

/-! Bounds by powers of two for the arithmetic of `Float`: no operation takes a result below
or above a power of two that the exact result does not pass. -/

namespace Library.Binary64
open Float.Model Float.Model.UnpackedFloat

/-! ### Rounding a mantissa -/

theorem shiftRight_succ (em : ExtendedMantissa) (n : Nat) :
    em >>> (n + 1) = (em >>> n).shiftRightOne := rfl

theorem shiftRight_mantissa (em : ExtendedMantissa) (n : Nat) :
    (em >>> n).mantissa = em.mantissa/2^n := by
  induction n with
  | zero => exact (Nat.div_one _).symm
  | succ n ih =>
    rw [shiftRight_succ, Nat.pow_succ, ← Nat.div_div_eq_div_mul, ← ih]
    rfl

/-- The least integer that is not below what the mantissa stands for. -/
def ceil (em : ExtendedMantissa) : Nat :=
  em.mantissa + (em.roundBit || em.stickyBit).toNat

theorem ceil_shiftRightOne {em : ExtendedMantissa} {n : Nat} (h : ceil em ≤ n*2) :
    ceil em.shiftRightOne ≤ n := by
  obtain ⟨m,r,s⟩ := em
  have hm := Nat.mod_two_eq_zero_or_one m
  rcases hm with hm | hm <;> cases r <;> cases s <;>
    simp_all [ceil, ExtendedMantissa.shiftRightOne] <;> omega

theorem ceil_shiftRight {em : ExtendedMantissa} (n : Nat) :
    ∀ {bound : Nat}, ceil em ≤ bound*2^n → ceil (em >>> n) ≤ bound := by
  induction n with
  | zero =>
    intro bound h
    rwa [Nat.pow_zero, Nat.mul_one] at h
  | succ n ih =>
    intro bound h
    rw [shiftRight_succ]
    refine ceil_shiftRightOne (ih ?_)
    rw [Nat.mul_assoc, ← Nat.pow_succ']
    exact h

theorem mantissa_le_rounded (em : ExtendedMantissa) : em.mantissa ≤ em.roundedMantissa := by
  obtain ⟨m,r,s⟩ := em
  cases r <;> cases s <;> simp [ExtendedMantissa.roundedMantissa, ExtendedMantissa.accuracy,
    Accuracy.roundToNearestEven]

theorem rounded_le_ceil (em : ExtendedMantissa) : em.roundedMantissa ≤ ceil em := by
  obtain ⟨m,r,s⟩ := em
  cases r <;> cases s <;> simp [ExtendedMantissa.roundedMantissa, ExtendedMantissa.accuracy,
    Accuracy.roundToNearestEven, ceil]
  omega

/-! ### Rounding to the format -/

/-- What rounding leaves of a number: at most 53 bits, and fewer only at the least exponent. -/
structure Fits (m : Nat) (e : Int) : Prop where
  small : m ≤ 2^53
  least : -1074 ≤ e
  normal : 2^52 ≤ m ∨ e = -1074

theorem target_eq (m : Nat) (e : Int) :
    Format.binary64.targetExponent (totalExponent m e) = max (m.log2 + e - 52) (-1074) := by
  simp only [Format.targetExponent, totalExponent, Format.mantissaBits, Format.minExponent]
  norm_num
  omega

theorem ofMantissaAndAccuracy_mantissa (m : Nat) (a : Accuracy) :
    (ExtendedMantissa.ofMantissaAndAccuracy m a).mantissa = m := by
  cases a with
  | exact => rfl
  | inexact o => cases o <;> rfl

/-- The mantissa shifted to the format, rounded. -/
def shiftedMantissa (m : Nat) (e : Int) (a : Accuracy) : Nat :=
  (ExtendedMantissa.ofMantissaAndAccuracy m a >>>
    (max (m.log2 + e - 52) (-1074) - e).toNat).roundedMantissa

def shiftedExponent (m : Nat) (e : Int) : Int :=
  e + (max (m.log2 + e - 52) (-1074) - e).toNat

theorem ceil_ofMantissaAndAccuracy_le (m : Nat) (a : Accuracy) :
    ceil (ExtendedMantissa.ofMantissaAndAccuracy m a) ≤ m + 1 := by
  cases a with
  | exact => simp [ceil, ExtendedMantissa.ofMantissaAndAccuracy]
  | inexact o => cases o <;> simp [ceil, ExtendedMantissa.ofMantissaAndAccuracy]

theorem shifted_fits {m : Nat} {e : Int} (a : Accuracy) (h : 52 ≤ m.log2 ∨ e ≤ -1074) :
    Fits (shiftedMantissa m e a) (shiftedExponent m e) where
  small := by
    refine le_trans (rounded_le_ceil _) (ceil_shiftRight _ ?_)
    calc ceil (ExtendedMantissa.ofMantissaAndAccuracy m a) ≤ m + 1 :=
          ceil_ofMantissaAndAccuracy_le m a
      _ ≤ 2^(m.log2 + 1) := Nat.lt_log2_self
      _ ≤ 2^(53 + (max (m.log2 + e - 52) (-1074) - e).toNat) :=
          Nat.pow_le_pow_right (by decide) (by omega)
      _ = 2^53*2^(max (m.log2 + e - 52) (-1074) - e).toNat := Nat.pow_add _ _ _
  least := by
    unfold shiftedExponent
    omega
  normal := by
    by_cases hmin : (m.log2 : Int) + e - 52 ≤ -1074
    · right
      unfold shiftedExponent
      omega
    · left
      refine le_trans ?_ (mantissa_le_rounded _)
      rw [shiftRight_mantissa, ofMantissaAndAccuracy_mantissa,
        Nat.le_div_iff_mul_le (Nat.two_pow_pos _), ← Nat.pow_add]
      have hne : m ≠ 0 := by
        rintro rfl
        simp at h hmin
        omega
      exact le_trans (Nat.pow_le_pow_right (by decide) (by omega)) (Nat.log2_self_le hne)

/-- A number in the format: of the mantissa `2^53` half is taken. -/
def settle (s : Sign) (m : Nat) (e : Int) : UnpackedFloat :=
  if h : m = 0 then .zero s
  else if m < 2^53 then .finite s m e (Nat.pos_of_ne_zero h)
  else .finite s (2^52) (e + 1) (by decide)

theorem shiftToTargetExponent_exact {m : Nat} {e : Int} (h : Fits m e) :
    (shiftToTargetExponent Format.binary64 m e .exact).1.mantissa =
        (if m < 2^53 then m else 2^52) ∧
      (shiftToTargetExponent Format.binary64 m e .exact).2 = if m < 2^53 then e else e + 1 := by
  obtain ⟨hsmall,hleast,-⟩ := h
  simp only [shiftToTargetExponent, shiftToExponent, target_eq, shiftRight_mantissa,
    ofMantissaAndAccuracy_mantissa]
  by_cases hm : m < 2^53
  · have hlog : m.log2 ≤ 52 := by
      rcases Nat.eq_zero_or_pos m with rfl | hpos
      · simp
      · exact Nat.lt_succ_iff.mp ((Nat.log2_lt hpos.ne').mpr hm)
    have hshift : (max ((m.log2 : Int) + e - 52) (-1074) - e).toNat = 0 := by omega
    simp only [if_pos hm, hshift, Nat.pow_zero, Nat.div_one, Nat.cast_zero, add_zero, and_self]
  · have hm' : m = 2^53 := by omega
    have hshift : (max (((2^53 : Nat).log2 : Int) + e - 52) (-1074) - e).toNat = 1 := by
      rw [Nat.log2_two_pow]
      omega
    rw [if_neg hm, if_neg hm, hm', hshift]
    exact ⟨by decide,rfl⟩

theorem roundWithAccuracy_eq (s : Sign) {m : Nat} {e : Int} (a : Accuracy)
    (h : 52 ≤ m.log2 ∨ e ≤ -1074) :
    roundWithAccuracy Format.binary64 s m e a =
      settle s (shiftedMantissa m e a) (shiftedExponent m e) := by
  obtain ⟨hm,he⟩ := shiftToTargetExponent_exact (shifted_fits a h)
  have hfirst : shiftToTargetExponent Format.binary64 m e a =
      (ExtendedMantissa.ofMantissaAndAccuracy m a >>>
        (max (m.log2 + e - 52) (-1074) - e).toNat,shiftedExponent m e) := by
    rw [shiftToTargetExponent, target_eq]
    rfl
  rw [roundWithAccuracy, hfirst]
  change (if h : (shiftToTargetExponent Format.binary64 (shiftedMantissa m e a)
    (shiftedExponent m e) .exact).1.mantissa = 0 then UnpackedFloat.zero s else .finite s
      (shiftToTargetExponent Format.binary64 (shiftedMantissa m e a)
        (shiftedExponent m e) .exact).1.mantissa
      (shiftToTargetExponent Format.binary64 (shiftedMantissa m e a)
        (shiftedExponent m e) .exact).2 (Nat.pos_of_ne_zero h)) = _
  generalize shiftToTargetExponent Format.binary64 (shiftedMantissa m e a)
    (shiftedExponent m e) .exact = second at hm he ⊢
  obtain ⟨⟨m',r,st⟩,e'⟩ := second
  subst hm he
  unfold settle
  by_cases h0 : shiftedMantissa m e a = 0
  · simp [h0]
  by_cases h1 : shiftedMantissa m e a < 2^53
  · simp only [if_pos h1, dif_neg h0]
  · simp only [if_neg h1, dif_neg h0]
    rfl

/-! ### Numbers -/

theorem zpow_le_mul {n m : Nat} {e k : Int} (hm : 2^n ≤ m) (hk : k ≤ n + e) :
    (2 : ℚ)^k ≤ m*2^e := by
  have hm' : (2 : ℚ)^n ≤ m := by exact_mod_cast hm
  calc (2 : ℚ)^k ≤ 2^(n + e) := zpow_le_zpow_right₀ (by norm_num) hk
    _ = 2^n*2^e := by rw [zpow_add₀ (by norm_num), zpow_natCast]
    _ ≤ m*2^e := mul_le_mul_of_nonneg_right hm' (by positivity)

theorem mul_le_zpow {n m : Nat} {e k : Int} (hm : m ≤ 2^n) (hk : n + e ≤ k) :
    (m*2^e : ℚ) ≤ 2^k := by
  have hm' : (m : ℚ) ≤ 2^n := by exact_mod_cast hm
  calc (m*2^e : ℚ) ≤ 2^n*2^e := mul_le_mul_of_nonneg_right hm' (by positivity)
    _ = 2^(n + e) := by rw [zpow_add₀ (by norm_num), zpow_natCast]
    _ ≤ 2^k := zpow_le_zpow_right₀ (by norm_num) hk

/-- A signed mantissa with its exponent. -/
def scaled (s : Sign) (m : Nat) (e : Int) : ℚ := ((s.apply m : Int) : ℚ)*2^e

/-- The number a finite float stands for. -/
def value : UnpackedFloat → Option ℚ
  | .zero _ => some 0
  | .finite s m e _ => some (scaled s m e)
  | .infinity _ => none
  | .notANumber => none

theorem value_settle (s : Sign) {m : Nat} (e : Int) (h : m ≤ 2^53) :
    value (settle s m e) = some (scaled s m e) := by
  unfold settle
  split_ifs with h0 h1
  · subst h0
    cases s <;> simp [value, scaled, Sign.apply]
  · rfl
  · obtain rfl : m = 2^53 := by omega
    have hp : (2 : ℚ)^(e + 1) = 2^e*2 := zpow_add_one₀ (by norm_num) e
    cases s <;> simp only [value, scaled, Sign.apply, hp] <;> norm_num <;> ring

/-! ### Packing -/

theorem unpackSign_packComponents {spec : Format} (s : Sign) (e : BitVec spec.exponentBits)
    (m : BitVec spec.mantissaBitsWithoutImplicit) :
    Sign.ofBitVec (unpackSign (packComponents spec s e m)) = s := by
  have h : unpackSign (packComponents spec s e m) = s.toBitVec := by
    ext i hi
    obtain rfl : i = 0 := by omega
    simp [unpackSign, packComponents, BitVec.getLsbD_append, BitVec.getElem_append]
  rw [h]
  cases s <;> rfl

theorem toNat_implicit (m : BitVec 52) : (1#1 ++ m).toNat = 2^52 + m.toNat := by
  rw [BitVec.toNat_append, ← Nat.shiftLeft_add_eq_or_of_lt m.isLt]
  rfl

theorem unpack_packComponents (s : Sign) {x m : Nat} (hx : x < 2047) (hm : m < 2^52) :
    UnpackedFloat.unpack Format.binary64
        (packComponents Format.binary64 s (.ofNat 11 x) (.ofNat 52 m)) =
      if x = 0 then if h : m = 0 then .zero s else .finite s m (-1074) (Nat.pos_of_ne_zero h)
      else .finite s (2^52 + m) (x - 1075) (by omega) := by
  have hx' : (BitVec.ofNat 11 x).toNat = x := by
    rw [BitVec.toNat_ofNat]
    omega
  have hm' : (BitVec.ofNat 52 m).toNat = m := by
    rw [BitVec.toNat_ofNat]
    omega
  have hmax : BitVec.ofNat 11 x ≠ -1#11 := by
    intro h
    have := congrArg BitVec.toNat h
    rw [hx'] at this
    simp at this
    omega
  have hzero : BitVec.ofNat 11 x = 0#11 ↔ x = 0 := by
    rw [← BitVec.toNat_inj, hx']
    rfl
  have hzero' : BitVec.ofNat 52 m = 0#52 ↔ m = 0 := by
    rw [← BitVec.toNat_inj, hm']
    rfl
  unfold UnpackedFloat.unpack
  simp only [unpackExponent_packComponents, unpackMantissa_packComponents,
    unpackSign_packComponents, if_neg hmax, toNat_implicit, hx', hm', hzero, hzero']
  split_ifs with h0 h1
  · rfl
  · subst h0
    rfl
  · rfl

theorem unpack_packedInfinity (s : Sign) :
    UnpackedFloat.unpack Format.binary64 (packedInfinity Format.binary64 s) = .infinity s := by
  cases s <;> rfl

theorem unpack_pack_finite (s : Sign) {m : Nat} {e : Int} (h0 : 0 < m) (hm : m < 2^53)
    (he : -1074 ≤ e) (hn : 2^52 ≤ m ∨ e = -1074) :
    (Float.Model.pack (.finite s m e h0)).unpack =
      if 971 < e then .infinity s else .finite s m e h0 := by
  change UnpackedFloat.unpack Format.binary64
    (if 2^11 ≤ (e + 1023 + 52).toNat + 1 then packedInfinity Format.binary64 s
      else if m.log2 + 1 = 53 then
        packComponents Format.binary64 s (.ofNat 11 (e + 1023 + 52).toNat) (.ofNat 52 m)
      else packComponents Format.binary64 s (.ofNat 11 0) (.ofNat 52 m)) = _
  by_cases hmax : 971 < e
  · rw [if_pos (by omega), if_pos hmax, unpack_packedInfinity]
  rw [if_neg (by omega), if_neg hmax]
  by_cases hbig : 2^52 ≤ m
  · have hlog : m.log2 = 52 := (Nat.log2_eq_iff h0.ne').mpr ⟨hbig,hm⟩
    have hfraction : BitVec.ofNat 52 m = BitVec.ofNat 52 (m - 2^52) := by
      apply BitVec.eq_of_toNat_eq
      simp only [BitVec.toNat_ofNat]
      omega
    have hm' : 2^52 + (m - 2^52) = m := by omega
    have he' : ((e + 1023 + 52).toNat : Int) - 1075 = e := by omega
    rw [if_pos (by omega), hfraction, unpack_packComponents s (by omega) (by omega),
      if_neg (by omega)]
    simp only [hm', he']
  · have hlog : m.log2 < 52 := (Nat.log2_lt h0.ne').mpr (by omega)
    rw [if_neg (by omega), unpack_packComponents s (by omega) (by omega), if_pos rfl,
      dif_neg h0.ne']
    congr 1
    omega

theorem scaled_positive (m : Nat) (e : Int) : scaled .positive m e = m*2^e := by
  simp [scaled, Sign.apply]

theorem abs_scaled (s : Sign) (m : Nat) (e : Int) : |scaled s m e| = m*2^e := by
  have h : (0 : ℚ) ≤ m*2^e := by positivity
  cases s
  · rw [scaled, Sign.apply, Int.cast_neg, Int.cast_natCast, neg_mul, abs_neg, abs_of_nonneg h]
  · rw [scaled_positive, abs_of_nonneg h]

/-- A packed result is the number itself, or infinite where it is too large. -/
theorem unpack_pack_settle (s : Sign) {m : Nat} {e : Int} (h : Fits m e) :
    (Float.Model.pack (settle s m e)).unpack = settle s m e ∨
      (Float.Model.pack (settle s m e)).unpack = .infinity s ∧ (2 : ℚ)^(1024 : Int) ≤ m*2^e := by
  obtain ⟨hsmall,hleast,hnormal⟩ := h
  unfold settle
  split_ifs with h0 h1
  · left
    cases s <;> rfl
  · rw [unpack_pack_finite s _ h1 hleast hnormal]
    split_ifs with hmax
    · refine .inr ⟨rfl,?_⟩
      exact zpow_le_mul (hnormal.resolve_right (by omega)) (by omega)
    · exact .inl rfl
  · rw [unpack_pack_finite s _ (by decide) (by omega) (.inl le_rfl)]
    split_ifs with hmax
    · refine .inr ⟨rfl,?_⟩
      exact zpow_le_mul (Nat.le_of_not_lt h1) (by omega)
    · exact .inl rfl

/-! ### Rounding keeps to the side of a power of two -/

theorem le_two_pow_of_mul_le {c : Nat} {e k : Int} (he : e ≤ k) (h : (c*2^e : ℚ) ≤ 2^k) :
    c ≤ 2^(k - e).toNat := by
  have hk : (2 : ℚ)^k = 2^(k - e).toNat*2^e := by
    rw [← zpow_natCast, Int.toNat_of_nonneg (by omega), ← zpow_add₀ (by norm_num), sub_add_cancel]
  rw [hk] at h
  exact_mod_cast le_of_mul_le_mul_right h (by positivity)

theorem two_pow_le_of_le_mul {c : Nat} {e k : Int} (he : e ≤ k) (h : (2 : ℚ)^k ≤ c*2^e) :
    2^(k - e).toNat ≤ c := by
  have hk : (2 : ℚ)^k = 2^(k - e).toNat*2^e := by
    rw [← zpow_natCast, Int.toNat_of_nonneg (by omega), ← zpow_add₀ (by norm_num), sub_add_cancel]
  rw [hk] at h
  exact_mod_cast le_of_mul_le_mul_right h (by positivity)

theorem exponent_le_of_mul_le {n c : Nat} {e k : Int} (hc : 2^n ≤ c) (h : (c*2^e : ℚ) ≤ 2^k) :
    n + e ≤ k :=
  (zpow_le_zpow_iff_right₀ (by norm_num : (1 : ℚ) < 2)).mp (le_trans (zpow_le_mul hc le_rfl) h)

theorem shifted_le {m : Nat} {e k : Int} {a : Accuracy} (hk : -1074 ≤ k)
    (hv : (ceil (ExtendedMantissa.ofMantissaAndAccuracy m a)*2^e : ℚ) ≤ 2^k) :
    (shiftedMantissa m e a*2^shiftedExponent m e : ℚ) ≤ 2^k := by
  have hm : m ≤ ceil (ExtendedMantissa.ofMantissaAndAccuracy m a) := by
    conv_lhs => rw [← ofMantissaAndAccuracy_mantissa m a]
    exact Nat.le_add_right _ _
  rcases Nat.eq_zero_or_pos (ceil (ExtendedMantissa.ofMantissaAndAccuracy m a)) with h0 | hpos
  · have hzero : shiftedMantissa m e a ≤ 0 :=
      le_trans (rounded_le_ceil _) (ceil_shiftRight _ (by omega))
    rw [Nat.le_zero.mp hzero, Nat.cast_zero, zero_mul]
    positivity
  · have he : e ≤ k := by simpa using exponent_le_of_mul_le (n := 0) hpos hv
    have hlog : (m.log2 : Int) + e ≤ k := by
      rcases Nat.eq_zero_or_pos m with rfl | hm0
      · simpa using he
      · exact exponent_le_of_mul_le (le_trans (Nat.log2_self_le hm0.ne') hm) hv
    have hx : shiftedExponent m e ≤ k := by
      unfold shiftedExponent
      omega
    refine mul_le_zpow (n := (k - shiftedExponent m e).toNat) ?_ (by omega)
    refine le_trans (rounded_le_ceil _) (ceil_shiftRight _ ?_)
    rw [← Nat.pow_add]
    refine le_trans (le_two_pow_of_mul_le he hv) (Nat.pow_le_pow_right (by decide) ?_)
    unfold shiftedExponent at hx ⊢
    omega

theorem le_shifted {m : Nat} {e k : Int} {a : Accuracy} (h : 52 ≤ m.log2 ∨ e ≤ -1074)
    (hk : -1074 ≤ k) (hv : (2 : ℚ)^k ≤ m*2^e) :
    (2 : ℚ)^k ≤ shiftedMantissa m e a*2^shiftedExponent m e := by
  have hfits := shifted_fits a h
  by_cases hx : shiftedExponent m e ≤ k
  · refine zpow_le_mul (n := (k - shiftedExponent m e).toNat) ?_ (by omega)
    refine le_trans ?_ (mantissa_le_rounded _)
    rw [shiftRight_mantissa, ofMantissaAndAccuracy_mantissa,
      Nat.le_div_iff_mul_le (Nat.two_pow_pos _), ← Nat.pow_add]
    have he : e ≤ k := by
      unfold shiftedExponent at hx
      omega
    refine le_trans (Nat.pow_le_pow_right (by decide) ?_) (two_pow_le_of_le_mul he hv)
    unfold shiftedExponent at hx ⊢
    omega
  · have hbig := hfits.normal.resolve_right (by omega)
    exact zpow_le_mul hbig (by omega)

/-! ### Floats and their numbers -/

/-- The float is finite and stands for this number. -/
def Holds (f : Float) (v : ℚ) : Prop := value f.toModel.unpack = some v

theorem Holds.unique {f : Float} {v w : ℚ} (hv : Holds f v) (hw : Holds f w) : v = w :=
  Option.some.inj (hv.symm.trans hw)

theorem Holds.not_nan {f : Float} {v : ℚ} (h : Holds f v) : f.isNaN = false := by
  unfold Holds at h
  change f.toModel.unpack.isNaN = false
  cases hu : f.toModel.unpack with
  | notANumber =>
    rw [hu] at h
    cases h
  | infinity s => rfl
  | zero s => rfl
  | finite s m e hm => rfl

/-- The float is on the same side of each power of two as the number. -/
structure Rounds {K : Type} [Field K] [LinearOrder K] (v : K) (f : Float) : Prop where
  upper : ∀ k : Int, -1074 ≤ k → k ≤ 1023 → |v| ≤ 2^k → ∃ w, Holds f w ∧ |w| ≤ 2^k
  lower : ∀ k : Int, -1074 ≤ k → 2^k ≤ |v| → ∀ w, Holds f w → 2^k ≤ |w|
  nonneg : 0 ≤ v → ∀ w, Holds f w → 0 ≤ w
  positive : 0 ≤ v → ∀ s, f.toModel.unpack = .infinity s → s = .positive
  number : f.isNaN = false

theorem Holds.not_infinity {f : Float} {v : ℚ} (h : Holds f v) (s : Sign) :
    f.toModel.unpack ≠ .infinity s := by
  intro hu
  rw [Holds, hu] at h
  cases h

theorem Holds.rounds {f : Float} {v : ℚ} (h : Holds f v) : Rounds v f where
  upper _ _ _ hv := ⟨v,h,hv⟩
  lower _ _ hv _ hw := h.unique hw ▸ hv
  nonneg hv _ hw := h.unique hw ▸ hv
  positive _ s hs := absurd hs (h.not_infinity s)
  number := h.not_nan

theorem rounds_round {K : Type} [Field K] [LinearOrder K] {s : Sign} {m : Nat} {e : Int}
    {a : Accuracy} {v : K}
    (h : 52 ≤ m.log2 ∨ e ≤ -1074) (hsign : 0 ≤ v → s = .positive)
    (hupper : ∀ k : Int, -1074 ≤ k → |v| ≤ 2^k →
      (ceil (ExtendedMantissa.ofMantissaAndAccuracy m a)*2^e : ℚ) ≤ 2^k)
    (hlower : ∀ k : Int, -1074 ≤ k → 2^k ≤ |v| → (2 : ℚ)^k ≤ m*2^e) :
    Rounds v (.ofModel (Float.Model.pack (roundWithAccuracy Format.binary64 s m e a))) := by
  have hfits := shifted_fits a h
  have hvalue := value_settle s (shiftedExponent m e) hfits.small
  have habs := abs_scaled s (shiftedMantissa m e a) (shiftedExponent m e)
  rw [roundWithAccuracy_eq s a h]
  rcases unpack_pack_settle s hfits with hu | ⟨hu,hbig⟩
  · have hholds : Holds (.ofModel (Float.Model.pack (settle s (shiftedMantissa m e a)
        (shiftedExponent m e)))) (scaled s (shiftedMantissa m e a) (shiftedExponent m e)) := by
      rw [Holds, hu, hvalue]
    refine ⟨fun k hk _ hv => ⟨_,hholds,?_⟩,fun k hk hv w hw => ?_,fun hv w hw => ?_,
      fun _ s hs => absurd hs (hholds.not_infinity s),hholds.not_nan⟩
    · rw [habs]
      exact shifted_le hk (hupper k hk hv)
    · rw [← hholds.unique hw, habs]
      exact le_shifted h hk (hlower k hk hv)
    · rw [← hholds.unique hw, hsign hv, scaled_positive]
      positivity
  · have hnone (w : ℚ) : ¬Holds (.ofModel (Float.Model.pack (settle s (shiftedMantissa m e a)
        (shiftedExponent m e)))) w := by
      rw [Holds, hu]
      exact nofun
    refine ⟨fun k hk hk' hv => ?_,fun k hk hv w hw => absurd hw (hnone w),
      fun hv w hw => absurd hw (hnone w),fun hv s' hs' => ?_,?_⟩
    · have hle := le_trans hbig (shifted_le hk (hupper k hk hv))
      have := (zpow_le_zpow_iff_right₀ (by norm_num : (1 : ℚ) < 2)).mp hle
      omega
    · obtain rfl := UnpackedFloat.infinity.inj (hu.symm.trans hs')
      exact hsign hv
    · change (Float.Model.pack (settle s (shiftedMantissa m e a)
        (shiftedExponent m e))).unpack.isNaN = false
      rw [hu]
      rfl

/-! ### Bits -/

/-- A float by the fields of its bit pattern. -/
def decode (s : Sign) (x f : Nat) : UnpackedFloat :=
  if x = 2047 then if f = 0 then .infinity s else .notANumber
  else if x = 0 then if h : f = 0 then .zero s else .finite s f (-1074) (Nat.pos_of_ne_zero h)
  else .finite s (2^52 + f) (x - 1075) (by omega)

def signOf (bits : Nat) : Sign := if 2^63 ≤ bits then .negative else .positive

theorem unpack_bits (b : BitVec 64) :
    UnpackedFloat.unpack Format.binary64 b =
      decode (signOf b.toNat) (b.toNat/2^52 % 2^11) (b.toNat % 2^52) := by
  have hf : (@unpackMantissa Format.binary64 b).toNat = b.toNat % 2^52 := by
    simp [unpackMantissa]
  have hx : (@unpackExponent Format.binary64 b).toNat = b.toNat/2^52 % 2^11 := by
    simp [unpackExponent, Nat.shiftRight_eq_div_pow]
  have hs : Sign.ofBitVec (@unpackSign Format.binary64 b) = signOf b.toNat := by
    have hbit : (@unpackSign Format.binary64 b).toNat = b.toNat/2^63 % 2 := by
      simp [unpackSign, Nat.shiftRight_eq_div_pow]
    have hb := b.isLt
    have hpositive : (@unpackSign Format.binary64 b) = 0#1 ↔ ¬2^63 ≤ b.toNat := by
      rw [← BitVec.toNat_inj, hbit, BitVec.toNat_ofNat]
      omega
    unfold Sign.ofBitVec signOf
    simp only [hpositive, ite_not]
  have hmax : (@unpackExponent Format.binary64 b) = -1#11 ↔ b.toNat/2^52 % 2^11 = 2047 := by
    rw [← hx, ← BitVec.toNat_inj]
    rfl
  have hzero : (@unpackExponent Format.binary64 b) = 0#11 ↔ b.toNat/2^52 % 2^11 = 0 := by
    rw [← hx, ← BitVec.toNat_inj]
    rfl
  have hzero' : (@unpackMantissa Format.binary64 b) = 0#52 ↔ b.toNat % 2^52 = 0 := by
    rw [← hf, ← BitVec.toNat_inj]
    rfl
  unfold UnpackedFloat.unpack decode
  simp only [hs, hmax, hzero, hzero', hx, hf, toNat_implicit]
  split_ifs with h1 h2 h3 h4
  · rfl
  · rfl
  · rfl
  · simp only [h3]
    rfl
  · rfl

theorem decode_fits {s s' : Sign} {x f m : Nat} {e : Int} {hm : 0 < m} (hx : x < 2^11)
    (hf : f < 2^52) (h : decode s x f = .finite s' m e hm) :
    m < 2^53 ∧ -1074 ≤ e ∧ e ≤ 971 ∧ (2^52 ≤ m ∨ e = -1074) := by
  unfold decode at h
  split_ifs at h with h1 h2 h3 h4 <;> cases h <;> omega

/-- The mantissa and the exponent of a float. -/
theorem unpack_fits (f : Float.Model) {s : Sign} {m : Nat} {e : Int} {hm : 0 < m}
    (h : f.unpack = .finite s m e hm) :
    m < 2^53 ∧ -1074 ≤ e ∧ e ≤ 971 ∧ (2^52 ≤ m ∨ e = -1074) :=
  decode_fits (Nat.mod_lt _ (by decide)) (Nat.mod_lt _ (by decide)) ((unpack_bits _).symm.trans h)

/-- A float packed again is the same. -/
theorem unpack_pack_unpack (f : Float.Model) : (Float.Model.pack f.unpack).unpack = f.unpack := by
  cases hu : f.unpack with
  | notANumber => rfl
  | infinity s => cases s <;> rfl
  | zero s => cases s <;> rfl
  | finite s m e hm =>
    obtain ⟨h1,h2,h3,h4⟩ := unpack_fits f hu
    rw [unpack_pack_finite s hm h1 h2 h4, if_neg (by omega)]

/-! ### Operations -/

variable {a b : Float} {x y : ℚ}

theorem Holds.cases (h : Holds a x) :
    (∃ s, a.toModel.unpack = .zero s ∧ x = 0) ∨
      ∃ s m e hm, a.toModel.unpack = .finite s m e hm ∧ x = scaled s m e := by
  unfold Holds at h
  cases hu : a.toModel.unpack with
  | notANumber =>
    rw [hu] at h
    cases h
  | infinity s =>
    rw [hu] at h
    cases h
  | zero s =>
    rw [hu] at h
    exact .inl ⟨s,rfl,(Option.some.inj h).symm⟩
  | finite s m e hm =>
    rw [hu] at h
    exact .inr ⟨s,m,e,hm,rfl,(Option.some.inj h).symm⟩

theorem holds_zero (s : Sign) : Holds (.ofModel (Float.Model.pack (.zero s))) 0 := by
  cases s <;> rfl

theorem Holds.pack (h : Holds a x) : Holds (.ofModel (Float.Model.pack a.toModel.unpack)) x := by
  rw [Holds, unpack_pack_unpack]
  exact h

theorem rounds_exact {s : Sign} {m : Nat} {e : Int} {v : ℚ} (h : 52 ≤ m.log2 ∨ e ≤ -1074)
    (hsign : 0 ≤ v → s = .positive) (hv : |v| = m*2^e) :
    Rounds v (.ofModel (Float.Model.pack (roundWithAccuracy Format.binary64 s m e .exact))) := by
  refine rounds_round h hsign (fun k _ hk => ?_) (fun k _ hk => hv ▸ hk)
  rw [hv] at hk
  exact hk

theorem shiftLeft_mul (m k : Nat) (e : Int) : ((m <<< k : Nat) : ℚ)*2^(e - k) = m*2^e := by
  rw [Nat.shiftLeft_eq, Nat.cast_mul, Nat.cast_pow, Nat.cast_ofNat, mul_assoc, ← zpow_natCast,
    ← zpow_add₀ (by norm_num), add_sub_cancel]

theorem rounds_of_round {s : Sign} {m : Nat} {e : Int} {v : ℚ} (hm : 0 < m)
    (hsign : 0 ≤ v → s = .positive) (hv : |v| = m*2^e) :
    Rounds v (.ofModel (Float.Model.pack (UnpackedFloat.round Format.binary64 s m e))) := by
  unfold UnpackedFloat.round decreaseExponent
  rw [target_eq]
  refine rounds_exact ?_ hsign (hv.trans (shiftLeft_mul m _ e).symm)
  by_cases hmin : (m.log2 : Int) + e - 52 ≤ -1074
  · exact .inr (by omega)
  · left
    rw [Nat.le_log2 (Nat.shiftLeft_pos_iff.mpr hm).ne', Nat.shiftLeft_eq]
    refine le_trans ?_ (Nat.mul_le_mul_right _ (Nat.log2_self_le hm.ne'))
    rw [← Nat.pow_add]
    exact Nat.pow_le_pow_right (by decide) (by omega)

theorem rounds_normalize (n e : Int) (s : Sign) :
    Rounds (n*2^e : ℚ)
      (.ofModel (Float.Model.pack (UnpackedFloat.normalize Format.binary64 n e s))) := by
  have hp : (0 : ℚ) < 2^e := by positivity
  have habs : |(n : ℚ)*2^e| = n.natAbs*2^e := by
    rw [abs_mul, abs_of_pos hp, Nat.cast_natAbs, Int.cast_abs]
  unfold UnpackedFloat.normalize
  rcases lt_trichotomy n 0 with hn | rfl | hn
  · rw [Int.compare_eq_lt.mpr hn]
    refine rounds_of_round (by omega) (fun hv => ?_) ?_
    · have hneg : (n : ℚ) < 0 := by exact_mod_cast hn
      exact absurd hv (not_le.mpr (mul_neg_of_neg_of_pos hneg hp))
    · rw [habs, show (-n).toNat = n.natAbs by omega]
  · rw [Int.cast_zero, zero_mul]
    exact (holds_zero s).rounds
  · rw [Int.compare_eq_gt.mpr hn]
    refine rounds_of_round (by omega) (fun _ => rfl) ?_
    rw [habs, show n.toNat = n.natAbs by omega]

theorem apply_decreaseExponent (s : Sign) (m : Nat) {e t : Int} (ht : t ≤ e) :
    ((s.apply (decreaseExponent m e t).1 : Int) : ℚ)*2^t = scaled s m e := by
  have h := shiftLeft_mul m (e - t).toNat e
  rw [show e - ((e - t).toNat : Int) = t by omega] at h
  unfold decreaseExponent scaled
  cases s
  · simp only [Sign.apply, Int.cast_neg, Int.cast_natCast, neg_mul, h]
  · simpa only [Sign.apply, Int.cast_natCast] using h

theorem rounds_add (ha : Holds a x) (hb : Holds b y) : Rounds (x + y) (a + b) := by
  change Rounds _ (.ofModel (Float.Model.pack (UnpackedFloat.add Format.binary64
    a.toModel.unpack b.toModel.unpack)))
  rcases ha.cases with ⟨s,hu,rfl⟩ | ⟨s,m,e,hm,hu,rfl⟩ <;>
    rcases hb.cases with ⟨s',hu',rfl⟩ | ⟨s',m',e',hm',hu',rfl⟩
  · rw [hu, hu', add_zero, UnpackedFloat.add]
    split
    · exact (holds_zero _).rounds
    · exact (holds_zero _).rounds
  · rw [hu, zero_add, hu']
    exact (hu' ▸ hb.pack).rounds
  · rw [hu', add_zero, hu]
    exact (hu ▸ ha.pack).rounds
  · rw [hu, hu']
    have h := rounds_normalize (s.apply (decreaseExponent m e (min e e')).1 +
      s'.apply (decreaseExponent m' e' (min e e')).1) (min e e') .positive
    rw [Int.cast_add, add_mul, apply_decreaseExponent s m (min_le_left _ _),
      apply_decreaseExponent s' m' (min_le_right _ _)] at h
    exact h

theorem scaled_neg (s : Sign) (m : Nat) (e : Int) : scaled (-s) m e = -scaled s m e := by
  have h : (-s).apply (m : Int) = -s.apply m := by
    cases s
    · exact (neg_neg _).symm
    · rfl
  rw [scaled, scaled, h, Int.cast_neg, neg_mul]

theorem rounds_sub (ha : Holds a x) (hb : Holds b y) : Rounds (x - y) (a - b) := by
  change Rounds _ (.ofModel (Float.Model.pack (UnpackedFloat.sub Format.binary64
    a.toModel.unpack b.toModel.unpack)))
  rcases ha.cases with ⟨s,hu,rfl⟩ | ⟨s,m,e,hm,hu,rfl⟩ <;>
    rcases hb.cases with ⟨s',hu',rfl⟩ | ⟨s',m',e',hm',hu',rfl⟩
  · rw [hu, hu', sub_zero, UnpackedFloat.sub]
    split
    · exact (holds_zero _).rounds
    · exact (holds_zero _).rounds
  · rw [hu, zero_sub, hu']
    obtain ⟨h1,h2,h3,h4⟩ := unpack_fits _ hu'
    refine Holds.rounds ?_
    change value (Float.Model.pack (.finite (-s') m' e' hm')).unpack = _
    rw [unpack_pack_finite _ hm' h1 h2 h4, if_neg (by omega), value, scaled_neg]
  · rw [hu', sub_zero, hu]
    exact (hu ▸ ha.pack).rounds
  · rw [hu, hu']
    have h := rounds_normalize (s.apply (decreaseExponent m e (min e e')).1 -
      s'.apply (decreaseExponent m' e' (min e e')).1) (min e e') .positive
    rw [Int.cast_sub, sub_mul, apply_decreaseExponent s m (min_le_left _ _),
      apply_decreaseExponent s' m' (min_le_right _ _)] at h
    exact h

theorem scaled_mul (s s' : Sign) (m m' : Nat) (e e' : Int) :
    scaled s m e*scaled s' m' e' = scaled (s*s') (m*m') (e + e') := by
  have h : (s*s').apply ((m*m' : Nat) : Int) = s.apply m*s'.apply m' := by
    rw [Nat.cast_mul]
    cases s <;> cases s'
    · exact (neg_mul_neg _ _).symm
    · exact (neg_mul _ _).symm
    · exact (mul_neg _ _).symm
    · rfl
  rw [scaled, scaled, scaled, h, Int.cast_mul, zpow_add₀ (by norm_num)]
  ring

theorem positive_of_nonneg {s : Sign} {m : Nat} {e : Int} (hm : 0 < m) (h : 0 ≤ scaled s m e) :
    s = .positive := by
  cases s
  · have hm' : (0 : ℚ) < m := by exact_mod_cast hm
    have hpos : (0 : ℚ) < m*2^e := by positivity
    rw [scaled, Sign.apply, Int.cast_neg, Int.cast_natCast, neg_mul] at h
    linarith
  · rfl

theorem rounds_mul (ha : Holds a x) (hb : Holds b y) : Rounds (x*y) (a*b) := by
  change Rounds _ (.ofModel (Float.Model.pack (UnpackedFloat.mul Format.binary64
    a.toModel.unpack b.toModel.unpack)))
  rcases ha.cases with ⟨s,hu,rfl⟩ | ⟨s,m,e,hm,hu,rfl⟩ <;>
    rcases hb.cases with ⟨s',hu',rfl⟩ | ⟨s',m',e',hm',hu',rfl⟩
  · rw [hu, hu', mul_zero]
    exact (holds_zero _).rounds
  · rw [hu, hu', zero_mul]
    exact (holds_zero _).rounds
  · rw [hu, hu', mul_zero]
    exact (holds_zero _).rounds
  · rw [hu, hu', scaled_mul]
    obtain ⟨-,-,-,h4⟩ := unpack_fits _ hu
    obtain ⟨-,-,-,h4'⟩ := unpack_fits _ hu'
    have hpos : 0 < m*m' := Nat.mul_pos hm hm'
    refine rounds_exact ?_ (positive_of_nonneg hpos) (abs_scaled _ _ _)
    by_cases hbig : 2^52 ≤ m*m'
    · exact .inl ((Nat.le_log2 hpos.ne').mpr hbig)
    · have h1 : m ≤ m*m' := Nat.le_mul_of_pos_right m hm'
      have h2 : m' ≤ m*m' := Nat.le_mul_of_pos_left m' hm
      exact .inr (by omega)

end Library.Binary64
