import Cpipe.Library.Binary64
import Mathlib.Analysis.Real.Sqrt

/-! Quotients, square roots, comparisons and whole numbers of `Float`, and how a bound by a
power of two passes through an expression. -/

namespace Library.Binary64
open Float.Model Float.Model.UnpackedFloat

variable {a b : Float} {x y : ℚ}

/-! ### Whole numbers -/

theorem shifted_exact {m : Nat} {e : Int} (h : Fits m e) (hm : m < 2^53) :
    shiftedMantissa m e .exact = m ∧ shiftedExponent m e = e := by
  have hlog : m.log2 ≤ 52 := by
    rcases Nat.eq_zero_or_pos m with rfl | hpos
    · simp
    · exact Nat.lt_succ_iff.mp ((Nat.log2_lt hpos.ne').mpr hm)
  have hleast := h.least
  have hshift : (max ((m.log2 : Int) + e - 52) (-1074) - e).toNat = 0 := by omega
  unfold shiftedMantissa shiftedExponent
  rw [hshift]
  exact ⟨rfl,add_zero e⟩

theorem holds_ofNat {n : Nat} (h : n < 2^53) :
    Holds (.ofModel (Float.Model.ofNat n)) n := by
  rcases Nat.eq_zero_or_pos n with rfl | hpos
  · exact holds_zero _
  have hlog : n.log2 ≤ 52 := Nat.lt_succ_iff.mp ((Nat.log2_lt hpos.ne').mpr h)
  have hexp : (n.log2 : Int) + 0 - 52 = n.log2 - 52 := by omega
  have hlow : 2^52 ≤ n <<< (52 - n.log2) := by
    rw [Nat.shiftLeft_eq]
    calc 2^52 = 2^n.log2*2^(52 - n.log2) := by rw [← Nat.pow_add]; congr 1; omega
      _ ≤ n*2^(52 - n.log2) := Nat.mul_le_mul_right _ (Nat.log2_self_le hpos.ne')
  have hhigh : n <<< (52 - n.log2) < 2^53 := by
    rw [Nat.shiftLeft_eq]
    calc n*2^(52 - n.log2) < 2^(n.log2 + 1)*2^(52 - n.log2) :=
          Nat.mul_lt_mul_of_pos_right Nat.lt_log2_self (Nat.two_pow_pos _)
      _ = 2^53 := by rw [← Nat.pow_add]; congr 1; omega
  have hfits : Fits (n <<< (52 - n.log2)) ((n.log2 : Int) - 52) :=
    ⟨hhigh.le,by omega,.inl hlow⟩
  have hround : UnpackedFloat.ofNat Format.binary64 n =
      settle .positive (n <<< (52 - n.log2)) ((n.log2 : Int) - 52) := by
    unfold UnpackedFloat.ofNat UnpackedFloat.ofInt UnpackedFloat.normalize
    rw [Int.compare_eq_gt.mpr (by omega)]
    change UnpackedFloat.round Format.binary64 .positive n 0 = _
    unfold UnpackedFloat.round decreaseExponent
    obtain ⟨hm,he⟩ := shifted_exact hfits hhigh
    rw [target_eq, hexp, max_eq_left (by omega)]
    have hshift : ((0 : Int) - (n.log2 - 52)).toNat = 52 - n.log2 := by omega
    have hback : (0 : Int) - ((52 - n.log2 : Nat) : Int) = n.log2 - 52 := by omega
    simp only [hshift, hback]
    rw [roundWithAccuracy_eq _ _ (.inl ((Nat.le_log2 (by omega)).mpr hlow)), hm, he]
  change value (Float.Model.pack (UnpackedFloat.ofNat Format.binary64 n)).unpack = _
  rw [hround]
  rcases unpack_pack_settle .positive hfits with hu | ⟨-,hbig⟩
  · rw [hu, value_settle _ _ hhigh.le, scaled_positive]
    have hv := shiftLeft_mul n (52 - n.log2) 0
    rw [show (0 : Int) - ((52 - n.log2 : Nat) : Int) = n.log2 - 52 by omega] at hv
    rw [hv, zpow_zero, mul_one]
  · have hle := le_trans hbig (mul_le_zpow (k := 53) hhigh.le (by omega))
    have := (zpow_le_zpow_iff_right₀ (by norm_num : (1 : ℚ) < 2)).mp hle
    omega

/-! ### Quotients -/

theorem positive_div {s s' : Sign} {m m' : Nat} {e e' : Int} (hm : 0 < m) (hm' : 0 < m')
    (h : 0 ≤ scaled s m e/scaled s' m' e') : s/s' = .positive := by
  have hx : 0 < (m : ℚ)*2^e := by positivity
  have hy : 0 < (m' : ℚ)*2^e' := by positivity
  have hxy : 0 < ((m : ℚ)*2^e)/(m'*2^e') := div_pos hx hy
  have hneg (k : Nat) (d : Int) : scaled .negative k d = -(k*2^d) := by
    rw [scaled, Sign.apply, Int.cast_neg, Int.cast_natCast, neg_mul]
  cases s <;> cases s'
  · rfl
  · rw [hneg, scaled_positive, neg_div] at h
    linarith
  · rw [hneg, scaled_positive, div_neg] at h
    linarith
  · rfl

theorem rounds_truncated {K : Type} [Field K] [LinearOrder K] [IsStrictOrderedRing K] {s : Sign}
    {m : Nat} {e : Int} {a : Accuracy} {v : K} (h : 52 ≤ m.log2 ∨ e ≤ -1074)
    (hsign : 0 ≤ v → s = .positive) (hfloor : ∀ n : Nat, (n : K)*2^e ≤ |v| → n ≤ m)
    (hceil : ∀ n : Nat, |v| ≤ (n : K)*2^e →
      ceil (ExtendedMantissa.ofMantissaAndAccuracy m a) ≤ n) :
    Rounds v (.ofModel (Float.Model.pack (roundWithAccuracy Format.binary64 s m e a))) := by
  have hbelow {k : Int} (hk : -1074 ≤ k) (he : k < e) : 1 < m := by
    have hlog := h.resolve_right (by omega)
    have hm : m ≠ 0 := by
      rintro rfl
      simp at hlog
    exact lt_of_lt_of_le (by decide) ((Nat.le_log2 hm).mp hlog)
  have hpow {k : Int} (he : e ≤ k) : (2 : K)^k = (2^(k - e).toNat : Nat)*2^e := by
    rw [Nat.cast_pow, Nat.cast_ofNat, ← zpow_natCast, ← zpow_add₀ (by norm_num)]
    congr 1
    omega
  refine rounds_round h hsign (fun k hk hv => ?_) (fun k hk hv => ?_)
  · rcases le_or_gt e k with he | he
    · exact mul_le_zpow (hceil _ (hpow he ▸ hv)) (by omega)
    · have hone : |v| ≤ (1 : Nat)*2^e := by
        rw [Nat.cast_one, one_mul]
        exact le_trans hv (zpow_le_zpow_right₀ (by norm_num) he.le)
      have hle := hceil 1 hone
      have hlt := hbelow hk he
      have hm : m ≤ ceil (ExtendedMantissa.ofMantissaAndAccuracy m a) := by
        conv_lhs => rw [← ofMantissaAndAccuracy_mantissa m a]
        exact Nat.le_add_right _ _
      omega
  · rcases le_or_gt e k with he | he
    · exact zpow_le_mul (hfloor _ (hpow he ▸ hv)) (by omega)
    · exact zpow_le_mul (n := 0) (hbelow hk he).le (by omega)

theorem ceil_exact (m : Nat) : ceil (ExtendedMantissa.ofMantissaAndAccuracy m .exact) = m :=
  add_zero m

theorem ceil_inexact (m : Nat) (o : Ordering) :
    ceil (ExtendedMantissa.ofMantissaAndAccuracy m (.inexact o)) = m + 1 := by
  cases o <;> rfl

/-- The quotient the division rounds has a bit to spare, or the least exponent. -/
theorem divCore_log2 {m m' : Nat} (e e' : Int) (hm : 0 < m) (hm' : 0 < m') :
    52 ≤ (divCore Format.binary64 m e m' e').1.log2 ∨
      (divCore Format.binary64 m e m' e').2.1 ≤ -1074 := by
  have ht : Format.binary64.targetExponent (totalExponent m e - totalExponent m' e') =
      max ((m.log2 : Int) + e - m'.log2 - e' - 53) (-1074) := by
    simp only [Format.targetExponent, totalExponent, Format.mantissaBits, Format.minExponent]
    norm_num
    omega
  unfold divCore
  rw [ht]
  simp only
  by_cases hmin : (m.log2 : Int) + e - m'.log2 - e' - 53 ≤ -1074
  · exact .inr (by omega)
  left
  have hq : 2^52 ≤ m <<< (e - e' - min (e - e') (max ((m.log2 : Int) + e - m'.log2 - e' - 53)
      (-1074))).toNat/m' := by
    rw [Nat.le_div_iff_mul_le hm', Nat.shiftLeft_eq]
    calc 2^52*m' ≤ 2^52*2^(m'.log2 + 1) := Nat.mul_le_mul_left _ Nat.lt_log2_self.le
      _ = 2^(52 + (m'.log2 + 1)) := (Nat.pow_add _ _ _).symm
      _ ≤ 2^(m.log2 + (e - e' - min (e - e') (max ((m.log2 : Int) + e - m'.log2 - e' - 53)
            (-1074))).toNat) := Nat.pow_le_pow_right (by decide) (by omega)
      _ = 2^m.log2*2^(e - e' - min (e - e') (max ((m.log2 : Int) + e - m'.log2 - e' - 53)
            (-1074))).toNat := Nat.pow_add _ _ _
      _ ≤ m*2^(e - e' - min (e - e') (max ((m.log2 : Int) + e - m'.log2 - e' - 53)
            (-1074))).toNat := Nat.mul_le_mul_right _ (Nat.log2_self_le hm.ne')
  exact (Nat.le_log2 (by omega)).mpr hq

theorem ceil_fraction_le {n d k : Nat} (h : n ≤ k*d) :
    ceil (ExtendedMantissa.ofMantissaAndAccuracy (n/d) (accuracyOfFraction (n % d) d)) ≤ k := by
  unfold accuracyOfFraction
  split_ifs with hr
  · rw [ceil_exact]
    exact Nat.div_le_of_le_mul (by rwa [Nat.mul_comm])
  · rw [ceil_inexact]
    refine Nat.div_lt_of_lt_mul (Nat.lt_of_le_of_ne (by rwa [Nat.mul_comm]) ?_)
    rintro rfl
    exact hr (Nat.mul_mod_right d k)

theorem rounds_div (ha : Holds a x) (hb : Holds b y) (hy : y ≠ 0) : Rounds (x/y) (a/b) := by
  change Rounds _ (.ofModel (Float.Model.pack (UnpackedFloat.div Format.binary64
    a.toModel.unpack b.toModel.unpack)))
  rcases hb.cases with ⟨s',-,rfl⟩ | ⟨s',m',e',hm',hu',rfl⟩
  · exact absurd rfl hy
  rcases ha.cases with ⟨s,hu,rfl⟩ | ⟨s,m,e,hm,hu,rfl⟩
  · rw [hu, hu', zero_div]
    exact (holds_zero _).rounds
  rw [hu, hu']
  have hd : (0 : ℚ) < m' := by exact_mod_cast hm'
  -- The quotient is one of whole numbers at the exponent of the result.
  obtain ⟨t,ht⟩ : ∃ t, (divCore Format.binary64 m e m' e').2.1 = t := ⟨_,rfl⟩
  obtain ⟨n,hn⟩ : ∃ n, m <<< (e - e' - t).toNat = n := ⟨_,rfl⟩
  have hle : t ≤ e - e' := ht ▸ min_le_left _ _
  have hscale : |scaled s m e/scaled s' m' e'| = (n : ℚ)/m'*2^t := by
    have hshift := shiftLeft_mul m (e - e' - t).toNat (e - e')
    rw [hn, Int.toNat_of_nonneg (by omega), sub_sub_cancel, zpow_sub₀ (by norm_num)] at hshift
    rw [abs_div, abs_scaled, abs_scaled, div_mul_eq_mul_div, hshift, mul_div_assoc', div_div,
      mul_comm (2^e' : ℚ)]
  have hcore : divCore Format.binary64 m e m' e' = (n/m',t,accuracyOfFraction (n % m') m') := by
    rw [← hn, ← ht]
    rfl
  have hlog := divCore_log2 e e' hm hm'
  change Rounds _ (.ofModel (Float.Model.pack (roundWithAccuracy Format.binary64 (s/s')
    (divCore Format.binary64 m e m' e').1 (divCore Format.binary64 m e m' e').2.1
    (divCore Format.binary64 m e m' e').2.2)))
  rw [hcore] at hlog ⊢
  refine rounds_truncated hlog (positive_div hm hm') (fun k hk => ?_) (fun k hk => ?_)
  · rw [hscale] at hk
    have := (le_div_iff₀ hd).mp (le_of_mul_le_mul_right hk (by positivity))
    exact (Nat.le_div_iff_mul_le hm').mpr (by exact_mod_cast this)
  · rw [hscale] at hk
    have := (div_le_iff₀ hd).mp (le_of_mul_le_mul_right hk (by positivity))
    exact ceil_fraction_le (by exact_mod_cast this)

/-! ### Square roots -/

theorem sqrtCore_target (m : Nat) (e : Int) :
    Format.binary64.targetExponent ((totalExponent m e + 1).ediv 2) =
      max (((m.log2 : Int) + e)/2 - 52) (-1074) := by
  have hhalf : (totalExponent m e + 1).ediv 2 = ((m.log2 : Int) + e + 2)/2 := by
    change ((m.log2 : Int) + 1 + e + 1)/2 = _
    congr 1
    omega
  simp only [Format.targetExponent, hhalf, Format.mantissaBits, Format.minExponent]
  norm_num
  omega

theorem sqrtCore_log2 {m : Nat} (e : Int) (hm : 0 < m) :
    52 ≤ (sqrtCore Format.binary64 m e).1.log2 ∨
      (sqrtCore Format.binary64 m e).2.1 ≤ -1074 := by
  obtain ⟨t,ht⟩ : ∃ t, (sqrtCore Format.binary64 m e).2.1 = t := ⟨_,rfl⟩
  have hmin : t = min (e/2) (max (((m.log2 : Int) + e)/2 - 52) (-1074)) := by
    rw [← ht, ← sqrtCore_target]
    rfl
  rw [ht]
  by_cases hsmall : ((m.log2 : Int) + e)/2 - 52 ≤ -1074
  · exact .inr (by omega)
  left
  have hroot : 2^52 ≤ (sqrtCore Format.binary64 m e).1 := by
    change 2^52 ≤ Nat.sqrt (m <<< (e - 2*(sqrtCore Format.binary64 m e).2.1).toNat)
    rw [ht, Nat.le_sqrt, ← Nat.pow_add, Nat.shiftLeft_eq]
    calc 2^(52 + 52) ≤ 2^(m.log2 + (e - 2*t).toNat) :=
          Nat.pow_le_pow_right (by decide) (by omega)
      _ = 2^m.log2*2^(e - 2*t).toNat := Nat.pow_add _ _ _
      _ ≤ m*2^(e - 2*t).toNat := Nat.mul_le_mul_right _ (Nat.log2_self_le hm.ne')
  exact (Nat.le_log2 (by omega)).mpr hroot

def rootAccuracy (n : Nat) : Accuracy :=
  if n - n.sqrt*n.sqrt = 0 then .exact
  else .inexact (if n - n.sqrt*n.sqrt ≤ n.sqrt then .lt else .gt)

theorem ceil_sqrt_le {n k : Nat} (h : n ≤ k*k) :
    ceil (ExtendedMantissa.ofMantissaAndAccuracy n.sqrt (rootAccuracy n)) ≤ k := by
  have hle : n.sqrt ≤ k := by
    rw [← Nat.sqrt_eq k]
    exact Nat.sqrt_le_sqrt h
  unfold rootAccuracy
  split_ifs with hr
  · rwa [ceil_exact]
  all_goals
    rw [ceil_inexact]
    refine Nat.lt_of_le_of_ne hle ?_
    rintro rfl
    omega

theorem cast_two_zpow (k : Int) : (((2 : ℚ)^k : ℚ) : ℝ) = 2^k := by
  rw [Rat.cast_zpow, Rat.cast_ofNat]

theorem Rounds.cast {v : ℚ} (h : Rounds v a) : Rounds (v : ℝ) a where
  upper k hk hk' hv := h.upper k hk hk' (by
    rw [← cast_two_zpow] at hv
    exact_mod_cast hv)
  lower k hk hv := h.lower k hk (by
    rw [← cast_two_zpow] at hv
    exact_mod_cast hv)
  nonneg hv := h.nonneg (by exact_mod_cast hv)
  positive hv := h.positive (by exact_mod_cast hv)
  number := h.number

theorem rounds_sqrt (ha : Holds a x) (hx : 0 ≤ x) : Rounds √(x : ℝ) a.sqrt := by
  change Rounds _ (.ofModel (Float.Model.pack (UnpackedFloat.sqrt Format.binary64
    a.toModel.unpack)))
  rcases ha.cases with ⟨s,hu,rfl⟩ | ⟨s,m,e,hm,hu,rfl⟩
  · rw [hu, Rat.cast_zero, Real.sqrt_zero, ← Rat.cast_zero]
    exact (holds_zero s).rounds.cast
  obtain rfl : s = .positive := positive_of_nonneg hm hx
  rw [hu]
  obtain ⟨t,ht⟩ : ∃ t, (sqrtCore Format.binary64 m e).2.1 = t := ⟨_,rfl⟩
  obtain ⟨n,hn⟩ : ∃ n, m <<< (e - 2*t).toNat = n := ⟨_,rfl⟩
  have hle : t ≤ e/2 := ht ▸ min_le_left _ _
  have hcore : sqrtCore Format.binary64 m e = (n.sqrt,t,rootAccuracy n) := by
    rw [← hn, ← ht]
    rfl
  have hroot : |√((scaled .positive m e : ℚ) : ℝ)| = √n*2^t := by
    have hshift := shiftLeft_mul m (e - 2*t).toNat e
    rw [hn, Int.toNat_of_nonneg (by omega), sub_sub_cancel] at hshift
    rw [abs_of_nonneg (Real.sqrt_nonneg _), scaled_positive, ← hshift]
    push_cast
    have hsq : (2 : ℝ)^(2*t) = (2^t)^2 := by
      rw [← zpow_natCast, ← zpow_mul, mul_comm, Nat.cast_ofNat]
    rw [Real.sqrt_mul (by positivity), hsq, Real.sqrt_sq (by positivity)]
  have hlog := sqrtCore_log2 e hm
  change Rounds _ (.ofModel (Float.Model.pack (roundWithAccuracy Format.binary64 .positive
    (sqrtCore Format.binary64 m e).1 (sqrtCore Format.binary64 m e).2.1
    (sqrtCore Format.binary64 m e).2.2)))
  rw [hcore] at hlog ⊢
  have hp : (0 : ℝ) < 2^t := by positivity
  refine rounds_truncated hlog (fun _ => rfl) (fun k hk => ?_) (fun k hk => ?_)
  · rw [hroot, mul_le_mul_iff_left₀ hp, Real.le_sqrt (by positivity) (by positivity)] at hk
    exact Nat.le_sqrt'.mpr (by exact_mod_cast hk)
  · rw [hroot, mul_le_mul_iff_left₀ hp, Real.sqrt_le_left (by positivity)] at hk
    refine ceil_sqrt_le ?_
    rw [← Nat.pow_two]
    exact_mod_cast hk

/-! ### Comparisons -/

theorem scaled_lt_of_exponent {m m' : Nat} {e e' : Int} (hm : m < 2^53)
    (hm' : 2^52 ≤ m' ∨ e' = -1074) (he : -1074 ≤ e) (h : e < e') : (m*2^e : ℚ) < m'*2^e' := by
  have hlt : (m : ℚ) < 2^53 := by exact_mod_cast hm
  calc (m*2^e : ℚ) < 2^53*2^e := mul_lt_mul_of_pos_right hlt (by positivity)
    _ = 2^(53 + e) := by rw [zpow_add₀ (by norm_num)]; norm_cast
    _ ≤ m'*2^e' := zpow_le_mul (hm'.resolve_right (by omega)) (by push_cast; omega)

theorem compare_finite {f g : Float.Model} {s s' : Sign} {m m' : Nat} {e e' : Int} {hm : 0 < m}
    {hm' : 0 < m'} (hf : f.unpack = .finite s m e hm) (hg : g.unpack = .finite s' m' e' hm') :
    (compare e e').then (compare m m') = compare (m*2^e : ℚ) (m'*2^e') := by
  obtain ⟨h1,h2,-,h3⟩ := unpack_fits f hf
  obtain ⟨h1',h2',-,h3'⟩ := unpack_fits g hg
  rcases lt_trichotomy e e' with he | rfl | he
  · rw [Int.compare_eq_lt.mpr he, compare_lt_iff_lt.mpr (scaled_lt_of_exponent h1 h3' h2 he)]
    rfl
  · have hp : (0 : ℚ) < 2^e := by positivity
    rw [Int.compare_eq_eq.mpr rfl]
    change compare m m' = _
    rcases lt_trichotomy m m' with h | rfl | h
    · have h' : (m : ℚ) < m' := by exact_mod_cast h
      rw [compare_lt_iff_lt.mpr h, compare_lt_iff_lt.mpr (mul_lt_mul_of_pos_right h' hp)]
    · rw [compare_eq_iff_eq.mpr rfl, compare_eq_iff_eq.mpr rfl]
    · have h' : (m' : ℚ) < m := by exact_mod_cast h
      rw [compare_gt_iff_gt.mpr h, compare_gt_iff_gt.mpr (mul_lt_mul_of_pos_right h' hp)]
  · rw [Int.compare_eq_gt.mpr he, compare_gt_iff_gt.mpr (scaled_lt_of_exponent h1' h3 h2' he)]
    rfl

theorem compare_neg (x y : ℚ) : compare (-x) (-y) = (compare x y).swap := by
  rcases lt_trichotomy x y with h | rfl | h
  · rw [compare_lt_iff_lt.mpr h, compare_gt_iff_gt.mpr (neg_lt_neg h), Ordering.swap_lt]
  · rw [compare_eq_iff_eq.mpr rfl, compare_eq_iff_eq.mpr rfl, Ordering.swap_eq]
  · rw [compare_gt_iff_gt.mpr h, compare_lt_iff_lt.mpr (neg_lt_neg h), Ordering.swap_gt]

theorem scaled_negative (m : Nat) (e : Int) : scaled .negative m e = -(m*2^e) := by
  rw [scaled, Sign.apply, Int.cast_neg, Int.cast_natCast, neg_mul]

/-- Floats compare as their numbers do. -/
theorem compare_holds (ha : Holds a x) (hb : Holds b y) :
    a.toModel.unpack.compare b.toModel.unpack = some (compare x y) := by
  have hpos {m : Nat} {e : Int} (hm : 0 < m) : (0 : ℚ) < m*2^e := by positivity
  rcases ha.cases with ⟨s,hu,rfl⟩ | ⟨s,m,e,hm,hu,rfl⟩ <;>
    rcases hb.cases with ⟨s',hu',rfl⟩ | ⟨s',m',e',hm',hu',rfl⟩
  · rw [hu, hu', compare_eq_iff_eq.mpr rfl, UnpackedFloat.compare]
  · rw [hu, hu']
    cases s'
    · rw [compare_gt_iff_gt.mpr (by rw [scaled_negative]; exact neg_lt_zero.mpr (hpos hm'))]
      rfl
    · rw [compare_lt_iff_lt.mpr (by rw [scaled_positive]; exact hpos hm')]
      rfl
  · rw [hu, hu']
    cases s
    · rw [compare_lt_iff_lt.mpr (by rw [scaled_negative]; exact neg_lt_zero.mpr (hpos hm))]
      rfl
    · rw [compare_gt_iff_gt.mpr (by rw [scaled_positive]; exact hpos hm)]
      rfl
  · have hc := compare_finite hu hu'
    rw [hu, hu']
    cases s <;> cases s'
    · rw [scaled_negative, scaled_negative]
      change some ((compare e e').then (compare m m')).swap = _
      rw [hc, compare_neg]
    · have hlt : -((m : ℚ)*2^e) < m'*2^e' := by linarith [hpos hm (e := e), hpos hm' (e := e')]
      rw [scaled_negative, scaled_positive, compare_lt_iff_lt.mpr hlt]
      rfl
    · have hlt : -((m' : ℚ)*2^e') < m*2^e := by linarith [hpos hm (e := e), hpos hm' (e := e')]
      rw [scaled_negative, scaled_positive, compare_gt_iff_gt.mpr hlt]
      rfl
    · rw [scaled_positive, scaled_positive, ← hc]
      rfl

theorem lt_iff (ha : Holds a x) (hb : Holds b y) : a < b ↔ x < y := by
  change decide (a.toModel < b.toModel) = true ↔ _
  rw [decide_eq_true_iff]
  change (a.toModel.unpack.compare b.toModel.unpack == some .lt) = true ↔ _
  rw [compare_holds ha hb, beq_iff_eq, Option.some_inj, compare_lt_iff_lt]

theorem le_iff (ha : Holds a x) (hb : Holds b y) : a ≤ b ↔ x ≤ y := by
  change decide (a.toModel ≤ b.toModel) = true ↔ _
  rw [decide_eq_true_iff]
  change (a.toModel.unpack.compare b.toModel.unpack).any Ordering.isLE = true ↔ _
  rw [compare_holds ha hb, Option.any_some, ← Ordering.ne_gt_iff_isLE]
  exact compare_le_iff_le

/-! ### Numbers and bounds -/

theorem number_cases (h : a.isNaN = false) :
    (∃ x, Holds a x) ∨ ∃ s, a.toModel.unpack = .infinity s := by
  change a.toModel.unpack.isNaN = false at h
  unfold Holds
  cases hu : a.toModel.unpack with
  | notANumber =>
    rw [hu] at h
    cases h
  | infinity s => exact .inr ⟨s,rfl⟩
  | zero s => exact .inl ⟨0,rfl⟩
  | finite s m e hm => exact .inl ⟨_,rfl⟩

theorem number_add (ha : Holds a x) (hb : b.isNaN = false) : (a + b).isNaN = false := by
  rcases number_cases hb with ⟨y,hy⟩ | ⟨s,hs⟩
  · exact (rounds_add ha hy).number
  · have hsum : UnpackedFloat.add Format.binary64 a.toModel.unpack b.toModel.unpack =
        .infinity s := by
      rcases ha.cases with ⟨s',hu,-⟩ | ⟨s',m,e,hm,hu,-⟩
      · rw [hu, hs]
        rfl
      · rw [hu, hs]
        rfl
    change (Float.Model.pack (UnpackedFloat.add Format.binary64 a.toModel.unpack
      b.toModel.unpack)).unpack.isNaN = false
    rw [hsum]
    exact congrArg UnpackedFloat.isNaN (unpack_packedInfinity s)

theorem lt_infinity {s : Sign} (ha : Holds a x) (hb : b.toModel.unpack = .infinity s) :
    a < b ↔ s = .positive := by
  change decide (a.toModel < b.toModel) = true ↔ _
  rw [decide_eq_true_iff]
  change (a.toModel.unpack.compare b.toModel.unpack == some .lt) = true ↔ _
  rcases ha.cases with ⟨s',hu,-⟩ | ⟨s',m,e,hm,hu,-⟩
  · rw [hu, hb]
    cases s <;> simp [UnpackedFloat.compare]
  · rw [hu, hb]
    cases s <;> simp [UnpackedFloat.compare]

theorem infinity_lt {s : Sign} (ha : Holds a x) (hb : b.toModel.unpack = .infinity s) :
    b < a ↔ s = .negative := by
  change decide (b.toModel < a.toModel) = true ↔ _
  rw [decide_eq_true_iff]
  change (b.toModel.unpack.compare a.toModel.unpack == some .lt) = true ↔ _
  rcases ha.cases with ⟨s',hu,-⟩ | ⟨s',m,e,hm,hu,-⟩
  · rw [hu, hb]
    cases s <;> simp [UnpackedFloat.compare]
  · rw [hu, hb]
    cases s <;> simp [UnpackedFloat.compare]

/-- The float is finite and at most a power of two in magnitude. -/
def Within (k : Int) (f : Float) : Prop := ∃ w, Holds f w ∧ |w| ≤ 2^k

variable {j k : Int}

theorem two_zpow_add (j k : Int) : (2 : ℚ)^(j + k) = 2^j*2^k := zpow_add₀ (by norm_num) j k

theorem two_zpow_le (h : j ≤ k) : (2 : ℚ)^j ≤ 2^k := zpow_le_zpow_right₀ (by norm_num) h

variable {n : Int}

theorem Within.add (ha : Within j a) (hb : Within k b)
    (hn : j < n ∧ k < n ∧ -1074 ≤ n ∧ n ≤ 1023) : Within n (a + b) := by
  obtain ⟨hj,hk,hlow,hhigh⟩ := hn
  obtain ⟨x,hx,hle⟩ := ha
  obtain ⟨y,hy,hle'⟩ := hb
  refine (rounds_add hx hy).upper n hlow hhigh ?_
  have htwo : (2 : ℚ)^n = 2^(n - 1) + 2^(n - 1) := by
    rw [← two_mul, mul_comm, ← zpow_add_one₀ (by norm_num), sub_add_cancel]
  linarith [abs_add_le x y, two_zpow_le (show j ≤ n - 1 by omega),
    two_zpow_le (show k ≤ n - 1 by omega)]

theorem Within.mul (ha : Within j a) (hb : Within k b)
    (hn : j + k ≤ n ∧ -1074 ≤ n ∧ n ≤ 1023) : Within n (a*b) := by
  obtain ⟨hjk,hlow,hhigh⟩ := hn
  obtain ⟨x,hx,hle⟩ := ha
  obtain ⟨y,hy,hle'⟩ := hb
  refine (rounds_mul hx hy).upper n hlow hhigh ?_
  calc |x*y| = |x| * |y| := abs_mul x y
    _ ≤ 2^j*2^k := mul_le_mul hle hle' (abs_nonneg y) (by positivity)
    _ = 2^(j + k) := (two_zpow_add j k).symm
    _ ≤ 2^n := two_zpow_le hjk

theorem unpack_pack_decode (s : Sign) {e f : Nat} (he : e < 2047) (hf : f < 2^52) :
    (Float.Model.pack (decode s e f)).unpack = decode s e f := by
  cases hd : decode s e f with
  | notANumber => rfl
  | infinity s => exact unpack_packedInfinity s
  | zero s => cases s <;> rfl
  | finite s' m e' hm =>
    obtain ⟨h1,h2,h3,h4⟩ := decode_fits (by omega) hf hd
    rw [unpack_pack_finite s' hm h1 h2 h4, if_neg (by omega)]

theorem within_decode (s : Sign) {e f n : Nat} (he : e ≤ n) (hn : n < 2047) (hf : f < 2^52) :
    Within ((n : Int) - 1022) (.ofModel (Float.Model.pack (decode s e f))) := by
  unfold Within Holds
  rw [unpack_pack_decode s (by omega) hf]
  unfold decode
  rw [if_neg (by omega)]
  split_ifs with h0 h1
  · exact ⟨0,rfl,by rw [abs_zero]; positivity⟩
  · refine ⟨_,rfl,?_⟩
    rw [abs_scaled]
    exact mul_le_zpow hf.le (by push_cast; omega)
  · refine ⟨_,rfl,?_⟩
    rw [abs_scaled]
    exact mul_le_zpow (n := 53) (by omega) (by push_cast; omega)

/-- The bit pattern of a finite number, by the field of its exponent. -/
theorem within_ofBits {bits : UInt64} {n : Nat} (h : bits.toNat/2^52 % 2^11 ≤ n) (hn : n < 2047) :
    Within ((n : Int) - 1022) (Float.ofBits bits) := by
  have hunpack := unpack_bits bits.toBitVec
  have hbits : Float.ofBits bits = .ofModel (Float.Model.pack (decode (signOf bits.toNat)
      (bits.toNat/2^52 % 2^11) (bits.toNat % 2^52))) := by
    change Float.ofModel (Float.Model.pack (UnpackedFloat.unpack Format.binary64
      bits.toBitVec)) = _
    rw [hunpack]
    rfl
  rw [hbits]
  exact within_decode _ h hn (Nat.mod_lt _ (by decide))

end Library.Binary64
