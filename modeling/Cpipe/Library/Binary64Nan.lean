import Cpipe.Library.Binary64Bounds

/-! When the sums, products and quotients of `Float` are NaN: an infinity has met a zero, or
another infinity of the opposite sign. -/

namespace Library.Binary64
open Float.Model Float.Model.UnpackedFloat

variable {a b : Float} {x y : ℚ} {s s' : Sign}

theorem isInf_iff : a.isInf = true ↔ ∃ s, a.toModel.unpack = .infinity s := by
  change a.toModel.unpack.isInf = true ↔ _
  cases a.toModel.unpack <;> simp [UnpackedFloat.isInf]

theorem isNaN_iff : a.isNaN = true ↔ a.toModel.unpack = .notANumber := by
  change a.toModel.unpack.isNaN = true ↔ _
  cases a.toModel.unpack <;> simp [UnpackedFloat.isNaN]

theorem isFinite_iff : a.isFinite = true ↔ ∃ x, Holds a x := by
  change a.toModel.unpack.isFinite = true ↔ ∃ x, value a.toModel.unpack = some x
  cases a.toModel.unpack <;> simp [UnpackedFloat.isFinite, value]

theorem zero_iff : Holds a 0 ↔ ∃ s, a.toModel.unpack = .zero s := by
  constructor
  · intro h
    rcases h.cases with ⟨s,hu,-⟩ | ⟨s,m,e,hm,-,h0⟩
    · exact ⟨s,hu⟩
    · have hpos : (0 : ℚ) < m*2^e := by positivity
      rw [← abs_scaled s m e, ← h0, abs_zero] at hpos
      exact absurd hpos (lt_irrefl 0)
  · rintro ⟨s,hu⟩
    rw [Holds, hu]
    rfl

theorem not_nan_of_infinity (h : a.toModel.unpack = .infinity s) : a.isNaN = false := by
  rw [Bool.eq_false_iff, Ne, isNaN_iff, h]
  exact nofun

theorem float_cases (a : Float) : a.isNaN = true ∨ (∃ x, Holds a x) ∨
    ∃ s, a.toModel.unpack = .infinity s := by
  cases h : a.isNaN
  · exact .inr (number_cases h)
  · exact .inl rfl

/-! ### Operations on what is no finite number -/

theorem unpack_notANumber : (Float.Model.pack .notANumber).unpack = .notANumber := rfl

theorem unpack_infinity (s : Sign) : (Float.Model.pack (.infinity s)).unpack = .infinity s :=
  unpack_packedInfinity s

theorem unpack_zero (s : Sign) : (Float.Model.pack (.zero s)).unpack = .zero s := by
  cases s <;> rfl

theorem unpack_add {u v w : UnpackedFloat} (ha : a.toModel.unpack = u)
    (hb : b.toModel.unpack = v) (h : UnpackedFloat.add Format.binary64 u v = w) :
    (a + b).toModel.unpack = (Float.Model.pack w).unpack := by
  change (Float.Model.pack (UnpackedFloat.add Format.binary64 a.toModel.unpack
    b.toModel.unpack)).unpack = _
  rw [ha, hb, h]

theorem unpack_mul {u v w : UnpackedFloat} (ha : a.toModel.unpack = u)
    (hb : b.toModel.unpack = v) (h : UnpackedFloat.mul Format.binary64 u v = w) :
    (a*b).toModel.unpack = (Float.Model.pack w).unpack := by
  change (Float.Model.pack (UnpackedFloat.mul Format.binary64 a.toModel.unpack
    b.toModel.unpack)).unpack = _
  rw [ha, hb, h]

theorem unpack_div {u v w : UnpackedFloat} (ha : a.toModel.unpack = u)
    (hb : b.toModel.unpack = v) (h : UnpackedFloat.div Format.binary64 u v = w) :
    (a/b).toModel.unpack = (Float.Model.pack w).unpack := by
  change (Float.Model.pack (UnpackedFloat.div Format.binary64 a.toModel.unpack
    b.toModel.unpack)).unpack = _
  rw [ha, hb, h]

theorem nan_add_left (ha : a.isNaN = true) : (a + b).isNaN = true :=
  isNaN_iff.mpr ((unpack_add (isNaN_iff.mp ha) rfl rfl).trans unpack_notANumber)

theorem nan_add_right (hb : b.isNaN = true) : (a + b).isNaN = true := by
  refine isNaN_iff.mpr ((unpack_add rfl (isNaN_iff.mp hb) ?_).trans unpack_notANumber)
  cases a.toModel.unpack <;> rfl

theorem nan_mul_left (ha : a.isNaN = true) : (a*b).isNaN = true :=
  isNaN_iff.mpr ((unpack_mul (isNaN_iff.mp ha) rfl rfl).trans unpack_notANumber)

theorem nan_mul_right (hb : b.isNaN = true) : (a*b).isNaN = true := by
  refine isNaN_iff.mpr ((unpack_mul rfl (isNaN_iff.mp hb) ?_).trans unpack_notANumber)
  cases a.toModel.unpack <;> rfl

theorem infinity_add (ha : a.toModel.unpack = .infinity s) (hb : Holds b y) :
    (a + b).toModel.unpack = .infinity s := by
  rcases hb.cases with ⟨s',hu,-⟩ | ⟨s',m,e,hm,hu,-⟩
  · exact (unpack_add ha hu rfl).trans (unpack_infinity s)
  · exact (unpack_add ha hu rfl).trans (unpack_infinity s)

theorem add_infinity (ha : Holds a x) (hb : b.toModel.unpack = .infinity s) :
    (a + b).toModel.unpack = .infinity s := by
  rcases ha.cases with ⟨s',hu,-⟩ | ⟨s',m,e,hm,hu,-⟩
  · exact (unpack_add hu hb rfl).trans (unpack_infinity s)
  · exact (unpack_add hu hb rfl).trans (unpack_infinity s)

theorem infinity_add_self (ha : a.toModel.unpack = .infinity s)
    (hb : b.toModel.unpack = .infinity s) : (a + b).toModel.unpack = .infinity s := by
  refine (unpack_add ha hb ?_).trans (unpack_infinity s)
  cases s <;> rfl

theorem infinity_mul_self (ha : a.toModel.unpack = .infinity s) :
    (a*a).toModel.unpack = .infinity .positive := by
  refine (unpack_mul ha ha ?_).trans (unpack_infinity .positive)
  cases s <;> rfl

theorem infinity_mul (ha : a.toModel.unpack = .infinity s) (hb : Holds b y) (hy : y ≠ 0) :
    ∃ s', (a*b).toModel.unpack = .infinity s' := by
  rcases hb.cases with ⟨s',-,h0⟩ | ⟨s',m,e,hm,hu,-⟩
  · exact absurd h0 hy
  · exact ⟨_,(unpack_mul ha hu rfl).trans (unpack_infinity (s*s'))⟩

theorem mul_infinity (ha : Holds a x) (hx : x ≠ 0) (hb : b.toModel.unpack = .infinity s) :
    ∃ s', (a*b).toModel.unpack = .infinity s' := by
  rcases ha.cases with ⟨s',-,h0⟩ | ⟨s',m,e,hm,hu,-⟩
  · exact absurd h0 hx
  · exact ⟨_,(unpack_mul hu hb rfl).trans (unpack_infinity (s'*s))⟩

theorem nan_infinity_mul_zero (ha : a.isInf = true) (hb : Holds b 0) : (a*b).isNaN = true := by
  obtain ⟨s,hs⟩ := isInf_iff.mp ha
  obtain ⟨s',hs'⟩ := zero_iff.mp hb
  exact isNaN_iff.mpr ((unpack_mul hs hs' rfl).trans unpack_notANumber)

theorem nan_zero_mul_infinity (ha : Holds a 0) (hb : b.isInf = true) : (a*b).isNaN = true := by
  obtain ⟨s,hs⟩ := zero_iff.mp ha
  obtain ⟨s',hs'⟩ := isInf_iff.mp hb
  exact isNaN_iff.mpr ((unpack_mul hs hs' rfl).trans unpack_notANumber)

/-! ### Where NaN comes from -/

/-- Infinities of opposite signs. -/
def Opposed (a b : Float) : Prop :=
  ∃ s, a.toModel.unpack = .infinity s ∧ b.toModel.unpack = .infinity (-s)

/-- A sum is NaN where a summand is, or where they are opposite infinities. -/
theorem nan_add_iff : (a + b).isNaN = true ↔ a.isNaN = true ∨ b.isNaN = true ∨ Opposed a b := by
  constructor
  · intro h
    rcases float_cases a with ha | ⟨x,ha⟩ | ⟨s,ha⟩
    · exact .inl ha
    · refine .inr (.inl ?_)
      by_contra hb
      rw [number_add ha (Bool.eq_false_iff.mpr hb)] at h
      cases h
    · rcases float_cases b with hb | ⟨y,hb⟩ | ⟨s',hb⟩
      · exact .inr (.inl hb)
      · rw [not_nan_of_infinity (infinity_add ha hb)] at h
        cases h
      · refine .inr (.inr ⟨s,ha,?_⟩)
        by_cases hs : s = s'
        · subst hs
          rw [not_nan_of_infinity (infinity_add_self ha hb)] at h
          cases h
        · rw [hb]
          cases s <;> cases s' <;> first | rfl | exact absurd rfl hs
  · rintro (ha | hb | ⟨s,ha,hb⟩)
    · exact nan_add_left ha
    · exact nan_add_right hb
    · refine isNaN_iff.mpr ((unpack_add ha hb ?_).trans unpack_notANumber)
      cases s <;> rfl

/-- A product with a finite factor is NaN where the other factor is, or where that one is
infinite and the finite one zero. -/
theorem nan_mul_holds_iff (hb : Holds b y) :
    (a*b).isNaN = true ↔ a.isNaN = true ∨ a.isInf = true ∧ y = 0 := by
  constructor
  · intro h
    rcases float_cases a with ha | ⟨x,ha⟩ | ⟨s,ha⟩
    · exact .inl ha
    · rw [(rounds_mul ha hb).number] at h
      cases h
    · refine .inr ⟨isInf_iff.mpr ⟨s,ha⟩,?_⟩
      by_contra hy
      obtain ⟨s',hs'⟩ := infinity_mul ha hb hy
      rw [not_nan_of_infinity hs'] at h
      cases h
  · rintro (ha | ⟨ha,rfl⟩)
    · exact nan_mul_left ha
    · exact nan_infinity_mul_zero ha hb

theorem number_mul (ha : Holds a x) (hx : x ≠ 0) (hb : b.isNaN = false) : (a*b).isNaN = false := by
  rcases number_cases hb with ⟨y,hy⟩ | ⟨s,hs⟩
  · exact (rounds_mul ha hy).number
  · obtain ⟨s',hs'⟩ := mul_infinity ha hx hs
    exact not_nan_of_infinity hs'

/-! ### Expressions that stay numbers -/

theorem number_mul_finite (ha : ∃ x, Holds a x) (hb : ∃ y, Holds b y) :
    (a*b).isNaN = false := by
  obtain ⟨x,hx⟩ := ha
  obtain ⟨y,hy⟩ := hb
  exact (rounds_mul hx hy).number

theorem number_add_iff (ha : a.isNaN = false) (hb : b.isNaN = false) :
    (a + b).isNaN = false ↔ ¬Opposed a b := by
  rw [Bool.eq_false_iff, Ne, nan_add_iff, ha, hb]
  simp

theorem number_mul_iff (ha : a.isNaN = false) (hb : ∃ y, Holds b y) :
    (a*b).isNaN = false ↔ ¬(a.isInf = true ∧ Holds b 0) := by
  obtain ⟨y,hy⟩ := hb
  have hzero : Holds b 0 ↔ y = 0 := ⟨fun h => hy.unique h,fun h => h ▸ hy⟩
  rw [Bool.eq_false_iff, Ne, nan_mul_holds_iff hy, ha, hzero]
  simp

theorem Within.holds {j : Int} (h : Within j a) : ∃ x, Holds a x :=
  h.elim (fun x hx => ⟨x,hx.1⟩)

theorem Within.not_nan {j : Int} (h : Within j a) : a.isNaN = false :=
  h.elim (fun _ hx => hx.1.not_nan)

theorem number_of_add (h : (a + b).isNaN = false) :
    a.isNaN = false ∧ b.isNaN = false := by
  constructor
  · cases ha : a.isNaN with
    | false => rfl
    | true => rw [nan_add_left ha] at h; cases h
  · cases hb : b.isNaN with
    | false => rfl
    | true => rw [nan_add_right hb] at h; cases h

theorem number_of_mul (h : (a*b).isNaN = false) : a.isNaN = false ∧ b.isNaN = false := by
  constructor
  · cases ha : a.isNaN with
    | false => rfl
    | true => rw [nan_mul_left ha] at h; cases h
  · cases hb : b.isNaN with
    | false => rfl
    | true => rw [nan_mul_right hb] at h; cases h

/-! ### Nothing but zeros and NaN -/

/-- A zero, or what comes of a zero and an infinity. -/
def Null (a : Float) : Prop := a.isNaN = true ∨ Holds a 0

theorem Null.add (ha : Null a) (hb : Null b) : Null (a + b) := by
  rcases ha with ha | ha
  · exact .inl (nan_add_left ha)
  rcases hb with hb | hb
  · exact .inl (nan_add_right hb)
  obtain ⟨s,hs⟩ := zero_iff.mp ha
  obtain ⟨s',hs'⟩ := zero_iff.mp hb
  refine .inr (zero_iff.mpr ?_)
  cases s <;> cases s' <;> exact ⟨_,(unpack_add hs hs' rfl).trans (unpack_zero _)⟩

theorem Null.mul_right (ha : Null a) (b : Float) : Null (a*b) := by
  rcases ha with ha | ha
  · exact .inl (nan_mul_left ha)
  rcases float_cases b with hb | ⟨y,hb⟩ | ⟨s,hb⟩
  · exact .inl (nan_mul_right hb)
  · obtain ⟨s,hs⟩ := zero_iff.mp ha
    refine .inr (zero_iff.mpr ?_)
    rcases hb.cases with ⟨s',hu,-⟩ | ⟨s',m,e,hm,hu,-⟩
    · exact ⟨_,(unpack_mul hs hu rfl).trans (unpack_zero _)⟩
    · exact ⟨_,(unpack_mul hs hu rfl).trans (unpack_zero _)⟩
  · exact .inl (nan_zero_mul_infinity ha (isInf_iff.mpr ⟨s,hb⟩))

theorem Null.mul_left (hb : Null b) (a : Float) : Null (a*b) := by
  rcases hb with hb | hb
  · exact .inl (nan_mul_right hb)
  rcases float_cases a with ha | ⟨x,ha⟩ | ⟨s,ha⟩
  · exact .inl (nan_mul_left ha)
  · obtain ⟨s,hs⟩ := zero_iff.mp hb
    refine .inr (zero_iff.mpr ?_)
    rcases ha.cases with ⟨s',hu,-⟩ | ⟨s',m,e,hm,hu,-⟩
    · exact ⟨_,(unpack_mul hu hs rfl).trans (unpack_zero _)⟩
    · exact ⟨_,(unpack_mul hu hs rfl).trans (unpack_zero _)⟩
  · exact .inl (nan_infinity_mul_zero (isInf_iff.mpr ⟨s,ha⟩) hb)

/-- A quotient by what is not finite. -/
theorem null_div (hb : b.isFinite = false) (a : Float) : Null (a/b) := by
  rcases float_cases b with hb' | ⟨y,hy⟩ | ⟨s,hs⟩
  · refine .inl (isNaN_iff.mpr ((unpack_div rfl (isNaN_iff.mp hb') ?_).trans unpack_notANumber))
    cases a.toModel.unpack <;> rfl
  · rw [isFinite_iff.mpr ⟨y,hy⟩] at hb
    cases hb
  · cases ha : a.toModel.unpack with
    | notANumber => exact .inl (isNaN_iff.mpr ((unpack_div ha hs rfl).trans unpack_notANumber))
    | infinity s' => exact .inl (isNaN_iff.mpr ((unpack_div ha hs rfl).trans unpack_notANumber))
    | zero s' => exact .inr (zero_iff.mpr ⟨_,(unpack_div ha hs rfl).trans (unpack_zero _)⟩)
    | finite s' m e hm =>
      exact .inr (zero_iff.mpr ⟨_,(unpack_div ha hs rfl).trans (unpack_zero _)⟩)

theorem Null.nan_mul (hb : Null b) (ha : a.isFinite = false) : (a*b).isNaN = true := by
  rcases hb with hb | hb
  · exact nan_mul_right hb
  rcases float_cases a with ha' | ⟨x,hx⟩ | ⟨s,hs⟩
  · exact nan_mul_left ha'
  · rw [isFinite_iff.mpr ⟨x,hx⟩] at ha
    cases ha
  · exact nan_infinity_mul_zero (isInf_iff.mpr ⟨s,hs⟩) hb

/-! ### Bounds from below, infinity included -/

/-- The float is positive infinity or no less than this number. -/
def AtLeast (v : ℚ) (a : Float) : Prop :=
  a.toModel.unpack = .infinity .positive ∨ ∃ w, Holds a w ∧ v ≤ w

theorem Rounds.atLeast {K : Type} [Field K] [LinearOrder K] [IsStrictOrderedRing K] {v : K}
    {k : Int} (h : Rounds v a) (hk : -1074 ≤ k) (hv : 2^k ≤ v) : AtLeast (2^k) a := by
  have hnonneg : 0 ≤ v := le_trans (by positivity) hv
  rcases number_cases h.number with ⟨w,hw⟩ | ⟨s,hs⟩
  · have hlower := h.lower k hk (hv.trans (le_abs_self v)) w hw
    rw [abs_of_nonneg (h.nonneg hnonneg w hw)] at hlower
    exact .inr ⟨w,hw,hlower⟩
  · exact .inl (h.positive hnonneg s hs ▸ hs)

theorem Rounds.atLeast_zero {K : Type} [Field K] [LinearOrder K] {v : K} (h : Rounds v a)
    (hv : 0 ≤ v) : AtLeast 0 a := by
  rcases number_cases h.number with ⟨w,hw⟩ | ⟨s,hs⟩
  · exact .inr ⟨w,hw,h.nonneg hv w hw⟩
  · exact .inl (h.positive hv s hs ▸ hs)

theorem AtLeast.trans {u v : ℚ} (h : AtLeast v a) (huv : u ≤ v) : AtLeast u a :=
  h.imp_right (fun ⟨w,hw,hle⟩ => ⟨w,hw,huv.trans hle⟩)

/-- The float is infinite or its magnitude is no less than this number. -/
def Beyond (v : ℚ) (a : Float) : Prop := a.isInf = true ∨ ∃ w, Holds a w ∧ v ≤ |w|

variable {k : Int}

theorem Rounds.beyond {v : ℚ} (h : Rounds v a) (hk : -1074 ≤ k) (hv : 2^k ≤ |v|) :
    Beyond (2^k) a := by
  rcases number_cases h.number with ⟨w,hw⟩ | hs
  · exact .inr ⟨w,hw,h.lower k hk hv w hw⟩
  · exact .inl (isInf_iff.mpr hs)

theorem Beyond.square (h : Beyond (2^k) a) (hk : -537 ≤ k) : AtLeast (2^(2*k)) (a*a) := by
  rcases h with h | ⟨w,hw,hle⟩
  · obtain ⟨s,hs⟩ := isInf_iff.mp h
    exact .inl (infinity_mul_self hs)
  · refine (rounds_mul hw hw).atLeast (by omega) ?_
    calc (2 : ℚ)^(2*k) = 2^k*2^k := by rw [two_mul, two_zpow_add]
      _ ≤ |w| * |w| := mul_le_mul hle hle (by positivity) (abs_nonneg w)
      _ = w*w := abs_mul_abs_self w

theorem square_atLeast (h : a.isNaN = false) : AtLeast 0 (a*a) := by
  rcases number_cases h with ⟨w,hw⟩ | ⟨s,hs⟩
  · exact (rounds_mul hw hw).atLeast_zero (mul_self_nonneg w)
  · exact .inl (infinity_mul_self hs)

theorem AtLeast.add (ha : AtLeast (2^k) a) (hb : AtLeast 0 b) (hk : -1074 ≤ k) :
    AtLeast (2^k) (a + b) := by
  rcases ha with ha | ⟨x,hx,hle⟩ <;> rcases hb with hb | ⟨y,hy,hy0⟩
  · exact .inl (infinity_add_self ha hb)
  · exact .inl (infinity_add ha hy)
  · exact .inl (add_infinity hx hb)
  · exact (rounds_add hx hy).atLeast hk (by linarith)

theorem AtLeast.add_left (ha : AtLeast 0 a) (hb : AtLeast (2^k) b) (hk : -1074 ≤ k) :
    AtLeast (2^k) (a + b) := by
  rcases ha with ha | ⟨x,hx,hx0⟩ <;> rcases hb with hb | ⟨y,hy,hle⟩
  · exact .inl (infinity_add_self ha hb)
  · exact .inl (infinity_add ha hy)
  · exact .inl (add_infinity hx hb)
  · exact (rounds_add hx hy).atLeast hk (by linarith)

theorem AtLeast.add_nonneg (ha : AtLeast 0 a) (hb : AtLeast 0 b) : AtLeast 0 (a + b) := by
  rcases ha with ha | ⟨x,hx,hx0⟩ <;> rcases hb with hb | ⟨y,hy,hy0⟩
  · exact .inl (infinity_add_self ha hb)
  · exact .inl (infinity_add ha hy)
  · exact .inl (add_infinity hx hb)
  · exact (rounds_add hx hy).atLeast_zero (by linarith)

theorem sqrt_infinity (h : a.toModel.unpack = .infinity .positive) :
    a.sqrt.toModel.unpack = .infinity .positive := by
  change (Float.Model.pack (UnpackedFloat.sqrt Format.binary64 a.toModel.unpack)).unpack = _
  rw [h]
  exact unpack_infinity .positive

theorem AtLeast.sqrt (h : AtLeast (2^(2*k)) a) (hk : -1074 ≤ k) : AtLeast (2^k) a.sqrt := by
  rcases h with h | ⟨x,hx,hle⟩
  · exact .inl (sqrt_infinity h)
  · have hx0 : 0 ≤ x := le_trans (by positivity) hle
    refine (rounds_sqrt hx hx0).atLeast hk ?_
    rw [Real.le_sqrt (by positivity) (by exact_mod_cast hx0), ← zpow_natCast, ← zpow_mul,
      mul_comm, ← cast_two_zpow]
    exact_mod_cast hle

theorem Holds.le_max (h : Holds a x) : |x| ≤ 2^(1024 : Int) := by
  rcases h.cases with ⟨s,-,rfl⟩ | ⟨s,m,e,hm,hu,rfl⟩
  · rw [abs_zero]
    positivity
  · obtain ⟨hm',-,he,-⟩ := unpack_fits a.toModel hu
    rw [abs_scaled]
    exact mul_le_zpow hm'.le (by omega)

/-- The square root of a finite number. -/
theorem AtLeast.sqrt_le (ha : AtLeast 0 a) (h : Holds a.sqrt y) : |y| ≤ 2^(512 : Int) := by
  rcases ha with ha | ⟨x,hx,hx0⟩
  · exact absurd (sqrt_infinity ha) (h.not_infinity _)
  · obtain ⟨w,hw,hle⟩ := (rounds_sqrt hx hx0).upper 512 (by norm_num) (by norm_num) (by
      have hmax := (le_abs_self x).trans hx.le_max
      rw [abs_of_nonneg (Real.sqrt_nonneg _), Real.sqrt_le_left (by positivity), ← zpow_natCast,
        ← zpow_mul, ← cast_two_zpow]
      exact Rat.cast_le.mpr (hmax.trans (two_zpow_le (by decide))))
    rwa [hw.unique h] at hle

theorem AtLeast.not_le {v : ℚ} (ha : AtLeast v a) (hb : Holds b y) (h : y < v) : ¬a ≤ b := by
  rcases ha with ha | ⟨w,hw,hle⟩
  · change ¬decide (a.toModel ≤ b.toModel) = true
    rw [decide_eq_true_iff]
    change ¬(a.toModel.unpack.compare b.toModel.unpack).any Ordering.isLE = true
    rw [ha]
    rcases hb.cases with ⟨s,hu,-⟩ | ⟨s,m,e,hm,hu,-⟩
    · simp [hu, UnpackedFloat.compare]
    · simp [hu, UnpackedFloat.compare]
  · rw [le_iff hw hb]
    exact not_le_of_gt (h.trans_le hle)

theorem not_lt_nan (hb : b.isNaN = true) : ¬a < b := by
  change ¬decide (a.toModel < b.toModel) = true
  rw [decide_eq_true_iff]
  change ¬(a.toModel.unpack.compare b.toModel.unpack == some .lt) = true
  rw [isNaN_iff.mp hb]
  cases a.toModel.unpack <;> exact nofun

theorem not_infinity_lt (ha : a.toModel.unpack = .infinity .positive) (b : Float) : ¬a < b := by
  change ¬decide (a.toModel < b.toModel) = true
  rw [decide_eq_true_iff]
  change ¬(a.toModel.unpack.compare b.toModel.unpack == some .lt) = true
  rw [ha]
  cases b.toModel.unpack with
  | infinity s => cases s <;> decide
  | notANumber => exact nofun
  | zero s => exact nofun
  | finite s m e hm => exact nofun

theorem AtLeast.not_nan {v : ℚ} (h : AtLeast v a) : a.isNaN = false :=
  h.elim not_nan_of_infinity (fun ⟨_,hw,_⟩ => hw.not_nan)

end Library.Binary64
