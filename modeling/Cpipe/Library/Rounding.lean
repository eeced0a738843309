import Mathlib.Algebra.Order.Field.Rat
import Mathlib.Data.Int.Log
import Mathlib.Data.Rat.Floor
import Mathlib.Tactic.Linarith
import Mathlib.Tactic.FieldSimp
import Mathlib.Tactic.Ring

namespace Library.Rounding

/-- The nearest integer, of two the even one. -/
def roundEven (r : Rat) : Int :=
  if r - ⌊r⌋ < 1/2 then ⌊r⌋
  else if 1/2 < r - ⌊r⌋ then ⌊r⌋ + 1
  else ⌊r⌋ + ⌊r⌋ % 2

/-- The nearest integer, of two the one away from zero. -/
def roundAway (r : Rat) : Int :=
  if 0 ≤ r then ⌊r + 1/2⌋ else -⌊-r + 1/2⌋

/-- A binary format: bits of the significand, and the exponent of the smallest distance. -/
structure Format where
  precision : Nat
  least : Int
deriving DecidableEq, Repr

namespace Format

def single : Format := ⟨24,-149⟩

def double : Format := ⟨53,-1074⟩

/-- The distance of the format's values around `r`, as an exponent of two. -/
def spacing (f : Format) (r : Rat) : Int :=
  max (Int.log 2 |r| - (f.precision - 1)) f.least

/-- The nearest value of the format, below its overflow. -/
def nearest (f : Format) (r : Rat) : Rat :=
  roundEven (r / 2^f.spacing r) * 2^f.spacing r

end Format

/-! ### Integers -/

theorem roundEven_between (r : Rat) : ⌊r⌋ ≤ roundEven r ∧ roundEven r ≤ ⌊r⌋ + 1 := by
  unfold roundEven
  split
  · omega
  · split
    · omega
    · omega

theorem le_roundEven {r : Rat} {n : Int} (h : n ≤ r) : n ≤ roundEven r :=
  (Int.le_floor.mpr h).trans (roundEven_between r).1

theorem roundEven_le {r : Rat} {n : Int} (h : r ≤ n) : roundEven r ≤ n := by
  rcases (lt_or_eq_of_le h) with hlt | rfl
  · have hfloor : ⌊r⌋ < n := Int.floor_lt.mpr hlt
    have := (roundEven_between r).2
    omega
  · simp [roundEven]

theorem roundEven_int (n : Int) : roundEven n = n :=
  le_antisymm (roundEven_le le_rfl) (le_roundEven le_rfl)

/-- Halfway below an even integer the rounding goes up. -/
theorem even_le_roundEven {r : Rat} {n : Int} (hn : Even n) :
    n ≤ roundEven r ↔ (n : Rat) - 1/2 ≤ r := by
  have hlow := Int.floor_le r
  have hhigh := Int.lt_floor_add_one r
  constructor
  · intro h
    by_contra hr
    have hfloor : ⌊r⌋ + 1 ≤ n := by
      have : (⌊r⌋ : Rat) < n := by linarith
      exact_mod_cast this
    have hn : (⌊r⌋ : Rat) + 1 ≤ n := by exact_mod_cast hfloor
    have hsmall : r - ⌊r⌋ < 1/2 ∨ ⌊r⌋ + 2 ≤ n := by
      by_cases heq : ⌊r⌋ + 1 = n
      · left
        have : (⌊r⌋ : Rat) + 1 = n := by exact_mod_cast heq
        linarith
      · right
        omega
    rcases hsmall with hsmall | hfar
    · rw [roundEven, if_pos hsmall] at h
      omega
    · have := (roundEven_between r).2
      omega
  · intro h
    by_cases hfloor : n ≤ ⌊r⌋
    · exact hfloor.trans (roundEven_between r).1
    · have hnext : n = ⌊r⌋ + 1 := by
        have : (n : Rat) < ⌊r⌋ + 2 := by linarith
        have : n < ⌊r⌋ + 2 := by exact_mod_cast this
        omega
      have hcast : (n : Rat) = ⌊r⌋ + 1 := by exact_mod_cast hnext
      have hodd : ⌊r⌋ % 2 = 1 := by
        obtain ⟨m,hm⟩ := hn
        omega
      rw [roundEven, if_neg (by linarith), hodd]
      split
      · omega
      · omega

theorem le_roundAway {r : Rat} {n : Int} (hn : 0 < n) :
    n ≤ roundAway r ↔ (n : Rat) - 1/2 ≤ r := by
  unfold roundAway
  split
  · rw [Int.le_floor]
    constructor
    · intro h
      linarith
    · intro h
      linarith
  · rename_i hr
    have hn : (1 : Rat) ≤ n := by exact_mod_cast hn
    have hfloor : 0 ≤ ⌊-r + 1/2⌋ := Int.floor_nonneg.mpr (by linarith)
    constructor
    · intro h
      omega
    · intro h
      linarith

/-! ### Binary formats -/

namespace Format

variable {f : Format} {r b : Rat} {e : Int}

theorem le_nearest {n : Int} (h : n * 2^f.spacing r ≤ r) : n * 2^f.spacing r ≤ f.nearest r := by
  have hpos : (0 : Rat) < 2^f.spacing r := zpow_pos (by norm_num) _
  have hn : n ≤ roundEven (r / 2^f.spacing r) := le_roundEven ((le_div_iff₀ hpos).mpr h)
  exact mul_le_mul_of_nonneg_right (by exact_mod_cast hn) hpos.le

theorem nearest_le {n : Int} (h : r ≤ n * 2^f.spacing r) : f.nearest r ≤ n * 2^f.spacing r := by
  have hpos : (0 : Rat) < 2^f.spacing r := zpow_pos (by norm_num) _
  have hn : roundEven (r / 2^f.spacing r) ≤ n := roundEven_le ((div_le_iff₀ hpos).mpr h)
  exact mul_le_mul_of_nonneg_right (by exact_mod_cast hn) hpos.le

/-- A power of two is a multiple of every smaller one. -/
theorem power_multiple {s : Int} (h : s ≤ e) : ∃ n : Int, (2 : Rat)^e = n * 2^s := by
  refine ⟨2^(e - s).toNat,?_⟩
  push_cast
  rw [← zpow_natCast, ← zpow_add₀ (by norm_num : (2 : Rat) ≠ 0)]
  congr 1
  omega

theorem le_log (hr : 0 < r) (h : 2^e ≤ r) : e ≤ Int.log 2 r :=
  (Int.zpow_le_iff_le_log (by norm_num) hr).mp (by exact_mod_cast h)

theorem log_lt (hr : 0 < r) (h : r < 2^e) : Int.log 2 r < e :=
  (Int.lt_zpow_iff_log_lt (by norm_num) hr).mp (by exact_mod_cast h)

theorem power_log_le (hr : 0 < r) : (2 : Rat)^Int.log 2 r ≤ r := by
  exact_mod_cast Int.zpow_log_le_self (b := 2) (by norm_num) hr

theorem spacing_of_binade (hf : f.least ≤ e - (f.precision - 1)) (hlow : 2^e ≤ r)
    (hhigh : r < 2^(e+1)) : f.spacing r = e - (f.precision - 1) := by
  have hr : 0 < r := (zpow_pos (by norm_num) e).trans_le hlow
  have hlog : Int.log 2 r = e := by
    have hle := le_log hr hlow
    have hlt := log_lt hr hhigh
    omega
  rw [spacing, abs_of_pos hr, hlog, max_eq_left hf]

/-- Below a binade nothing rounds past its first value. -/
theorem nearest_le_power (hf : f.least ≤ e - (f.precision - 1)) (hp : 1 ≤ f.precision)
    (hr : 0 ≤ r) (h : r < 2^e) : f.nearest r ≤ 2^e := by
  rcases hr.eq_or_lt with rfl | hr
  · have hzero : f.nearest 0 = 0 := by simp [nearest, roundEven]
    rw [hzero]
    exact zpow_nonneg (by norm_num) e
  · have hlog := log_lt hr h
    have hspacing : f.spacing r ≤ e := by
      rw [spacing, abs_of_pos hr]
      omega
    obtain ⟨n,hn⟩ := power_multiple hspacing
    rw [hn]
    exact nearest_le (hn ▸ h.le)

/-- Above a binade nothing rounds below the next one. -/
theorem power_le_nearest (hf : f.least ≤ e - (f.precision - 1)) (hp : 1 ≤ f.precision)
    (h : 2^e ≤ r) : 2^e ≤ f.nearest r := by
  have hr : 0 < r := (zpow_pos (by norm_num) e).trans_le h
  have hlog := le_log hr h
  have hspacing : f.spacing r ≤ Int.log 2 r := by
    rw [spacing, abs_of_pos hr]
    omega
  obtain ⟨n,hn⟩ := power_multiple hspacing
  calc (2 : Rat)^e ≤ 2^Int.log 2 r := zpow_le_zpow_right₀ (by norm_num) hlog
    _ = n * 2^f.spacing r := hn
    _ ≤ f.nearest r := le_nearest (hn ▸ power_log_le hr)

/-- Where rounding reaches a value of the format: half a step below it, the value being an even
multiple of the step of the binade under it. -/
theorem le_nearest_iff {n : Int} (hf : f.least ≤ e - (f.precision - 1)) (hp : 1 ≤ f.precision)
    (hr : 0 ≤ r) (hlow : 2^e < b) (hhigh : b ≤ 2^(e+1)) (hn : Even n)
    (hb : b = n * 2^(e - (f.precision - 1))) :
    b ≤ f.nearest r ↔ b - 2^(e - (f.precision - 1)) / 2 ≤ r := by
  have hpos : (0 : Rat) < 2^(e - (f.precision - 1)) := zpow_pos (by norm_num) _
  rcases lt_or_ge r (2^e) with hbelow | hbelow
  · have hround := nearest_le_power hf hp hr hbelow
    obtain ⟨m,hm⟩ := @power_multiple e (e - (f.precision - 1)) (by omega)
    have hstep : (m : Rat) + 1 ≤ n := by
      have : (m : Rat) < n := by
        rw [hm, hb] at hlow
        exact lt_of_mul_lt_mul_right hlow hpos.le
      exact_mod_cast this
    have hgap : (2 : Rat)^e + 2^(e - (f.precision - 1)) ≤ b := by
      rw [hm, hb]
      nlinarith
    constructor
    · intro h
      linarith
    · intro h
      linarith
  · rcases lt_or_ge r (2^(e+1)) with habove | habove
    · rw [nearest, spacing_of_binade hf hbelow habove, hb, mul_le_mul_iff_left₀ hpos,
        Int.cast_le, even_le_roundEven hn, le_div_iff₀ hpos, sub_mul]
      rw [one_div_mul_eq_div]
    · have hround : (2 : Rat)^(e+1) ≤ f.nearest r := power_le_nearest (by omega) hp habove
      constructor
      · intro _
        linarith
      · intro _
        linarith

/-! ### Values of the format -/

theorem le_spacing (f : Format) (r : Rat) :
    Int.log 2 |r| - (f.precision - 1) ≤ f.spacing r ∧ f.least ≤ f.spacing r :=
  ⟨le_max_left _ _,le_max_right _ _⟩

theorem significand_le (f : Format) (r : Rat) :
    |roundEven (r / 2^f.spacing r)| ≤ 2^f.precision := by
  have hpos : (0 : Rat) < 2^f.spacing r := zpow_pos (by norm_num) _
  have hsmall : |r / 2^f.spacing r| ≤ 2^f.precision := by
    rw [abs_div, abs_of_pos hpos, div_le_iff₀ hpos, ← zpow_natCast, ← zpow_add₀ (by norm_num)]
    have hlog : |r| < (2 : Rat)^(Int.log 2 |r| + 1) := by
      exact_mod_cast Int.lt_zpow_succ_log_self (b := 2) (by norm_num) |r|
    have hspacing := (le_spacing f r).1
    exact hlog.le.trans (zpow_le_zpow_right₀ (by norm_num) (by omega))
  have hbounds := abs_le.mp hsmall
  rw [abs_le]
  constructor
  · exact le_roundEven (by push_cast; exact hbounds.1)
  · exact roundEven_le (by push_cast; exact hbounds.2)

theorem nearest_of_multiple {n : Int} (h : r = n * 2^f.spacing r) : f.nearest r = r := by
  have hpos : (2 : Rat)^f.spacing r ≠ 0 := (zpow_pos (by norm_num) _).ne'
  have hdiv : r / 2^f.spacing r = n := by
    rw [div_eq_iff hpos]
    exact h
  rw [nearest, hdiv, roundEven_int]
  exact h.symm

theorem power_le_abs_nearest (hf : f.least ≤ e - (f.precision - 1)) (hp : 1 ≤ f.precision)
    (h : 2^e ≤ |r|) : 2^e ≤ |f.nearest r| := by
  rcases le_or_gt 0 r with hr | hr
  · rw [abs_of_nonneg hr] at h
    exact (power_le_nearest hf hp h).trans (le_abs_self _)
  · have hpos : 0 < |r| := abs_pos.mpr hr.ne
    have hlog := le_log hpos h
    have hspacing : f.spacing r ≤ Int.log 2 |r| := max_le (by omega) (by omega)
    obtain ⟨n,hn⟩ := power_multiple hspacing
    have hbelow : r ≤ ((-n : Int) : Rat) * 2^f.spacing r := by
      have := power_log_le hpos
      rw [hn, abs_of_neg hr] at this
      push_cast
      linarith
    have hround := nearest_le hbelow
    have hle : (2 : Rat)^e ≤ 2^Int.log 2 |r| := zpow_le_zpow_right₀ (by norm_num) hlog
    push_cast at hround
    linarith [neg_abs_le (f.nearest r)]

/-- Integers are rounded to integers. -/
theorem nearest_int (f : Format) (n : Int) : ∃ m : Int, f.nearest n = m := by
  rcases le_or_gt 0 (f.spacing n) with hs | hs
  · refine ⟨roundEven (n / 2^f.spacing n) * 2^(f.spacing n).toNat,?_⟩
    push_cast
    rw [nearest, ← zpow_natCast, Int.toNat_of_nonneg hs]
  · refine ⟨n,nearest_of_multiple (n := n * 2^(-f.spacing n).toNat) ?_⟩
    push_cast
    rw [mul_assoc, ← zpow_natCast, Int.toNat_of_nonneg (by omega), ← zpow_add₀ (by norm_num),
      neg_add_cancel, zpow_zero, mul_one]

/-- What has been rounded is a value of the format. -/
theorem nearest_nearest (hp : 1 ≤ f.precision) (r : Rat) :
    f.nearest (f.nearest r) = f.nearest r := by
  obtain ⟨s,hs⟩ : ∃ s, f.spacing r = s := ⟨_,rfl⟩
  obtain ⟨m,hm⟩ : ∃ m, roundEven (r / 2^s) = m := ⟨_,rfl⟩
  have hle : |m| ≤ 2^f.precision := hm ▸ hs ▸ significand_le f r
  have hleast : f.least ≤ s := hs ▸ (le_spacing f r).2
  have hvalue : f.nearest r = m * 2^s := by rw [nearest, hs, hm]
  rw [hvalue]
  have hspos : (0 : Rat) < 2^s := zpow_pos (by norm_num) s
  have habs : |(m : Rat) * 2^s| = |m| * 2^s := by
    rw [abs_mul, abs_of_pos hspos, Int.cast_abs]
  rcases eq_or_ne m 0 with rfl | hm0
  · exact nearest_of_multiple (n := 0) (by simp)
  have hpos : 0 < |(m : Rat) * 2^s| := abs_pos.mpr (mul_ne_zero (by exact_mod_cast hm0) hspos.ne')
  -- A step that divides the one of `r`, or the next where the significand has been carried.
  rcases hle.lt_or_eq with hlt | heq
  · have hlog : Int.log 2 |(m : Rat) * 2^s| < f.precision + s := by
      refine log_lt hpos ?_
      rw [habs, zpow_add₀ (by norm_num), zpow_natCast]
      exact mul_lt_mul_of_pos_right (by exact_mod_cast hlt) hspos
    have hspacing : f.spacing ((m : Rat) * 2^s) ≤ s := max_le (by omega) hleast
    obtain ⟨n,hn⟩ := power_multiple hspacing
    refine nearest_of_multiple (n := m * n) ?_
    rw [Int.cast_mul, mul_assoc, ← hn]
  · have hpower : |(m : Rat) * 2^s| = 2^(f.precision + s) := by
      rw [habs, heq, zpow_add₀ (by norm_num), zpow_natCast]
      push_cast
      rfl
    have hspacing : f.spacing ((m : Rat) * 2^s) ≤ f.precision + s := by
      have hlog : Int.log 2 |(m : Rat) * 2^s| = f.precision + s := by
        rw [hpower]
        exact Int.log_zpow (R := Rat) (b := 2) (by norm_num) (f.precision + s)
      refine max_le ?_ (by omega)
      rw [hlog]
      omega
    obtain ⟨n,hn⟩ := power_multiple hspacing
    rcases abs_choice ((m : Rat) * 2^s) with hsign | hsign
    · refine nearest_of_multiple (n := n) ?_
      rw [← hn, ← hpower, hsign]
    · refine nearest_of_multiple (n := -n) ?_
      rw [Int.cast_neg, neg_mul, ← hn, ← hpower, hsign, neg_neg]

end Format

end Library.Rounding
