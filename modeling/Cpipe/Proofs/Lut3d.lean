import Cpipe.Nodes.Lut3d
import Mathlib.Tactic.Linarith
import Mathlib.Tactic.Ring

namespace Cpipe.Nodes.Lut3d
open Color (Cube3dLut Rgb rgbAt)
open Color.Cube3dLutLoader (valueCountForSize)
open Library.Stencil (clamp clamp_mem clamp_of_mem)

/-! ### Cells -/

theorem clamp01_mem (v : ℚ) : 0 ≤ clamp01 v ∧ clamp01 v ≤ 1 :=
  ⟨le_max_right _ _,max_le (min_le_right _ _) zero_le_one⟩

theorem clamp01_of_mem {v : ℚ} (h : 0 ≤ v ∧ v ≤ 1) : clamp01 v = v := by
  rw [clamp01, min_eq_left h.2, max_eq_left h.1]

section Cells

variable {size : Nat} (hsize : 2 ≤ size)

include hsize

theorem scaled_mem (v : ℚ) : 0 ≤ scaled size v ∧ scaled size v ≤ (size : ℚ) - 1 := by
  have hlast : (1 : ℚ) ≤ (size : ℚ) - 1 := by
    have htwo : (2 : ℚ) ≤ size := by exact_mod_cast hsize
    linarith
  obtain ⟨hlow,hhigh⟩ := clamp01_mem v
  constructor
  · exact mul_nonneg hlow (by linarith)
  · calc clamp01 v * ((size : ℚ) - 1) ≤ 1 * ((size : ℚ) - 1) :=
          mul_le_mul_of_nonneg_right hhigh (by linarith)
      _ = (size : ℚ) - 1 := one_mul _

theorem base_mem (v : ℚ) : 0 ≤ base size v ∧ base size v ≤ size - 2 :=
  clamp_mem _ (by omega)

/-- A value lies in its cell, and the largest one on its far side. -/
theorem fraction_mem (v : ℚ) : 0 ≤ fraction size v ∧ fraction size v ≤ 1 := by
  obtain ⟨hlow,hhigh⟩ := scaled_mem hsize v
  have hfloor : 0 ≤ ⌊scaled size v⌋ := Int.floor_nonneg.mpr hlow
  have hle : base size v ≤ ⌊scaled size v⌋ := by
    unfold base clamp
    omega
  have hle' : ((base size v : Int) : ℚ) ≤ scaled size v :=
    le_trans (Int.cast_le.mpr hle) (Int.floor_le _)
  refine ⟨by unfold fraction; linarith,?_⟩
  rcases le_or_gt ⌊scaled size v⌋ (size - 2) with hinside | houtside
  · have hbase : base size v = ⌊scaled size v⌋ := clamp_of_mem hfloor hinside
    have hlt := Int.lt_floor_add_one (scaled size v)
    unfold fraction
    rw [hbase]
    linarith
  · have hbase : base size v = size - 2 := by
      unfold base clamp
      omega
    unfold fraction
    rw [hbase]
    push_cast
    linarith

/-- At a lattice point the cell begins there or, behind the last cell, ends there. -/
theorem base_lattice {i : Nat} (hi : i < size) {v : ℚ} (hv : v = i/((size : ℚ) - 1)) :
    (base size v = i ∧ fraction size v = 0) ∨ (base size v + 1 = i ∧ fraction size v = 1) := by
  have hlast : (1 : ℚ) ≤ (size : ℚ) - 1 := by
    have htwo : (2 : ℚ) ≤ size := by exact_mod_cast hsize
    linarith
  have hle : (i : ℚ) ≤ (size : ℚ) - 1 := by
    have hi' : (i : ℚ) + 1 ≤ size := by exact_mod_cast hi
    linarith
  have hscaled : scaled size v = i := by
    rw [scaled, clamp01_of_mem, hv, div_mul_cancel₀ _ (by linarith)]
    rw [hv]
    exact ⟨div_nonneg (Nat.cast_nonneg i) (by linarith),(div_le_one (by linarith)).mpr hle⟩
  have hfloor : ⌊scaled size v⌋ = i := by
    rw [hscaled]
    exact Int.floor_natCast i
  rcases Nat.lt_or_ge i (size - 1) with hinside | houtside
  · left
    have hbase : base size v = i := by
      rw [base, hfloor]
      exact clamp_of_mem (by omega) (by omega)
    refine ⟨hbase,?_⟩
    rw [fraction, hbase, hscaled]
    push_cast
    exact sub_self _
  · right
    have hbase : base size v + 1 = i := by
      unfold base clamp
      omega
    refine ⟨hbase,?_⟩
    have hcast : ((base size v : Int) : ℚ) + 1 = i := by exact_mod_cast hbase
    rw [fraction, hscaled]
    linarith

end Cells

/-! ### Entries -/

/-- A channel of the entry of a lattice point. -/
def entry (lut : Cube3dLut) (channel i j k : Nat) : ℚ :=
  lut.values.getD (3*((i*lut.size + j)*lut.size + k) + channel) 0

section Entries

variable {lut : Cube3dLut} {channel i j k : Nat}

theorem index_lt {n : Nat} (hi : i < n) (hj : j < n) (hk : k < n) :
    (i*n + j)*n + k < n*n*n := by
  have hrow : i*n + j < n*n := by
    have := Nat.mul_le_mul_right n (Nat.succ_le_of_lt hi)
    rw [Nat.succ_mul] at this
    omega
  have := Nat.mul_le_mul_right n (Nat.succ_le_of_lt hrow)
  rw [Nat.succ_mul] at this
  omega

variable (hvalues : lut.values.length = valueCountForSize lut.size) (hi : i < lut.size)
  (hj : j < lut.size) (hk : k < lut.size)

include hvalues hi hj hk

theorem entry_eq (hchannel : channel < 3) :
    lut.values[3*((i*lut.size + j)*lut.size + k) + channel]? = some (entry lut channel i j k) := by
  have hlt := index_lt hi hj hk
  rw [valueCountForSize] at hvalues
  have hmem : 3*((i*lut.size + j)*lut.size + k) + channel < lut.values.length := by omega
  rw [entry, List.getD_eq_getElem?_getD, List.getElem?_eq_getElem hmem]
  rfl

theorem sample_eq (hchannel : channel < 3) :
    sample lut channel i j k = some (entry lut channel i j k) := by
  have hlt := index_lt hi hj hk
  have hindex : index lut.size i j k = (((i*lut.size + j)*lut.size + k : Nat) : Int) := by
    unfold index
    push_cast
    rfl
  rw [← entry_eq hvalues hi hj hk hchannel, sample, hindex, if_neg, Int.toNat_natCast]
  rw [hvalues, valueCountForSize, Nat.mul_div_cancel _ (by decide)]
  omega

/-- The table as the loader reads it. -/
theorem atIndex_eq (hchannel : channel < 3) :
    (lut.atIndex i j k).bind (·.channels[channel]?) = some (entry lut channel i j k) := by
  have hplace : i*lut.size*lut.size + j*lut.size + k = (i*lut.size + j)*lut.size + k := by ring
  have h0 := entry_eq hvalues hi hj hk (by decide : 0 < 3)
  have h1 := entry_eq hvalues hi hj hk (by decide : 1 < 3)
  have h2 := entry_eq hvalues hi hj hk (by decide : 2 < 3)
  rw [Nat.mul_comm 3] at h0 h1 h2
  simp only [Cube3dLut.atIndex, rgbAt, hplace, Nat.add_zero] at h0 h1 h2 ⊢
  rw [h0, h1, h2]
  match channel, hchannel with
  | 0, _ => rfl
  | 1, _ => rfl
  | 2, _ => rfl

end Entries

/-- The corners of a cell that is in the table. -/
def cell (lut : Cube3dLut) (channel i j k : Nat) : Corners where
  c000 := entry lut channel i j k
  c100 := entry lut channel (i + 1) j k
  c010 := entry lut channel i (j + 1) k
  c001 := entry lut channel i j (k + 1)
  c110 := entry lut channel (i + 1) (j + 1) k
  c101 := entry lut channel (i + 1) j (k + 1)
  c011 := entry lut channel i (j + 1) (k + 1)
  c111 := entry lut channel (i + 1) (j + 1) (k + 1)

theorem corners_eq {lut : Cube3dLut} {channel i j k : Nat}
    (hvalues : lut.values.length = valueCountForSize lut.size) (hchannel : channel < 3)
    (hi : i + 1 < lut.size) (hj : j + 1 < lut.size) (hk : k + 1 < lut.size) :
    corners lut channel i j k = some (cell lut channel i j k) := by
  have hsample {a b c : Nat} (ha : a < lut.size) (hb : b < lut.size) (hc : c < lut.size) :=
    sample_eq hvalues ha hb hc hchannel
  have hi' : i < lut.size := by omega
  have hj' : j < lut.size := by omega
  have hk' : k < lut.size := by omega
  have h000 := hsample hi' hj' hk'
  have h100 := hsample hi hj' hk'
  have h010 := hsample hi' hj hk'
  have h001 := hsample hi' hj' hk
  have h110 := hsample hi hj hk'
  have h101 := hsample hi hj' hk
  have h011 := hsample hi' hj hk
  have h111 := hsample hi hj hk
  push_cast at h000 h100 h010 h001 h110 h101 h011 h111
  simp only [corners, h000, h100, h010, h001, h110, h101, h011, h111]
  rfl

/-! ### Weights

The weight of a corner is how far the least of the fractions that lead to it exceeds the
largest of the others. No order of the fractions is needed to say it. -/

/-- The weight of a corner one step away, by the fraction `a`. -/
def single (a b c : ℚ) : ℚ := max 0 (a - max b c)

/-- The weight of a corner two steps away, by the fractions `a` and `b`. -/
def double (a b c : ℚ) : ℚ := max 0 (min a b - c)

def weights (dr dg db : ℚ) : Corners where
  c000 := 1 - max (max dr dg) db
  c100 := single dr dg db
  c010 := single dg dr db
  c001 := single db dr dg
  c110 := double dr dg db
  c101 := double dr db dg
  c011 := double dg db dr
  c111 := min (min dr dg) db

def Corners.toList (c : Corners) : List ℚ :=
  [c.c000,c.c100,c.c010,c.c001,c.c110,c.c101,c.c011,c.c111]

/-- The sum of the corners by weights. -/
def Corners.dot (w c : Corners) : ℚ := (List.zipWith (· * ·) w.toList c.toList).sum

theorem Corners.dot_eq (w c : Corners) : w.dot c = w.c000*c.c000 + (w.c100*c.c100 +
    (w.c010*c.c010 + (w.c001*c.c001 + (w.c110*c.c110 + (w.c101*c.c101 + (w.c011*c.c011 +
      (w.c111*c.c111 + 0))))))) := rfl

section Weights

variable {a b c : ℚ}

theorem single_first (hb : b ≤ a) (hc : c ≤ b) : single a b c = a - b ∧ single a c b = a - b := by
  rw [single, single, max_eq_left hc, max_eq_right hc, max_eq_right (sub_nonneg.mpr hb)]
  exact ⟨rfl,rfl⟩

theorem single_zero (h : a ≤ b) : single a b c = 0 ∧ single a c b = 0 :=
  ⟨max_eq_left (sub_nonpos.mpr (h.trans (le_max_left b c))),
    max_eq_left (sub_nonpos.mpr (h.trans (le_max_right c b)))⟩

theorem double_last (hb : b ≤ a) (hc : c ≤ b) : double a b c = b - c ∧ double b a c = b - c := by
  rw [double, double, min_eq_right hb, min_eq_left hb, max_eq_right (sub_nonneg.mpr hc)]
  exact ⟨rfl,rfl⟩

theorem double_zero (h : a ≤ c) : double a b c = 0 ∧ double b a c = 0 :=
  ⟨max_eq_left (sub_nonpos.mpr ((min_le_left a b).trans h)),
    max_eq_left (sub_nonpos.mpr ((min_le_right b a).trans h))⟩

end Weights

section Orders

variable {dr dg db : ℚ}

theorem chosen_holds (dr dg db : ℚ) : (chosen dr dg db).holds dr dg db = true := by
  unfold chosen
  split
  · assumption
  split
  · assumption
  split
  · assumption
  split
  · assumption
  split
  · assumption
  rename_i h1 h2 h3 h4 h5
  simp only [Order.holds, Bool.and_eq_true, decide_eq_true_eq, not_and_or, not_le] at h1 h2 h3 h4 h5 ⊢
  constructor
  · by_contra hgb
    rcases le_total dr dg with hrg | hrg
    · rcases h5 with h | h
      · linarith
      · rcases h4 with h' | h' <;> linarith
    · rcases h1 with h | h <;> linarith
  · by_contra hrg
    rcases le_total dr db with hrb | hrb
    · rcases h3 with h | h <;> linarith
    · rcases h2 with h | h
      · linarith
      · rcases h1 with h' | h' <;> linarith

/-- Any branch whose condition holds sums the corners by the weights. -/
theorem value_eq_dot (c : Corners) {order : Order} (h : order.holds dr dg db = true) :
    order.value c dr dg db = (weights dr dg db).dot c := by
  cases order with
  | rgb =>
    simp only [Order.holds, Bool.and_eq_true, decide_eq_true_eq] at h
    obtain ⟨h1,h2⟩ := h
    have h3 := h2.trans h1
    simp only [weights, Corners.dot_eq, max_eq_left h1, max_eq_left h3, min_eq_right h1, min_eq_right h2,
      single_first h1 h2, single_zero h1, single_zero h3, double_last h1 h2, double_zero h1,
      double_zero h2, Order.value, addDelta]
    ring
  | rbg =>
    simp only [Order.holds, Bool.and_eq_true, decide_eq_true_eq] at h
    obtain ⟨h1,h2⟩ := h
    have h3 := h2.trans h1
    simp only [weights, Corners.dot_eq, max_eq_left h3, max_eq_left h1, min_eq_right h3, min_eq_left h2,
      single_first h1 h2, single_zero h1, single_zero h3, double_last h1 h2, double_zero h1,
      double_zero h2, Order.value, addDelta]
    ring
  | brg =>
    simp only [Order.holds, Bool.and_eq_true, decide_eq_true_eq] at h
    obtain ⟨h1,h2⟩ := h
    have h3 := h2.trans h1
    simp only [weights, Corners.dot_eq, max_eq_left h2, max_eq_right h1, min_eq_right h2, min_eq_left h3,
      single_first h1 h2, single_zero h1, single_zero h3, double_last h1 h2, double_zero h1,
      double_zero h2, Order.value, addDelta]
    ring
  | grb =>
    simp only [Order.holds, Bool.and_eq_true, decide_eq_true_eq] at h
    obtain ⟨h1,h2⟩ := h
    have h3 := h2.trans h1
    simp only [weights, Corners.dot_eq, max_eq_right h1, max_eq_left h3, min_eq_left h1, min_eq_right h2,
      single_first h1 h2, single_zero h1, single_zero h3, double_last h1 h2, double_zero h1,
      double_zero h2, Order.value, addDelta]
    ring
  | gbr =>
    simp only [Order.holds, Bool.and_eq_true, decide_eq_true_eq] at h
    obtain ⟨h1,h2⟩ := h
    have h3 := h2.trans h1
    simp only [weights, Corners.dot_eq, max_eq_right h3, max_eq_left h1, min_eq_left h3, min_eq_left h2,
      single_first h1 h2, single_zero h1, single_zero h3, double_last h1 h2, double_zero h1,
      double_zero h2, Order.value, addDelta]
    ring
  | bgr =>
    simp only [Order.holds, Bool.and_eq_true, decide_eq_true_eq] at h
    obtain ⟨h1,h2⟩ := h
    have h3 := h2.trans h1
    simp only [weights, Corners.dot_eq, max_eq_right h2, max_eq_right h1, min_eq_left h2, min_eq_left h3,
      single_first h1 h2, single_zero h1, single_zero h3, double_last h1 h2, double_zero h1,
      double_zero h2, Order.value, addDelta]
    ring

variable (dr dg db) in
theorem tetrahedral_eq_dot (c : Corners) :
    tetrahedral c dr dg db = (weights dr dg db).dot c :=
  value_eq_dot c (chosen_holds dr dg db)

theorem weights_nonneg (hr : 0 ≤ dr ∧ dr ≤ 1) (hg : 0 ≤ dg ∧ dg ≤ 1) (hb : 0 ≤ db ∧ db ≤ 1) :
    ∀ w ∈ (weights dr dg db).toList, 0 ≤ w := by
  simp only [Corners.toList, weights, List.mem_cons, List.not_mem_nil, or_false, forall_eq_or_imp,
    forall_eq]
  exact ⟨sub_nonneg.mpr (max_le (max_le hr.2 hg.2) hb.2),le_max_left _ _,le_max_left _ _,
    le_max_left _ _,le_max_left _ _,le_max_left _ _,le_max_left _ _,
    le_min (le_min hr.1 hg.1) hb.1⟩

/-- The table of ones is interpolated to one. -/
theorem weights_sum (dr dg db : ℚ) : (weights dr dg db).toList.sum = 1 := by
  have hones := tetrahedral_eq_dot dr dg db ⟨1,1,1,1,1,1,1,1⟩
  have hvalue (order : Order) : order.value ⟨1,1,1,1,1,1,1,1⟩ dr dg db = 1 := by
    cases order <;> simp [Order.value, addDelta]
  rw [tetrahedral, hvalue] at hones
  rw [hones]
  simp only [Corners.dot_eq, Corners.toList, List.sum_cons, List.sum_nil, mul_one]

/-- Where the samples follow an affine function, so do both interpolations. -/
theorem interpolation_affine {c : Corners} {o p q s : ℚ}
    (hc : c = ⟨o,o + p,o + q,o + s,o + p + q,o + p + s,o + q + s,o + p + q + s⟩) :
    tetrahedral c dr dg db = trilinear c dr dg db := by
  have htetrahedral : tetrahedral c dr dg db = o + p*dr + q*dg + s*db := by
    rw [hc, tetrahedral]
    cases chosen dr dg db <;> simp only [Order.value, addDelta] <;> ring
  rw [htetrahedral, hc, trilinear]
  ring

end Orders

/-! ### Interpolation -/

/-- A number is a mean of the corners. -/
def IsConvexCombination (c : Corners) (v : ℚ) : Prop :=
  ∃ w : Corners, (∀ a ∈ w.toList, 0 ≤ a) ∧ w.toList.sum = 1 ∧ v = w.dot c

/-- The places in the table of the corners of a cell. -/
def indices (size r0 g0 b0 : Int) : List Int :=
  [index size r0 g0 b0,index size (r0 + 1) g0 b0,index size r0 (g0 + 1) b0,
    index size r0 g0 (b0 + 1),index size (r0 + 1) (g0 + 1) b0,index size (r0 + 1) g0 (b0 + 1),
    index size r0 (g0 + 1) (b0 + 1),index size (r0 + 1) (g0 + 1) (b0 + 1)]

theorem index_mem {size : Nat} {r g b : Int} (hr : 0 ≤ r ∧ r < size) (hg : 0 ≤ g ∧ g < size)
    (hb : 0 ≤ b ∧ b < size) : 0 ≤ index size r g b ∧ index size r g b < (size : Int)^3 := by
  obtain ⟨i,rfl⟩ := Int.eq_ofNat_of_zero_le hr.1
  obtain ⟨j,rfl⟩ := Int.eq_ofNat_of_zero_le hg.1
  obtain ⟨k,rfl⟩ := Int.eq_ofNat_of_zero_le hb.1
  have hlt := index_lt (n := size) (i := i) (j := j) (k := k) (by omega) (by omega) (by omega)
  unfold index
  constructor
  · positivity
  · have hcube : (size : Int)^3 = ((size*size*size : Nat) : Int) := by
      push_cast
      ring
    rw [hcube]
    exact_mod_cast hlt

/-- At a lattice point one corner of its cell is the entry. -/
theorem tetrahedral_lattice {lut : Cube3dLut} {channel i j k i0 j0 k0 : Nat} {dr dg db : ℚ}
    (hr : (i0 = i ∧ dr = 0) ∨ (i0 + 1 = i ∧ dr = 1)) (hg : (j0 = j ∧ dg = 0) ∨ (j0 + 1 = j ∧ dg = 1))
    (hb : (k0 = k ∧ db = 0) ∨ (k0 + 1 = k ∧ db = 1)) :
    tetrahedral (cell lut channel i0 j0 k0) dr dg db = entry lut channel i j k := by
  rw [tetrahedral_eq_dot, Corners.dot_eq]
  rcases hr with ⟨rfl,rfl⟩ | ⟨rfl,rfl⟩ <;> rcases hg with ⟨rfl,rfl⟩ | ⟨rfl,rfl⟩ <;>
    rcases hb with ⟨rfl,rfl⟩ | ⟨rfl,rfl⟩ <;> simp [weights, single, double, cell]

theorem cell_affine {lut : Cube3dLut} {channel i j k : Nat} {o p q s : ℚ}
    (hi : i + 1 < lut.size) (hj : j + 1 < lut.size) (hk : k + 1 < lut.size)
    (haffine : ∀ i < lut.size, ∀ j < lut.size, ∀ k < lut.size,
      entry lut channel i j k = o + p*i + q*j + s*k) (dr dg db : ℚ) :
    tetrahedral (cell lut channel i j k) dr dg db = trilinear (cell lut channel i j k) dr dg db := by
  have hi' : i < lut.size := by omega
  have hj' : j < lut.size := by omega
  have hk' : k < lut.size := by omega
  refine interpolation_affine (o := o + p*i + q*j + s*k) (p := p) (q := q) (s := s) ?_
  simp only [cell, haffine i hi' j hj' k hk', haffine _ hi j hj' k hk', haffine i hi' _ hj k hk',
    haffine i hi' j hj' _ hk, haffine _ hi _ hj k hk', haffine _ hi j hj' _ hk,
    haffine i hi' _ hj _ hk, haffine _ hi _ hj _ hk, Nat.cast_add, Nat.cast_one, Corners.mk.injEq,
    true_and]
  refine ⟨?_,?_,?_,?_,?_,?_,?_⟩ <;> ring

/-- For every table of a size from two on and every colour: all samples are in the table, the
tetrahedral value is a mean of the corners which does not depend on the branch taken, it is
the entry at a lattice point, and it is the trilinear one for affine tables. -/
theorem tetrahedral_interpolation {lut : Cube3dLut} (hsize : 2 ≤ lut.size)
    (hvalues : lut.values.length = valueCountForSize lut.size) {channel : Nat}
    (hchannel : channel < 3) (r g b : ℚ) :
    (∀ n ∈ indices lut.size (base lut.size r) (base lut.size g) (base lut.size b),
      0 ≤ n ∧ n < (lut.size : Int)^3) ∧
    ∃ c, corners lut channel (base lut.size r) (base lut.size g) (base lut.size b) = some c ∧
      ∃ tetra tri, tetra = tetrahedral c (fraction lut.size r) (fraction lut.size g)
          (fraction lut.size b) ∧
        tri = trilinear c (fraction lut.size r) (fraction lut.size g) (fraction lut.size b) ∧
        (∀ interpolation, value lut interpolation channel r g b =
          some (if interpolation = 1 then tri else tetra)) ∧
        IsConvexCombination c tetra ∧
        (∀ order : Order, order.holds (fraction lut.size r) (fraction lut.size g)
            (fraction lut.size b) = true →
          order.value c (fraction lut.size r) (fraction lut.size g) (fraction lut.size b) =
            tetra) ∧
        (∀ i < lut.size, ∀ j < lut.size, ∀ k < lut.size, r = i/((lut.size : ℚ) - 1) →
          g = j/((lut.size : ℚ) - 1) → b = k/((lut.size : ℚ) - 1) →
          (lut.atIndex i j k).bind (·.channels[channel]?) = some tetra) ∧
        ∀ o p q s : ℚ, (∀ i < lut.size, ∀ j < lut.size, ∀ k < lut.size,
          (lut.atIndex i j k).bind (·.channels[channel]?) = some (o + p*i + q*j + s*k)) →
          tetra = tri := by
  have hr := base_mem hsize r
  have hg := base_mem hsize g
  have hb := base_mem hsize b
  obtain ⟨r0,hr0⟩ := Int.eq_ofNat_of_zero_le hr.1
  obtain ⟨g0,hg0⟩ := Int.eq_ofNat_of_zero_le hg.1
  obtain ⟨b0,hb0⟩ := Int.eq_ofNat_of_zero_le hb.1
  have hr1 : r0 + 1 < lut.size := by omega
  have hg1 : g0 + 1 < lut.size := by omega
  have hb1 : b0 + 1 < lut.size := by omega
  have hcorners := corners_eq hvalues hchannel hr1 hg1 hb1
  have hatIndex {i j k : Nat} (hi : i < lut.size) (hj : j < lut.size) (hk : k < lut.size) :=
    atIndex_eq hvalues hi hj hk hchannel
  rw [← hr0, ← hg0, ← hb0] at hcorners
  refine ⟨?_,_,hcorners,_,_,rfl,rfl,?_,?_,?_,?_,?_⟩
  · simp only [indices, List.mem_cons, List.not_mem_nil, or_false, forall_eq_or_imp, forall_eq]
    refine ⟨?_,?_,?_,?_,?_,?_,?_,?_⟩ <;> exact index_mem (by omega) (by omega) (by omega)
  · intro interpolation
    simp only [value, hcorners]
    rfl
  · exact ⟨_,weights_nonneg (fraction_mem hsize r) (fraction_mem hsize g) (fraction_mem hsize b),
      weights_sum _ _ _,tetrahedral_eq_dot _ _ _ _⟩
  · intro order horder
    rw [value_eq_dot _ horder, tetrahedral_eq_dot]
  · intro i hi j hj k hk hri hgj hbk
    rw [hatIndex hi hj hk]
    have hri := base_lattice hsize hi hri
    have hgj := base_lattice hsize hj hgj
    have hbk := base_lattice hsize hk hbk
    rw [hr0] at hri
    rw [hg0] at hgj
    rw [hb0] at hbk
    exact congrArg some (tetrahedral_lattice (by exact_mod_cast hri) (by exact_mod_cast hgj)
      (by exact_mod_cast hbk)).symm
  · intro o p q s haffine
    have hentry : ∀ i < lut.size, ∀ j < lut.size, ∀ k < lut.size,
        entry lut channel i j k = o + p*i + q*j + s*k := fun i hi j hj k hk =>
      Option.some.inj ((hatIndex hi hj hk).symm.trans (haffine i hi j hj k hk))
    exact cell_affine hr1 hg1 hb1 hentry _ _ _

/-- The table of two entries in each direction whose red is the red of the lattice point. -/
def ramp : Cube3dLut :=
  { size := 2, values := [0,0,0, 0,0,0, 0,0,0, 0,0,0, 1,0,0, 1,0,0, 1,0,0, 1,0,0] }

/-- At the corner of the cube the red channel is that of the last entry. -/
theorem ramp_last :
    ∃ tetra, value ramp 0 0 1 1 1 = some tetra ∧
      (ramp.atIndex 1 1 1).bind (·.channels[0]?) = some tetra := by
  obtain ⟨-,c,-,tetra,tri,-,-,hvalue,-,-,hlattice,-⟩ :=
    tetrahedral_interpolation (by decide : 2 ≤ ramp.size) rfl (by decide : 0 < 3) 1 1 1
  refine ⟨tetra,hvalue 0,hlattice 1 (by decide) 1 (by decide) 1 (by decide) ?_ ?_ ?_⟩ <;>
    norm_num [ramp]

end Cpipe.Nodes.Lut3d
