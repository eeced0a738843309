import Cpipe.Nodes.DemosaicQuadBayerRemosaic

namespace Cpipe.Nodes.DemosaicQuadBayerRemosaic
open Library.Stencil

/-! ### The sums -/

theorem length_window : window.length = 25 := rfl

/-- A running sum of 32 bits of at most 25 terms is exact where all of them fit together. -/
theorem toNat_foldl_add {ι : Type} {f : ι → UInt32} {n : Nat} (l : List ι)
    (hf : ∀ i ∈ l, (f i).toNat ≤ n) (s : UInt32) (hs : s.toNat + l.length*n < 2^32) :
    (l.foldl (fun s i => s + f i) s).toNat = s.toNat + (l.map (fun i => (f i).toNat)).sum := by
  induction l generalizing s with
  | nil => rfl
  | cons i l ih =>
    have hi := hf i List.mem_cons_self
    rw [List.length_cons, Nat.succ_mul] at hs
    have hstep : (s + f i).toNat = s.toNat + (f i).toNat := by
      rw [UInt32.toNat_add, Nat.mod_eq_of_lt (by omega)]
    rw [List.foldl_cons, ih (fun j hj => hf j (List.mem_cons_of_mem i hj)) _ (by omega), hstep,
      List.map_cons, List.sum_cons, Nat.add_assoc]

section Sums

variable (width height : Nat) (input : Int → Int → UInt16) (x y : Int)

theorem candidateWeight_le (d : Int × Int) : candidateWeight width height input x y d ≤ 1024 := by
  unfold candidateWeight
  refine max_le (by decide) ?_
  have hpenalty : 64 ≤ penalty width height input x y d := by
    simp only [penalty]
    omega
  calc 65536 / penalty width height input x y d ≤ 65536 / 64 :=
        Nat.div_le_div_left hpenalty (by decide)
    _ = 1024 := by decide

theorem toNat_weight (d : Int × Int) : (weight width height input x y d).toNat =
    if qbcColor (source width height x y d).1 (source width height x y d).2 = target x y then
      candidateWeight width height input x y d else 0 := by
  have hle := candidateWeight_le width height input x y d
  unfold weight
  rw [UInt32.toNat_ofNat']
  refine Nat.mod_eq_of_lt ?_
  split
  · omega
  · decide

theorem toNat_weight_le (d : Int × Int) : (weight width height input x y d).toNat ≤ 1024 := by
  rw [toNat_weight]
  split
  · exact candidateWeight_le width height input x y d
  · exact Nat.zero_le _

/-- A step has a weight where it leads to the colour of the output. -/
theorem toNat_weight_ne_zero {d : Int × Int} : (weight width height input x y d).toNat ≠ 0 ↔
    qbcColor (source width height x y d).1 (source width height x y d).2 = target x y := by
  have hpos : 0 < candidateWeight width height input x y d := lt_of_lt_of_le Nat.one_pos
    (le_max_left _ _)
  rw [toNat_weight]
  split
  · rename_i hcolor
    exact iff_of_true (by omega) hcolor
  · rename_i hcolor
    exact iff_of_false (fun h => h rfl) hcolor

theorem toNat_product (d : Int × Int) :
    (weight width height input x y d * (sample width height input x y d).toUInt32).toNat =
      (weight width height input x y d).toNat * (sample width height input x y d).toNat := by
  have hproduct : (weight width height input x y d).toNat *
      (sample width height input x y d).toNat ≤ 1024*65535 :=
    Nat.mul_le_mul (toNat_weight_le width height input x y d)
      (Nat.le_of_lt_succ (sample width height input x y d).toNat_lt)
  rw [UInt32.toNat_mul, UInt16.toNat_toUInt32, Nat.mod_eq_of_lt (by omega)]

/-- The weights as numbers. -/
def weights (d : Int × Int) : Nat := (weight width height input x y d).toNat

/-- The samples as numbers. -/
def samples (d : Int × Int) : Nat := (sample width height input x y d).toNat

theorem toNat_weightSum :
    (weightSum width height input x y).toNat = (window.map (weights width height input x y)).sum := by
  have hsum := toNat_foldl_add window
    (fun d _ => toNat_weight_le width height input x y d) 0 (by decide)
  rw [UInt32.toNat_zero, Nat.zero_add] at hsum
  exact hsum

theorem toNat_weightedSum :
    (weightedSum width height input x y).toNat = (window.map (fun d =>
      weights width height input x y d * samples width height input x y d)).sum := by
  have hterm (d : Int × Int) : (weight width height input x y d *
      (sample width height input x y d).toUInt32).toNat ≤ 1024*65535 := by
    rw [toNat_product]
    exact Nat.mul_le_mul (toNat_weight_le width height input x y d)
      (Nat.le_of_lt_succ (sample width height input x y d).toNat_lt)
  have hsum := toNat_foldl_add window (fun d _ => hterm d) 0 (by decide)
  simp only [UInt32.toNat_zero, Nat.zero_add, toNat_product] at hsum
  exact hsum

end Sums

/-! ### The colours in the window -/

/-- The steps in one direction. -/
def steps : List Int := [-2,-1,0,1,2]

theorem mem_steps {d : Int} : d ∈ steps ↔ -2 ≤ d ∧ d ≤ 2 := by
  simp only [steps, List.mem_cons, List.not_mem_nil, or_false]
  omega

theorem mem_window {d : Int × Int} : d ∈ window ↔ d.1 ∈ steps ∧ d.2 ∈ steps := by
  obtain ⟨dx,dy⟩ := d
  change (dx,dy) ∈ steps.flatMap (fun dy => steps.map (fun dx => (dx,dy))) ↔ _
  simp only [List.mem_flatMap, List.mem_map, Prod.mk.injEq]
  constructor
  · rintro ⟨b,hb,a,ha,rfl,rfl⟩
    exact ⟨ha,hb⟩
  · rintro ⟨hx,hy⟩
    exact ⟨dy,hy,dx,hx,rfl,rfl⟩

theorem coord_add_two (v : Int) : coord (v + 2) < 2 ↔ ¬ coord (v + 0) < 2 := by
  unfold coord
  constructor
  · intro h
    omega
  · intro h
    omega

/-- Three pixels in a row have both halves of a cell among them. -/
theorem half_reached {extent : Nat} {v : Int} (hextent : 3 ≤ extent) (hv : 0 ≤ v ∧ v < extent)
    (first : Bool) :
    ∃ d ∈ steps, decide (coord (clamp (v + d) 0 (extent - 1)) < 2) = first := by
  obtain ⟨e,he,hlow,hhigh⟩ : ∃ e : Int, (-2 ≤ e ∧ e ≤ 0) ∧ 0 ≤ v + e ∧ v + e + 2 < extent := by
    rcases lt_or_ge v 2 with hv2 | hv2
    · exact ⟨-v,by omega,by omega,by omega⟩
    · exact ⟨-2,by omega,by omega,by omega⟩
  have hclamp (k : Int) (hk : 0 ≤ k ∧ k ≤ 2) :
      clamp (v + (e + k)) 0 (extent - 1) = v + e + k := by
    rw [clamp_of_mem (by omega) (by omega)]
    omega
  have hpick : ∃ k : Int, (0 ≤ k ∧ k ≤ 2) ∧ decide (coord (v + e + k) < 2) = first := by
    by_cases h0 : decide (coord (v + e + 0) < 2) = first
    · exact ⟨0,by omega,h0⟩
    · refine ⟨2,by omega,?_⟩
      cases first with
      | true => simpa only [coord_add_two, decide_eq_true_eq] using h0
      | false => simpa only [coord_add_two, decide_eq_false_iff_not] using h0
  obtain ⟨k,hk,hfirst⟩ := hpick
  refine ⟨e + k,mem_steps.mpr (by omega),?_⟩
  rw [hclamp k hk]
  exact hfirst

section Window

variable {width height : Nat} {x y : Int}

/-- In an image of three by three pixels or more the colour of the output is in every
window. -/
theorem target_reached (hw : 3 ≤ width) (hh : 3 ≤ height) (hx : 0 ≤ x ∧ x < width)
    (hy : 0 ≤ y ∧ y < height) :
    ∃ d ∈ window, qbcColor (source width height x y d).1 (source width height x y d).2 =
      target x y := by
  have pick (a b : Bool) : ∃ d ∈ window,
      decide (coord (source width height x y d).1 < 2) = a ∧
        decide (coord (source width height x y d).2 < 2) = b := by
    obtain ⟨dx,hdx,ha⟩ := half_reached hw hx a
    obtain ⟨dy,hdy,hb⟩ := half_reached hh hy b
    exact ⟨(dx,dy),mem_window.mpr ⟨hdx,hdy⟩,ha,hb⟩
  unfold target
  split
  · obtain ⟨d,hd,ha,hb⟩ := pick true true
    refine ⟨d,hd,?_⟩
    simp only [decide_eq_true_eq] at ha hb
    simp only [qbcColor, ha, hb, and_self, if_true]
  · split
    · obtain ⟨d,hd,ha,hb⟩ := pick false false
      refine ⟨d,hd,?_⟩
      simp only [decide_eq_false_iff_not, not_lt] at ha hb
      simp only [qbcColor, ha, hb, and_self, if_true, not_lt.mpr, if_false]
    · obtain ⟨d,hd,ha,hb⟩ := pick true false
      refine ⟨d,hd,?_⟩
      simp only [decide_eq_true_eq, decide_eq_false_iff_not, not_lt] at ha hb
      simp only [qbcColor, ha, hb, not_lt.mpr, not_le.mpr, and_false, false_and, if_false]

end Window

/-! ### The mean -/

section Mean

variable {width height : Nat} {input : Int → Int → UInt16} {x y : Int}

theorem weightSum_eq_zero (hx : 0 ≤ x ∧ x < width) (hy : 0 ≤ y ∧ y < height)
    (h : weightSum width height input x y = 0) : width ≤ 2 ∨ height ≤ 2 := by
  by_contra hlarge
  obtain ⟨d,hd,hcolor⟩ := target_reached (by omega : 3 ≤ width) (by omega : 3 ≤ height) hx hy
  have hweight := (toNat_weight_ne_zero width height input x y).mpr hcolor
  have hle := List.single_le_sum (fun n _ => Nat.zero_le n) _
    (List.mem_map_of_mem (f := weights width height input x y) hd)
  rw [← toNat_weightSum, h] at hle
  exact hweight (Nat.le_zero.mp hle)

theorem toNat_rounded :
    (weightedSum width height input x y + weightSum width height input x y/2).toNat =
      (weightedSum width height input x y).toNat +
        (weightSum width height input x y).toNat/2 := by
  have hsamples : ∀ d ∈ window, weights width height input x y d ≠ 0 →
      samples width height input x y d ≤ 65535 :=
    fun d _ _ => Nat.le_of_lt_succ (sample width height input x y d).toNat_lt
  have hweights : (window.map (weights width height input x y)).sum ≤ window.length*1024 := by
    refine (List.sum_le_card_nsmul _ 1024 fun n hn => ?_).trans (by simp)
    obtain ⟨d,-,rfl⟩ := List.mem_map.mp hn
    exact toNat_weight_le width height input x y d
  have hsum := sum_le_mul hsamples
  rw [← toNat_weightSum] at hsum hweights
  rw [← toNat_weightedSum] at hsum
  rw [length_window] at hweights
  rw [UInt32.toNat_add, UInt32.toNat_div, Nat.mod_eq_of_lt]
  · rfl
  · simp only [UInt32.reduceToNat]
    omega

theorem toNat_output (h : weightSum width height input x y ≠ 0) :
    (output width height input x y).toNat =
      ((weightedSum width height input x y).toNat + (weightSum width height input x y).toNat/2) /
        (weightSum width height input x y).toNat := by
  have hpos : (window.map (weights width height input x y)).sum ≠ 0 := by
    rw [← toNat_weightSum]
    exact fun h0 => h (UInt32.toNat_inj.mp h0)
  have hle : ∀ d ∈ window, weights width height input x y d ≠ 0 →
      0 ≤ samples width height input x y d ∧ samples width height input x y d ≤ 65535 :=
    fun d _ _ => ⟨Nat.zero_le _,Nat.le_of_lt_succ (sample width height input x y d).toNat_lt⟩
  have hmean := (mean_between hle hpos).2
  rw [← toNat_weightSum, ← toNat_weightedSum] at hmean
  simp only [output, if_neg h]
  rw [UInt32.toNat_toUInt16, UInt32.toNat_div, toNat_rounded, Nat.mod_eq_of_lt (by omega)]

/-- The output is between bounds of the samples of its colour. -/
theorem output_between {low high : Nat} (h : weightSum width height input x y ≠ 0)
    (hbounds : ∀ d ∈ window,
      qbcColor (source width height x y d).1 (source width height x y d).2 = target x y →
      low ≤ (sample width height input x y d).toNat ∧
        (sample width height input x y d).toNat ≤ high) :
    low ≤ (output width height input x y).toNat ∧
      (output width height input x y).toNat ≤ high := by
  have hpos : (window.map (weights width height input x y)).sum ≠ 0 := by
    rw [← toNat_weightSum]
    exact fun h0 => h (UInt32.toNat_inj.mp h0)
  rw [toNat_output h, toNat_weightSum, toNat_weightedSum]
  refine mean_between (fun d hd hweight => ?_) hpos
  exact hbounds d hd ((toNat_weight_ne_zero width height input x y).mp hweight)

variable (width height input x y) in
/-- The samples of the colour of the output in the window. -/
def targetSamples : List Nat :=
  (window.filter (fun d => qbcColor (source width height x y d).1 (source width height x y d).2 =
    target x y)).map (samples width height input x y)

variable (input) in
theorem mem_targetSamples {d : Int × Int} (hd : d ∈ window)
    (hcolor : qbcColor (source width height x y d).1 (source width height x y d).2 = target x y) :
    (sample width height input x y d).toNat ∈ targetSamples width height input x y :=
  List.mem_map_of_mem (List.mem_filter.mpr ⟨hd,decide_eq_true hcolor⟩)

theorem targetSamples_ne_nil (h : weightSum width height input x y ≠ 0) :
    targetSamples width height input x y ≠ [] := by
  intro hnil
  apply h
  apply UInt32.toNat_inj.mp
  rw [toNat_weightSum]
  refine List.sum_eq_zero fun n hn => ?_
  obtain ⟨d,hd,rfl⟩ := List.mem_map.mp hn
  by_contra hweight
  have hmem := mem_targetSamples input hd
    ((toNat_weight_ne_zero width height input x y).mp hweight)
  rw [hnil] at hmem
  cases hmem

end Mean

/-! ### The patterns -/

/-- The colour of a pixel in the pattern of the sensor. -/
def sensorColor (x y : Int) : Nat := kSonyQbc.getD (4*(y % 4) + x % 4).toNat 0

/-- The colour of a pixel in the pattern of the output. -/
def bayerColor (x y : Int) : Nat := kRggbPattern.getD (2*(y % 2) + x % 2).toNat 0

theorem qbcColor_eq (x y : Int) : qbcColor x y = sensorColor x y := by
  have hx : x % 4 = 0 ∨ x % 4 = 1 ∨ x % 4 = 2 ∨ x % 4 = 3 := by omega
  have hy : y % 4 = 0 ∨ y % 4 = 1 ∨ y % 4 = 2 ∨ y % 4 = 3 := by omega
  unfold qbcColor coord sensorColor
  rcases hx with h | h | h | h <;> rcases hy with h' | h' | h' | h' <;> rw [h, h'] <;> rfl

theorem target_eq (x y : Int) : target x y = bayerColor x y := by
  have hx : x % 2 = 0 ∨ x % 2 = 1 := by omega
  have hy : y % 2 = 0 ∨ y % 2 = 1 := by omega
  unfold target bayerColor
  rcases hx with h | h <;> rcases hy with h' | h' <;> rw [h, h'] <;> rfl

/-- At every pixel: the sums are exact, there is a weight in all images of three by three
pixels or more, the output lies between the least and the largest sample of its colour, and
one value for each colour comes out as that value. -/
theorem remosaic_weighted_mean (width height : Nat) (input : Int → Int → UInt16) {x y : Int}
    (hx : 0 ≤ x ∧ x < width) (hy : 0 ≤ y ∧ y < height) :
    ((weightSum width height input x y).toNat =
        (window.map (weights width height input x y)).sum ∧
      (weightedSum width height input x y).toNat = (window.map (fun d =>
        weights width height input x y d * samples width height input x y d)).sum ∧
      (weightedSum width height input x y + weightSum width height input x y/2).toNat =
        (weightedSum width height input x y).toNat +
          (weightSum width height input x y).toNat/2) ∧
    (weightSum width height input x y = 0 → width ≤ 2 ∨ height ≤ 2) ∧
    (weightSum width height input x y ≠ 0 →
      ∃ hne : targetSamples width height input x y ≠ [],
        (targetSamples width height input x y).min hne ≤ (output width height input x y).toNat ∧
        (output width height input x y).toNat ≤ (targetSamples width height input x y).max hne) ∧
    (weightSum width height input x y ≠ 0 → ∀ colours : Nat → UInt16,
      (∀ u v : Int, 0 ≤ u ∧ u < width → 0 ≤ v ∧ v < height →
        input u v = colours (sensorColor u v)) →
      output width height input x y = colours (bayerColor x y)) := by
  refine ⟨⟨toNat_weightSum width height input x y,toNat_weightedSum width height input x y,
    toNat_rounded⟩,weightSum_eq_zero hx hy,fun hsum => ?_,fun hsum colours hconstant => ?_⟩
  · have hne := targetSamples_ne_nil hsum
    refine ⟨hne,output_between hsum fun d hd hcolor => ?_⟩
    have hmem := mem_targetSamples input hd hcolor
    exact ⟨List.min_le_of_mem hmem,List.le_max_of_mem hmem⟩
  · have hsample : ∀ d ∈ window,
        qbcColor (source width height x y d).1 (source width height x y d).2 = target x y →
        sample width height input x y d = colours (bayerColor x y) := by
      intro d _ hcolor
      have hu := clamp_mem (x + d.1) (by omega : (0 : Int) ≤ width - 1)
      have hv := clamp_mem (y + d.2) (by omega : (0 : Int) ≤ height - 1)
      have hu' : 0 ≤ (source width height x y d).1 ∧ (source width height x y d).1 < width :=
        ⟨hu.1,lt_of_le_of_lt hu.2 (by omega)⟩
      have hv' : 0 ≤ (source width height x y d).2 ∧ (source width height x y d).2 < height :=
        ⟨hv.1,lt_of_le_of_lt hv.2 (by omega)⟩
      rw [← target_eq, ← hcolor, qbcColor_eq, ← hconstant _ _ hu' hv']
      exact repeatEdge_of_mem input hu' hv'
    have hbounds := output_between hsum fun d hd hcolor => by
      rw [hsample d hd hcolor]
      exact ⟨le_rfl,le_rfl⟩
    exact UInt16.toNat_inj.mp (le_antisymm hbounds.2 hbounds.1)

/-- Red 7, green 8 and blue 9 at the last pixel of five by three. -/
theorem remosaic_constant :
    output 5 3 (fun u v => if sensorColor u v = 0 then 7 else if sensorColor u v = 1 then 8 else 9)
      4 2 = 7 :=
  (remosaic_weighted_mean 5 3 (fun u v => if sensorColor u v = 0 then 7 else
    if sensorColor u v = 1 then 8 else 9) (by decide) (by decide)).2.2.2 (by decide +kernel)
    (fun n => if n = 0 then 7 else if n = 1 then 8 else 9) (fun _ _ _ _ => rfl)

end Cpipe.Nodes.DemosaicQuadBayerRemosaic
