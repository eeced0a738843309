import Cpipe.Runtime.HalidePlane
import Cpipe.Proofs.HalideBufferAdapter

namespace Cpipe.Runtime.HalidePlane
open Compute HalideBufferAdapter
open Library.Bytes (Fault)
open Library.Raster (place_lt)

variable {width height : UInt32}

theorem planeDims_eq : planeDims width height =
    [⟨width.toInt32,1⟩,⟨height.toInt32,width.toInt32⟩] := by
  have hview : view (imageLayout .r32Sfloat width height) =
      some ⟨halideTypeFor .r32Sfloat,[⟨width.toInt32,1⟩,⟨height.toInt32,1*width.toInt32⟩]⟩ := rfl
  rw [planeDims, hview, Int32.one_mul]
  rfl

theorem rounds_width : rounds (planeDims width height) 0 = width.toInt32.toInt.toNat := by
  rw [rounds, planeDims_eq]
  rfl

theorem rounds_height : rounds (planeDims width height) 1 = height.toInt32.toInt.toNat := by
  rw [rounds, planeDims_eq]
  rfl

theorem rounds_eq (n : UInt32) :
    n.toInt32.toInt.toNat = if n.toNat < 2^31 then n.toNat else 0 := by
  have hn := n.toNat_lt
  rw [toInt32_eq, Int32.toInt_ofNat', Int.bmod_def]
  simp only [Int32.size]
  split_ifs <;> omega

/-- The index of a pixel, cut to 32 bits. -/
theorem offset_plane (p : Nat × Nat) :
    offset (planeDims width height) p = Int32.ofNat (p.2*width.toNat + p.1) := by
  rw [offset, planeDims_eq]
  simp only [dim, List.getD_cons_zero, List.getD_cons_succ]
  rw [toInt32_eq, Int32.mul_one, Int32.ofNat_add, Int32.ofNat_mul]

/-- An index is as large as it should be up to the largest `int`. -/
theorem checkedIndex_ok {size n : Nat} (h : n < 2^31) :
    checkedIndex size (Int32.ofNat n) = .ok n := by
  have hint : (Int32.ofNat n).toInt = n := Int32.toInt_ofNat_of_lt h
  unfold checkedIndex
  rw [if_neg, hint, Int.toNat_natCast]
  rw [Int32.lt_iff_toInt_lt, hint]
  simp

theorem checkedIndex_plane (h : Indexable width height) {p : Nat × Nat} (size : Nat)
    (hx : p.1 < width.toNat) (hy : p.2 < height.toNat) :
    checkedIndex size (offset (planeDims width height) p) = .ok (p.2*width.toNat + p.1) := by
  have hlt := place_lt hx hy
  have hcount := h.count_le
  rw [offset_plane]
  exact checkedIndex_ok (by omega)

/-- In a plane of more pixels the index of the pixel numbered `2^31` is negative. -/
theorem checkedIndex_large (hw : 0 < width.toNat) (hcount : 2^31 < width.toNat*height.toNat)
    (size : Nat) : ∃ p : Nat × Nat, p.1 < width.toNat ∧ p.2 < height.toNat ∧
      ∃ e, checkedIndex size (offset (planeDims width height) p) = .error e := by
  refine ⟨(2^31 % width.toNat,2^31 / width.toNat),Nat.mod_lt _ hw,?_,⟨2^64 - 2^31,size⟩,?_⟩
  · rw [Nat.div_lt_iff_lt_mul hw, Nat.mul_comm]
    omega
  · have hdiv := Nat.div_add_mod (2^31) width.toNat
    rw [Nat.mul_comm] at hdiv
    rw [offset_plane, hdiv]
    rfl

end Cpipe.Runtime.HalidePlane
