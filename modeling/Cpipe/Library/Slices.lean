import Cpipe.Library.Raster

/-! Parts of a buffer, and writes that leave the rest as it was. -/

namespace Library.Slices
open Bytes Raster

variable {α : Type} {a b c : List α} {offset n lo hi : Nat}

def slice (cells : List α) (offset n : Nat) : List α := (cells.drop offset).take n

theorem slice_length (h : offset + n ≤ a.length) : (slice a offset n).length = n := by
  rw [slice, List.length_take, List.length_drop]
  omega

theorem slice_getElem? (k : Nat) :
    (slice a offset n)[k]? = if k < n then a[offset + k]? else none := by
  rw [slice, List.getElem?_take, List.getElem?_drop]

theorem slice_congr (h : ∀ k, offset ≤ k → k < offset + n → b[k]? = a[k]?) :
    slice b offset n = slice a offset n := by
  apply List.ext_getElem?
  intro k
  rw [slice_getElem?, slice_getElem?]
  split_ifs with hk
  · exact h _ (by omega) (by omega)
  · rfl

/-- What is appended does not change what was there. -/
theorem slice_append_left (h : offset + n ≤ a.length) (b : List α) :
    slice (a ++ b) offset n = slice a offset n := by
  refine slice_congr fun k _ hk => ?_
  rw [List.getElem?_append_left (by omega)]

theorem slice_append_right (a b : List α) : slice (a ++ b) a.length b.length = b := by
  simp [slice]

theorem slice_initial (h : a <+: b) (hn : offset + n ≤ a.length) :
    slice b offset n = slice a offset n := by
  obtain ⟨c,rfl⟩ := h
  exact slice_append_left hn c

/-- A checked copy is a slice. -/
theorem copyN_slice {bytes : List UInt8} (h : offset + n ≤ bytes.length) :
    copyN bytes offset n = .ok (slice bytes offset n) := by
  induction n with
  | zero => rfl
  | succ n ih =>
    have hlast : byteAt bytes (offset + n) = .ok bytes[offset + n] := byteAt_ok (by omega)
    have hslice : slice bytes offset (n + 1) = slice bytes offset n ++ [bytes[offset + n]] := by
      rw [slice, slice, List.take_add_one, List.getElem?_drop, List.getElem?_eq_getElem (by omega)]
      rfl
    rw [copyN] at ih ⊢
    rw [List.range_succ, List.mapM_append, ih (by omega), hslice]
    simp only [List.mapM_cons, List.mapM_nil, hlast, bind, Except.bind, pure, Except.pure]

/-! ### Frames -/

/-- Nothing changed but the cells from `lo` up to `hi`. -/
structure SameOutside (lo hi : Nat) (a b : List α) : Prop where
  length : b.length = a.length
  cell : ∀ k, k < lo ∨ hi ≤ k → b[k]? = a[k]?

namespace SameOutside

theorem refl (a : List α) (lo hi : Nat) : SameOutside lo hi a a := ⟨rfl,fun _ _ => rfl⟩

theorem trans (h : SameOutside lo hi a b) (h' : SameOutside lo hi b c) : SameOutside lo hi a c :=
  ⟨h'.length.trans h.length,fun k hk => (h'.cell k hk).trans (h.cell k hk)⟩

theorem mono {lo' hi' : Nat} (h : SameOutside lo hi a b) (hlo : lo' ≤ lo) (hhi : hi ≤ hi') :
    SameOutside lo' hi' a b :=
  ⟨h.length,fun k hk => h.cell k (by omega)⟩

theorem slice (h : SameOutside lo hi a b) (hn : offset + n ≤ lo ∨ hi ≤ offset) :
    Slices.slice b offset n = Slices.slice a offset n :=
  slice_congr fun k _ _ => h.cell k (by omega)

end SameOutside

/-- One store. -/
theorem store_frame {k : Nat} (h : k < a.length) (v : α) :
    ∃ b, store a k v = .ok b ∧ SameOutside k (k + 1) a b ∧ b[k]? = some v := by
  refine ⟨a.set k v,store_ok h,⟨List.length_set,fun l hl => ?_⟩,List.getElem?_set_self h⟩
  exact List.getElem?_set_ne (by omega)

end Library.Slices
