import Cpipe.Library.Strided
import Cpipe.Runtime.HalideBufferAdapter

namespace Cpipe.Runtime.HalideBufferAdapter
open Compute
open Library.Strided

/-! ### Casts -/

theorem castInt32_eq (v : UInt64) : castInt32 v = Int32.ofNat v.toNat := by
  apply Int32.toBitVec_inj.mp
  apply BitVec.eq_of_toNat_eq
  simp [castInt32]

theorem toInt32_eq (n : UInt32) : n.toInt32 = Int32.ofNat n.toNat := by
  apply Int32.toBitVec_inj.mp
  apply BitVec.eq_of_toNat_eq
  simp

theorem toInt32_toInt {n : UInt32} (h : n.toNat < 2^31) : n.toInt32.toInt = n.toNat := by
  rw [toInt32_eq]
  exact Int32.toInt_ofNat_of_lt h

/-- A dimension is positive as an extent where it is one and fits. -/
theorem extent_pos_iff {n : UInt32} : ¬ n.toInt32 ≤ 0 ↔ 0 < n.toNat ∧ n.toNat < 2^31 := by
  have hn := n.toNat_lt
  rw [Int32.le_iff_toInt_le, toInt32_eq, Int32.toInt_ofNat', Int.bmod_def]
  simp only [Int32.size, Int32.toInt_zero]
  omega

/-! ### Exact axes -/

def exactDense (channelBytes : Nat) : List (UInt32 × UInt64) → Nat → List (Nat × Nat)
  | [], _ => []
  | (dim,stride) :: axes, dense =>
    let stride := if stride ≠ 0 then stride.toNat/channelBytes else dense
    (dim.toNat,stride) :: exactDense channelBytes axes (stride*dim.toNat)

/-- An image whose channels are an axis of the view. -/
def Interleaved (layout : BufferLayout) : Prop :=
  layout.kind = .image2D ∧ 1 < channelCount layout.format

instance (layout : BufferLayout) : Decidable (Interleaved layout) :=
  inferInstanceAs (Decidable (_ ∧ _))

/-- The extents and strides that the layout asks for. -/
def exactAxes (layout : BufferLayout) : List (Nat × Nat) :=
  if Interleaved layout then exactInterleaved layout
  else exactDense (bytesPerChannel layout.format).toNat (axes layout) 1

/-- All extents and strides fit an `int32_t`. -/
def Fits (axes : List (Nat × Nat)) : Prop := ∀ a ∈ axes, a.1 < 2^31 ∧ a.2 < 2^31

def toAxes (axes : List (Nat × Nat)) : Axes := axes.map (fun a => ((a.1 : Int),(a.2 : Int)))

def View.axes (v : View) : Axes := v.dims.map (fun d => (d.extent.toInt,d.stride.toInt))

def View.elementBytes (v : View) : Nat := v.type.bits/8

section Exact

theorem castInt32_toInt {v : UInt64} (h : v.toNat < 2^31) : (castInt32 v).toInt = v.toNat := by
  rw [castInt32_eq]
  exact Int32.toInt_ofNat_of_lt h

theorem bmod_of_lt {n : Nat} (h : n < 2^31) : (n : Int).bmod (2^32) = n := by
  rw [Int.bmod_def]
  omega

/-- Nothing wraps where every axis fits, also in the stride of a packed axis. -/
theorem denseDims_fits {channelBytes : UInt64} {axes : List (UInt32 × UInt64)} {dense : Int32}
    {exact : Nat} {dims : List Dimension}
    (hdims : denseDims channelBytes axes dense = some dims)
    (hdense : exact < 2^31 → dense.toInt = exact)
    (hfits : Fits (exactDense channelBytes.toNat axes exact)) :
    dims.map (fun d => (d.extent.toInt,d.stride.toInt)) =
      toAxes (exactDense channelBytes.toNat axes exact) := by
  induction axes generalizing dense exact dims with
  | nil =>
    cases hdims
    rfl
  | cons a axes ih =>
    obtain ⟨dim,stride⟩ := a
    rw [denseDims] at hdims
    split at hdims
    · cases hdims
    rename_i hzero
    obtain ⟨rest,hrest,rfl⟩ := Option.map_eq_some_iff.mp hdims
    rw [exactDense] at hfits ⊢
    have hhead := hfits _ List.mem_cons_self
    have hstride : (if stride ≠ 0 then castInt32 (stride/channelBytes) else dense).toInt =
        ((if stride ≠ 0 then stride.toNat/channelBytes.toNat else exact : Nat) : Int) := by
      have hsmall := hhead.2
      simp only at hsmall
      split
      · rename_i hexplicit
        rw [if_pos hexplicit, ← UInt64.toNat_div] at hsmall
        rw [castInt32_toInt hsmall, UInt64.toNat_div]
      · rename_i himplicit
        rw [if_neg himplicit] at hsmall
        exact hdense hsmall
    have hnext := ih hrest (fun hsmall => ?_) (fun b hb => hfits b (List.mem_cons_of_mem _ hb))
    · simp only [toAxes, List.map_cons] at hnext ⊢
      rw [hnext, hstride, toInt32_toInt hhead.1]
    · rw [Int32.toInt_mul, hstride, toInt32_toInt hhead.1, ← Int.natCast_mul]
      exact bmod_of_lt hsmall

theorem denseDims_isSome {channelBytes : UInt64} {axes : List (UInt32 × UInt64)} (dense : Int32) :
    (denseDims channelBytes axes dense).isSome = true ↔
      (channelBytes = 0 → ∀ a ∈ axes, a.2 = 0) := by
  induction axes generalizing dense with
  | nil => simp [denseDims]
  | cons a axes ih =>
    obtain ⟨dim,stride⟩ := a
    rw [denseDims]
    by_cases hzero : stride ≠ 0 ∧ channelBytes = 0
    · rw [if_pos hzero]
      simp [hzero.1, hzero.2]
    · rw [if_neg hzero]
      simp only [Option.isSome_map, ih, List.mem_cons, forall_eq_or_imp]
      constructor
      · intro h hbytes
        exact ⟨by_contra fun hne => hzero ⟨hne,hbytes⟩,h hbytes⟩
      · intro h hbytes
        exact (h hbytes).2

theorem channels_table {format : PixelFormat} (h : 1 < channelCount format) :
    (0 < (bytesPerChannel format).toNat ∧ (bytesPerChannel format).toNat ≤ 4) ∧
      (channelCount format).toNat ≤ 4 := by
  revert h
  cases format <;> decide

theorem interleaved_fits {layout : BufferLayout} (h : Interleaved layout)
    (hfits : Fits (exactInterleaved layout)) :
    (interleaved layout).map (fun d => (d.extent.toInt,d.stride.toInt)) =
      toAxes (exactInterleaved layout) := by
  obtain ⟨⟨hbytes,hbytes4⟩,hchannels⟩ := channels_table h.2
  obtain ⟨hx,hy,-⟩ : (layout.dims[0].toNat < 2^31 ∧ _) ∧ (layout.dims[1].toNat < 2^31 ∧ _) ∧ _ := by
    simpa only [Fits, exactInterleaved, List.mem_cons, List.not_mem_nil, or_false,
      forall_eq_or_imp, forall_eq] using hfits
  have hpacked : (bytesPerChannel layout.format*channelCount layout.format).toNat =
      (bytesPerChannel layout.format).toNat*(channelCount layout.format).toNat := by
    rw [UInt64.toNat_mul, Nat.mod_eq_of_lt]
    exact lt_of_le_of_lt (Nat.mul_le_mul hbytes4 hchannels) (by decide)
  have hpixel : (if layout.stride[0] ≠ 0 then layout.stride[0]
        else bytesPerChannel layout.format*channelCount layout.format).toNat =
      if layout.stride[0] ≠ 0 then layout.stride[0].toNat
        else (bytesPerChannel layout.format).toNat*(channelCount layout.format).toNat := by
    split
    · rfl
    · exact hpacked
  simp only [interleaved, exactInterleaved, toAxes, List.map_cons, List.map_nil] at hx hy ⊢
  rw [← hpixel] at hx hy ⊢
  generalize (if layout.stride[0] ≠ 0 then layout.stride[0]
    else bytesPerChannel layout.format*channelCount layout.format) = pixel at hx hy ⊢
  -- A pixel stride that fits leaves room for the product with a width that fits.
  have hproduct : (pixel*layout.dims[0].toUInt64).toNat = pixel.toNat*layout.dims[0].toNat := by
    have hsmall : pixel.toNat < 2^31*(bytesPerChannel layout.format).toNat :=
      (Nat.div_lt_iff_lt_mul hbytes).mp hx.2
    rw [UInt64.toNat_mul, UInt32.toNat_toUInt64, Nat.mod_eq_of_lt]
    have hlt : pixel.toNat*layout.dims[0].toNat < 2^33*2^31 :=
      Nat.mul_lt_mul'' (by omega) hx.1
    exact lt_of_lt_of_eq hlt (by decide)
  have hrow : (if layout.stride[1] ≠ 0 then layout.stride[1]
        else pixel*layout.dims[0].toUInt64).toNat =
      if layout.stride[1] ≠ 0 then layout.stride[1].toNat
        else pixel.toNat*layout.dims[0].toNat := by
    split
    · rfl
    · exact hproduct
  rw [← hrow, ← UInt64.toNat_div] at hy
  rw [← UInt64.toNat_div] at hx
  rw [← hrow, ← UInt64.toNat_div, ← UInt64.toNat_div, castInt32_toInt hx.2, castInt32_toInt hy.2,
    toInt32_toInt hx.1, toInt32_toInt hy.1,
    castInt32_toInt (lt_of_le_of_lt hchannels (by decide))]
  rfl

end Exact

/-! ### Addresses -/

/-- The view has the axes of the layout without a wrap and no stride of zero, each element at
coordinates inside the extents lies in the buffer, and no two of them at the same place. -/
def Addressable (layout : BufferLayout) : Prop :=
  ∃ v, view layout = some v ∧ v.axes = toAxes (exactAxes layout) ∧ (∀ a ∈ v.axes, a.2 ≠ 0) ∧
    (∀ c, InExtents c v.axes → 0 ≤ offset c v.axes ∧
      (offset c v.axes + 1)*v.elementBytes ≤ layout.sizeBytes.toNat) ∧
    ∀ c c', InExtents c v.axes → InExtents c' v.axes → offset c v.axes = offset c' v.axes → c = c'

/-- The constructor builds a view: an image with several channels, or at most eight axes with
no explicit stride for a format without bytes. -/
def HasView (layout : BufferLayout) : Prop :=
  Interleaved layout ∨ layout.ndim ≤ 8 ∧
    (bytesPerChannel layout.format = 0 → ∀ a ∈ axes layout, a.2 = 0)

/-- The extents and strides fit, no stride is zero, the furthest element is in the buffer, and
no difference of coordinates but zero leads back to the same place. -/
def Regular (layout : BufferLayout) : Prop :=
  HasView layout ∧ Fits (exactAxes layout) ∧ (∀ a ∈ exactAxes layout, a.2 ≠ 0) ∧
    ((∀ a ∈ exactAxes layout, 0 < a.1) →
      (far (toAxes (exactAxes layout)) + 1)*((halideTypeFor layout.format).bits/8 : Nat) ≤
        layout.sizeBytes.toNat) ∧
    ∀ e, Between e (toAxes (exactAxes layout)) → offset e (toAxes (exactAxes layout)) = 0 →
      ∀ x ∈ e, x = 0

section Addresses

variable {layout : BufferLayout}

theorem view_eq (layout : BufferLayout) :
    view layout = if Interleaved layout then
        some ⟨halideTypeFor layout.format,interleaved layout⟩
      else if 8 < layout.ndim then
        none
      else
        (denseDims (bytesPerChannel layout.format) (axes layout) 1).map
          (⟨halideTypeFor layout.format,·⟩) := rfl

theorem view_type {v : View} (h : view layout = some v) : v.type = halideTypeFor layout.format := by
  unfold view at h
  split at h
  · rw [← Option.some.inj h]
  split at h
  · cases h
  · obtain ⟨dims,-,rfl⟩ := Option.map_eq_some_iff.mp h
    rfl

theorem view_isSome : (view layout).isSome = true ↔ HasView layout := by
  rw [view_eq, HasView]
  by_cases hinterleaved : Interleaved layout
  · rw [if_pos hinterleaved]
    exact iff_of_true rfl (.inl hinterleaved)
  · rw [if_neg hinterleaved]
    by_cases hndim : 8 < layout.ndim
    · rw [if_pos hndim]
      simp [hinterleaved, UInt8.not_le.mpr hndim]
    · rw [if_neg hndim, Option.isSome_map, denseDims_isSome]
      simp [hinterleaved, UInt8.not_lt.mp hndim]

theorem view_axes {v : View} (h : view layout = some v) (hfits : Fits (exactAxes layout)) :
    v.axes = toAxes (exactAxes layout) := by
  rw [view_eq] at h
  unfold exactAxes at hfits ⊢
  by_cases hinterleaved : Interleaved layout
  · rw [if_pos hinterleaved] at h hfits ⊢
    rw [← Option.some.inj h]
    exact interleaved_fits hinterleaved hfits
  · rw [if_neg hinterleaved] at h hfits ⊢
    split at h
    · cases h
    · obtain ⟨dims,hdims,rfl⟩ := Option.map_eq_some_iff.mp h
      exact denseDims_fits hdims (fun _ => by decide) hfits

theorem fits_of_axes {v : View} {axes : List (Nat × Nat)} (h : v.axes = toAxes axes) :
    Fits axes := by
  intro a ha
  have hmem : ((a.1 : Int),(a.2 : Int)) ∈ v.axes := by
    rw [h]
    exact List.mem_map_of_mem ha
  obtain ⟨d,-,hd⟩ := List.mem_map.mp hmem
  obtain ⟨h1,h2⟩ := Prod.mk.inj hd
  have hextent := d.extent.toInt_lt
  have hstride := d.stride.toInt_lt
  omega

theorem mem_toAxes {axes : List (Nat × Nat)} {P : Int × Int → Prop} :
    (∀ a ∈ toAxes axes, P a) ↔ ∀ a ∈ axes, P ((a.1 : Int),(a.2 : Int)) :=
  List.forall_mem_map

/-- For every layout: the view addresses the elements of the buffer exactly where the layout
is regular. -/
theorem addressable_iff (layout : BufferLayout) : Addressable layout ↔ Regular layout := by
  have hbytes : 0 < (halideTypeFor layout.format).bits/8 := by
    cases layout.format <;> decide
  have hnonneg : ∀ a ∈ toAxes (exactAxes layout), 0 ≤ a.2 :=
    mem_toAxes.mpr fun a _ => Int.natCast_nonneg a.2
  have hroom (n : Int) : (n + 1)*((halideTypeFor layout.format).bits/8 : Nat) ≤
      layout.sizeBytes.toNat ↔
        n < (layout.sizeBytes.toNat : Int)/((halideTypeFor layout.format).bits/8 : Nat) := by
    rw [← Int.add_one_le_iff, Int.le_ediv_iff_mul_le (Int.natCast_pos.mpr hbytes)]
  constructor
  · rintro ⟨v,hv,haxes,hstrides,hbounds,hdistinct⟩
    have htype := view_type hv
    rw [haxes] at hstrides hbounds hdistinct
    refine ⟨view_isSome.mp (hv ▸ rfl),fits_of_axes haxes,?_,?_,offset_injective_iff.mp hdistinct⟩
    · intro a ha hzero
      exact mem_toAxes.mp hstrides a ha (Int.natCast_eq_zero.mpr hzero)
    · intro hpos
      rw [hroom]
      refine (offset_lt_iff hnonneg _).mp (fun c hc => ?_) (mem_toAxes.mpr fun a ha =>
        Int.natCast_pos.mpr (hpos a ha))
      rw [← hroom]
      have hbound := (hbounds c hc).2
      rw [View.elementBytes, htype] at hbound
      exact hbound
  · rintro ⟨hview,hfits,hstrides,hfar,hdistinct⟩
    obtain ⟨v,hv⟩ := Option.isSome_iff_exists.mp (view_isSome.mpr hview)
    have htype := view_type hv
    have haxes := view_axes hv hfits
    refine ⟨v,hv,haxes,?_,?_,?_⟩
    · rw [haxes]
      exact mem_toAxes.mpr fun a ha hzero => hstrides a ha (Int.natCast_eq_zero.mp hzero)
    · rw [haxes, View.elementBytes, htype]
      intro c hc
      refine ⟨(offset_between hnonneg hc).1,?_⟩
      rw [hroom]
      refine (offset_lt_iff hnonneg _).mpr (fun hpos => ?_) c hc
      rw [← hroom]
      exact hfar fun a ha => Int.natCast_pos.mp (mem_toAxes.mp hpos a ha)
    · rw [haxes]
      exact offset_injective_iff.mpr hdistinct

/-- Four by four floats, every other one of a row. -/
def sparseLayout : BufferLayout where
  kind := .image2D
  format := .f32
  ndim := 2
  dims := #v[4,4,0,0,0,0,0,0]
  stride := #v[8,0,0,0,0,0,0,0]

/-- The size of the buffer does not know of the stride of the first axis: the last element
begins at byte 120 of 64. -/
theorem sparse_not_addressable : ¬ Addressable sparseLayout := by
  rintro ⟨v,hv,-,-,hbounds,-⟩
  have hview : view sparseLayout = some ⟨⟨.float,32⟩,[⟨4,2⟩,⟨4,8⟩]⟩ := by decide
  obtain rfl := Option.some.inj (hv.symm.trans hview)
  have hin : InExtents [3,3] (View.axes ⟨⟨.float,32⟩,[⟨4,2⟩,⟨4,8⟩]⟩) :=
    .cons (by decide) (.cons (by decide) .nil)
  exact absurd (hbounds _ hin).2 (by decide)

end Addresses

end Cpipe.Runtime.HalideBufferAdapter
