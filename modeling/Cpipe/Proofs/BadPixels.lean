import Cpipe.Proofs.HalideBufferAdapter
import Cpipe.Proofs.OpcodeCorrections

/-! Which pixels the list of bad pixels patches, and which ones it names. -/

namespace Cpipe.Nodes.DngOpcodeList3
open Ingest.OpcodeList3 Library.Bytes
open Library.Raster (Holds InImage)
open Float16 (floatToHalf halfToFloat)

/-- The pixels a rectangle names, by its unsigned bounds. -/
def Contains (rect : BadRect) (x y : Nat) : Prop :=
  rect.top.toNat ≤ y ∧ y < rect.bottom.toNat ∧ rect.left.toNat ≤ x ∧ x < rect.right.toNat

/-- The pixels of a list: those of its points and of its rectangles. -/
def Listed (points : List BadPoint) (rects : List BadRect) (x y : Nat) : Prop :=
  (∃ point ∈ points, point.column.toNat = x ∧ point.row.toNat = y) ∨
    ∃ rect ∈ rects, Contains rect x y

instance (rect : BadRect) (x y : Nat) : Decidable (Contains rect x y) :=
  inferInstanceAs (Decidable (_ ∧ _))

instance (points : List BadPoint) (rects : List BadRect) (x y : Nat) :
    Decidable (Listed points rects x y) :=
  inferInstanceAs (Decidable (_ ∨ _))

/-- On every image of this size the listed pixels are patched from the unpatched image,
and no others. -/
def PatchesListed (points : List BadPoint) (rects : List BadRect) (width height : Nat) : Prop :=
  ∀ (picture : Picture) (src dst : Image), Holds kChannels width height src picture →
    ∃ out, applyBadPixels points rects src width height dst = .ok out ∧
      Holds kChannels width height out
        (patchPicture (fun x y => decide (Listed points rects x y)) width height picture)

/-! ### The casts -/

/-- A bound from `2^31` on, which is negative as an `int`. -/
def Wraps (bound : UInt32) : Prop := 2^31 ≤ bound.toNat

instance (bound : UInt32) : Decidable (Wraps bound) := inferInstanceAs (Decidable (_ ≤ _))

/-- What the loops make of a rectangle: nothing where its bottom or right is negative, and
all of it from zero on where its top or left is. -/
def Reached (rect : BadRect) (x y : Nat) : Prop :=
  (¬ Wraps rect.bottom ∧ ¬ Wraps rect.right) ∧ (Wraps rect.top ∨ rect.top.toNat ≤ y) ∧
    y < rect.bottom.toNat ∧ (Wraps rect.left ∨ rect.left.toNat ≤ x) ∧ x < rect.right.toNat

/-- The wrapped rectangles change nothing at a pixel. -/
def WrapsHidden (points : List BadPoint) (rects : List BadRect) (x y : Nat) : Prop :=
  ∀ rect ∈ rects,
    ((Wraps rect.bottom ∨ Wraps rect.right) → Contains rect x y →
      (∃ point ∈ points, point.column.toNat = x ∧ point.row.toNat = y) ∨
        ∃ other ∈ rects, Reached other x y) ∧
    ((Wraps rect.top ∨ Wraps rect.left) → Reached rect x y → Listed points rects x y)

section Casts

variable {width height x y : Nat} {rect : BadRect} {point : BadPoint}

theorem toInt32_wraps (n : UInt32) :
    n.toInt32.toInt = (n.toNat : Int) ∧ n.toNat < 2^31 ∨
      n.toInt32.toInt = (n.toNat : Int) - 2^32 ∧ 2^31 ≤ n.toNat := by
  have hn := n.toNat_lt
  rw [Runtime.HalideBufferAdapter.toInt32_eq, Int32.toInt_ofNat', Int.bmod_def]
  simp only [Int32.size]
  omega

/-- The loop along one axis. -/
theorem axis_reached {low high : UInt32} {extent n : Nat} (hn : n < extent) :
    (max 0 (min low.toInt32.toInt extent)).toNat ≤ n ∧
      n < (max 0 (min low.toInt32.toInt extent)).toNat +
        (max 0 (min high.toInt32.toInt extent) - max 0 (min low.toInt32.toInt extent)).toNat ↔
      ¬ Wraps high ∧ (Wraps low ∨ low.toNat ≤ n) ∧ n < high.toNat := by
  have hlow := toInt32_wraps low
  have hhigh := toInt32_wraps high
  have hlows := low.toNat_lt
  have hhighs := high.toNat_lt
  unfold Wraps
  omega

theorem mem_rectPixels (hx : x < width) (hy : y < height) :
    ((x : Int),(y : Int)) ∈ rectPixels width height rect ↔ Reached rect x y := by
  simp only [rectPixels, List.mem_flatMap, List.mem_map, List.mem_range'_1, Prod.mk.injEq,
    Int.natCast_inj, Reached]
  constructor
  · rintro ⟨y',hy',x',hx',rfl,rfl⟩
    obtain ⟨hbottom,htop,hbelow⟩ := (axis_reached hy).mp hy'
    obtain ⟨hright,hleft,hbefore⟩ := (axis_reached hx).mp hx'
    exact ⟨⟨hbottom,hright⟩,htop,hbelow,hleft,hbefore⟩
  · rintro ⟨⟨hbottom,hright⟩,htop,hbelow,hleft,hbefore⟩
    exact ⟨y,(axis_reached hy).mpr ⟨hbottom,htop,hbelow⟩,x,
      (axis_reached hx).mpr ⟨hright,hleft,hbefore⟩,rfl,rfl⟩

theorem pointPixel_eq (hw : width < 2^31) (hh : height < 2^31) (hx : x < width) (hy : y < height) :
    pointPixel point = ((x : Int),(y : Int)) ↔ point.column.toNat = x ∧ point.row.toNat = y := by
  have hcolumn := toInt32_wraps point.column
  have hrow := toInt32_wraps point.row
  have hcolumns := point.column.toNat_lt
  have hrows := point.row.toNat_lt
  simp only [pointPixel, Prod.mk.injEq]
  omega

/-- The pixels of the loops. -/
theorem listedPixel_iff {points : List BadPoint} {rects : List BadRect} (hw : width < 2^31)
    (hh : height < 2^31) (hx : x < width) (hy : y < height) :
    listedPixel points rects width height x y = true ↔
      (∃ point ∈ points, point.column.toNat = x ∧ point.row.toNat = y) ∨
        ∃ rect ∈ rects, Reached rect x y := by
  simp only [listedPixel, Bool.or_eq_true, List.any_eq_true, beq_iff_eq, List.contains_iff_mem,
    pointPixel_eq hw hh hx hy, mem_rectPixels hx hy]

theorem contains_reached (h : Contains rect x y) :
    (Wraps rect.bottom ∨ Wraps rect.right) ∨ Reached rect x y := by
  simp only [Contains, Reached, Wraps] at h ⊢
  omega

theorem reached_contains (h : Reached rect x y) :
    (Wraps rect.top ∨ Wraps rect.left) ∨ Contains rect x y := by
  simp only [Contains, Reached, Wraps] at h ⊢
  omega

theorem wrapsHidden_iff {points : List BadPoint} {rects : List BadRect} :
    WrapsHidden points rects x y ↔
      (((∃ point ∈ points, point.column.toNat = x ∧ point.row.toNat = y) ∨
        ∃ rect ∈ rects, Reached rect x y) ↔ Listed points rects x y) := by
  constructor
  · intro h
    constructor
    · rintro (hpoint | ⟨rect,hrect,hreached⟩)
      · exact .inl hpoint
      · rcases reached_contains hreached with hwraps | hcontains
        · exact (h rect hrect).2 hwraps hreached
        · exact .inr ⟨rect,hrect,hcontains⟩
    · rintro (hpoint | ⟨rect,hrect,hcontains⟩)
      · exact .inl hpoint
      · rcases contains_reached hcontains with hwraps | hreached
        · exact (h rect hrect).1 hwraps hcontains
        · exact .inr ⟨rect,hrect,hreached⟩
  · intro h rect hrect
    exact ⟨fun _ hcontains => h.mpr (.inr ⟨rect,hrect,hcontains⟩),
      fun _ hreached => h.mp (.inr ⟨rect,hrect,hreached⟩)⟩

end Casts

/-! ### An image that shows every patch -/

/-- A signalling NaN, which the conversions make quiet. -/
def signalling : UInt16 := 0x7c01

theorem floatToHalf_mean_signalling (width height : Nat) (x y : Int) (c : Nat) :
    floatToHalf (Picture.mean (fun _ => signalling) width height x y c) ≠ signalling := by
  have hlength : ((neighbours x y).filter (inImage width height)).length ≤ 4 :=
    List.length_filter_le _ _
  have hmap : ((neighbours x y).filter (inImage width height)).map
      (fun p => Picture.sample (fun _ => signalling) width height p.1 p.2 c) =
      List.replicate ((neighbours x y).filter (inImage width height)).length
        (halfToFloat signalling) := List.map_const' ..
  have hquiet : ∀ n ≤ 4, floatToHalf (if n = 0 then halfToFloat signalling else
      (List.replicate n (halfToFloat signalling)).foldl (· + ·) 0 / n.toUInt32.toFloat32) ≠
        signalling := by
    decide +kernel
  have hvalue := hquiet _ hlength
  rw [← hmap] at hvalue
  exact hvalue

/-- For lists over 32-bit coordinates: exactly the listed pixels of every image of a size are
patched, exactly where the rectangles that wrap do not show. -/
theorem patches_listed_iff (points : List BadPoint) (rects : List BadRect) {width height : Nat}
    (hw : width < 2^31) (hh : height < 2^31) :
    PatchesListed points rects width height ↔
      ∀ x < width, ∀ y < height, WrapsHidden points rects x y := by
  constructor
  · intro h x hx y hy
    rw [wrapsHidden_iff, ← listedPixel_iff hw hh hx hy]
    have hblank := Holds.replicate kChannels width height signalling
    obtain ⟨out,hout,hlisted⟩ := h _ _ [] hblank
    obtain ⟨out',hout',hpatched⟩ := applyBadPixels_ok [] hblank points rects
    obtain rfl : out = out' := Except.ok.inj (hout.symm.trans hout')
    have hcell : InImage kChannels width height (x,y,0) := ⟨hx,hy,Nat.succ_pos 3⟩
    have hsame := (hpatched.cell _ hcell).symm.trans (hlisted.cell _ hcell)
    have hmean := floatToHalf_mean_signalling width height x y 0
    simp only [patchPicture, Option.some.injEq, decide_eq_true_eq, Nat.ofNat_pos,
      and_true] at hsame
    by_cases hcode : listedPixel points rects width height x y = true
    · by_cases hspec : Listed points rects x y
      · exact iff_of_true hcode hspec
      · rw [if_pos hcode, if_neg hspec] at hsame
        exact absurd hsame hmean
    · by_cases hspec : Listed points rects x y
      · rw [if_neg hcode, if_pos hspec] at hsame
        exact absurd hsame.symm hmean
      · exact iff_of_false hcode hspec
  · intro h picture src dst hsrc
    obtain ⟨out,hout,hpatched⟩ := applyBadPixels_ok dst hsrc points rects
    refine ⟨out,hout,hpatched.congr fun p hp => ?_⟩
    have hsame := (listedPixel_iff hw hh hp.1 hp.2.1).trans (wrapsHidden_iff.mp (h _ hp.1 _ hp.2.1))
    simp only [patchPicture, decide_eq_true_eq, hsame]

/-- One point and a rectangle around it, neither with a bound from `2^31` on. -/
theorem point_in_rect_patched : PatchesListed [⟨1,1⟩] [⟨0,0,2,3⟩] 4 4 := by
  refine (patches_listed_iff [⟨1,1⟩] [⟨0,0,2,3⟩] (by decide) (by decide)).mpr ?_
  intro x _ y _ rect hrect
  rw [List.mem_singleton.mp hrect]
  exact ⟨fun h => absurd h (by decide),fun h => absurd h (by decide)⟩

/-- A bright pixel to the left of a black one. -/
def spot : Picture := fun p => if p.1 = 0 then 0x3c00 else 0

/-- The rectangle of the first column with the bottom at `2^31` patches nothing. -/
theorem bottom_wraps_to_nothing : ¬ PatchesListed [] [⟨0,0,0x80000000,1⟩] 2 1 := by
  intro h
  have hsrc : Holds kChannels 2 1 [0x3c00,0x3c00,0x3c00,0x3c00,0,0,0,0] spot := by
    have hcells : ∀ x < 2, ∀ y < 1, ∀ c < kChannels,
        ([0x3c00,0x3c00,0x3c00,0x3c00,0,0,0,0] : Image)[Library.Raster.offset kChannels 2
          (x,y,c)]? = some (spot (x,y,c)) := by
      decide
    exact ⟨rfl,fun p hp => hcells _ hp.1 _ hp.2.1 _ hp.2.2⟩
  obtain ⟨out,hout,hlisted⟩ := h _ _ [] hsrc
  have hkept : applyBadPixels [] [⟨0,0,0x80000000,1⟩] [0x3c00,0x3c00,0x3c00,0x3c00,0,0,0,0] 2 1 [] =
      .ok [0x3c00,0x3c00,0x3c00,0x3c00,0,0,0,0] := by
    decide +kernel
  obtain rfl := Except.ok.inj (hout.symm.trans hkept)
  have hcell := hlisted.cell (0,0,0) ⟨by decide,by decide,by decide⟩
  have hpatched : patchPicture (fun x y => decide (Listed [] [⟨0,0,0x80000000,1⟩] x y)) 2 1 spot
      (0,0,0) = 0 := by
    decide +kernel
  rw [hpatched] at hcell
  exact absurd hcell (by decide)

end Cpipe.Nodes.DngOpcodeList3
