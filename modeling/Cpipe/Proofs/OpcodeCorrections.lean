import Cpipe.Nodes.DngOpcodeList3Dispatch
import Cpipe.Proofs.OpcodeList3

/-! The corrections as functions on pictures, and that the kernel computes them. -/

namespace Cpipe.Nodes.DngOpcodeList3
open Ingest.OpcodeList3 Library.Bytes Library.Ieee
open Library.Raster (load store scatter pixels channelsOf InImage Holds mem_pixels mem_channelsOf
  foldlM_scatter)
open Library.Checked (bind_ok)
open Float16 (floatToHalf halfToFloat)

/-- A picture: the value of each channel of each pixel. -/
abbrev Picture := Nat × Nat × Nat → UInt16

/-! ### Samples -/

namespace Picture

variable (picture : Picture) (width height : Nat)

def sample (x y : Int) (c : Nat) : Float32 :=
  halfToFloat (picture (clampIndex x width,clampIndex y height,c))

def row (x y : Int) (c : Nat) (t : Float32) : Float32 :=
  cubic (picture.sample width height (x - 1) y c) (picture.sample width height x y c)
    (picture.sample width height (x + 1) y c) (picture.sample width height (x + 2) y c) t

/-- Mean of the neighbours of a pixel, and the pixel itself without any. -/
def mean (x y : Int) (c : Nat) : Float32 :=
  let near := (neighbours x y).filter (inImage width height)
  if near.length = 0 then
    picture.sample width height x y c
  else
    (near.map (fun p => picture.sample width height p.1 p.2 c)).foldl (· + ·) 0 /
      near.length.toUInt32.toFloat32

end Picture

section Samples

variable {width height : Nat} {src : Image} {picture : Picture} {c : Nat}

theorem clampIndex_lt {extent : Nat} (h : 0 < extent) (v : Int) : clampIndex v extent < extent := by
  unfold clampIndex
  omega

variable (h : Holds kChannels width height src picture) (hw : 0 < width) (hh : 0 < height)
  (hc : c < kChannels)

include h hw hh hc

theorem samplePixel_ok (x y : Int) :
    samplePixel src width height x y c = .ok (picture.sample width height x y c) := by
  refine bind_ok.mpr ⟨_,h.load ⟨clampIndex_lt hw x,clampIndex_lt hh y,hc⟩,rfl⟩

theorem sampleRow_ok (x y : Int) (t : Float32) :
    sampleRow src width height x y c t = .ok (picture.row width height x y c t) := by
  unfold sampleRow
  simp only [samplePixel_ok h hw hh hc]
  rfl

theorem patchedChannel_ok (x y : Int) :
    patchedChannel src width height x y c = .ok (picture.mean width height x y c) := by
  have hall (ps : List (Int × Int)) :
      ps.mapM (fun p => samplePixel src width height p.1 p.2 c) =
        .ok (ps.map (fun p => picture.sample width height p.1 p.2 c)) := by
    induction ps with
    | nil => rfl
    | cons p ps ih =>
      rw [List.mapM_cons, samplePixel_ok h hw hh hc, ih]
      rfl
  refine bind_ok.mpr ⟨_,hall _,?_⟩
  rw [samplePixel_ok h hw hh hc, Picture.mean]
  split <;> rfl

end Samples

/-! ### The corrections -/

section Corrections

variable {K : Type} [Field K] [LinearOrder K] [FloorRing K] (conv : Conversions K)

def Picture.bicubic (picture : Picture) (width height : Nat) (x y : K) (c : Nat) : Float32 :=
  let x := clampCoordinate x width
  let y := clampCoordinate y height
  let row (dy : Int) := picture.row width height ⌊x⌋ (⌊y⌋ + dy) c (conv.toFloat (x - ⌊x⌋))
  cubic (row (-1)) (row 0) (row 1) (row 2) (conv.toFloat (y - ⌊y⌋))

/-- The coefficients of a channel: those of the last plane for the channels behind it. -/
def planeCoefficient (warp : WarpRectilinear) (c : Nat) : WarpCoefficient :=
  warp.coefficients.getD (min c (warp.coefficients.length - 1)) ⟨⟨0⟩,⟨0⟩,⟨0⟩,⟨0⟩,⟨0⟩,⟨0⟩⟩

/-- Nothing is corrected in an image of one row or column, nor around a degenerate centre. -/
def centred (cxHat cyHat : Double) (width height : Nat) : Bool :=
  decide (1 < width ∧ 1 < height ∧ epsilon < (frame conv cxHat cyHat width height).m)

def warpPicture (warp : WarpRectilinear) (width height : Nat) (picture : Picture) : Picture :=
  fun p =>
    if centred conv warp.cxHat warp.cyHat width height then
      let f := frame conv warp.cxHat warp.cyHat width height
      let source := warpSource conv f (planeCoefficient warp p.2.2) p.1 p.2.1
      floatToHalf (picture.bicubic conv width height source.1 source.2 p.2.2)
    else
      picture p

def vignettePicture (vignette : FixVignetteRadial) (width height : Nat) (picture : Picture) :
    Picture :=
  fun p =>
    if centred conv vignette.cxHat vignette.cyHat width height ∧ p.2.2 < 3 then
      let f := frame conv vignette.cxHat vignette.cyHat width height
      floatToHalf (conv.toFloat (conv.ofFloat (halfToFloat (picture p)) *
        vignetteGain conv f vignette.k p.1 p.2.1))
    else
      picture p

/-- The colour channels of some pixels become the mean of their neighbours. -/
def patchPicture (bad : Nat → Nat → Bool) (width height : Nat) (picture : Picture) : Picture :=
  fun p =>
    if bad p.1 p.2.1 ∧ p.2.2 < 3 then
      floatToHalf (picture.mean width height p.1 p.2.1 p.2.2)
    else
      picture p

def constantPixel (constant : UInt32) (width height : Nat) (picture : Picture) (x y : Nat) : Bool :=
  (List.range 3).any (fun c =>
    absolute (picture.sample width height x y c - constant.toFloat32) ≤ 0.0001)

/-- The pixels that the two loops over a list come to. -/
def listedPixel (points : List BadPoint) (rects : List BadRect) (width height : Nat) (x y : Nat) :
    Bool :=
  points.any (fun point => pointPixel point == ((x : Int),(y : Int))) ||
    rects.any (fun rect => (rectPixels width height rect).contains ((x : Int),(y : Int)))

def trimPicture (trim : TrimBounds) (picture : Picture) : Picture :=
  fun p =>
    if trim.top.toNat ≤ p.2.1 ∧ p.2.1 < trim.bottom.toNat ∧ trim.left.toNat ≤ p.1 ∧
        p.1 < trim.right.toNat then picture p
    else floatToHalf 0

/-- The image function of an opcode. An unknown one changes nothing. -/
def opcodePicture (width height : Nat) (picture : Picture) (opcode : Opcode) : Picture :=
  match opcode.id with
  | .unknown => picture
  | .warpRectilinear =>
    opcode.warpRectilinear.elim picture (fun w => warpPicture conv w width height picture)
  | .fixVignetteRadial =>
    opcode.fixVignetteRadial.elim picture (fun v => vignettePicture conv v width height picture)
  | .fixBadPixelsConstant =>
    opcode.fixBadPixelsConstant.elim picture (fun fix =>
      patchPicture (constantPixel fix.constant width height picture) width height picture)
  | .fixBadPixelsList =>
    opcode.fixBadPixelsList.elim picture (fun fix =>
      patchPicture (listedPixel fix.badPoints fix.badRects width height) width height picture)
  | .trimBounds => opcode.trimBounds.elim picture (fun t => trimPicture t picture)

end Corrections

/-! ### The loops -/

theorem mem_cellsOf {width height n : Nat} {p : Nat × Nat × Nat} :
    p ∈ cellsOf width height n ↔ p.1 < width ∧ p.2.1 < height ∧ p.2.2 < n := by
  simp only [cellsOf, List.mem_flatMap, mem_pixels, mem_channelsOf]
  constructor
  · rintro ⟨q,⟨hx,hy⟩,h1,h2,h3⟩
    exact ⟨h1 ▸ hx,h2 ▸ hy,h3⟩
  · rintro ⟨hx,hy,hc⟩
    exact ⟨(p.1,p.2.1),⟨hx,hy⟩,rfl,rfl,hc⟩

/-- A loop over some channels of all pixels. -/
theorem scatter_cells {width height n : Nat} {src : Image} {picture picture' : Picture}
    (value : Nat × Nat × Nat → Except Fault UInt16) (h : Holds kChannels width height src picture)
    (hn : n ≤ kChannels) (hvalue : ∀ p, InImage n width height p → value p = .ok (picture' p))
    (hkept : ∀ p, InImage kChannels width height p → ¬ p.2.2 < n → picture' p = picture p) :
    ∃ out, scatter (pixelOffset width) value (cellsOf width height n) src = .ok out ∧
      Holds kChannels width height out picture' := by
  obtain ⟨out,hout,hholds⟩ := h.scatter (cellsOf width height n) value picture'
    (fun p hp => by
      obtain ⟨hx,hy,hc⟩ := mem_cellsOf.mp hp
      exact ⟨hx,hy,lt_of_lt_of_le hc hn⟩)
    (fun p hp => hvalue p (mem_cellsOf.mp hp))
  refine ⟨out,hout,hholds.congr fun p hp => ?_⟩
  by_cases hc : p.2.2 < n
  · rw [if_pos (mem_cellsOf.mpr ⟨hp.1,hp.2.1,hc⟩)]
  · rw [if_neg (fun hmem => hc (mem_cellsOf.mp hmem).2.2), hkept p hp hc]

section Loops

variable {K : Type} [Field K] [LinearOrder K] [FloorRing K]
  {conv : Conversions K} {width height : Nat} {src dst : Image} {picture : Picture}
  {record : Opcode3DispatchRecord}

variable (h : Holds kChannels width height src picture) (hw : 0 < width) (hh : 0 < height)

include h hw hh

theorem sampleBicubic_ok {c : Nat} (hc : c < kChannels) (x y : K) :
    sampleBicubic conv src width height x y c =
      .ok (picture.bicubic conv width height x y c) := by
  unfold sampleBicubic
  simp only [sampleRow_ok h hw hh hc]
  simp only [Picture.bicubic, Int.add_zero, ← Int.sub_eq_add_neg]
  rfl

theorem applyWarp_ok {warp : WarpRectilinear} (hcount : record.coefficientCount ≠ 0)
    (hcoefficient : ∀ c < kChannels, warpCoefficient record c = planeCoefficient warp c)
    (hcx : record.cxHat = warp.cxHat) (hcy : record.cyHat = warp.cyHat) :
    ∃ out, applyWarp conv record src width height dst = .ok out ∧
      Holds kChannels width height out (warpPicture conv warp width height picture) := by
  unfold applyWarp
  rw [hcx, hcy]
  by_cases hsmall : width ≤ 1 ∨ height ≤ 1
  · refine ⟨src,if_pos (.inr hsmall),h.congr fun p _ => ?_⟩
    rw [warpPicture, if_neg]
    simp only [centred, decide_eq_true_eq]
    omega
  rw [if_neg (by tauto)]
  by_cases hm : (frame conv warp.cxHat warp.cyHat width height).m ≤ epsilon
  · refine ⟨src,if_pos hm,h.congr fun p _ => ?_⟩
    rw [warpPicture, if_neg]
    simp only [centred, decide_eq_true_eq]
    exact fun hall => absurd hm (not_le.mpr hall.2.2)
  rw [if_neg hm]
  have hcentred : centred conv warp.cxHat warp.cyHat width height = true := by
    simp only [centred, decide_eq_true_eq]
    exact ⟨by omega,by omega,not_le.mp hm⟩
  refine scatter_cells _ h le_rfl (fun p hp => ?_) (fun p hp hc => absurd hp.2.2 hc)
  rw [warpPicture, if_pos hcentred]
  unfold warpValue
  rw [hcoefficient _ hp.2.2]
  exact bind_ok.mpr ⟨_,sampleBicubic_ok h hw hh hp.2.2 _ _,rfl⟩

omit [FloorRing K] hw hh in
theorem applyVignette_ok {vignette : FixVignetteRadial} (hk : record.vignetteK = vignette.k)
    (hcx : record.vignetteCxHat = vignette.cxHat) (hcy : record.vignetteCyHat = vignette.cyHat) :
    ∃ out, applyVignette conv record src width height dst = .ok out ∧
      Holds kChannels width height out (vignettePicture conv vignette width height picture) := by
  unfold applyVignette
  rw [hcx, hcy]
  by_cases hsmall : width ≤ 1 ∨ height ≤ 1
  · refine ⟨src,if_pos hsmall,h.congr fun p _ => ?_⟩
    rw [vignettePicture, if_neg]
    simp only [centred, decide_eq_true_eq]
    omega
  rw [if_neg hsmall]
  by_cases hm : (frame conv vignette.cxHat vignette.cyHat width height).m ≤ epsilon
  · refine ⟨src,if_pos hm,h.congr fun p _ => ?_⟩
    rw [vignettePicture, if_neg]
    simp only [centred, decide_eq_true_eq]
    exact fun hall => absurd hm (not_le.mpr hall.1.2.2)
  rw [if_neg hm]
  have hcentred : centred conv vignette.cxHat vignette.cyHat width height = true := by
    simp only [centred, decide_eq_true_eq]
    exact ⟨by omega,by omega,not_le.mp hm⟩
  refine scatter_cells _ h (by decide) (fun p hp => ?_) (fun p hp hc => ?_)
  · rw [vignettePicture, if_pos ⟨hcentred,hp.2.2⟩]
    unfold vignetteValue
    rw [show load src (pixelOffset width p) = .ok (picture p) from
      h.load ⟨hp.1,hp.2.1,lt_trans hp.2.2 (by decide)⟩, hk]
    rfl
  · rw [vignettePicture, if_neg (fun hall => hc hall.2)]

end Loops

section Patches

variable {width height : Nat} {src dst : Image} {picture : Picture}

/-- The stores of a loop over pixels to patch. -/
def patchedCells (width height : Nat) (p : Int × Int) : List (Nat × Nat × Nat) :=
  if inImage width height p then channelsOf 3 (p.1.toNat,p.2.toNat) else []

theorem patchPixel_scatter (p : Int × Int) :
    patchPixel src width height p dst =
      scatter (pixelOffset width) (patchValue src width height) (patchedCells width height p)
        dst := by
  unfold patchPixel patchedCells
  cases inImage width height p with
  | true => rfl
  | false => rfl

theorem mem_patchedCells {p : Int × Int} {q : Nat × Nat × Nat} :
    q ∈ patchedCells width height p ↔
      q.1 < width ∧ q.2.1 < height ∧ q.2.2 < 3 ∧ p = ((q.1 : Int),(q.2.1 : Int)) := by
  obtain ⟨px,py⟩ := p
  obtain ⟨x,y,c⟩ := q
  unfold patchedCells
  split
  · rename_i hin
    simp only [inImage, Bool.and_eq_true, decide_eq_true_eq] at hin
    simp only [mem_channelsOf, Prod.mk.injEq]
    omega
  · rename_i hin
    simp only [inImage, Bool.and_eq_true, decide_eq_true_eq] at hin
    simp only [List.not_mem_nil, Prod.mk.injEq, false_iff]
    omega

/-- A loop of patches from the unpatched image patches the pixels it comes to. -/
theorem patches_ok (h : Holds kChannels width height src picture) (ps : List (Int × Int)) :
    ∃ out, ps.foldlM (fun dst p => patchPixel src width height p dst) src = .ok out ∧
      Holds kChannels width height out (patchPicture (fun x y => ps.contains ((x : Int),(y : Int)))
        width height picture) := by
  simp only [patchPixel_scatter, foldlM_scatter]
  have hmem (q : Nat × Nat × Nat) : q ∈ ps.flatMap (patchedCells width height) ↔
      q.1 < width ∧ q.2.1 < height ∧ q.2.2 < 3 ∧ ((q.1 : Int),(q.2.1 : Int)) ∈ ps := by
    simp only [List.mem_flatMap, mem_patchedCells]
    constructor
    · rintro ⟨p,hp,hx,hy,hc,rfl⟩
      exact ⟨hx,hy,hc,hp⟩
    · rintro ⟨hx,hy,hc,hp⟩
      exact ⟨_,hp,hx,hy,hc,rfl⟩
  obtain ⟨out,hout,hholds⟩ := h.scatter (ps.flatMap (patchedCells width height))
    (patchValue src width height)
    (fun q => floatToHalf (picture.mean width height q.1 q.2.1 q.2.2))
    (fun q hq => by
      obtain ⟨hx,hy,hc,-⟩ := (hmem q).mp hq
      exact ⟨hx,hy,lt_trans hc (by decide)⟩)
    (fun q hq => by
      obtain ⟨hx,hy,hc,-⟩ := (hmem q).mp hq
      exact bind_ok.mpr ⟨_,patchedChannel_ok h (by omega) (by omega)
        (lt_trans hc (by decide)) _ _,rfl⟩)
  refine ⟨out,hout,hholds.congr fun q hq => ?_⟩
  simp only [patchPicture, List.contains_iff_mem]
  by_cases hpatched : q ∈ ps.flatMap (patchedCells width height)
  · obtain ⟨-,-,hc,hp⟩ := (hmem q).mp hpatched
    rw [if_pos hpatched, if_pos ⟨hp,hc⟩]
  · rw [if_neg hpatched, if_neg]
    exact fun hbad => hpatched ((hmem q).mpr ⟨hq.1,hq.2.1,hbad.2,hbad.1⟩)

theorem foldlM_flatMap {α β σ : Type} (f : σ → β → Except Fault σ) (g : α → List β)
    (xs : List α) : ∀ s, (xs.flatMap g).foldlM f s = xs.foldlM (fun s x => (g x).foldlM f s) s := by
  induction xs with
  | nil =>
    intro s
    rfl
  | cons x xs ih =>
    intro s
    rw [List.flatMap_cons, List.foldlM_append, List.foldlM_cons]
    congr 1
    funext s'
    exact ih s'

/-- The pixels of the two loops over a list, in their order. -/
def listPixels (points : List BadPoint) (rects : List BadRect) (width height : Nat) :
    List (Int × Int) :=
  points.map pointPixel ++ rects.flatMap (rectPixels width height)

theorem applyBadPixels_eq (points : List BadPoint) (rects : List BadRect) :
    applyBadPixels points rects src width height dst =
      (listPixels points rects width height).foldlM
        (fun dst p => patchPixel src width height p dst) src := by
  rw [listPixels, List.foldlM_append, List.foldlM_map]
  simp only [foldlM_flatMap]
  rfl

theorem listedPixel_eq (points : List BadPoint) (rects : List BadRect) (x y : Nat) :
    listedPixel points rects width height x y =
      (listPixels points rects width height).contains ((x : Int),(y : Int)) := by
  rw [Bool.eq_iff_iff]
  simp only [listedPixel, listPixels, List.contains_iff_mem, List.mem_append, List.mem_map,
    List.mem_flatMap, Bool.or_eq_true, List.any_eq_true, beq_iff_eq]

variable (dst) in
theorem applyBadPixels_ok (h : Holds kChannels width height src picture)
    (points : List BadPoint) (rects : List BadRect) :
    ∃ out, applyBadPixels points rects src width height dst = .ok out ∧
      Holds kChannels width height out (patchPicture (listedPixel points rects width height)
        width height picture) := by
  rw [applyBadPixels_eq]
  simp only [funext₂ (listedPixel_eq points rects)]
  exact patches_ok h _

theorem hasConstant_ok (h : Holds kChannels width height src picture) (constant : UInt32)
    {p : Nat × Nat} (hp : p.1 < width ∧ p.2 < height) :
    hasConstant constant.toFloat32 src width height p =
      .ok (constantPixel constant width height picture p.1 p.2) := by
  have hsample {c : Nat} (hc : c < kChannels) := samplePixel_ok h (by omega) (by omega) hc p.1 p.2
  unfold hasConstant
  simp only [List.range_succ, List.range_zero, List.nil_append, List.cons_append, List.mapM_cons,
    List.mapM_nil, hsample (c := 0) (by decide), hsample (c := 1) (by decide),
    hsample (c := 2) (by decide)]
  rfl

theorem applyBadPixelsConstant_ok (h : Holds kChannels width height src picture)
    (record : Opcode3DispatchRecord) :
    ∃ out, applyBadPixelsConstant record src width height dst = .ok out ∧
      Holds kChannels width height out (patchPicture
        (constantPixel record.constant width height picture) width height picture) := by
  let bad (p : Nat × Nat) := constantPixel record.constant width height picture p.1 p.2
  have hloop (ps : List (Nat × Nat)) (hps : ∀ p ∈ ps, p.1 < width ∧ p.2 < height) (start : Image) :
      ps.foldlM (fun dst p => do
        if ← hasConstant record.constant.toFloat32 src width height p then
          patchPixel src width height (p.1,p.2) dst
        else
          return dst) start =
      ((ps.filter bad).map (fun p => ((p.1 : Int),(p.2 : Int)))).foldlM
        (fun dst p => patchPixel src width height p dst) start := by
    induction ps generalizing start with
    | nil => rfl
    | cons p ps ih =>
      have hrest := ih fun q hq => hps q (List.mem_cons_of_mem p hq)
      rw [List.foldlM_cons, hasConstant_ok h _ (hps p List.mem_cons_self), List.filter_cons]
      cases hb : constantPixel record.constant width height picture p.1 p.2 with
      | true =>
        simp only [bad, hb, if_true, List.map_cons, List.foldlM_cons]
        exact bind_congr hrest
      | false =>
        simp only [bad, hb, Bool.false_eq_true, if_false]
        exact hrest start
  obtain ⟨out,hout,hholds⟩ := patches_ok h
    (((pixels width height).filter bad).map (fun p => ((p.1 : Int),(p.2 : Int))))
  refine ⟨out,?_,hholds.congr fun q hq => ?_⟩
  · rw [← hout]
    exact hloop _ (fun p hp => mem_pixels.mp hp) src
  · have hmem : (((pixels width height).filter bad).map
        (fun p => ((p.1 : Int),(p.2 : Int)))).contains ((q.1 : Int),(q.2.1 : Int)) =
        constantPixel record.constant width height picture q.1 q.2.1 := by
      rw [Bool.eq_iff_iff]
      simp only [List.contains_iff_mem, List.mem_map, List.mem_filter, mem_pixels, Prod.mk.injEq,
        Int.natCast_inj]
      constructor
      · rintro ⟨p,⟨-,hb⟩,h1,h2⟩
        rw [← h1, ← h2]
        exact hb
      · intro hb
        exact ⟨(q.1,q.2.1),⟨⟨hq.1,hq.2.1⟩,hb⟩,rfl,rfl⟩
    simp only [patchPicture, hmem]

theorem insideBounds_iff (record : Opcode3DispatchRecord) {x y : Nat} (hx : x < 2^32)
    (hy : y < 2^32) : insideBounds record x y = true ↔
      record.top.toNat ≤ y ∧ y < record.bottom.toNat ∧ record.left.toNat ≤ x ∧
        x < record.right.toNat := by
  simp only [insideBounds, Bool.and_eq_true, decide_eq_true_eq, UInt32.le_iff_toNat_le,
    UInt32.lt_iff_toNat_lt, toNat_ofNat_lt hx, toNat_ofNat_lt hy]
  tauto

theorem applyTrimBounds_ok (h : Holds kChannels width height src picture)
    (hw : width < 2^32) (hh : height < 2^32) {record : Opcode3DispatchRecord} {trim : TrimBounds}
    (htop : record.top = trim.top) (hleft : record.left = trim.left)
    (hbottom : record.bottom = trim.bottom) (hright : record.right = trim.right) :
    ∃ out, applyTrimBounds record src width height dst = .ok out ∧
      Holds kChannels width height out (trimPicture trim picture) := by
  let cells (p : Nat × Nat) := if insideBounds record p.1 p.2 then [] else channelsOf kChannels p
  have hstep (dst : Image) (p : Nat × Nat) :
      (if insideBounds record p.1 p.2 then (return dst : Except Fault Image)
        else scatter (pixelOffset width) (fun _ => .ok (floatToHalf 0)) (channelsOf kChannels p)
          dst) =
      scatter (pixelOffset width) (fun _ => .ok (floatToHalf 0)) (cells p) dst := by
    simp only [cells]
    split <;> rfl
  have hmem (q : Nat × Nat × Nat) : q ∈ (pixels width height).flatMap cells ↔
      InImage kChannels width height q ∧ insideBounds record q.1 q.2.1 = false := by
    simp only [List.mem_flatMap, mem_pixels, cells]
    constructor
    · rintro ⟨p,⟨hx,hy⟩,hq⟩
      split at hq
      · cases hq
      · rename_i hout
        obtain ⟨h1,h2,hc⟩ := mem_channelsOf.mp hq
        rw [h1, h2]
        exact ⟨⟨h1 ▸ hx,h2 ▸ hy,hc⟩,by simpa using hout⟩
    · rintro ⟨⟨hx,hy,hc⟩,hout⟩
      refine ⟨(q.1,q.2.1),⟨hx,hy⟩,?_⟩
      rw [if_neg (by simp [hout])]
      exact mem_channelsOf.mpr ⟨rfl,rfl,hc⟩
  unfold applyTrimBounds
  simp only [hstep, foldlM_scatter]
  obtain ⟨out,hout,hholds⟩ := h.scatter ((pixels width height).flatMap cells)
    (fun _ => .ok (floatToHalf 0)) (fun _ => floatToHalf 0) (fun q hq => ((hmem q).mp hq).1)
    (fun _ _ => rfl)
  refine ⟨out,hout,hholds.congr fun q hq => ?_⟩
  have hinside := insideBounds_iff record (lt_trans hq.1 hw) (lt_trans hq.2.1 hh)
  rw [htop, hleft, hbottom, hright] at hinside
  simp only [trimPicture, hmem, hq, true_and]
  by_cases hin : insideBounds record q.1 q.2.1 = true
  · rw [if_neg (by simp [hin]), if_pos (hinside.mp hin)]
  · rw [if_pos (by simpa using hin), if_neg (fun hall => hin (hinside.mpr hall))]

end Patches

end Cpipe.Nodes.DngOpcodeList3
