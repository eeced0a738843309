import Cpipe.Library.Raster
import Cpipe.Nodes.DngOpcodeList3
import Cpipe.Nodes.Float16
import Cpipe.Runtime.HalidePlane
import Mathlib.Algebra.Order.Floor.Defs
import Mathlib.Algebra.Order.Field.Basic

namespace Cpipe.Nodes.DngOpcodeList3
open Ingest.OpcodeList3 Library.Bytes Library.Ieee
open Library.Raster (load store scatter pixels channelsOf)
open Float16 (floatToHalf halfToFloat)
open Runtime.HalideBufferAdapter (Dimension)
open Runtime.HalidePlane (checkedIndex)

/-! ### Pixels -/

abbrev Image := List UInt16

def kChannels : Nat := 4

def pixelOffset (width : Nat) (p : Nat × Nat × Nat) : Nat :=
  Library.Raster.offset kChannels width p

/-- `std::clamp(v, 0, extent - 1)`. -/
def clampIndex (v : Int) (extent : Nat) : Nat := (max 0 (min v (extent - 1))).toNat

def samplePixel (image : Image) (width height : Nat) (x y : Int) (c : Nat) :
    Except Fault Float32 := do
  let bits ← load image (pixelOffset width (clampIndex x width,clampIndex y height,c))
  return halfToFloat bits

def cubic (p0 p1 p2 p3 t : Float32) : Float32 :=
  let a0 := (-0.5*p0) + (1.5*p1) - (1.5*p2) + (0.5*p3)
  let a1 := p0 - (2.5*p1) + (2.0*p2) - (0.5*p3)
  let a2 := (-0.5*p0) + (0.5*p2)
  (((a0*t) + a1)*t + a2)*t + p1

/-- One row of four samples from `x` on. -/
def sampleRow (image : Image) (width height : Nat) (x y : Int) (c : Nat) (t : Float32) :
    Except Fault Float32 := do
  let p0 ← samplePixel image width height (x - 1) y c
  let p1 ← samplePixel image width height x y c
  let p2 ← samplePixel image width height (x + 1) y c
  let p3 ← samplePixel image width height (x + 2) y c
  return cubic p0 p1 p2 p3 t

/-! ### Coordinates -/

/-- What the kernel does with a `double` besides field arithmetic, comparison and
`std::floor`. -/
structure Conversions (K : Type) where
  ofDouble : Double → K
  ofFloat : Float32 → K
  toFloat : K → Float32
  sqrt : K → K

section Coordinates

variable {K : Type} [Field K] [LinearOrder K] [FloorRing K] (conv : Conversions K)

/-- `std::clamp(v, 0.0, extent - 1)`. -/
def clampCoordinate (v : K) (extent : Nat) : K :=
  if v < 0 then 0 else if (extent : K) - 1 < v then (extent : K) - 1 else v

def sampleBicubic (image : Image) (width height : Nat) (x y : K) (c : Nat) :
    Except Fault Float32 := do
  let x := clampCoordinate x width
  let y := clampCoordinate y height
  let ix := ⌊x⌋
  let iy := ⌊y⌋
  let tx := conv.toFloat (x - ix)
  let ty := conv.toFloat (y - iy)
  let row0 ← sampleRow image width height ix (iy - 1) c tx
  let row1 ← sampleRow image width height ix iy c tx
  let row2 ← sampleRow image width height ix (iy + 1) c tx
  let row3 ← sampleRow image width height ix (iy + 2) c tx
  return cubic row0 row1 row2 row3 ty

def maxCornerDistance (cx cy : K) (width height : Nat) : K :=
  let x1 := (width : K) - 1
  let y1 := (height : K) - 1
  let d00 := cx*cx + cy*cy
  let d10 := (x1 - cx)*(x1 - cx) + cy*cy
  let d01 := cx*cx + (y1 - cy)*(y1 - cy)
  let d11 := (x1 - cx)*(x1 - cx) + (y1 - cy)*(y1 - cy)
  conv.sqrt (max (max (max d00 d10) d01) d11)

local instance atLeastTwo : Nat.AtLeastTwo 2 := ⟨Nat.le_refl 2⟩

/-- `std::numeric_limits<double>::epsilon()`. -/
def epsilon : K := 1/2^52

/-- The centre of a correction and the distance it is normalised by. -/
structure Frame (K : Type) where
  cx : K
  cy : K
  m : K

def frame (cxHat cyHat : Double) (width height : Nat) : Frame K :=
  let cx := conv.ofDouble cxHat * ((width : K) - 1)
  let cy := conv.ofDouble cyHat * ((height : K) - 1)
  { cx, cy, m := maxCornerDistance conv cx cy width height }

/-- A pixel in the frame, and its squared distance. -/
def Frame.normalised (f : Frame K) (x y : Nat) : K × K × K :=
  let dx := ((x : K) - f.cx)/f.m
  let dy := ((y : K) - f.cy)/f.m
  (dx,dy,dx*dx + dy*dy)

/-- Where a channel of a pixel comes from. -/
def warpSource (f : Frame K) (k : WarpCoefficient) (x y : Nat) : K × K :=
  let (dx,dy,r2) := f.normalised x y
  let r4 := r2*r2
  let r6 := r4*r2
  let kt0 := conv.ofDouble k.kt0
  let kt1 := conv.ofDouble k.kt1
  let radial := conv.ofDouble k.kr0 + (conv.ofDouble k.kr1*r2) + (conv.ofDouble k.kr2*r4) +
    (conv.ofDouble k.kr3*r6)
  let tangentialX := (2*kt0*dx*dy) + (kt1*(r2 + 2*dx*dx))
  let tangentialY := (kt0*(r2 + 2*dy*dy)) + (2*kt1*dx*dy)
  (f.cx + (f.m*((radial*dx) + tangentialX)),f.cy + (f.m*((radial*dy) + tangentialY)))

/-- The coefficients of a vignette. -/
abbrev kVignetteTerms : Nat := 5

def vignetteGain (f : Frame K) (k : Vector Double kVignetteTerms) (x y : Nat) : K :=
  let (_,_,r2) := f.normalised x y
  let r4 := r2*r2
  let r6 := r4*r2
  let r8 := r4*r4
  let r10 := r8*r2
  1 + (conv.ofDouble k[0]*r2) + (conv.ofDouble k[1]*r4) + (conv.ofDouble k[2]*r6) +
    (conv.ofDouble k[3]*r8) + (conv.ofDouble k[4]*r10)

/-! ### Corrections -/

def copyImage (src : Image) (_dst : Image) : Image := src

/-- The coefficients of a channel: those of the last plane for the channels behind it. -/
def warpCoefficient (record : Opcode3DispatchRecord) (c : Nat) : WarpCoefficient :=
  record.coefficients.toList.getD (min c (record.coefficientCount.toNat - 1))
    ⟨⟨0⟩,⟨0⟩,⟨0⟩,⟨0⟩,⟨0⟩,⟨0⟩⟩

/-- The channels of an image, in the order of the three loops. -/
def cellsOf (width height channels : Nat) : List (Nat × Nat × Nat) :=
  (pixels width height).flatMap (channelsOf channels)

def warpValue (record : Opcode3DispatchRecord) (f : Frame K) (src : Image) (width height : Nat)
    (p : Nat × Nat × Nat) : Except Fault UInt16 := do
  let source := warpSource conv f (warpCoefficient record p.2.2) p.1 p.2.1
  let value ← sampleBicubic conv src width height source.1 source.2 p.2.2
  return floatToHalf value

def applyWarp (record : Opcode3DispatchRecord) (src : Image) (width height : Nat) (dst : Image) :
    Except Fault Image :=
  let dst := copyImage src dst
  if record.coefficientCount = 0 ∨ width ≤ 1 ∨ height ≤ 1 then
    return dst
  else
    let f := frame conv record.cxHat record.cyHat width height
    if f.m ≤ epsilon then
      return dst
    else
      scatter (pixelOffset width) (warpValue conv record f src width height)
        (cellsOf width height kChannels) dst

def vignetteValue (record : Opcode3DispatchRecord) (f : Frame K) (src : Image) (width : Nat)
    (p : Nat × Nat × Nat) : Except Fault UInt16 := do
  let bits ← load src (pixelOffset width p)
  let gain := vignetteGain conv f record.vignetteK p.1 p.2.1
  return floatToHalf (conv.toFloat (conv.ofFloat (halfToFloat bits)*gain))

def applyVignette (record : Opcode3DispatchRecord) (src : Image) (width height : Nat)
    (dst : Image) : Except Fault Image :=
  let dst := copyImage src dst
  if width ≤ 1 ∨ height ≤ 1 then
    return dst
  else
    let f := frame conv record.vignetteCxHat record.vignetteCyHat width height
    if f.m ≤ epsilon then
      return dst
    else
      scatter (pixelOffset width) (vignetteValue conv record f src width)
        (cellsOf width height 3) dst

end Coordinates

def neighbours (x y : Int) : List (Int × Int) := [(x - 1,y),(x + 1,y),(x,y - 1),(x,y + 1)]

def inImage (width height : Nat) (p : Int × Int) : Bool :=
  0 ≤ p.1 && p.1 < width && 0 ≤ p.2 && p.2 < height

/-- The mean of the neighbours inside the image, and the pixel itself without any. -/
def patchedChannel (src : Image) (width height : Nat) (x y : Int) (c : Nat) :
    Except Fault Float32 := do
  let near := (neighbours x y).filter (inImage width height)
  let samples ← near.mapM (fun p => samplePixel src width height p.1 p.2 c)
  if near.length = 0 then
    samplePixel src width height x y c
  else
    return samples.foldl (· + ·) 0 / near.length.toUInt32.toFloat32

def patchValue (src : Image) (width height : Nat) (p : Nat × Nat × Nat) : Except Fault UInt16 := do
  return floatToHalf (← patchedChannel src width height p.1 p.2.1 p.2.2)

def patchPixel (src : Image) (width height : Nat) (p : Int × Int) (dst : Image) :
    Except Fault Image :=
  if !inImage width height p then
    return dst
  else
    scatter (pixelOffset width) (patchValue src width height)
      (channelsOf 3 (p.1.toNat,p.2.toNat)) dst

def absolute (v : Float32) : Float32 := if v < 0 then -v else v

/-- Whether a channel of the pixel has the constant. -/
def hasConstant (constant : Float32) (src : Image) (width height : Nat) (p : Nat × Nat) :
    Except Fault Bool := do
  let values ← (List.range 3).mapM (fun c => samplePixel src width height p.1 p.2 c)
  return values.any (fun value => absolute (value - constant) ≤ 0.0001)

def applyBadPixelsConstant (record : Opcode3DispatchRecord) (src : Image) (width height : Nat)
    (dst : Image) : Except Fault Image :=
  (pixels width height).foldlM (fun dst p => do
    if ← hasConstant record.constant.toFloat32 src width height p then
      patchPixel src width height (p.1,p.2) dst
    else
      return dst) (copyImage src dst)

/-- The pixels of a rectangle after the casts to `int` and the cuts to the image. -/
def rectPixels (width height : Nat) (rect : BadRect) : List (Int × Int) :=
  let top := max 0 (min rect.top.toInt32.toInt height)
  let bottom := max 0 (min rect.bottom.toInt32.toInt height)
  let left := max 0 (min rect.left.toInt32.toInt width)
  let right := max 0 (min rect.right.toInt32.toInt width)
  (List.range' top.toNat (bottom - top).toNat).flatMap (fun (y : Nat) =>
    (List.range' left.toNat (right - left).toNat).map (fun (x : Nat) => ((x : Int),(y : Int))))

def pointPixel (point : BadPoint) : Int × Int :=
  (point.column.toInt32.toInt,point.row.toInt32.toInt)

/-- The two loops over a list of points and rectangles. -/
def applyBadPixels (points : List BadPoint) (rects : List BadRect) (src : Image)
    (width height : Nat) (dst : Image) : Except Fault Image := do
  let dst := copyImage src dst
  let dst ← points.foldlM (fun dst point =>
    patchPixel src width height (pointPixel point) dst) dst
  rects.foldlM (fun dst rect => (rectPixels width height rect).foldlM (fun dst p =>
    patchPixel src width height p dst) dst) dst

def insideBounds (record : Opcode3DispatchRecord) (x y : Nat) : Bool :=
  record.top ≤ UInt32.ofNat y && UInt32.ofNat y < record.bottom &&
    record.left ≤ UInt32.ofNat x && UInt32.ofNat x < record.right

def applyTrimBounds (record : Opcode3DispatchRecord) (src : Image) (width height : Nat)
    (dst : Image) : Except Fault Image :=
  (pixels width height).foldlM (fun dst p =>
    if insideBounds record p.1 p.2 then
      return dst
    else
      scatter (pixelOffset width) (fun _ => .ok (floatToHalf 0)) (channelsOf kChannels p) dst)
    (copyImage src dst)

/-! ### The blob -/

def loadCoefficient : Read WarpCoefficient := do
  let kr0 ← loadDouble
  let kr1 ← loadDouble
  let kr2 ← loadDouble
  let kr3 ← loadDouble
  let kt0 ← loadDouble
  let kt1 ← loadDouble
  return { kr0, kr1, kr2, kr3, kt0, kt1 }

def loadRecord : Read Opcode3DispatchRecord := do
  let head ← readMany readLE32 4
  let coefficients ← readMany loadCoefficient 4
  let doubles ← readMany loadDouble 9
  let words ← readMany readLE32 10
  let word (i : Nat) := words.getD i 0
  let double (i : Nat) := doubles.getD i ⟨0⟩
  return { id := head.getD 0 0, optional := head.getD 1 0, coefficientCount := head.getD 2 0
           coefficients := Vector.ofFn (fun i => coefficients.getD i ⟨⟨0⟩,⟨0⟩,⟨0⟩,⟨0⟩,⟨0⟩,⟨0⟩⟩)
           cxHat := double 0, cyHat := double 1
           vignetteK := Vector.ofFn (fun i => double (2 + i))
           vignetteCxHat := double 7, vignetteCyHat := double 8
           constant := word 0, bayerPhase := word 1, pointOffset := word 2, pointCount := word 3
           rectOffset := word 4, rectCount := word 5
           top := word 6, left := word 7, bottom := word 8, right := word 9 }

def loadPoint : Read BadPoint := do
  let row ← readLE32
  let column ← readLE32
  return { row, column }

def loadRect : Read BadRect := do
  let top ← readLE32
  let left ← readLE32
  let bottom ← readLE32
  let right ← readLE32
  return { top, left, bottom, right }

def sizeofHeader : Nat := 8

def sizeofRecord : Nat := 320

def sizeofPoint : Nat := 8

def sizeofRect : Nat := 16

/-- The records and where the two tables begin. -/
structure Tables where
  records : List Opcode3DispatchRecord
  pointsOffset : Nat
  rectsOffset : Nat

/-- The size of a table: the largest end of a slice. -/
def extent (offset count : Opcode3DispatchRecord → UInt32)
    (records : List Opcode3DispatchRecord) : Nat :=
  records.foldl (fun n r => max n ((offset r).toNat + (count r).toNat)) 0

def checkedParamBlob (blob : List UInt8) : Except Fault (Option Tables) :=
  if blob.length < sizeofHeader then
    return none
  else do
    let opcodeCount ← readLE32.run' { bytes := blob }
    let recordsBytes := opcodeCount.toNat*sizeofRecord
    if blob.length < sizeofHeader + recordsBytes then
      return none
    else
      let records ← (readMany loadRecord opcodeCount.toNat).run'
        { bytes := blob, offset := sizeofHeader }
      let pointCount := extent (·.pointOffset) (·.pointCount) records
      let rectCount := extent (·.rectOffset) (·.rectCount) records
      let pointsOffset := sizeofHeader + recordsBytes
      let rectsOffset := pointsOffset + pointCount*sizeofPoint
      if blob.length < rectsOffset + rectCount*sizeofRect then
        return none
      else
        return some { records, pointsOffset, rectsOffset }

/-- The points of a record's slice. -/
def recordPoints (blob : List UInt8) (tables : Tables) (record : Opcode3DispatchRecord) :
    Except Fault (List BadPoint) :=
  (List.range record.pointCount.toNat).mapM (fun i =>
    loadPoint.run'
      { bytes := blob, offset := tables.pointsOffset + (record.pointOffset.toNat + i)*sizeofPoint })

def recordRects (blob : List UInt8) (tables : Tables) (record : Opcode3DispatchRecord) :
    Except Fault (List BadRect) :=
  (List.range record.rectCount.toNat).mapM (fun i =>
    loadRect.run'
      { bytes := blob, offset := tables.rectsOffset + (record.rectOffset.toNat + i)*sizeofRect })

def applyBadPixelsList (blob : List UInt8) (tables : Tables) (record : Opcode3DispatchRecord)
    (src : Image) (width height : Nat) (dst : Image) : Except Fault Image := do
  let points ← recordPoints blob tables record
  let rects ← recordRects blob tables record
  applyBadPixels points rects src width height dst

/-! ### Buffers -/

/-- A buffer as the kernel sees it: its dimensions and its memory. -/
structure HalideBuffer where
  dims : List Dimension
  host : List UInt16

def HalideBuffer.dim (b : HalideBuffer) (i : Nat) : Dimension := b.dims.getD i ⟨0,0⟩

/-- The sum of 32-bit products that indexes the memory. -/
def HalideBuffer.offset (b : HalideBuffer) (p : Nat × Nat × Nat) : Int32 :=
  (Int32.ofNat p.2.1*(b.dim 1).stride) + (Int32.ofNat p.1*(b.dim 0).stride) +
    (Int32.ofNat p.2.2*(b.dim 2).stride)

def readImage (input : HalideBuffer) (width height : Nat) : Except Fault (Option Image) :=
  if input.dims.length ≠ 3 ∨ (input.dim 2).extent ≠ 4 then
    return none
  else
    some <$> scatter (pixelOffset width) (fun p => do
      load input.host (← checkedIndex input.host.length (input.offset p)))
      (cellsOf width height kChannels) (List.replicate (width*height*kChannels) 0)

def writeImage (image : Image) (output : HalideBuffer) (width height : Nat) :
    Except Fault (Option (List UInt16)) :=
  if output.dims.length ≠ 3 ∨ (output.dim 2).extent ≠ 4 ∨
      (output.dim 0).extent.toInt ≠ width ∨ (output.dim 1).extent.toInt ≠ height then
    return none
  else
    some <$> (cellsOf width height kChannels).foldlM (fun out p => do
      let v ← load image (pixelOffset width p)
      store out (← checkedIndex out.length (output.offset p)) v) output.host

/-! ### The kernel -/

section Kernel

variable {K : Type} [Field K] [LinearOrder K] [FloorRing K] (conv : Conversions K)

def applyCorrection (blob : List UInt8) (tables : Tables) (width height : Nat)
    (correction : Correction) (record : Opcode3DispatchRecord) (src dst : Image) :
    Except Fault Image :=
  match correction with
  | .warp => applyWarp conv record src width height dst
  | .vignette => applyVignette conv record src width height dst
  | .badPixelsConstant => applyBadPixelsConstant record src width height dst
  | .badPixelsList => applyBadPixelsList blob tables record src width height dst
  | .trimBounds => applyTrimBounds record src width height dst

/-- The loop over the records. The two images are swapped behind every correction. -/
def runRecords (blob : List UInt8) (tables : Tables) (width height : Nat) :
    List Opcode3DispatchRecord → Image → Image → Except Fault (Except Status Image)
  | [], working, _ => return .ok working
  | record :: records, working, next =>
    match dispatchRecord record.id (record.optional != 0) with
    | .error status => return .error status
    | .ok none => runRecords blob tables width height records working next
    | .ok (some correction) => do
      let next ← applyCorrection conv blob tables width height correction record working next
      runRecords blob tables width height records next working

/-- The kernel: its status and the memory of the output. -/
def lensDngOpcodeList3Param (blob : List UInt8) (input output : HalideBuffer) :
    Except Fault (Status × List UInt16) := do
  match ← checkedParamBlob blob with
  | none => return (.badIndex,output.host)
  | some tables =>
    let width := (input.dim 0).extent
    let height := (input.dim 1).extent
    if width ≤ 0 ∨ height ≤ 0 ∨ (output.dim 0).extent ≠ width ∨
        (output.dim 1).extent ≠ height then
      return (.badIndex,output.host)
    else
      let width := width.toInt.toNat
      let height := height.toInt.toNat
      match ← readImage input width height with
      | none => return (.badIndex,output.host)
      | some working =>
        match ← runRecords conv blob tables width height tables.records working working with
        | .error status => return (status,output.host)
        | .ok working =>
          match ← writeImage working output width height with
          | none => return (.badIndex,output.host)
          | some host => return (.ok,host)

end Kernel

end Cpipe.Nodes.DngOpcodeList3
