import Cpipe.Library.Raster
import Cpipe.Library.Rounding

/-! The 4:2:0 conversion in front of the HEIF encoder, in exact arithmetic. -/

namespace Cpipe.Color.HeifWriter
open Library.Bytes (Fault)
open Library.Raster (load store addAt pixels)
open Library.Rounding (roundAway)

/-- A view of four channels, with no memory behind a null pointer. -/
structure ImageView (σ : Type) where
  pixels : Option (List σ)
  width : UInt32
  height : UInt32
  stridePixels : UInt32
deriving DecidableEq, Repr

abbrev Rgba8ImageView := ImageView UInt8

abbrev Rgba16ImageView := ImageView UInt16

def validImage (image : ImageView σ) : Bool :=
  image.pixels.isSome && 0 < image.width && 0 < image.height &&
    image.width ≤ image.stridePixels && image.width ≤ 0x7fffffff && image.height ≤ 0x7fffffff

/-- `std::lround(std::clamp(value, 0.0F, 1.0F) * levels)`, clamped again. -/
def quantizeUnorm (levels : Nat) (value : ℚ) : Int :=
  let clamped := max 0 (min value 1)
  let rounded := roundAway (clamped*levels)
  max 0 (min rounded levels)

def quantizeUnorm8 (value : ℚ) : UInt8 := UInt8.ofInt (quantizeUnorm 255 value)

def quantizeUnorm10 (value : ℚ) : UInt16 := UInt16.ofInt (quantizeUnorm 1023 value)

/-- What the two conversions differ in. -/
structure Encoding (σ τ : Type) where
  sample : σ → ℚ
  quantize : ℚ → τ
  red : ℚ
  green : ℚ
  blue : ℚ
  cbRange : ℚ
  crRange : ℚ

def sdr : Encoding UInt8 UInt8 where
  sample v := v.toNat/255
  quantize := quantizeUnorm8
  red := 0.2126
  green := 0.7152
  blue := 0.0722
  cbRange := 1.8556
  crRange := 1.5748

def hdr : Encoding UInt16 UInt16 where
  sample v := (v >>> 6).toNat/1023
  quantize := quantizeUnorm10
  red := 0.2627
  green := 0.6780
  blue := 0.0593
  cbRange := 1.8814
  crRange := 1.4746

structure Rgb where
  r : ℚ
  g : ℚ
  b : ℚ
deriving DecidableEq, Repr

section Conversion

variable {σ τ : Type} (e : Encoding σ τ)

def Encoding.luma (c : Rgb) : ℚ := e.red*c.r + e.green*c.g + e.blue*c.b

def Encoding.cb (c : Rgb) : ℚ := (c.b - e.luma c)/e.cbRange + 0.5

def Encoding.cr (c : Rgb) : ℚ := (c.r - e.luma c)/e.crRange + 0.5

def readPixel (image : ImageView σ) (p : Nat × Nat) : Except Fault Rgb := do
  let cells := image.pixels.getD []
  let row := p.2*image.stridePixels.toNat*4
  let inBase := p.1*4
  let r ← load cells (row + (inBase + 0))
  let g ← load cells (row + (inBase + 1))
  let b ← load cells (row + (inBase + 2))
  return { r := e.sample r, g := e.sample g, b := e.sample b }

/-- The planes of the first pass. -/
structure Sums (τ : Type) where
  y : List τ
  cbAccum : List ℚ
  crAccum : List ℚ
  counts : List UInt8
deriving DecidableEq, Repr

structure Ycbcr420 (τ : Type) where
  y : List τ
  cb : List τ
  cr : List τ
  chromaWidth : UInt32
  chromaHeight : UInt32
deriving DecidableEq, Repr

def chromaWidth (image : ImageView σ) : UInt32 := (image.width + 1)/2

def chromaHeight (image : ImageView σ) : UInt32 := (image.height + 1)/2

def chromaSize (image : ImageView σ) : Nat :=
  (chromaWidth image).toNat*(chromaHeight image).toNat

def addPixel (image : ImageView σ) (s : Sums τ) (p : Nat × Nat) : Except Fault (Sums τ) := do
  let c ← readPixel e image p
  let y ← store s.y (p.2*image.width.toNat + p.1) (e.quantize (e.luma c))
  let chromaIndex := p.2/2*(chromaWidth image).toNat + p.1/2
  let cbAccum ← addAt s.cbAccum chromaIndex (e.cb c)
  let crAccum ← addAt s.crAccum chromaIndex (e.cr c)
  let counts ← addAt s.counts chromaIndex 1
  return { y, cbAccum, crAccum, counts }

variable [OfNat τ 0]

/-- The loops over all rows and columns. -/
def addPixels (image : ImageView σ) : Except Fault (Sums τ) :=
  (pixels image.width.toNat image.height.toNat).foldlM (addPixel e image)
    { y := List.replicate (image.width.toNat*image.height.toNat) 0
      cbAccum := List.replicate (chromaSize image) 0
      crAccum := List.replicate (chromaSize image) 0
      counts := List.replicate (chromaSize image) 0 }

omit [OfNat τ 0] in
def average (s : Sums τ) (planes : List τ × List τ) (i : Nat) :
    Except Fault (List τ × List τ) := do
  let divisor := (← load s.counts i).toNat
  let cb ← store planes.1 i (e.quantize ((← load s.cbAccum i)/divisor))
  let cr ← store planes.2 i (e.quantize ((← load s.crAccum i)/divisor))
  return (cb,cr)

def rgbToYcbcr420 (image : ImageView σ) : Except Fault (Ycbcr420 τ) := do
  let sums ← addPixels e image
  let (cb,cr) ← (List.range (chromaSize image)).foldlM (average e sums)
    (List.replicate (chromaSize image) 0,List.replicate (chromaSize image) 0)
  return { y := sums.y, cb, cr, chromaWidth := chromaWidth image
           chromaHeight := chromaHeight image }

end Conversion

def rgbToYcbcr420Sdr (image : Rgba8ImageView) : Except Fault (Ycbcr420 UInt8) :=
  rgbToYcbcr420 sdr image

def rgbToYcbcr420Hdr (image : Rgba16ImageView) : Except Fault (Ycbcr420 UInt16) :=
  rgbToYcbcr420 hdr image

end Cpipe.Color.HeifWriter
