import Cpipe.Color.OcioVulkanProcessor
import Cpipe.Library.Ieee
import Cpipe.Library.Rounding

/-! The output image of a colour transform, from the CPU and from the shader. -/

namespace Cpipe.Runtime.OcioOutput
open Cpipe.Compute Cpipe.Color.OcioVulkanProcessor Library.Ieee Library.Rounding

/-- What the image holds, by the width of its samples. -/
inductive Samples where
  | singles (values : List Single)
  | words (values : List UInt16)
  | bytes (values : List UInt8)
deriving DecidableEq, Repr

/-- `while ((mantissa & 0x0400U) == 0U)` with the rounds left: the exponent goes below zero. -/
def normalizeHalf : Nat → UInt32 → UInt32 → UInt32 × UInt32
  | 0, mantissa, exponent => (mantissa,exponent)
  | n+1, mantissa, exponent =>
    if mantissa &&& 0x0400 = 0 then normalizeHalf n (mantissa <<< 1) (exponent - 1)
    else (mantissa,exponent)

def halfToBits (bits : UInt16) : UInt32 :=
  let sign := (bits &&& 0x8000).toUInt32 <<< 16
  let exponent := ((bits >>> 10) &&& 0x1f).toUInt32
  let mantissa := (bits &&& 0x03ff).toUInt32
  if exponent = 0 then
    if mantissa = 0 then
      sign
    else
      -- a mantissa of ten bits that is not zero reaches the bit in ten rounds
      let (mantissa,exponent) := normalizeHalf 10 mantissa 1
      sign ||| ((exponent + 112) <<< 23) ||| ((mantissa &&& 0x03ff) <<< 13)
  else if exponent = 31 then
    sign ||| (0x7f800000 : UInt32) ||| (mantissa <<< 13)
  else
    sign ||| ((exponent + 112) <<< 23) ||| (mantissa <<< 13)

def halfToFloat (bits : UInt16) : Single := ⟨halfToBits bits⟩

/-- The shift truncates, so nothing is rounded up. -/
def floatToHalf (value : Single) : UInt16 :=
  let sign := (value.bits >>> 16) &&& 0x8000
  let exponent : Int := ((value.bits >>> 23) &&& 0xff).toNat - 127 + 15
  let mantissa := value.bits &&& 0x7fffff
  if exponent ≤ 0 then
    if exponent < -10 then
      sign.toUInt16
    else
      let shifted := (mantissa ||| 0x800000) >>> UInt32.ofNat (1 - exponent + 13).toNat
      (sign ||| shifted).toUInt16
  else if 31 ≤ exponent then
    (sign ||| 0x7c00).toUInt16
  else
    (sign ||| (UInt32.ofNat exponent.toNat <<< 10) ||| (mantissa >>> 13)).toUInt16

/-- `std::clamp(value, 0.0F, 1.0F)`. -/
def clampUnit (value : Single) : Rat :=
  if value.value < 0 then 0 else if 1 < value.value then 1 else value.value

section Cpu

-- `lround` of a NaN, which the standard leaves open
variable (lroundNaN : Int)

/-- `std::lround(std::clamp(value, 0.0F, 1.0F) * scale)`: the product is a `float`. -/
def quantize (scale : Rat) (value : Single) : Int :=
  if value.isNaN then lroundNaN
  else roundAway (Format.single.nearest (clampUnit value * scale))

def floatToUnorm8 (value : Single) : UInt8 := UInt8.ofInt (quantize lroundNaN 255 value)

def floatToUnorm10TopAligned (value : Single) : UInt16 :=
  UInt16.ofInt (quantize lroundNaN 1023 value) <<< 6

def writeOcioOutput (format : PixelFormat) (rgba : List Single) : Except Status Samples :=
  match format with
  | .r32g32b32a32Sfloat => .ok (.singles rgba)
  | .r16g16b16a16Sfloat => .ok (.words (rgba.map floatToHalf))
  | .r8g8b8a8Unorm => .ok (.bytes (rgba.map (floatToUnorm8 lroundNaN)))
  | .r16g16b16a16Unorm => .ok (.words (rgba.map (floatToUnorm10TopAligned lroundNaN)))
  | _ => .error .badPrecision

end Cpu

/-! ### The shader -/

/-- `imageStore` to a normalised format with so many levels above zero. -/
def storeUnorm (levels : Nat) (value : Single) : Int := roundAway (levels * clampUnit value)

/-- The device's own conversion to half floats is `half`. -/
def imageStore (half : Single → UInt16) (format : StorageFormat) (rgba : List Single) : Samples :=
  match format with
  | .rgba8 => .bytes (rgba.map (fun x => UInt8.ofInt (storeUnorm 255 x)))
  | .rgba16 => .words (rgba.map (fun x => UInt16.ofInt (storeUnorm 65535 x)))
  | .rgba16f => .words (rgba.map half)
  | .rgba32f => .singles rgba

/-! ### The reader -/

/-- `row[i] >> 6U` in `rgb_to_ycbcr420_hdr`. -/
def hdrCode (sample : UInt16) : UInt16 := sample >>> 6

end Cpipe.Runtime.OcioOutput
