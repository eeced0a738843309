import Mathlib.Data.UInt
import Mathlib.Tactic.Ring

namespace Cpipe.Compute

inductive PixelFormat
  | undefined | r16Uint | r10Packed | r8g8b8a8Unorm | r8g8b8Unorm | r10g10b10a2Unorm
  | r16g16b16a16Sfloat | r16g16b16Sfloat | r32g32b32a32Sfloat | r32g32b32Sfloat | r32Sfloat
  | f16 | f32 | i8 | u8 | blob | r16g16b16a16Unorm
  deriving DecidableEq, Repr

/-- Packed ten-bit rows have no whole number of bytes for each pixel, so the
table gives them none. -/
def bytesPerPixel : PixelFormat → UInt64
  | .r16Uint => 2
  | .r10Packed => 0
  | .r8g8b8a8Unorm => 4
  | .r8g8b8Unorm => 3
  | .r10g10b10a2Unorm => 4
  | .r16g16b16a16Sfloat | .r16g16b16a16Unorm => 8
  | .r16g16b16Sfloat => 6
  | .r32g32b32a32Sfloat => 16
  | .r32g32b32Sfloat => 12
  | .r32Sfloat | .f32 => 4
  | .f16 => 2
  | .i8 | .u8 | .blob => 1
  | .undefined => 0

inductive BufferKind
  | image2D | volume3D | tensorND | blob
  deriving DecidableEq, Repr

structure BufferLayout where
  kind : BufferKind := .image2D
  format : PixelFormat := .undefined
  ndim : UInt8 := 0
  dims : Vector UInt32 8 := Vector.replicate 8 0
  stride : Vector UInt64 8 := Vector.replicate 8 0
  deriving DecidableEq

/-- An explicit stride of the last axis overrides the packed product. All
arithmetic is the unsigned 64-bit arithmetic of the source. -/
def BufferLayout.sizeBytes (l : BufferLayout) : UInt64 :=
  if l.kind = .blob then
    (l.dims.toList.getD 0 0).toUInt64
  else if l.ndim = 0 ∨ 8 < l.ndim then
    0
  else
    let elementBytes := bytesPerPixel l.format
    let last := l.ndim.toNat - 1
    if elementBytes = 0 then
      0
    else if l.stride.toList.getD last 0 ≠ 0 then
      l.stride.toList.getD last 0 * (l.dims.toList.getD last 0).toUInt64
    else
      (l.dims.toList.take l.ndim.toNat).foldl (fun total d => total * d.toUInt64) elementBytes

/-- A packed two-dimensional image, the only shape the loader and the RAW reader
build. -/
def imageLayout (format : PixelFormat) (width height : UInt32) : BufferLayout where
  kind := .image2D
  format := format
  ndim := 2
  dims := #v[width, height, 0, 0, 0, 0, 0, 0]

theorem imageLayout_sizeBytes (format : PixelFormat) (width height : UInt32) :
    (imageLayout format width height).sizeBytes =
      bytesPerPixel format * width.toUInt64 * height.toUInt64 := by
  by_cases hb : bytesPerPixel format = 0
  · simp [BufferLayout.sizeBytes, imageLayout, hb]
  · simp [BufferLayout.sizeBytes, imageLayout, hb]

/-- Changing the format of an image keeps its dimensions. -/
theorem imageLayout_withFormat (format format' : PixelFormat) (width height : UInt32) :
    { imageLayout format width height with format := format' } =
      imageLayout format' width height := rfl

/-- The machine size of an image is the exact product reduced modulo `2^64`. -/
theorem imageLayout_size_toNat (format : PixelFormat) (width height : UInt32) :
    (imageLayout format width height).sizeBytes.toNat =
      (bytesPerPixel format).toNat * width.toNat * height.toNat % 2^64 := by
  rw [imageLayout_sizeBytes]
  simp only [UInt64.toNat_mul, UInt32.toNat_toUInt64, Nat.mod_mul_mod]

end Cpipe.Compute
