import Cpipe.Core.Layout

namespace Cpipe.Runtime.HalideBufferAdapter
open Compute

def channelCount : PixelFormat → UInt64
  | .r8g8b8a8Unorm | .r10g10b10a2Unorm | .r16g16b16a16Sfloat | .r16g16b16a16Unorm
  | .r32g32b32a32Sfloat => 4
  | .r8g8b8Unorm | .r16g16b16Sfloat | .r32g32b32Sfloat => 3
  | .undefined => 0
  | _ => 1

def bytesPerChannel (format : PixelFormat) : UInt64 :=
  if channelCount format = 0 then 0 else bytesPerPixel format / channelCount format

inductive TypeCode
  | int | uint | float
  deriving DecidableEq, Repr

/-- `halide_type_t`. -/
structure HalideType where
  code : TypeCode
  bits : Nat
  deriving DecidableEq, Repr

def halideTypeFor : PixelFormat → HalideType
  | .r16g16b16a16Sfloat | .r16g16b16Sfloat | .f16 => ⟨.float,16⟩
  | .r32g32b32a32Sfloat | .r32g32b32Sfloat | .r32Sfloat | .f32 => ⟨.float,32⟩
  | .i8 => ⟨.int,8⟩
  | .r16g16b16a16Unorm | .r16Uint => ⟨.uint,16⟩
  | _ => ⟨.uint,8⟩

/-- `halide_dimension_t` with a minimum of zero. -/
structure Dimension where
  extent : Int32
  stride : Int32
  deriving DecidableEq, Repr

/-- What `halide_buffer_t` says of addresses. -/
structure View where
  type : HalideType
  dims : List Dimension
  deriving DecidableEq, Repr

def castInt32 (v : UInt64) : Int32 := v.toUInt32.toInt32

/-- The pixels of an image with several channels, and the channels themselves. -/
def interleaved (layout : BufferLayout) : List Dimension :=
  let channels := channelCount layout.format
  let channelBytes := bytesPerChannel layout.format
  let pixelStride := if layout.stride[0] ≠ 0 then layout.stride[0] else channelBytes*channels
  let rowStride := if layout.stride[1] ≠ 0 then layout.stride[1]
    else pixelStride*layout.dims[0].toUInt64
  [⟨layout.dims[0].toInt32,castInt32 (pixelStride/channelBytes)⟩,
   ⟨layout.dims[1].toInt32,castInt32 (rowStride/channelBytes)⟩,
   ⟨castInt32 channels,1⟩]

/-- The axes of an image with several channels in exact arithmetic, in elements. -/
def exactInterleaved (layout : BufferLayout) : List (Nat × Nat) :=
  let channels := (channelCount layout.format).toNat
  let channelBytes := (bytesPerChannel layout.format).toNat
  let pixelStride := if layout.stride[0] ≠ 0 then layout.stride[0].toNat else channelBytes*channels
  let rowStride := if layout.stride[1] ≠ 0 then layout.stride[1].toNat
    else pixelStride*layout.dims[0].toNat
  [(layout.dims[0].toNat,pixelStride/channelBytes),(layout.dims[1].toNat,rowStride/channelBytes),
   (channels,1)]

/-- The loop over the axes with the stride a packed axis would have. A product of 32-bit
integers wraps; a division by zero is `none`. -/
def denseDims (channelBytes : UInt64) : List (UInt32 × UInt64) → Int32 → Option (List Dimension)
  | [], _ => some []
  | (dim,stride) :: axes, denseStride =>
    if stride ≠ 0 ∧ channelBytes = 0 then
      none
    else
      let stride := if stride ≠ 0 then castInt32 (stride/channelBytes) else denseStride
      (denseDims channelBytes axes (stride*dim.toInt32)).map (⟨dim.toInt32,stride⟩ :: ·)

def axes (layout : BufferLayout) : List (UInt32 × UInt64) :=
  (layout.dims.toList.zip layout.stride.toList).take layout.ndim.toNat

/-- The view the constructor builds. More than eight axes do not fit its array of
dimensions. -/
def view (layout : BufferLayout) : Option View :=
  if layout.kind = .image2D ∧ 1 < channelCount layout.format then
    some ⟨halideTypeFor layout.format,interleaved layout⟩
  else if 8 < layout.ndim then
    none
  else
    (denseDims (bytesPerChannel layout.format) (axes layout) 1).map
      (⟨halideTypeFor layout.format,·⟩)

end Cpipe.Runtime.HalideBufferAdapter
