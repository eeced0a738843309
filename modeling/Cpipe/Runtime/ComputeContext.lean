import Cpipe.Core.Layout

namespace Cpipe.Runtime
open Compute

variable {B : Type}

/-! ### `CpuBuffer` -/

/-- A buffer behind a handle, by its identity. All buffers of a run may be read and
written, so of the assertions in `lock_cpu` only the one on `locked_` can fail. -/
structure Ref (B : Type) where
  id : B
  layout : BufferLayout

inductive LockCall (B : Type)
  | lockCpu (buffer : B)
  | unlockCpu (buffer : B)

def Ref.lockCpu (buffer : Ref B) : LockCall B := .lockCpu buffer.id

def Ref.unlockCpu (buffer : Ref B) : LockCall B := .unlockCpu buffer.id

/-- A buffer of no bytes has no memory. It is locked like any other, but the SDK takes
the null pointer for a failure. -/
def Ref.isNull (buffer : Ref B) : Bool := decide (buffer.layout.sizeBytes = 0)

/-- `get_dims`. -/
def Ref.dims (buffer : Ref B) : List UInt32 :=
  buffer.layout.dims.toList.take buffer.layout.ndim.toNat

def Ref.format (buffer : Ref B) : PixelFormat := buffer.layout.format

/-! ### Filters -/

namespace ComputeContext

/-- The filters without parameters that the nodes register. -/
def halideFilters : List String :=
  ["passthrough_copy", "demosaic_bilinear", "demosaic_quad_bayer_remosaic",
   "precision_convert_r16u_to_f32", "precision_convert_f32_to_rgba16f",
   "precision_convert_rgba16f_to_rgba8", "precision_convert_rgba16f_to_rgba16u"]

def halideParamFilters : List String :=
  ["linearize_dng_lut", "blacklevel_dng_levels", "demosaic_amaze", "demosaic_bilinear",
   "demosaic_rcd", "wb_dual_illuminant", "colormatrix_dng_to_working", "denoise_bm3d_step1",
   "denoise_bm3d_step2", "denoise_guided_filter", "denoise_wavelet_bayes_shrink", "color_3d_lut",
   "sharpen_edge_aware_usm", "tone_aces_filmic", "tone_filmic_rgb", "tone_mertens_local",
   "tone_reinhard", "lens_shading_gainmap", "lens_dng_opcode_list_3"]

/-- The adapters of `submit_halide` live to its end. -/
def submitHalide (aotId : String) (inputs outputs : List (Ref B)) : List (LockCall B) :=
  if halideFilters.contains aotId then
    match inputs, outputs with
    | [input], [output] => [input.lockCpu, output.lockCpu, output.unlockCpu, input.unlockCpu]
    | _, _ => []
  else []

/-- One adapter for each handle, those of the outputs destroyed first. -/
def submitHalideWithParams (aotId : String) (inputs outputs : List (Ref B)) :
    List (LockCall B) :=
  if halideParamFilters.contains aotId then
    inputs.map Ref.lockCpu ++ outputs.map Ref.lockCpu ++
      outputs.map Ref.unlockCpu ++ inputs.map Ref.unlockCpu
  else []

def validateOcioLayouts (layout outputLayout : BufferLayout) : Bool :=
  layout.kind = .image2D && layout.ndim = 2 && outputLayout.kind = .image2D &&
    outputLayout.ndim = 2 &&
    outputLayout.dims.toList.take 2 = layout.dims.toList.take 2 &&
    (layout.format = .r32g32b32a32Sfloat || layout.format = .r16g16b16a16Sfloat)

/-- The input is read as a whole before the output is written. -/
def submitOcioProcessor (input output : Ref B) : List (LockCall B) :=
  if validateOcioLayouts input.layout output.layout then
    [input.lockCpu, input.unlockCpu] ++
      if output.format ∈ [.r32g32b32a32Sfloat, .r16g16b16a16Sfloat, .r8g8b8a8Unorm,
          .r16g16b16a16Unorm] then
        [output.lockCpu, output.unlockCpu]
      else []
  else []

end ComputeContext
end Cpipe.Runtime
