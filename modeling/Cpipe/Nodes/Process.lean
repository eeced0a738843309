import Cpipe.Core.Manifest
import Cpipe.Runtime.ComputeContext

namespace Cpipe.Nodes.Process
open Cpipe.Compute Cpipe.Runtime Cpipe.Runtime.ComputeContext

variable {B : Type}

/-- What the metadata, the parameters and the files make of a call: it ends early, the
image is copied as it is, or the work is done. -/
inductive Choice
  | stop | copy | work
  deriving DecidableEq, Repr

/-- A call of `process` with what its locks depend on. `own` is the buffer the DNG
reader makes for itself. -/
structure Request (B : Type) where
  params : Params := []
  inputs : List (Ref B)
  outputs : List (Ref B)
  own : B
  choice : Choice

/-! ### Checks -/

/-- One input and one output, or the call ends with `CPIPE_BAD_INDEX`. -/
def onPair (r : Request B) (f : Ref B → Ref B → List (LockCall B)) : List (LockCall B) :=
  match r.inputs, r.outputs with
  | [input], [output] => f input output
  | _, _ => []

def anyPair (_ _ : Ref B) : Bool := true

def formats (expected made : PixelFormat) (input output : Ref B) : Bool :=
  input.format = expected && output.format = made

/-- Two dimensions, neither of them zero. -/
def isImage (buffer : Ref B) : Bool :=
  match buffer.dims with
  | [width, height] => width != 0 && height != 0
  | _ => false

def imagePair (expected made : PixelFormat) (input output : Ref B) : Bool :=
  formats expected made input output && isImage input

def requireRgba16Pair (input output : Ref B) : Bool :=
  formats .r16g16b16a16Sfloat .r16g16b16a16Sfloat input output && input.dims = output.dims

def checkedRaw16Size (input output : Ref B) : Bool :=
  imagePair .r16Uint .r16Uint input output && input.dims = output.dims

def requireRgba16Stack (inputs : List (Ref B)) (output : Ref B) : Bool :=
  output.format = .r16g16b16a16Sfloat &&
    inputs.all (fun input => input.format = .r16g16b16a16Sfloat && input.dims = output.dims)

/-! ### What several nodes do -/

/-- A node that only runs its filter. -/
def submitPair (aotId : String) (r : Request B) : List (LockCall B) :=
  onPair r (fun _ _ => submitHalideWithParams aotId r.inputs r.outputs)

/-- A node that checks its buffers and its metadata before it runs its filter. -/
def filterPair (aotId : String) (check : Ref B → Ref B → Bool) (r : Request B) :
    List (LockCall B) :=
  onPair r (fun input output =>
    if check input output && r.choice == .work then
      submitHalideWithParams aotId r.inputs r.outputs
    else [])

/-- `copy_r16_image` and its like. -/
def copyImage (input output : Ref B) : List (LockCall B) :=
  if input.isNull then [input.lockCpu]
  else if output.isNull then [input.lockCpu, output.lockCpu, input.unlockCpu]
  else [input.lockCpu, output.lockCpu, input.unlockCpu, output.unlockCpu]

/-- `copy_ref_frame` and the loop of the grey-world node let go of the output first. -/
def copyFrame (input output : Ref B) : List (LockCall B) :=
  if input.isNull then [input.lockCpu]
  else if output.isNull then [input.lockCpu, output.lockCpu, input.unlockCpu]
  else [input.lockCpu, output.lockCpu, output.unlockCpu, input.unlockCpu]

/-- A node that copies the image when its metadata has nothing to apply. -/
def copyOrFilter (aotId : String) (check : Ref B → Ref B → Bool) (r : Request B) :
    List (LockCall B) :=
  onPair r (fun input output =>
    if check input output then
      match r.choice with
      | .stop => []
      | .copy => copyImage input output
      | .work => submitHalideWithParams aotId r.inputs r.outputs
    else [])

/-- A node that writes its input to a file. -/
def writeHeif (expected : PixelFormat) (r : Request B) : List (LockCall B) :=
  match r.inputs, r.outputs with
  | [input], [] =>
    if input.format = expected && isImage input && r.choice == .work then
      if input.isNull then [input.lockCpu] else [input.lockCpu, input.unlockCpu]
    else []
  | _, _ => []

/-! ### The nodes -/

def builtinPassthrough (r : Request B) : List (LockCall B) :=
  submitHalide "passthrough_copy" r.inputs r.outputs

/-- `DngReader::read` fills a buffer of its own, which then takes the place of the
output in its handle. -/
def builtinDngInput (r : Request B) : List (LockCall B) :=
  if !r.outputs.isEmpty && r.choice == .work then
    [.lockCpu r.own, .unlockCpu r.own]
  else []

def linearizeDngLut : Request B → List (LockCall B) :=
  filterPair "linearize_dng_lut" (imagePair .r16Uint .r32Sfloat)

def blacklevelDngLevels : Request B → List (LockCall B) :=
  filterPair "blacklevel_dng_levels" (imagePair .r32Sfloat .r32Sfloat)

def demosaicAmaze : Request B → List (LockCall B) := filterPair "demosaic_amaze" anyPair

def demosaicBilinear : Request B → List (LockCall B) := filterPair "demosaic_bilinear" anyPair

def demosaicRcd : Request B → List (LockCall B) := filterPair "demosaic_rcd" anyPair

/-- The formats are not checked: a regular Bayer image is copied whatever its format. -/
def demosaicQuadBayerRemosaic (r : Request B) : List (LockCall B) :=
  onPair r (fun input output =>
    match r.choice with
    | .stop => []
    | .copy => copyImage input output
    | .work => submitHalide "demosaic_quad_bayer_remosaic" r.inputs r.outputs)

def wbDualIlluminant : Request B → List (LockCall B) :=
  filterPair "wb_dual_illuminant" (imagePair .r16g16b16a16Sfloat .r16g16b16a16Sfloat)

def wbGreyworldAuto (r : Request B) : List (LockCall B) :=
  onPair r (fun input output =>
    if imagePair .r16g16b16a16Sfloat .r16g16b16a16Sfloat input output && r.choice == .work then
      copyFrame input output
    else [])

def colormatrixDngToWorking : Request B → List (LockCall B) :=
  filterPair "colormatrix_dng_to_working" (imagePair .r16g16b16a16Sfloat .r16g16b16a16Sfloat)

def denoiseBm3d : Request B → List (LockCall B) :=
  filterPair "denoise_bm3d_step1" (formats .r16g16b16a16Sfloat .r16g16b16a16Sfloat)

def denoiseGuidedFilter : Request B → List (LockCall B) := submitPair "denoise_guided_filter"

def denoiseWaveletBayesShrink : Request B → List (LockCall B) :=
  submitPair "denoise_wavelet_bayes_shrink"

def color3dLut : Request B → List (LockCall B) := filterPair "color_3d_lut" requireRgba16Pair

/-- `target_info`. -/
def targetFormat (target : String) : Option PixelFormat :=
  if target = "sRGB" then some .r8g8b8a8Unorm
  else if target = "BT2020-PQ" then some .r16g16b16a16Unorm
  else none

def colorSceneLinearToDisplay (r : Request B) : List (LockCall B) :=
  onPair r (fun input output =>
    match targetFormat (Params.text r.params "target" "") with
    | none => []
    | some made =>
      if formats .r16g16b16a16Sfloat made input output && input.dims = output.dims &&
          input.dims.length = 2 && r.choice == .work then
        submitOcioProcessor input output
      else [])

def sharpenEdgeAwareUsm : Request B → List (LockCall B) := submitPair "sharpen_edge_aware_usm"

def toneAcesFilmic : Request B → List (LockCall B) := submitPair "tone_aces_filmic"

def toneFilmicRgb : Request B → List (LockCall B) := submitPair "tone_filmic_rgb"

def toneReinhard : Request B → List (LockCall B) := submitPair "tone_reinhard"

/-- Three exposures, all of them submitted. -/
def toneMertensLocal (r : Request B) : List (LockCall B) :=
  match r.inputs, r.outputs with
  | [_, _, _], [output] =>
    if requireRgba16Stack r.inputs output then
      submitHalideWithParams "tone_mertens_local" r.inputs r.outputs
    else []
  | _, _ => []

def lensShadingGainmap : Request B → List (LockCall B) :=
  copyOrFilter "lens_shading_gainmap" (imagePair .r32Sfloat .r32Sfloat)

def lensDngOpcodeList3 : Request B → List (LockCall B) :=
  copyOrFilter "lens_dng_opcode_list_3" (imagePair .r16g16b16a16Sfloat .r16g16b16a16Sfloat)

/-- Two frames, of which the first is copied. -/
def fusionHdrPlusDerivative (r : Request B) : List (LockCall B) :=
  match r.inputs, r.outputs with
  | [input, _], [output] => if checkedRaw16Size input output then copyFrame input output else []
  | _, _ => []

def filterFor (input : PixelFormat) (target : String) : Option String :=
  if input = .r16Uint ∧ target = "R32_SFLOAT" then some "precision_convert_r16u_to_f32"
  else if input = .r32Sfloat ∧ target = "R16G16B16A16_SFLOAT" then
    some "precision_convert_f32_to_rgba16f"
  else if input = .r16g16b16a16Sfloat ∧ target = "R8G8B8A8_UNORM" then
    some "precision_convert_rgba16f_to_rgba8"
  else if input = .r16g16b16a16Sfloat ∧ target = "R16G16B16A16_UNORM" then
    some "precision_convert_rgba16f_to_rgba16u"
  else none

def targetMatchesOutput (output : PixelFormat) (target : String) : Bool :=
  (output = .r32Sfloat && target = "R32_SFLOAT") ||
  (output = .r16g16b16a16Sfloat && target = "R16G16B16A16_SFLOAT") ||
  (output = .r8g8b8a8Unorm && target = "R8G8B8A8_UNORM") ||
  (output = .r16g16b16a16Unorm && target = "R16G16B16A16_UNORM")

def precisionConvert (r : Request B) : List (LockCall B) :=
  onPair r (fun input output =>
    let target := Params.text r.params "target_format" ""
    if targetMatchesOutput output.format target then
      match filterFor input.format target with
      | some filter => submitHalide filter r.inputs r.outputs
      | none => []
    else [])

def outputHeifSdr : Request B → List (LockCall B) := writeHeif .r8g8b8a8Unorm

def outputHeifHdrPq : Request B → List (LockCall B) := writeHeif .r16g16b16a16Unorm

/-- The nodes by their ids, in link order. -/
def processes : List (String × (Request B → List (LockCall B))) :=
  [("com.cpipe.builtin.passthrough", builtinPassthrough),
   ("com.cpipe.builtin.dng_input", builtinDngInput),
   ("com.cpipe.linearize.dng_lut", linearizeDngLut),
   ("com.cpipe.blacklevel.dng_levels", blacklevelDngLevels),
   ("com.cpipe.demosaic.amaze", demosaicAmaze),
   ("com.cpipe.demosaic.bilinear", demosaicBilinear),
   ("com.cpipe.demosaic.quad_bayer_remosaic", demosaicQuadBayerRemosaic),
   ("com.cpipe.demosaic.rcd", demosaicRcd),
   ("com.cpipe.wb.dual_illuminant", wbDualIlluminant),
   ("com.cpipe.wb.greyworld_auto", wbGreyworldAuto),
   ("com.cpipe.colormatrix.dng_to_working", colormatrixDngToWorking),
   ("com.cpipe.denoise.bm3d", denoiseBm3d),
   ("com.cpipe.denoise.guided_filter", denoiseGuidedFilter),
   ("com.cpipe.denoise.wavelet_bayes_shrink", denoiseWaveletBayesShrink),
   ("com.cpipe.color.3d_lut", color3dLut),
   ("com.cpipe.color.scene_linear_to_display", colorSceneLinearToDisplay),
   ("com.cpipe.sharpen.edge_aware_usm", sharpenEdgeAwareUsm),
   ("com.cpipe.tone.aces_filmic", toneAcesFilmic),
   ("com.cpipe.tone.filmic_rgb", toneFilmicRgb),
   ("com.cpipe.tone.mertens_local", toneMertensLocal),
   ("com.cpipe.tone.reinhard", toneReinhard),
   ("com.cpipe.lens.shading_gainmap", lensShadingGainmap),
   ("com.cpipe.lens.dng_opcode_list_3", lensDngOpcodeList3),
   ("com.cpipe.fusion.hdr_plus_derivative", fusionHdrPlusDerivative),
   ("com.cpipe.precision_convert", precisionConvert),
   ("com.cpipe.output.heif_sdr", outputHeifSdr),
   ("com.cpipe.output.heif_hdr_pq", outputHeifHdrPq)]

def process (nodeId : String) (r : Request B) : List (LockCall B) :=
  match processes.find? (fun node => node.1 == nodeId) with
  | some node => node.2 r
  | none => []

end Cpipe.Nodes.Process
