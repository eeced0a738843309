import Cpipe.Core.Manifest

namespace Cpipe.Nodes

def builtinPassthrough : PluginDesc where
  nodeId := "com.cpipe.builtin.passthrough"
  manifest := some {
    ports := [
      { name := "in", kind := .input, channels := ["rgba"], precision := ["u8"] },
      { name := "out", kind := .output, channels := ["rgba"], precision := ["u8"] }]
    outPixelBytes := 4
    inputRole := "any"
    outputRole := "any" }

def builtinDngInput : PluginDesc where
  nodeId := "com.cpipe.builtin.dng_input"
  manifest := some {
    ports := [
      { name := "raw", kind := .output, channels := ["r"], precision := ["u16"] }]
    params := [
      { name := "path", type := .string }]
    outPixelBytes := 2
    inputRole := "none"
    outputRole := "raw_camera" }

def linearizeDngLut : PluginDesc where
  nodeId := "com.cpipe.linearize.dng_lut"
  manifest := some {
    ports := [
      { name := "raw", kind := .input, channels := ["r"], precision := ["u16"] },
      { name := "bayer", kind := .output, channels := ["r"], precision := ["f32"],
        setsStepsApplied := ["linearization"] }]
    outPixelBytes := 4
    inputRole := "raw_camera"
    outputRole := "raw_camera" }

def blacklevelDngLevels : PluginDesc where
  nodeId := "com.cpipe.blacklevel.dng_levels"
  manifest := some {
    ports := [
      { name := "bayer", kind := .input, channels := ["r"], precision := ["f32"],
        requiresStepsApplied := ["linearization"] },
      { name := "bayer", kind := .output, channels := ["r"], precision := ["f32"],
        setsStepsApplied := ["black_white_scaling"] }]
    outPixelBytes := 4
    inputRole := "raw_camera"
    outputRole := "raw_camera" }

def demosaicAmaze : PluginDesc where
  nodeId := "com.cpipe.demosaic.amaze"
  manifest := some {
    ports := [
      { name := "bayer", kind := .input, channels := ["r"], precision := ["f32"],
        requiresStepsApplied := ["black_white_scaling"] },
      { name := "rgba", kind := .output, channels := ["rgba"], precision := ["f16"],
        setsStepsApplied := ["demosaic"] }]
    outPixelBytes := 8
    inputRole := "raw_camera"
    outputRole := "raw_camera" }

def demosaicBilinear : PluginDesc where
  nodeId := "com.cpipe.demosaic.bilinear"
  manifest := some {
    ports := [
      { name := "bayer", kind := .input, channels := ["r"], precision := ["f32"],
        requiresStepsApplied := ["black_white_scaling"] },
      { name := "rgba", kind := .output, channels := ["rgba"], precision := ["f16"],
        setsStepsApplied := ["demosaic"] }]
    outPixelBytes := 8
    inputRole := "raw_camera"
    outputRole := "raw_camera" }

def demosaicQuadBayerRemosaic : PluginDesc where
  nodeId := "com.cpipe.demosaic.quad_bayer_remosaic"
  manifest := some {
    ports := [
      { name := "qbc", kind := .input, channels := ["r"], precision := ["u16"] },
      { name := "bayer", kind := .output, channels := ["r"], precision := ["u16"],
        setsStepsApplied := ["quad_bayer_remosaic"] }]
    outPixelBytes := 2
    inputRole := "raw_camera"
    outputRole := "raw_camera" }

def demosaicRcd : PluginDesc where
  nodeId := "com.cpipe.demosaic.rcd"
  manifest := some {
    ports := [
      { name := "bayer", kind := .input, channels := ["r"], precision := ["f32"],
        requiresStepsApplied := ["black_white_scaling"] },
      { name := "rgba", kind := .output, channels := ["rgba"], precision := ["f16"],
        setsStepsApplied := ["demosaic"] }]
    outPixelBytes := 8
    inputRole := "raw_camera"
    outputRole := "raw_camera" }

def wbDualIlluminant : PluginDesc where
  nodeId := "com.cpipe.wb.dual_illuminant"
  manifest := some {
    ports := [
      { name := "rgb", kind := .input, channels := ["rgba"], precision := ["f16"],
        requiresStepsApplied := ["demosaic"] },
      { name := "rgb", kind := .output, channels := ["rgba"], precision := ["f16"],
        setsStepsApplied := ["white_balance"] }]
    outPixelBytes := 8
    inputRole := "raw_camera"
    outputRole := "raw_camera" }

def wbGreyworldAuto : PluginDesc where
  nodeId := "com.cpipe.wb.greyworld_auto"
  manifest := some {
    ports := [
      { name := "rgb", kind := .input, channels := ["rgba"], precision := ["f16"],
        requiresStepsApplied := ["demosaic"] },
      { name := "rgb", kind := .output, channels := ["rgba"], precision := ["f16"],
        setsStepsApplied := ["white_balance"] }]
    outPixelBytes := 8
    inputRole := "raw_camera"
    outputRole := "raw_camera" }

def colormatrixDngToWorking : PluginDesc where
  nodeId := "com.cpipe.colormatrix.dng_to_working"
  manifest := some {
    ports := [
      { name := "rgb", kind := .input, channels := ["rgba"], precision := ["f16"],
        requiresStepsApplied := ["white_balance"] },
      { name := "rgb", kind := .output, channels := ["rgba"], precision := ["f16"],
        setsStepsApplied := ["color_matrix"] }]
    outPixelBytes := 8
    inputRole := "raw_camera"
    outputRole := "scene_linear_rec2020" }

def denoiseBm3d : PluginDesc where
  nodeId := "com.cpipe.denoise.bm3d"
  manifest := some {
    ports := [
      { name := "rgb", kind := .input, channels := ["rgba"], precision := ["f16"],
        requiresStepsApplied := ["color_matrix"] },
      { name := "rgb", kind := .output, channels := ["rgba"], precision := ["f16"],
        setsStepsApplied := ["denoise.bm3d"] }]
    params := [
      { name := "sigma", type := .number,
        range := some { min := some 0, max := some (3602879701896397 / 2^54) } },
      { name := "sigma_override", type := .number,
        range := some { min := some 0 } }]
    outPixelBytes := 8
    inputRole := "scene_linear_rec2020"
    outputRole := "scene_linear_rec2020" }

def denoiseGuidedFilter : PluginDesc where
  nodeId := "com.cpipe.denoise.guided_filter"
  manifest := some {
    ports := [
      { name := "rgb", kind := .input, channels := ["rgba"], precision := ["f16"],
        requiresStepsApplied := ["color_matrix"] },
      { name := "rgb", kind := .output, channels := ["rgba"], precision := ["f16"],
        setsStepsApplied := ["denoise.guided_filter"] }]
    params := [
      { name := "radius", type := .number,
        range := some { min := some 1, max := some 32 } },
      { name := "eps", type := .number,
        range := some {
          min := some (5902958103587057 / 2^69), max := some (3602879701896397 / 2^55) } }]
    outPixelBytes := 8
    inputRole := "scene_linear_rec2020"
    outputRole := "scene_linear_rec2020" }

def denoiseWaveletBayesShrink : PluginDesc where
  nodeId := "com.cpipe.denoise.wavelet_bayes_shrink"
  manifest := some {
    ports := [
      { name := "rgb", kind := .input, channels := ["rgba"], precision := ["f16"],
        requiresStepsApplied := ["color_matrix"] },
      { name := "rgb", kind := .output, channels := ["rgba"], precision := ["f16"],
        setsStepsApplied := ["denoise.wavelet_bayes_shrink"] }]
    params := [
      { name := "chroma_strength", type := .number,
        range := some { min := some 0, max := some 2 } }]
    outPixelBytes := 8
    inputRole := "scene_linear_rec2020"
    outputRole := "scene_linear_rec2020" }

def color3dLut : PluginDesc where
  nodeId := "com.cpipe.color.3d_lut"
  manifest := some {
    ports := [
      { name := "rgb", kind := .input, channels := ["rgba"], precision := ["f16"] },
      { name := "rgb", kind := .output, channels := ["rgba"], precision := ["f16"],
        setsStepsApplied := ["color.3d_lut"] }]
    params := [
      { name := "lut_path", type := .string },
      { name := "interpolation", type := .enum, enumValues := ["tetrahedral", "trilinear"] }]
    outPixelBytes := 8
    inputRole := "scene_linear_rec2020"
    outputRole := "scene_linear_rec2020" }

def colorSceneLinearToDisplay : PluginDesc where
  nodeId := "com.cpipe.color.scene_linear_to_display"
  manifest := some {
    ports := [
      { name := "rgb", kind := .input, channels := ["rgba"], precision := ["f16"] },
      { name := "display", kind := .output, channels := ["rgba"], precision := ["u8", "u16"],
        setsStepsApplied := ["color.scene_linear_to_display"] }]
    params := [
      { name := "target", type := .enum,
        enumValues := ["sRGB", "BT2020-PQ", "DisplayP3", "BT2020-HLG"] }]
    outPixelBytes := 8
    inputRole := "scene_linear_rec2020"
    outputRole := "any" }

def sharpenEdgeAwareUsm : PluginDesc where
  nodeId := "com.cpipe.sharpen.edge_aware_usm"
  manifest := some {
    ports := [
      { name := "rgb", kind := .input, channels := ["rgba"], precision := ["f16"],
        requiresStepsApplied := ["color.3d_lut"] },
      { name := "rgb", kind := .output, channels := ["rgba"], precision := ["f16"],
        setsStepsApplied := ["sharpen.edge_aware_usm"] }]
    params := [
      { name := "strength", type := .number,
        range := some { min := some 0, max := some 2 } },
      { name := "radius", type := .number,
        range := some { min := some 1, max := some 32 } },
      { name := "threshold", type := .number,
        range := some { min := some 0, max := some (3602879701896397 / 2^55) } }]
    outPixelBytes := 8
    inputRole := "scene_linear_rec2020"
    outputRole := "scene_linear_rec2020" }

def toneAcesFilmic : PluginDesc where
  nodeId := "com.cpipe.tone.aces_filmic"
  manifest := some {
    ports := [
      { name := "rgb", kind := .input, channels := ["rgba"], precision := ["f16"],
        requiresStepsApplied := ["denoise.wavelet_bayes_shrink"] },
      { name := "rgb", kind := .output, channels := ["rgba"], precision := ["f16"],
        setsStepsApplied := ["tone.aces_filmic"] }]
    params := [
      { name := "toggle", type := .boolean }]
    outPixelBytes := 8
    inputRole := "scene_linear_rec2020"
    outputRole := "scene_linear_rec2020" }

def toneFilmicRgb : PluginDesc where
  nodeId := "com.cpipe.tone.filmic_rgb"
  manifest := some {
    ports := [
      { name := "rgb", kind := .input, channels := ["rgba"], precision := ["f16"],
        requiresStepsApplied := ["denoise.wavelet_bayes_shrink"] },
      { name := "rgb", kind := .output, channels := ["rgba"], precision := ["f16"],
        setsStepsApplied := ["tone.filmic_rgb"] }]
    params := [
      { name := "ev", type := .number,
        range := some { min := some (-2), max := some 2 } },
      { name := "contrast", type := .number,
        range := some { min := some (1 / 2^1), max := some 2 } },
      { name := "saturation", type := .number,
        range := some { min := some 0, max := some 2 } },
      { name := "highlights", type := .number,
        range := some { min := some 0, max := some 2 } },
      { name := "shadows", type := .number,
        range := some { min := some 0, max := some 2 } }]
    outPixelBytes := 8
    inputRole := "scene_linear_rec2020"
    outputRole := "scene_linear_rec2020" }

def toneMertensLocal : PluginDesc where
  nodeId := "com.cpipe.tone.mertens_local"
  manifest := some {
    ports := [
      { name := "under", kind := .input, channels := ["rgba"], precision := ["f16"],
        requiresStepsApplied := ["denoise.wavelet_bayes_shrink"] },
      { name := "normal", kind := .input, channels := ["rgba"], precision := ["f16"],
        requiresStepsApplied := ["denoise.wavelet_bayes_shrink"] },
      { name := "over", kind := .input, channels := ["rgba"], precision := ["f16"],
        requiresStepsApplied := ["denoise.wavelet_bayes_shrink"] },
      { name := "rgb", kind := .output, channels := ["rgba"], precision := ["f16"],
        setsStepsApplied := ["tone_mertens_local"] }]
    params := [
      { name := "weight_contrast", type := .number,
        range := some { min := some 0, max := some 2 } },
      { name := "weight_saturation", type := .number,
        range := some { min := some 0, max := some 2 } },
      { name := "weight_well_exposedness", type := .number,
        range := some { min := some 0, max := some 2 } }]
    outPixelBytes := 8
    inputRole := "scene_linear_rec2020"
    outputRole := "scene_linear_rec2020" }

def toneReinhard : PluginDesc where
  nodeId := "com.cpipe.tone.reinhard"
  manifest := some {
    ports := [
      { name := "rgb", kind := .input, channels := ["rgba"], precision := ["f16"],
        requiresStepsApplied := ["denoise.wavelet_bayes_shrink"] },
      { name := "rgb", kind := .output, channels := ["rgba"], precision := ["f16"],
        setsStepsApplied := ["tone.reinhard"] }]
    params := [
      { name := "white_point", type := .number,
        range := some { min := some (3602879701896397 / 2^55), max := some 10 } }]
    outPixelBytes := 8
    inputRole := "scene_linear_rec2020"
    outputRole := "scene_linear_rec2020" }

def lensShadingGainmap : PluginDesc where
  nodeId := "com.cpipe.lens.shading_gainmap"
  manifest := some {
    ports := [
      { name := "linear_bayer", kind := .input, channels := ["r"], precision := ["f32"] },
      { name := "corrected_bayer", kind := .output, channels := ["r"], precision := ["f32"],
        setsStepsApplied := ["lens_shading_gainmap"] }]
    outPixelBytes := 4
    inputRole := "raw_camera"
    outputRole := "raw_camera" }

def lensDngOpcodeList3 : PluginDesc where
  nodeId := "com.cpipe.lens.dng_opcode_list_3"
  manifest := some {
    ports := [
      { name := "scene_rgb", kind := .input, channels := ["rgba"], precision := ["f16"] },
      { name := "corrected_rgb", kind := .output, channels := ["rgba"], precision := ["f16"],
        setsStepsApplied := ["opcode_list_3"] }]
    outPixelBytes := 8
    inputRole := "raw_camera"
    outputRole := "raw_camera" }

def fusionHdrPlusDerivative : PluginDesc where
  nodeId := "com.cpipe.fusion.hdr_plus_derivative"
  manifest := some {
    ports := [
      { name := "ref", kind := .input, channels := ["r"], precision := ["u16"] },
      { name := "frame", kind := .input, channels := ["r"], precision := ["u16"] },
      { name := "fused", kind := .output, channels := ["r"], precision := ["u16"],
        setsStepsApplied := ["burst_fusion_stub"] }]
    outPixelBytes := 2
    inputRole := "raw_camera"
    outputRole := "raw_camera" }

def precisionConvert : PluginDesc where
  nodeId := "com.cpipe.precision_convert"
  manifest := some {
    ports := [
      { name := "in", kind := .input, channels := ["r", "rgba"],
        precision := ["u16", "f32", "f16"] },
      { name := "out", kind := .output, channels := ["r", "rgba"],
        precision := ["f32", "f16", "u8", "u16"], setsStepsApplied := ["precision_convert"] }]
    outPixelBytes := 8
    inputRole := "any"
    outputRole := "any" }

def outputHeifSdr : PluginDesc where
  nodeId := "com.cpipe.output.heif_sdr"
  manifest := some {
    ports := [
      { name := "rgb", kind := .input, channels := ["rgba"], precision := ["u8"],
        requiresStepsApplied := ["color.scene_linear_to_display"] }]
    params := [
      { name := "path", type := .string }]
    outPixelBytes := 0
    inputRole := "output_srgb"
    outputRole := "any" }

def outputHeifHdrPq : PluginDesc where
  nodeId := "com.cpipe.output.heif_hdr_pq"
  manifest := some {
    ports := [
      { name := "rgb", kind := .input, channels := ["rgba"], precision := ["u16"],
        requiresStepsApplied := ["color.scene_linear_to_display"] }]
    params := [
      { name := "path", type := .string }]
    outPixelBytes := 0
    inputRole := "output_pq_rec2020"
    outputRole := "any" }

/-- Every node the repository registers, in link order. -/
def builtinNodes : Registry :=
  [builtinPassthrough, builtinDngInput, linearizeDngLut, blacklevelDngLevels, demosaicAmaze,
   demosaicBilinear, demosaicQuadBayerRemosaic, demosaicRcd, wbDualIlluminant, wbGreyworldAuto,
   colormatrixDngToWorking, denoiseBm3d, denoiseGuidedFilter, denoiseWaveletBayesShrink,
   color3dLut, colorSceneLinearToDisplay, sharpenEdgeAwareUsm, toneAcesFilmic, toneFilmicRgb,
   toneMertensLocal, toneReinhard, lensShadingGainmap, lensDngOpcodeList3,
   fusionHdrPlusDerivative, precisionConvert, outputHeifSdr, outputHeifHdrPq]

end Cpipe.Nodes
