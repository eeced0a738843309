import Cpipe.Library.Means
import Cpipe.Library.Stencil
import Mathlib.Algebra.Order.Ring.Rat
import Mathlib.Algebra.Order.Field.Basic

namespace Cpipe.Nodes.Kernels
open Library.Stencil Library.Means

/-- What rounds and what is not arithmetic: the conversions to `float16_t` and to `float`, and
the functions of the C library. All else is exact. -/
structure Intrinsics where
  half : ℚ → ℚ
  float : ℚ → ℚ
  log : ℚ → ℚ
  exp : ℚ → ℚ
  sqrt : ℚ → ℚ
  pow : ℚ → ℚ → ℚ

/-- The samples by column, row and channel. -/
structure Image where
  width : Nat
  height : Nat
  samples : Int → Int → Nat → ℚ

/-- `repeat_edge`. -/
def Image.clamped (image : Image) (x y : Int) (c : Nat) : ℚ :=
  repeatEdge image.width image.height (fun u v => image.samples u v c) x y

/-! ### Means -/

def offsets3x3 : List (Int × Int) :=
  [(-1,-1),(0,-1),(1,-1),(-1,0),(0,0),(1,0),(-1,1),(0,1),(1,1)]

def offsets5x5 : List (Int × Int) :=
  ([-2,-1,0,1,2] : List Int).flatMap (fun dy => ([-2,-1,0,1,2] : List Int).map (fun dx => (dx,dy)))

def mean3x3 (value : Int → Int → ℚ) (x y : Int) : ℚ := mean offsets3x3 value x y

def mean5x5 (value : Int → Int → ℚ) (x y : Int) : ℚ := mean offsets5x5 value x y

/-- The `select` on the radius. -/
def boxMean (radius : Int) (value : Int → Int → ℚ) (x y : Int) : ℚ :=
  if radius ≤ 1 then mean3x3 value x y else mean5x5 value x y

def mean2x2 (value : Int → Int → ℚ) (x y : Int) : ℚ :=
  mean [(0,0),(1,0),(0,1),(1,1)] value (x/2*2) (y/2*2)

/-! ### Denoising and sharpening -/

/-- The float next to 0.03. -/
def kSigmaScale : ℚ := 16106127/2^29

def bm3dStep1 (h : Intrinsics) (sigma : ℚ) (value : Int → Int → Nat → ℚ) (x y : Int) (c : Nat) :
    ℚ :=
  let basic := mean2x2 (fun u v => value u v c) x y
  let strength := min 1 (max 0 (sigma/kSigmaScale))
  let denoised := value x y c*(1 - strength) + basic*strength
  h.half (if c = 3 then value x y c else max 0 denoised)

def bm3dStep2 (h : Intrinsics) (sigma : ℚ) (value : Int → Int → Nat → ℚ) (x y : Int) (c : Nat) :
    ℚ :=
  h.half (value x y c + sigma*0)

/-- The coefficient `a` of the local line. -/
def guidedA (radius : Int) (eps : ℚ) (value : Int → Int → ℚ) (x y : Int) : ℚ :=
  let mean := boxMean radius value x y
  let variance := max 0 (boxMean radius (fun u v => value u v*value u v) x y - mean*mean)
  variance/(variance + eps)

def guidedB (radius : Int) (eps : ℚ) (value : Int → Int → ℚ) (x y : Int) : ℚ :=
  let mean := boxMean radius value x y
  mean - guidedA radius eps value x y*mean

def guidedFilter (h : Intrinsics) (radius : Int) (eps : ℚ) (value : Int → Int → Nat → ℚ)
    (x y : Int) (c : Nat) : ℚ :=
  let plane := fun u v => value u v c
  let filtered := boxMean radius (guidedA radius eps plane) x y*value x y c +
    boxMean radius (guidedB radius eps plane) x y
  h.half (if c = 3 then value x y c else max 0 filtered)

def softThreshold (value threshold : ℚ) : ℚ :=
  if threshold < value then value - threshold
  else if value < -threshold then value + threshold
  else 0

/-- The value at a place of a two by two block whose details are shrunk. -/
def blockValue (chroma : Int → Int → ℚ) (x y ox oy : Int) (threshold : ℚ) : ℚ :=
  let bx := x/2*2
  let byRow := y/2*2
  let p00 := chroma bx byRow
  let p10 := chroma (bx + 1) byRow
  let p01 := chroma bx (byRow + 1)
  let p11 := chroma (bx + 1) (byRow + 1)
  let ll := 1/4*(p00 + p10 + p01 + p11)
  let hor := softThreshold (1/4*(p00 - p10 + p01 - p11)) threshold
  let ver := softThreshold (1/4*(p00 + p10 - p01 - p11)) threshold
  let dia := softThreshold (1/4*(p00 - p10 - p01 + p11)) threshold
  if ox = 0 ∧ oy = 0 then ll + hor + ver + dia
  else if ox = 1 ∧ oy = 0 then ll - hor + ver - dia
  else if ox = 0 ∧ oy = 1 then ll + hor - ver - dia
  else ll - hor - ver + dia

/-- The float next to 0.035. -/
def kChromaThreshold : ℚ := 9395241/2^28

def waveletLuma (r g b : ℚ) : ℚ := (r + 2*g + b)*(1/4)

def waveletRgb (chromaStrength : ℚ) (value : Int → Int → Nat → ℚ) (x y : Int) (c : Nat) : ℚ :=
  let luma := waveletLuma (value x y 0) (value x y 1) (value x y 2)
  let co := fun u v => value u v 0 - value u v 2
  let cg := fun u v => value u v 1 - (value u v 0 + value u v 2)*(1/2)
  let threshold := kChromaThreshold*chromaStrength
  let denoisedCo := blockValue co x y (x % 2) (y % 2) threshold
  let denoisedCg := blockValue cg x y (x % 2) (y % 2) threshold
  let t := luma - 1/2*denoisedCg
  if c = 0 then t + 1/2*denoisedCo
  else if c = 1 then t + denoisedCg
  else if c = 2 then t - 1/2*denoisedCo
  else value x y 3

def waveletBayesShrink (h : Intrinsics) (chromaStrength : ℚ) (value : Int → Int → Nat → ℚ)
    (x y : Int) (c : Nat) : ℚ :=
  h.half (max 0 (waveletRgb chromaStrength value x y c))

def edgeAwareUsm (h : Intrinsics) (strength : ℚ) (radius : Int) (threshold : ℚ)
    (value : Int → Int → Nat → ℚ) (x y : Int) (c : Nat) : ℚ :=
  let mask := value x y c - boxMean radius (fun u v => value u v c) x y
  let sharpened := if threshold ≤ |mask| then value x y c + strength*mask else value x y c
  h.half (if c = 3 then value x y c else max 0 sharpened)

/-! ### Tone curves -/

/-- `Halide::clamp`. -/
def clampTo (v low high : ℚ) : ℚ := max (min v high) low

/-- With the floats next to 2.51, 0.03, 2.43, 0.59 and 0.14. -/
def acesFit (value : ℚ) : ℚ :=
  let v := max 0 value
  clampTo (v*(10527703/2^22*v + 16106127/2^29)/(v*(10192159/2^22*v + 9898557/2^24) + 9395241/2^26))
    0 1

def acesFilmic (h : Intrinsics) (enabled : Int) (colour : Nat → ℚ) (c : Nat) : ℚ :=
  h.half (if c = 3 ∨ enabled = 0 then colour c else acesFit (colour c))

def reinhardCurve (value whitePoint : ℚ) : ℚ :=
  let v := max 0 value
  clampTo (v*(1 + v/(whitePoint*whitePoint))/(1 + v)) 0 1

def reinhard (h : Intrinsics) (whitePoint : ℚ) (colour : Nat → ℚ) (c : Nat) : ℚ :=
  h.half (if c = 3 then colour c else reinhardCurve (colour c) whitePoint)

def filmicCurve (h : Intrinsics) (value : ℚ) : ℚ :=
  clampTo (h.log (1 + 6*max 0 value)/h.log (1 + 6*18)) 0 1

/-- The float next to 0.08. -/
def kRangeStep : ℚ := 5368709/2^26

def adjustRange (value highlights shadows : ℚ) : ℚ :=
  let shadowDelta := (shadows - 1)*kRangeStep*(1 - value)*(1 - value)
  let highlightDelta := (highlights - 1)*kRangeStep*value*value
  clampTo (value + shadowDelta + highlightDelta) 0 1

structure FilmicRgbParams where
  ev : ℚ
  contrast : ℚ
  saturation : ℚ
  highlights : ℚ
  shadows : ℚ

def filmicToned (h : Intrinsics) (params : FilmicRgbParams) (value : ℚ) : ℚ :=
  let curved := filmicCurve h (value*h.pow 2 params.ev)
  adjustRange (h.pow (max 0 curved) (1/params.contrast)) params.highlights params.shadows

/-- With the floats next to 0.2126, 0.7152 and 0.0722. -/
def filmicLuma (r g b : ℚ) : ℚ := 891709/2^22*r + 11999065/2^24*g + 1211315/2^24*b

def filmicSaturated (h : Intrinsics) (params : FilmicRgbParams) (colour : Nat → ℚ) (c : Nat) : ℚ :=
  let toned := fun c => filmicToned h params (colour c)
  let luma := filmicLuma (toned 0) (toned 1) (toned 2)
  clampTo (luma + (toned c - luma)*params.saturation) 0 1

def filmicRgb (h : Intrinsics) (params : FilmicRgbParams) (colour : Nat → ℚ) (c : Nat) : ℚ :=
  h.half (if c = 3 then colour c else filmicSaturated h params colour c)

/-! ### Exposure fusion -/

structure MertensLocalParams where
  weightContrast : ℚ
  weightSaturation : ℚ
  weightWellExposedness : ℚ

/-- With the float next to 0.2. -/
def channelExposureWeight (h : Intrinsics) (value : ℚ) : ℚ :=
  let sigma := 13421773/2^26
  let distance := value - 1/2
  h.exp (-(distance*distance)/(2*sigma*sigma))

def mertensLuma (colour : Nat → ℚ) : ℚ := (colour 0 + colour 1 + colour 2)/3

/-- With the floats next to 0.01 and 0.0001. -/
def exposureWeight (h : Intrinsics) (params : MertensLocalParams) (colour : Nat → ℚ) : ℚ :=
  let red := max 0 (colour 0)
  let green := max 0 (colour 1)
  let blue := max 0 (colour 2)
  let mean := mertensLuma colour
  let saturation := h.sqrt (((red - mean)*(red - mean) + (green - mean)*(green - mean) +
    (blue - mean)*(blue - mean))/3 + 13743895/2^37)
  let wellExposed := channelExposureWeight h red*channelExposureWeight h green*
    channelExposureWeight h blue
  let contrast := |mertensLuma colour - 1/2|
  let contrastFactor := if params.weightContrast = 0 then 1
    else h.pow (contrast + 5368709/2^29) params.weightContrast
  let saturationFactor := if params.weightSaturation = 1 then saturation + 5368709/2^29
    else h.pow (saturation + 5368709/2^29) params.weightSaturation
  let exposureFactor := if params.weightWellExposedness = 1 then wellExposed
    else h.pow (wellExposed + 13743895/2^37) params.weightWellExposedness
  contrastFactor*saturationFactor*exposureFactor

/-- The float next to one millionth. -/
def kLeastWeight : ℚ := 8796093/2^43

/-- The mean of the inputs `under`, `normal` and `over`. -/
def mertensFused (h : Intrinsics) (params : MertensLocalParams) (dark normal bright : Nat → ℚ)
    (c : Nat) : ℚ :=
  let underWeight := exposureWeight h params dark
  let normalWeight := exposureWeight h params normal
  let overWeight := exposureWeight h params bright
  let totalWeight := max (underWeight + normalWeight + overWeight) kLeastWeight
  (underWeight*dark c + normalWeight*normal c + overWeight*bright c)/totalWeight

def mertensLocal (h : Intrinsics) (params : MertensLocalParams) (dark normal bright : Nat → ℚ)
    (c : Nat) : ℚ :=
  h.half (if c = 3 then normal c else clampTo (mertensFused h params dark normal bright c) 0 1)

/-! ### Stages -/

/-- A kernel with its parameters. -/
inductive Stage where
  | bm3dStep1 (sigma : ℚ)
  | bm3dStep2 (sigma : ℚ)
  | guidedFilter (radius : Int) (eps : ℚ)
  | waveletBayesShrink (chromaStrength : ℚ)
  | edgeAwareUsm (strength : ℚ) (radius : Int) (threshold : ℚ)
  | acesFilmic (enabled : Int)
  | reinhard (whitePoint : ℚ)
  | filmicRgb (params : FilmicRgbParams)

/-- The kernels that look around read the image continued by its border, the tone curves read
the image itself. -/
def Stage.generate (h : Intrinsics) (image : Image) (x y : Int) (c : Nat) : Stage → ℚ
  | .bm3dStep1 sigma => Kernels.bm3dStep1 h sigma image.clamped x y c
  | .bm3dStep2 sigma => Kernels.bm3dStep2 h sigma image.clamped x y c
  | .guidedFilter radius eps => Kernels.guidedFilter h radius eps image.clamped x y c
  | .waveletBayesShrink chromaStrength =>
    Kernels.waveletBayesShrink h chromaStrength image.clamped x y c
  | .edgeAwareUsm strength radius threshold =>
    Kernels.edgeAwareUsm h strength radius threshold image.clamped x y c
  | .acesFilmic enabled => Kernels.acesFilmic h enabled (image.samples x y) c
  | .reinhard whitePoint => Kernels.reinhard h whitePoint (image.samples x y) c
  | .filmicRgb params => Kernels.filmicRgb h params (image.samples x y) c

def Stage.apply (h : Intrinsics) (image : Image) (stage : Stage) : Image :=
  { image with samples := fun x y c => stage.generate h image x y c }

/-! ### Nodes -/

/-- What the parameter suite answers with `CPIPE_OK`. -/
structure ParamView where
  getDouble : String → Option ℚ
  getBool : String → Option Bool

def paramDoubleOr (params : ParamView) (key : String) (fallback : ℚ) : ℚ :=
  (params.getDouble key).getD fallback

def clampedParamFloatOr (h : Intrinsics) (params : ParamView) (key : String)
    (fallback minValue maxValue : ℚ) : ℚ :=
  clampTo (h.float (paramDoubleOr params key fallback)) minValue maxValue

/-- The conversion to `int` goes towards zero. -/
def truncated (v : ℚ) : Int := if 0 ≤ v then v.floor else v.ceil

def clampedParamIntOr (params : ParamView) (key : String) (fallback minValue maxValue : Int) : Int :=
  clamp (truncated (paramDoubleOr params key fallback)) minValue maxValue

def paramBoolOr (params : ParamView) (key : String) (fallback : Bool) : Bool :=
  (params.getBool key).getD fallback

/-- Of the parameters, or of the noise profile. -/
def sigmaFromParamsOrMetadata (h : Intrinsics) (params : ParamView)
    (noiseProfile : List (ℚ × ℚ)) : ℚ :=
  match params.getDouble "sigma" with
  | some sigma => clampTo (h.float sigma) 0 (13421773/2^26)
  | none =>
    match params.getDouble "sigma_override" with
    | some sigma => clampTo (h.float sigma) 0 (13421773/2^26)
    | none =>
      if noiseProfile = [] then kSigmaScale
      else h.float (h.sqrt ((noiseProfile.map (fun entry => max 0 (entry.1 + entry.2*(1/4)))).sum/
        noiseProfile.length))

inductive Node where
  | bm3d | guidedFilter | waveletBayesShrink | edgeAwareUsm | acesFilmic | filmicRgb | reinhard
deriving DecidableEq, Repr

/-- The kernel a node submits. No node submits `denoise_bm3d_step2`. -/
def Node.stage (h : Intrinsics) (params : ParamView) (noiseProfile : List (ℚ × ℚ)) : Node → Stage
  | .bm3d => .bm3dStep1 (sigmaFromParamsOrMetadata h params noiseProfile)
  | .guidedFilter => .guidedFilter (clampedParamIntOr params "radius" 1 1 32)
      (clampedParamFloatOr h params "eps" (16106127/2^30) (2748779/2^38) (13421773/2^27))
  | .waveletBayesShrink =>
    .waveletBayesShrink (clampedParamFloatOr h params "chroma_strength" 1 0 2)
  | .edgeAwareUsm => .edgeAwareUsm (clampedParamFloatOr h params "strength" (3/4) 0 2)
      (clampedParamIntOr params "radius" 1 1 32)
      (clampedParamFloatOr h params "threshold" 0 0 (13421773/2^27))
  | .acesFilmic => .acesFilmic (if paramBoolOr params "toggle" true then 1 else 0)
  | .filmicRgb => .filmicRgb
      { ev := clampedParamFloatOr h params "ev" 0 (-2) 2
        contrast := clampedParamFloatOr h params "contrast" 1 (1/2) 2
        saturation := clampedParamFloatOr h params "saturation" 1 0 2
        highlights := clampedParamFloatOr h params "highlights" 1 0 2
        shadows := clampedParamFloatOr h params "shadows" 1 0 2 }
  | .reinhard =>
    let whitePoint := h.float (paramDoubleOr params "white_point" (-1))
    .reinhard (if whitePoint < 0 then 1000000 else clampTo whitePoint (13421773/2^27) 10)

/-- The parameters `tone.mertens_local` submits. -/
def mertensParams (h : Intrinsics) (params : ParamView) : MertensLocalParams where
  weightContrast := clampedParamFloatOr h params "weight_contrast" 0 0 2
  weightSaturation := clampedParamFloatOr h params "weight_saturation" 1 0 2
  weightWellExposedness := clampedParamFloatOr h params "weight_well_exposedness" 1 0 2

/-- A chain of nodes with their parameters. The noise profile is the input's. -/
def develop (h : Intrinsics) (noiseProfile : List (ℚ × ℚ)) (chain : List (Node × ParamView))
    (image : Image) : Image :=
  chain.foldl (fun image node => (node.1.stage h node.2 noiseProfile).apply h image) image

end Cpipe.Nodes.Kernels
