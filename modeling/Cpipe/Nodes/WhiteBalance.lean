import Cpipe.Core.Manifest
import Mathlib.Algebra.Order.Field.Basic
import Mathlib.Algebra.Order.Ring.Rat

/-! White balance and the step to the working space. Floats and doubles are exact here; what
rounds is the conversion to a half. The search for the colour temperature is a parameter. -/

namespace Cpipe.Nodes.WhiteBalance

structure Vec3 where
  v0 : ℚ
  v1 : ℚ
  v2 : ℚ
  deriving DecidableEq, Repr

structure Matrix3 where
  m0 : ℚ
  m1 : ℚ
  m2 : ℚ
  m3 : ℚ
  m4 : ℚ
  m5 : ℚ
  m6 : ℚ
  m7 : ℚ
  m8 : ℚ
  deriving DecidableEq, Repr

def mulMatrixVec (matrix : Matrix3) (value : Vec3) : Vec3 where
  v0 := matrix.m0*value.v0 + matrix.m1*value.v1 + matrix.m2*value.v2
  v1 := matrix.m3*value.v0 + matrix.m4*value.v1 + matrix.m5*value.v2
  v2 := matrix.m6*value.v0 + matrix.m7*value.v1 + matrix.m8*value.v2

def mul3 (lhs rhs : Matrix3) : Matrix3 where
  m0 := lhs.m0*rhs.m0 + lhs.m1*rhs.m3 + lhs.m2*rhs.m6
  m1 := lhs.m0*rhs.m1 + lhs.m1*rhs.m4 + lhs.m2*rhs.m7
  m2 := lhs.m0*rhs.m2 + lhs.m1*rhs.m5 + lhs.m2*rhs.m8
  m3 := lhs.m3*rhs.m0 + lhs.m4*rhs.m3 + lhs.m5*rhs.m6
  m4 := lhs.m3*rhs.m1 + lhs.m4*rhs.m4 + lhs.m5*rhs.m7
  m5 := lhs.m3*rhs.m2 + lhs.m4*rhs.m5 + lhs.m5*rhs.m8
  m6 := lhs.m6*rhs.m0 + lhs.m7*rhs.m3 + lhs.m8*rhs.m6
  m7 := lhs.m6*rhs.m1 + lhs.m7*rhs.m4 + lhs.m8*rhs.m7
  m8 := lhs.m6*rhs.m2 + lhs.m7*rhs.m5 + lhs.m8*rhs.m8

def lerpMatrix (first second : Matrix3) (weight : ℚ) : Matrix3 :=
  let entry (a b : ℚ) := weight*a + (1 - weight)*b
  { m0 := entry first.m0 second.m0, m1 := entry first.m1 second.m1
    m2 := entry first.m2 second.m2, m3 := entry first.m3 second.m3
    m4 := entry first.m4 second.m4, m5 := entry first.m5 second.m5
    m6 := entry first.m6 second.m6, m7 := entry first.m7 second.m7
    m8 := entry first.m8 second.m8 }

def determinant (m : Matrix3) : ℚ :=
  m.m0*(m.m4*m.m8 - m.m5*m.m7) - m.m1*(m.m3*m.m8 - m.m5*m.m6) + m.m2*(m.m3*m.m7 - m.m4*m.m6)

/-- `std::numeric_limits<float>::epsilon()`. -/
def kFloatEpsilon : ℚ := 1/2^23

def inverseMatrix (m : Matrix3) : Option Matrix3 :=
  let det := determinant m
  if |det| ≤ kFloatEpsilon then none
  else
    let invDet := 1/det
    some
      { m0 := (m.m4*m.m8 - m.m5*m.m7)*invDet, m1 := (m.m2*m.m7 - m.m1*m.m8)*invDet
        m2 := (m.m1*m.m5 - m.m2*m.m4)*invDet, m3 := (m.m5*m.m6 - m.m3*m.m8)*invDet
        m4 := (m.m0*m.m8 - m.m2*m.m6)*invDet, m5 := (m.m2*m.m3 - m.m0*m.m5)*invDet
        m6 := (m.m3*m.m7 - m.m4*m.m6)*invDet, m7 := (m.m1*m.m6 - m.m0*m.m7)*invDet
        m8 := (m.m0*m.m4 - m.m1*m.m3)*invDet }

/-! ### Calibration -/

structure CalibrationView where
  colorMatrix1 : Option Matrix3
  colorMatrix2 : Option Matrix3
  forwardMatrix1 : Option Matrix3
  forwardMatrix2 : Option Matrix3
  calibrationIlluminant1 : Nat
  calibrationIlluminant2 : Nat

def requiredMatrix (matrix : Option Matrix3) (message : String) : Except Error Matrix3 :=
  match matrix with
  | none => .error ⟨.needMetadata,message⟩
  | some matrix => .ok matrix

def calibrationIlluminantCct (illuminant : Nat) : Option ℚ :=
  match illuminant with
  | 17 => some 2850
  | 20 => some 5500
  | 21 => some 6500
  | 22 => some 7500
  | 23 => some 5000
  | 24 => some 3200
  | _ => none

/-- `std::numeric_limits<double>::epsilon()`. -/
def kDoubleEpsilon : ℚ := 1/2^52

def reciprocalCctWeight (cct1 cct2 cct : ℚ) : ℚ :=
  let denom := 1/cct1 - 1/cct2
  if |denom| ≤ kDoubleEpsilon then 1
  else min 1 (max 0 ((1/cct - 1/cct2)/denom))

/-- What both nodes check of the calibration: the two matrices and the temperatures of their
illuminants. -/
structure Illuminants where
  colorMatrix1 : Matrix3
  colorMatrix2 : Matrix3
  cct1 : ℚ
  cct2 : ℚ

def illuminants (calibration : CalibrationView) : Except Error Illuminants := do
  let colorMatrix1 ← requiredMatrix calibration.colorMatrix1 "wb missing ColorMatrix1"
  let colorMatrix2 ← requiredMatrix calibration.colorMatrix2 "wb missing ColorMatrix2"
  match calibrationIlluminantCct calibration.calibrationIlluminant1,
    calibrationIlluminantCct calibration.calibrationIlluminant2 with
  | some cct1, some cct2 => return ⟨colorMatrix1,colorMatrix2,cct1,cct2⟩
  | _, _ => throw ⟨.needMetadata,"wb unsupported calibration illuminant"⟩

structure CalibrationResult where
  cameraToXyzD50 : Matrix3
  sceneCct : ℚ
  blendWeight : ℚ

/-- `estimate_scene_cct` of a neutral between two matrices and their temperatures. -/
abbrev SceneCct := Vec3 → Matrix3 → Matrix3 → ℚ → ℚ → ℚ

def blended (calibration : CalibrationView) (known : Illuminants) (sceneCct : ℚ) :
    Except Error CalibrationResult :=
  let blendWeight := reciprocalCctWeight known.cct1 known.cct2 sceneCct
  match calibration.forwardMatrix1, calibration.forwardMatrix2 with
  | some forward1, some forward2 =>
    .ok ⟨lerpMatrix forward1 forward2 blendWeight,sceneCct,blendWeight⟩
  | _, _ =>
    match inverseMatrix (lerpMatrix known.colorMatrix1 known.colorMatrix2 blendWeight) with
    | none => .error ⟨.needMetadata,"wb singular ColorMatrix"⟩
    | some inverse => .ok ⟨inverse,sceneCct,blendWeight⟩

def interpolateCalibration (estimateSceneCct : SceneCct) (calibration : CalibrationView)
    (neutral : Vec3) : Except Error CalibrationResult := do
  let known ← illuminants calibration
  blended calibration known
    (estimateSceneCct neutral known.colorMatrix1 known.colorMatrix2 known.cct1 known.cct2)

/-! ### The nodes -/

/-- A pixel by the values of its halves. -/
structure Pixel where
  rgb : Vec3
  alpha : ℚ
  deriving DecidableEq, Repr

/-- Metadata as these nodes read and write it. A blob of floats is a list of numbers. -/
structure Metadata where
  csRole : String
  appliedSteps : List String
  asShotNeutral : Vec3
  blobs : String → Option (List ℚ)

structure Image where
  pixels : List Pixel
  calibration : CalibrationView
  metadata : Metadata

def kCameraDiagBlob : String := "com.cpipe.wb.camera_diag_f32"
def kCameraToXyzBlob : String := "com.cpipe.wb.camera_to_xyz_d50_f32"
def kSceneCctBlob : String := "com.cpipe.wb.scene_cct_f32"
def kBlendWeightBlob : String := "com.cpipe.wb.dual_illuminant_weight_f32"

def setFloatBlob (key : String) (values : List ℚ) (metadata : Metadata) : Metadata :=
  { metadata with blobs := fun k => if k = key then some values else metadata.blobs k }

def Matrix3.entries (m : Matrix3) : List ℚ := [m.m0,m.m1,m.m2,m.m3,m.m4,m.m5,m.m6,m.m7,m.m8]

def emitWbBlobs (neutral : Vec3) (calibration : CalibrationResult) (metadata : Metadata) :
    Metadata :=
  let cameraDiag := [1/neutral.v0,1/neutral.v1,1/neutral.v2]
  setFloatBlob kBlendWeightBlob [calibration.blendWeight] <|
    setFloatBlob kSceneCctBlob [calibration.sceneCct] <|
    setFloatBlob kCameraToXyzBlob calibration.cameraToXyzD50.entries <|
    setFloatBlob kCameraDiagBlob cameraDiag metadata

def addAppliedStep (step : String) (metadata : Metadata) : Metadata :=
  { metadata with appliedSteps := metadata.appliedSteps ++ [step] }

section Halves

-- `float_to_half`.
variable (half : ℚ → ℚ)

/-- What both white balances make of a pixel. -/
def divided (neutral : Vec3) (pixel : Pixel) : Pixel where
  rgb := ⟨half (pixel.rgb.v0/neutral.v0),half (pixel.rgb.v1/neutral.v1),
    half (pixel.rgb.v2/neutral.v2)⟩
  alpha := pixel.alpha

/-- The kernel of the node for two illuminants. -/
def wbDualIlluminantParam (asShotNeutral : Vec3) (pixels : List Pixel) : List Pixel :=
  pixels.map (divided half asShotNeutral)

def applyNeutral (pixels : List Pixel) (neutral : Vec3) : List Pixel :=
  pixels.map (divided half neutral)

/-- The sums of the three channels. -/
def channelSums (pixels : List Pixel) : Vec3 where
  v0 := (pixels.map (fun p => p.rgb.v0)).sum
  v1 := (pixels.map (fun p => p.rgb.v1)).sum
  v2 := (pixels.map (fun p => p.rgb.v2)).sum

def estimateNeutralFromPixels (pixels : List Pixel) : Except Error Vec3 :=
  let sums := channelSums pixels
  if sums.v0 ≤ 0 ∨ sums.v1 ≤ 0 ∨ sums.v2 ≤ 0 then
    .error ⟨.needMetadata,"wb.greyworld invalid channel mean"⟩
  else
    .ok ⟨sums.v0/sums.v1,1,sums.v2/sums.v1⟩

/-- `WbDualIlluminant::process`. -/
def wbDualIlluminant (estimateSceneCct : SceneCct) (image : Image) : Except Error Image := do
  let known ← illuminants image.calibration
  let neutral := image.metadata.asShotNeutral
  if neutral.v0 ≤ 0 ∨ neutral.v1 ≤ 0 ∨ neutral.v2 ≤ 0 then
    throw ⟨.needMetadata,"wb invalid AsShotNeutral"⟩
  let calibration ← blended image.calibration known
    (estimateSceneCct neutral known.colorMatrix1 known.colorMatrix2 known.cct1 known.cct2)
  return { image with
    pixels := wbDualIlluminantParam half neutral image.pixels
    metadata := addAppliedStep "white_balance" (emitWbBlobs neutral calibration image.metadata) }

/-- `WbGreyworldAuto::process`. -/
def wbGreyworldAuto (estimateSceneCct : SceneCct) (image : Image) : Except Error Image := do
  let neutral ← estimateNeutralFromPixels image.pixels
  let calibration ← interpolateCalibration estimateSceneCct image.calibration neutral
  return { image with
    pixels := applyNeutral half image.pixels neutral
    metadata := addAppliedStep "white_balance"
      (emitWbBlobs neutral calibration { image.metadata with asShotNeutral := neutral }) }

/-- The floats next to 0.9555766, -0.0230393, 0.0631636, -0.0282895, 1.0099416, 0.0210077,
0.0122982, -0.0204830 and 1.3299098. -/
def kD50ToD65 : Matrix3 where
  m0 := 1026042560/2^30
  m1 := -24738260/2^30
  m2 := 67821400/2^30
  m3 := -30375620/2^30
  m4 := 1084416512/2^30
  m5 := 22556846/2^30
  m6 := 13205092/2^30
  m7 := -21993454/2^30
  m8 := 1427979776/2^30

/-- The floats next to 1.7166512, -0.3556708, -0.2533663, -0.6666844, 1.6164812, 0.0157685,
0.0176399, -0.0427706 and 0.9421031. -/
def kXyzD65ToRec2020 : Matrix3 where
  m0 := 1843240192/2^30
  m1 := -381898624/2^30
  m2 := -272049984/2^30
  m3 := -715846912/2^30
  m4 := 1735683456/2^30
  m5 := 16931298/2^30
  m6 := 18940698/2^30
  m7 := -45924584/2^30
  m8 := 1011575488/2^30

def requiredCameraToXyzBlob (metadata : Metadata) : Except Error Matrix3 :=
  match metadata.blobs kCameraToXyzBlob with
  | none => .error ⟨.needMetadata,"colormatrix missing WB camera-to-XYZ blob"⟩
  | some [m0,m1,m2,m3,m4,m5,m6,m7,m8] => .ok ⟨m0,m1,m2,m3,m4,m5,m6,m7,m8⟩
  | some _ => .error ⟨.needMetadata,"colormatrix invalid WB camera-to-XYZ blob"⟩

/-- The kernel of the matrix node at one pixel. -/
def mapped (transform : Matrix3) (pixel : Pixel) : Pixel :=
  let mapped := mulMatrixVec transform pixel.rgb
  { rgb := ⟨half mapped.v0,half mapped.v1,half mapped.v2⟩, alpha := pixel.alpha }

def colormatrixDngToWorkingParam (transform : Matrix3) (pixels : List Pixel) : List Pixel :=
  pixels.map (mapped half transform)

/-- `ColormatrixDngToWorking::process`. -/
def colormatrixDngToWorking (image : Image) : Except Error Image := do
  let metadata := image.metadata
  if metadata.csRole ≠ "raw_camera" ∨ "white_balance" ∉ metadata.appliedSteps then
    throw ⟨.needMetadata,"colormatrix requires raw_camera white balance"⟩
  let cameraToXyzD50 ← requiredCameraToXyzBlob metadata
  let transform := mul3 kXyzD65ToRec2020 (mul3 kD50ToD65 cameraToXyzD50)
  return { image with
    pixels := colormatrixDngToWorkingParam half transform image.pixels
    metadata := addAppliedStep "color_matrix"
      { metadata with csRole := "scene_linear_rec2020" } }

end Halves

end Cpipe.Nodes.WhiteBalance
