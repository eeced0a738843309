import Cpipe.Ingest.DngReader
import Cpipe.Runtime.HalidePlane

namespace Cpipe.Nodes.BlacklevelDngLevels
open Ingest.OpcodeListParser (CalibrationBlock)
open Library.Bytes (Fault)
open Library.Raster (load store pixels)
open Runtime.HalideBufferAdapter (Dimension)
open Runtime.HalidePlane

/-- What the node reads of the calibration. -/
structure CalibrationView where
  hasCfa : Bool
  cfaRepeat : UInt8 × UInt8
  cfaPattern : Vector UInt8 16
  blackLevel : Vector Float32 4
  whiteLevel : UInt32

/-- `HostContext::get_calibration` and its copy in the SDK. -/
def getCalibration (calibration : CalibrationBlock) : CalibrationView where
  hasCfa := calibration.cfa.isSome
  cfaRepeat := (calibration.cfa.map (·.cfaRepeat)).getD (0,0)
  cfaPattern := (calibration.cfa.map (·.pattern)).getD (Vector.replicate 16 0)
  blackLevel := calibration.blackLevel
  whiteLevel := calibration.whiteLevel

structure BlacklevelParams where
  blackLevel : Vector Float32 4
  whiteLevel : UInt32
  cfaPattern : Vector UInt8 4

def packParams (calibration : CalibrationView) : BlacklevelParams where
  blackLevel := calibration.blackLevel
  whiteLevel := calibration.whiteLevel
  cfaPattern := Vector.ofFn (fun i => calibration.cfaPattern[i])

/-! ### The kernel -/

def cfaIndex (x y : Nat) : Fin 4 := ⟨2*(y%2) + x%2,by omega⟩

def channelAt (params : BlacklevelParams) (x y : Nat) : Fin 4 :=
  ⟨min params.cfaPattern[cfaIndex x y].toNat 3,by omega⟩

/-- The level subtracted at a pixel. -/
def blackAt (params : BlacklevelParams) (x y : Nat) : Float32 :=
  params.blackLevel[channelAt params x y]

def denominatorAt (params : BlacklevelParams) (x y : Nat) : Float32 :=
  params.whiteLevel.toFloat32 - blackAt params x y

def clamp (v lo hi : Float32) : Float32 :=
  if v < lo then lo else if hi < v then hi else v

/-- What the kernel makes of a sample. -/
def scaleAt (params : BlacklevelParams) (x y : Nat) (sample : Float32) : Float32 :=
  clamp ((sample - blackAt params x y)/denominatorAt params x y) 0 1

/-- The loop over the pixels. It stops at the first one whose level reaches the white. -/
def scalePixels (params : BlacklevelParams) (dims : List Dimension) (input : List Float32) :
    List (Nat × Nat) → List Float32 → Except Fault (Except Status (List Float32))
  | [], output => return .ok output
  | p :: ps, output =>
    if denominatorAt params p.1 p.2 ≤ 0 then
      return .error .needMetadata
    else do
      let sample ← load input (← checkedIndex input.length (offset dims p))
      let output ← store output (← checkedIndex output.length (offset dims p))
        (scaleAt params p.1 p.2 sample)
      scalePixels params dims input ps output

/-- The kernel on the memory of two planes with the same dimensions. -/
def blacklevelDngLevelsParam (params : BlacklevelParams) (dims : List Dimension)
    (input output : List Float32) : Except Fault (Except Status (List Float32)) :=
  scalePixels params dims input (pixels (rounds dims 0) (rounds dims 1)) output

def process (calibration : CalibrationView) (width height : UInt32) (input output : List Float32) :
    Except Fault (Except Status (List Float32)) :=
  if width = 0 ∨ height = 0 then
    return .error .badIndex
  else if calibration.hasCfa = false ∨ calibration.cfaRepeat.1 ≠ 2 ∨
      calibration.cfaRepeat.2 ≠ 2 ∨ calibration.whiteLevel = 0 then
    return .error .needMetadata
  else
    blacklevelDngLevelsParam (packParams calibration) (planeDims width height) input output

end Cpipe.Nodes.BlacklevelDngLevels
