import Cpipe.Ingest.OpcodeList2
import Cpipe.Runtime.HalidePlane

namespace Cpipe.Nodes.ShadingGainmap
open Library.Bytes Library.Ieee Ingest.OpcodeList2
open Library.Raster (store)
open Runtime.HalideBufferAdapter (Dimension)
open Runtime.HalidePlane (planeDims checkedIndex)

/-- What the node reads of the calibration. -/
structure CalibrationView where
  hasCfa : Bool
  cfaRepeat : Vector UInt8 2
  cfaPattern : Vector UInt8 16

/-! ### The set of maps -/

/-- The loop over four maps with the planes seen so far. -/
def validatePlanes : List GainMap → List UInt32 → Except Error Unit
  | [], _ => .ok ()
  | map :: maps, seen =>
    if map.planes ≠ 4 ∨ 4 ≤ map.plane ∨ map.plane ∈ seen then
      .error ⟨.unsupported,"GainMap plane set invalid"⟩
    else
      validatePlanes maps (map.plane :: seen)

def validateGainMaps (gainMaps : List GainMap) : Except Error Unit :=
  match gainMaps with
  | [] => .error ⟨.needMetadata,"GainMap opcode missing"⟩
  | [map] =>
    if map.planes = 1 ∧ map.plane = 0 then .ok ()
    else .error ⟨.unsupported,"GainMap plane set incomplete"⟩
  | _ =>
    if gainMaps.length ≠ 4 then .error ⟨.unsupported,"GainMap plane set incomplete"⟩
    else validatePlanes gainMaps []

/-! ### The parameter blob -/

structure GainMapDispatchHeader where
  mapCount : UInt32
  cfaRepeat : Vector UInt8 2
  cfaPattern : Vector UInt8 16

structure GainMapDispatchPlane where
  top : UInt32
  left : UInt32
  bottom : UInt32
  right : UInt32
  plane : UInt32
  planes : UInt32
  mapPointsV : UInt32
  mapPointsH : UInt32
  mapSpacingV : Double
  mapSpacingH : Double
  mapOriginV : Double
  mapOriginH : Double
  gainOffset : UInt32
  gainCount : UInt32
  deriving DecidableEq, Repr

/-- 22 bytes of fields and two of padding. -/
def GainMapDispatchHeader.bytes (h : GainMapDispatchHeader) : List UInt8 :=
  le32 h.mapCount ++ (h.cfaRepeat.toList ++ (h.cfaPattern.toList ++ [0,0]))

def GainMapDispatchPlane.bytes (p : GainMapDispatchPlane) : List UInt8 :=
  le32 p.top ++ (le32 p.left ++ (le32 p.bottom ++ (le32 p.right ++ (le32 p.plane ++
    (le32 p.planes ++ (le32 p.mapPointsV ++ (le32 p.mapPointsH ++ (p.mapSpacingV.native ++
      (p.mapSpacingH.native ++ (p.mapOriginV.native ++ (p.mapOriginH.native ++
        (le32 p.gainOffset ++ le32 p.gainCount))))))))))))

/-- The record of one map. Row and column pitch have no place in it. -/
def packPlane (map : GainMap) (gainOffset : UInt32) : GainMapDispatchPlane :=
  { top := map.top, left := map.left, bottom := map.bottom, right := map.right
    plane := map.plane, planes := map.planes
    mapPointsV := map.mapPointsV, mapPointsH := map.mapPointsH
    mapSpacingV := map.mapSpacingV, mapSpacingH := map.mapSpacingH
    mapOriginV := map.mapOriginV, mapOriginH := map.mapOriginH
    gainOffset, gainCount := UInt32.ofNat map.gain.length }

/-- The records, with the running offset in 32-bit arithmetic. -/
def packPlanes : List GainMap → UInt32 → List GainMapDispatchPlane
  | [], _ => []
  | map :: maps, gainOffset =>
    packPlane map gainOffset :: packPlanes maps (gainOffset + UInt32.ofNat map.gain.length)

def packGainMaps (calibration : CalibrationView) (gainMaps : List GainMap) : List UInt8 :=
  let header : GainMapDispatchHeader :=
    { mapCount := UInt32.ofNat gainMaps.length
      cfaRepeat := calibration.cfaRepeat, cfaPattern := calibration.cfaPattern }
  header.bytes ++ ((packPlanes gainMaps 0).flatMap GainMapDispatchPlane.bytes ++
    gainMaps.flatMap (fun map => map.gain.flatMap Single.native))

/-! ### The kernel -/

/-- Arithmetic of `float`, which the kernel only composes. -/
structure FloatArith where
  add : Single → Single → Single
  sub : Single → Single → Single
  mul : Single → Single → Single
  ofRat : Rat → Single

structure AxisSample where
  low : UInt32 := 0
  high : UInt32 := 0
  weight : Rat := 0

def sampleAxis (coord : Rat) (points : UInt32) : AxisSample :=
  if points ≤ 1 ∨ coord ≤ 0 then
    {}
  else if ((points - 1).toNat : Rat) ≤ coord then
    { low := points - 1, high := points - 1, weight := 0 }
  else
    let low := UInt32.ofNat coord.floor.toNat
    { low, high := low + 1, weight := coord - low.toNat }

/-- The CFA position that selects one of four maps. -/
def cfaPlane (repeat0 repeat1 : UInt8) (x y : UInt32) : UInt32 :=
  if repeat0 = 4 ∧ repeat1 = 4 then ((y % 4) / 2) * 2 + (x % 4) / 2
  else (y &&& 1) * 2 + (x &&& 1)

def selectMap (mapCount : UInt32) (repeat0 repeat1 : UInt8) (maps : List GainMapDispatchPlane)
    (x y : UInt32) : Option GainMapDispatchPlane :=
  if mapCount = 1 then
    maps.head?
  else
    maps.find? (fun map => map.plane == cfaPlane repeat0 repeat1 x y)

/-- A grid coordinate as an exact number. -/
def gridCoord (position : UInt32) (origin spacing : Double) : Rat :=
  ((position.toNat : Rat) - origin.value) / spacing.value

/-- The indices of the four gains around a pixel, in 32-bit arithmetic. -/
def gainIndices (map : GainMapDispatchPlane) (x y : UInt32) : Vector UInt32 4 :=
  let sy := sampleAxis (gridCoord y map.mapOriginV map.mapSpacingV) map.mapPointsV
  let sx := sampleAxis (gridCoord x map.mapOriginH map.mapSpacingH) map.mapPointsH
  let rowStride := map.mapPointsH
  #v[sy.low*rowStride + sx.low,sy.low*rowStride + sx.high,
    sy.high*rowStride + sx.low,sy.high*rowStride + sx.high]

def lerp (arith : FloatArith) (a b t : Single) : Single :=
  arith.add a (arith.mul (arith.sub b a) t)

/-- `gains[index]` of the map whose table begins at `start`. -/
def loadGain (blob : List UInt8) (start : Nat) (index : UInt32) : Except Fault Single :=
  loadFloat.run' { bytes := blob, offset := start + index.toNat*4 }

def sampleGain (arith : FloatArith) (blob : List UInt8) (start : Nat)
    (map : GainMapDispatchPlane) (x y : UInt32) : Except Fault Single := do
  let sy := sampleAxis (gridCoord y map.mapOriginV map.mapSpacingV) map.mapPointsV
  let sx := sampleAxis (gridCoord x map.mapOriginH map.mapSpacingH) map.mapPointsH
  let indices := gainIndices map x y
  let g00 ← loadGain blob start indices[0]
  let g10 ← loadGain blob start indices[1]
  let g01 ← loadGain blob start indices[2]
  let g11 ← loadGain blob start indices[3]
  let wx := arith.ofRat sx.weight
  return lerp arith (lerp arith g00 g10 wx) (lerp arith g01 g11 wx) (arith.ofRat sy.weight)

def sizeofHeader : Nat := 24

def sizeofPlane : Nat := 72

/-- The fields of the header that the kernel reads. -/
def loadHeader : Read (UInt32 × UInt8 × UInt8) := do
  let mapCount ← readLE32
  let reader ← get
  let repeat0 ← byteAt reader.bytes reader.offset
  let repeat1 ← byteAt reader.bytes (reader.offset+1)
  return (mapCount,repeat0,repeat1)

def loadPlane : Read GainMapDispatchPlane := do
  let top ← readLE32
  let left ← readLE32
  let bottom ← readLE32
  let right ← readLE32
  let plane ← readLE32
  let planes ← readLE32
  let mapPointsV ← readLE32
  let mapPointsH ← readLE32
  let mapSpacingV ← loadDouble
  let mapSpacingH ← loadDouble
  let mapOriginV ← loadDouble
  let mapOriginH ← loadDouble
  let gainOffset ← readLE32
  let gainCount ← readLE32
  return { top, left, bottom, right, plane, planes, mapPointsV, mapPointsH, mapSpacingV,
           mapSpacingH, mapOriginV, mapOriginH, gainOffset, gainCount }

/-- The check of one record against the bytes left for gains. -/
def planeFits (gainBytes : Nat) (map : GainMapDispatchPlane) : Bool :=
  map.mapPointsV != 0 && map.mapPointsH != 0 && map.gainCount != 0 &&
    (map.gainOffset.toNat + map.gainCount.toNat)*4 ≤ gainBytes

/-- An image of one channel. Its extents are values of `int`. -/
structure Image where
  width : Nat
  height : Nat
  width_lt : width < 2^31
  height_lt : height < 2^31
  pixel : Nat → Nat → Single

/-- One store of the kernel: the pixel, the map whose gain it was multiplied by
and the product. -/
structure Write where
  x : Nat
  y : Nat
  map : GainMapDispatchPlane
  value : Single

/-- Pixels in the order of the two loops. -/
def Image.pixels (image : Image) : List (Nat × Nat) :=
  (List.range image.height).flatMap (fun y => (List.range image.width).map (fun x => (x,y)))

/-- The loops over the pixels, with the stores so far. -/
def shade (arith : FloatArith) (blob : List UInt8) (mapCount : UInt32) (repeat0 repeat1 : UInt8)
    (maps : List GainMapDispatchPlane) (image : Image) :
    List (Nat × Nat) → List Write → Except Fault (Status × List Write)
  | [], done => return (.ok,done)
  | (x,y) :: pixels, done =>
    match selectMap mapCount repeat0 repeat1 maps (UInt32.ofNat x) (UInt32.ofNat y) with
    | none => return (.needMetadata,done)
    | some map => do
      let start := sizeofHeader + mapCount.toNat*sizeofPlane + map.gainOffset.toNat*4
      let gain ← sampleGain arith blob start map (UInt32.ofNat x) (UInt32.ofNat y)
      let value := arith.mul (image.pixel x y) gain
      shade arith blob mapCount repeat0 repeat1 maps image pixels
        (done ++ [{ x, y, map, value }])

/-- The kernel: its status and the stores it made. -/
def lensShadingGainmapParam (arith : FloatArith) (blob : List UInt8) (image : Image) :
    Except Fault (Status × List Write) :=
  if blob.length < sizeofHeader then
    return (.badIndex,[])
  else do
    let (mapCount,repeat0,repeat1) ← loadHeader.run' { bytes := blob }
    if mapCount = 0 ∨ 4 < mapCount then
      return (.needMetadata,[])
    else
      let mapBytes := mapCount.toNat*sizeofPlane
      if blob.length < sizeofHeader + mapBytes then
        return (.badIndex,[])
      else
        let maps ← (readMany loadPlane mapCount.toNat).run'
          { bytes := blob, offset := sizeofHeader }
        let gainBytes := blob.length - sizeofHeader - mapBytes
        if !maps.all (planeFits gainBytes) then
          return (.badIndex,[])
        else
          shade arith blob mapCount repeat0 repeat1 maps image image.pixels []

/-! ### The node -/

/-- What the node leaves in its output image. -/
inductive Output
  | copied
  | scaled (writes : List Write)

/-- The node behind the checks of its buffers. Without a list, or without a gain
map in it, the image is copied. -/
def process (arith : FloatArith) (calibration : CalibrationView)
    (opcodeList2 : Option (List UInt8)) (image : Image) : Except Fault (Except Error Output) :=
  if !calibration.hasCfa then
    return .error ⟨.needMetadata,"gainmap missing CFA"⟩
  else
    match opcodeList2 with
    | none => return .ok .copied
    | some bytes => do
      let parsed ← parseGainMaps bytes
      if parsed.status ≠ .ok then
        return .error ⟨parsed.status,parsed.message⟩
      else if parsed.gainMaps = [] then
        return .ok .copied
      else
        match validateGainMaps parsed.gainMaps with
        | .error e => return .error e
        | .ok () =>
          let (status,writes) ← lensShadingGainmapParam arith
            (packGainMaps calibration parsed.gainMaps) image
          if status ≠ .ok then
            return .error ⟨status,"submit_halide_with_params failed"⟩
          else
            return .ok (.scaled writes)

/-- The output image: the input itself, or the last store to each pixel over what
the buffer held before. -/
def Output.pixel (output : Output) (image : Image) (before : Nat → Nat → Single) (x y : Nat) :
    Single :=
  match output with
  | .copied => image.pixel x y
  | .scaled writes =>
    match writes.reverse.find? (fun w => w.x == x && w.y == y) with
    | some w => w.value
    | none => before x y

/-- The stores of the kernel in the memory of the output plane. A load of the input has the
index of the store behind it, as both planes have the same dimensions. -/
def storeWrites (dims : List Dimension) (writes : List Write) (out : List Single) :
    Except Fault (List Single) :=
  writes.foldlM (fun out w => do
    store out (← checkedIndex out.length (Runtime.HalidePlane.offset dims (w.x,w.y))) w.value) out

/-- What the memory of the output plane holds in the end. -/
def Output.memory (output : Output) (dims : List Dimension) (input before : List Single) :
    Except Fault (List Single) :=
  match output with
  | .copied => return input
  | .scaled writes => storeWrites dims writes before

end Cpipe.Nodes.ShadingGainmap
