import Cpipe.Core.Manifest
import Cpipe.Library.Ieee

namespace Cpipe.Ingest.OpcodeList2
open Library.Bytes Library.Ieee

structure GainMap where
  top : UInt32
  left : UInt32
  bottom : UInt32
  right : UInt32
  plane : UInt32
  planes : UInt32
  rowPitch : UInt32
  colPitch : UInt32
  mapPointsV : UInt32
  mapPointsH : UInt32
  mapSpacingV : Double
  mapSpacingH : Double
  mapOriginV : Double
  mapOriginH : Double
  mapPlanes : UInt32
  gain : List Single := []
  deriving DecidableEq, Repr

structure GainMapParseResult where
  status : Status := .failed
  gainMaps : List GainMap := []
  message : String := ""
  deriving DecidableEq, Repr

def kOpcodeGainMap : UInt32 := 9

def kOpcodeHeaderBytes : Nat := 16

def kGainMapHeaderBytes : Nat := 76

def failed (message : String) : GainMapParseResult := { status := .failed, message }

def unsupported (message : String) : GainMapParseResult := { status := .unsupported, message }

/-- The number of gains, in 64-bit arithmetic with a check before each product. -/
def checkedGainCount (map : GainMap) : Option UInt64 :=
  let v := map.mapPointsV.toUInt64
  let h := map.mapPointsH.toUInt64
  let planes := map.mapPlanes.toUInt64
  if map.mapPointsV = 0 ∨ map.mapPointsH = 0 ∨ map.mapPlanes = 0 ∨
      (2^64 - 1) / h.toNat < v.toNat then
    none
  else
    let vh := v * h
    if (2^64 - 1) / planes.toNat < vh.toNat then
      none
    else
      some (vh * planes)

def validRequiredShape (map : GainMap) : Bool :=
  (map.planes == 1 || map.planes == 4) && map.plane < map.planes && map.mapPlanes == 1 &&
    0 < map.rowPitch && 0 < map.colPitch && map.mapSpacingV.isFinite && map.mapSpacingH.isFinite &&
    map.mapSpacingV.isPositive && map.mapSpacingH.isPositive && map.mapOriginV.isFinite &&
    map.mapOriginH.isFinite

/-- The fields before the gain table. -/
def readGainMapHeader : Read GainMap := do
  let top ← readU32
  let left ← readU32
  let bottom ← readU32
  let right ← readU32
  let plane ← readU32
  let planes ← readU32
  let rowPitch ← readU32
  let colPitch ← readU32
  let mapPointsV ← readU32
  let mapPointsH ← readU32
  let mapSpacingV ← readDouble
  let mapSpacingH ← readDouble
  let mapOriginV ← readDouble
  let mapOriginH ← readDouble
  let mapPlanes ← readU32
  return { top, left, bottom, right, plane, planes, rowPitch, colPitch, mapPointsV, mapPointsH,
           mapSpacingV, mapSpacingH, mapOriginV, mapOriginH, mapPlanes }

/-- The map to append, or the result the caller returns with. -/
def parseGainMap (params : List UInt8) : Read (Except GainMapParseResult GainMap) :=
  if params.length < kGainMapHeaderBytes then
    return .error (failed "GainMap params truncated")
  else do
    let map ← readGainMapHeader
    match checkedGainCount map with
    | none => return .error (failed "GainMap size overflows")
    | some gainCount =>
      if (2^64 - 1 - kGainMapHeaderBytes) / 4 < gainCount.toNat then
        return .error (failed "GainMap byte size overflows")
      else if params.length < kGainMapHeaderBytes + gainCount.toNat*4 then
        return .error (failed "GainMap gain table truncated")
      else if !validRequiredShape map then
        return .error (unsupported "GainMap shape is outside cpipe v1 support")
      else
        let gain ← readMany readFloat gainCount.toNat
        return .ok { map with gain }

/-- One round of the loop in `parse_gain_maps`: the map to append, if any, or the
result the function returns with. -/
def parseOpcode : Read (Except GainMapParseResult (Option GainMap)) := do
  let reader ← get
  if !reader.canRead kOpcodeHeaderBytes then
    return .error (failed "OpcodeList2 opcode header truncated")
  else
    let opcodeId ← readU32
    let _ ← readU32
    let _ ← readU32
    let paramSize ← readU32
    let reader ← get
    if !reader.canRead paramSize.toNat then
      return .error (failed "OpcodeList2 opcode params truncated")
    else
      let params := (reader.bytes.drop reader.offset).take paramSize.toNat
      set (reader.skip paramSize.toNat)
      if opcodeId ≠ kOpcodeGainMap then
        return .ok none
      else
        match ← (parseGainMap params).run' { bytes := params } with
        | .error result => return .error result
        | .ok map => return .ok (some map)

/-- The loop of `parse_gain_maps` with the rounds left and the maps so far. -/
def parseOpcodes : Nat → List GainMap → Read GainMapParseResult
  | 0, maps => return { status := .ok, gainMaps := maps }
  | k+1, maps => do
    match ← parseOpcode with
    | .error result => return result
    | .ok map => parseOpcodes k (maps ++ map.toList)

/-- `parse_gain_maps` with the reader it leaves behind. -/
def parseRead (bytes : List UInt8) : Read GainMapParseResult :=
  if bytes = [] then
    return { status := .ok }
  else do
    let reader ← get
    if !reader.canRead 4 then
      return failed "OpcodeList2 count truncated"
    else
      let count ← readU32
      parseOpcodes count.toNat []

def parseGainMaps (bytes : List UInt8) : Except Fault GainMapParseResult :=
  (parseRead bytes).run' { bytes := bytes }

end Cpipe.Ingest.OpcodeList2
