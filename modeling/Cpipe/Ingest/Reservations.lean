import Cpipe.Ingest.OpcodeList2
import Cpipe.Ingest.OpcodeList3
import Cpipe.Ingest.OpcodeListParser
import Cpipe.Library.Requests

/-! The parsers with the sizes they hand to `reserve`, `assign` and the constructors of
vectors. -/

namespace Cpipe.Ingest.Reservations
open Library.Bytes Library.Ieee Library.Requests

/-! ### Opcode list 3 -/

namespace List3
open OpcodeList3 hiding parseWarpRectilinear parseFixBadPixelsList parseKnownOpcode parseOpcode
  parseOpcodes parseRead parse

def parseWarpRectilinear (params : List UInt8) : MeteredRead (Option WarpRectilinear) :=
  if params.length < 4 then
    return none
  else do
    let count ← readU32
    if count = 0 ∨ kMaxWarpPlanes < count then
      return none
    else if params.length ≠ 4 + count.toNat*6*8 + 2*8 then
      return none
    else
      reserve count.toNat
      let coefficients ← readMany readCoefficient count.toNat
      let cxHat ← readDouble
      let cyHat ← readDouble
      return some { coefficients, cxHat, cyHat }

def parseFixBadPixelsList (params : List UInt8) : MeteredRead (Option FixBadPixelsList) :=
  if params.length < 3*4 then
    return none
  else do
    let bayerPhase ← readU32
    let pointCount ← readU32
    let rectCount ← readU32
    if checkedListSize pointCount rectCount ≠ some params.length then
      return none
    else
      reserve pointCount.toNat
      let badPoints ← readMany readBadPoint pointCount.toNat
      reserve rectCount.toNat
      let badRects ← readMany readBadRect rectCount.toNat
      return some { bayerPhase, badPoints, badRects }

def parseKnownOpcode (params : List UInt8) (opcode : Opcode) : Metered (Option Opcode) :=
  match opcode.id with
  | .warpRectilinear => do
    let warp ← (parseWarpRectilinear params).run' { bytes := params }
    return warp.map (fun w => { opcode with warpRectilinear := some w })
  | .fixBadPixelsList => do
    let list ← (parseFixBadPixelsList params).run' { bytes := params }
    return list.map (fun l => { opcode with fixBadPixelsList := some l })
  -- the other payloads have a fixed size
  | _ => OpcodeList3.parseKnownOpcode params opcode

def parseOpcode : MeteredRead (Except ParseResult Opcode) := do
  let reader ← get
  if !reader.canRead kOpcodeHeaderBytes then
    return .error (failed "OpcodeList3 opcode header truncated")
  else
    let rawId ← readU32
    let dngVersion ← readU32
    let flags ← readU32
    let paramSize ← readU32
    let reader ← get
    if !reader.canRead paramSize.toNat then
      return .error (failed "OpcodeList3 opcode params truncated")
    else
      let params := (reader.bytes.drop reader.offset).take paramSize.toNat
      set (reader.skip paramSize.toNat)
      -- `raw_params.assign` takes the size of the range
      reserve params.length
      let opcode : Opcode :=
        { id := opcodeIdFromRaw rawId, rawId, dngVersion, flags
          optional := flags &&& kOptionalFlag != 0, rawParams := params }
      if opcode.id = .unknown then
        if !opcode.optional then
          return .error (unsupported "OpcodeList3 mandatory unknown opcode")
        else
          return .ok opcode
      else
        match ← parseKnownOpcode params opcode with
        | none => return .error (failed "OpcodeList3 known opcode params invalid")
        | some opcode => return .ok opcode

def parseOpcodes : Nat → List Opcode → MeteredRead ParseResult
  | 0, opcodes => return { status := .ok, opcodes }
  | k+1, opcodes => do
    match ← parseOpcode with
    | .error result => return result
    | .ok opcode => parseOpcodes k (opcodes ++ [opcode])

/-- The count is reserved as it stands in the file. -/
def parseRead (bytes : List UInt8) : MeteredRead ParseResult :=
  if bytes = [] then
    return { status := .ok }
  else do
    let reader ← get
    if !reader.canRead 4 then
      return failed "OpcodeList3 count truncated"
    else
      let count ← readU32
      reserve count.toNat
      parseOpcodes count.toNat []

def parse (bytes : List UInt8) : Metered ParseResult :=
  (parseRead bytes).run' { bytes := bytes }

end List3

/-! ### Opcode list 2 -/

namespace List2
open OpcodeList2 hiding parseGainMap parseOpcode parseOpcodes parseRead parseGainMaps

def parseGainMap (params : List UInt8) : MeteredRead (Except GainMapParseResult GainMap) :=
  if params.length < kGainMapHeaderBytes then
    return .error (failed "GainMap params truncated")
  else do
    let map ← readGainMapHeader
    match checkedGainCount map with
    | none => return .error (failed "GainMap size overflows")
    | some gainCount =>
      if (2^64 - 1 - kGainMapHeaderBytes) / 4 < gainCount.toNat then
        return .error (failed "GainMap byte size overflows")
      else if params.length < kGainMapHeaderBytes + gainCount.toNat*4 then
        return .error (failed "GainMap gain table truncated")
      else if !validRequiredShape map then
        return .error (unsupported "GainMap shape is outside cpipe v1 support")
      else
        reserve gainCount.toNat
        let gain ← readMany readFloat gainCount.toNat
        return .ok { map with gain }

def parseOpcode : MeteredRead (Except GainMapParseResult (Option GainMap)) := do
  let reader ← get
  if !reader.canRead kOpcodeHeaderBytes then
    return .error (failed "OpcodeList2 opcode header truncated")
  else
    let opcodeId ← readU32
    let _ ← readU32
    let _ ← readU32
    let paramSize ← readU32
    let reader ← get
    if !reader.canRead paramSize.toNat then
      return .error (failed "OpcodeList2 opcode params truncated")
    else
      let params := (reader.bytes.drop reader.offset).take paramSize.toNat
      set (reader.skip paramSize.toNat)
      if opcodeId ≠ kOpcodeGainMap then
        return .ok none
      else
        match ← (parseGainMap params).run' { bytes := params } with
        | .error result => return .error result
        | .ok map => return .ok (some map)

def parseOpcodes : Nat → List GainMap → MeteredRead GainMapParseResult
  | 0, maps => return { status := .ok, gainMaps := maps }
  | k+1, maps => do
    match ← parseOpcode with
    | .error result => return result
    | .ok map => parseOpcodes k (maps ++ map.toList)

def parseRead (bytes : List UInt8) : MeteredRead GainMapParseResult :=
  if bytes = [] then
    return { status := .ok }
  else do
    let reader ← get
    if !reader.canRead 4 then
      return failed "OpcodeList2 count truncated"
    else
      let count ← readU32
      parseOpcodes count.toNat []

def parseGainMaps (bytes : List UInt8) : Metered GainMapParseResult :=
  (parseRead bytes).run' { bytes := bytes }

end List2

/-! ### Tables of the file -/

namespace Tiff
open OpcodeListParser hiding entryData readEntries u32Values numericValues

/-- The buffer is made before the offset is checked. -/
def entryData (bytes : List UInt8) (entry : Entry) : Metered (List UInt8) :=
  let itemSize := typeSize entry.type
  let byteCount := entry.count.toNat*itemSize
  if itemSize = 0 ∨ byteCount = 0 ∨ bytes.length < byteCount then
    return []
  else do
    reserve byteCount
    if byteCount ≤ 4 then
      return (List.range byteCount).map
        (fun i => (entry.valueOrOffset >>> UInt32.ofNat (8*i)).toUInt8)
    else if bytes.length < entry.valueOrOffset.toNat ∨
        bytes.length - entry.valueOrOffset.toNat < byteCount then
      return []
    else
      copyN bytes entry.valueOrOffset.toNat byteCount

def readEntries (bytes : List UInt8) (ifdOffset : UInt32) :
    Metered (Option (List Entry)) :=
  if bytes.length < (ifdOffset + 2).toNat then
    return none
  else do
    let entryCount ← readU16 bytes ifdOffset.toNat
    let entriesOffset := ifdOffset + 2
    if bytes.length < entriesOffset.toNat + entryCount.toNat*12 then
      return none
    else
      reserve entryCount.toNat
      let entries ← ((List.range entryCount.toNat).mapM
        (fun i => readEntry bytes (entriesOffset + UInt32.ofNat i*12)) : Except Fault _)
      return some entries

def u32Values (bytes : List UInt8) (entry : Entry) : Metered (List UInt32) := do
  let data ← entryData bytes entry
  if data = [] then
    return []
  else if entry.type = kTypeByte ∧ entry.count.toNat ≤ data.length then
    reserve entry.count.toNat
    ((List.range entry.count.toNat).mapM
      (fun i => return (← byteAt data i).toUInt32) : Except Fault _)
  else if entry.type = kTypeShort ∧ entry.count.toNat*2 ≤ data.length then
    reserve entry.count.toNat
    ((List.range entry.count.toNat).mapM
      (fun i => return (← readU16 data (i*2)).toUInt32) : Except Fault _)
  else if entry.type = kTypeLong ∧ entry.count.toNat*4 ≤ data.length then
    reserve entry.count.toNat
    ((List.range entry.count.toNat).mapM
      (fun i => OpcodeListParser.readU32 data (i*4)) : Except Fault _)
  else
    return []

def numericValues (bytes : List UInt8) (entry : Entry) : Metered (List Float32) := do
  let data ← entryData bytes entry
  if data = [] then
    return []
  else if entry.type = kTypeByte ∨ entry.type = kTypeShort ∨ entry.type = kTypeLong then
    let values ← u32Values bytes entry
    reserve values.length
    return values.map UInt32.toFloat32
  else if (entry.type ≠ kTypeRational ∧ entry.type ≠ kTypeSRational) ∨
      data.length < entry.count.toNat*8 then
    return []
  else
    reserve entry.count.toNat
    ((List.range entry.count.toNat).mapM
      (fun i => fraction data entry.type (UInt32.ofNat i*8)) : Except Fault _)

end Tiff

end Cpipe.Ingest.Reservations
