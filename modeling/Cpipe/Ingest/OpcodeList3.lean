import Cpipe.Core.Manifest
import Cpipe.Library.Ieee

namespace Cpipe.Ingest.OpcodeList3
open Library.Bytes Library.Ieee

inductive OpcodeId
  | unknown | warpRectilinear | fixVignetteRadial | fixBadPixelsConstant | fixBadPixelsList
  | trimBounds
  deriving DecidableEq, Repr

structure WarpCoefficient where
  kr0 : Double
  kr1 : Double
  kr2 : Double
  kr3 : Double
  kt0 : Double
  kt1 : Double
  deriving DecidableEq, Repr

structure WarpRectilinear where
  coefficients : List WarpCoefficient
  cxHat : Double
  cyHat : Double
  deriving DecidableEq, Repr

structure FixVignetteRadial where
  k : Vector Double 5
  cxHat : Double
  cyHat : Double
  deriving DecidableEq, Repr

structure FixBadPixelsConstant where
  constant : UInt32
  bayerPhase : UInt32
  deriving DecidableEq, Repr

structure BadPoint where
  row : UInt32
  column : UInt32
  deriving DecidableEq, Repr

structure BadRect where
  top : UInt32
  left : UInt32
  bottom : UInt32
  right : UInt32
  deriving DecidableEq, Repr

structure FixBadPixelsList where
  bayerPhase : UInt32
  badPoints : List BadPoint
  badRects : List BadRect
  deriving DecidableEq, Repr

structure TrimBounds where
  top : UInt32
  left : UInt32
  bottom : UInt32
  right : UInt32
  deriving DecidableEq, Repr

structure Opcode where
  id : OpcodeId := .unknown
  rawId : UInt32 := 0
  dngVersion : UInt32 := 0
  flags : UInt32 := 0
  optional : Bool := false
  rawParams : List UInt8 := []
  warpRectilinear : Option WarpRectilinear := none
  fixVignetteRadial : Option FixVignetteRadial := none
  fixBadPixelsConstant : Option FixBadPixelsConstant := none
  fixBadPixelsList : Option FixBadPixelsList := none
  trimBounds : Option TrimBounds := none
  deriving DecidableEq, Repr

structure ParseResult where
  status : Status := .failed
  opcodes : List Opcode := []
  message : String := ""
  deriving DecidableEq, Repr

def kOpcodeHeaderBytes : Nat := 16

def kOptionalFlag : UInt32 := 1

def kMaxWarpPlanes : UInt32 := 4

def failed (message : String) : ParseResult := { status := .failed, message }

def unsupported (message : String) : ParseResult := { status := .unsupported, message }

def opcodeIdFromRaw (rawId : UInt32) : OpcodeId :=
  if rawId = 1 then .warpRectilinear
  else if rawId = 3 then .fixVignetteRadial
  else if rawId = 4 then .fixBadPixelsConstant
  else if rawId = 5 then .fixBadPixelsList
  else if rawId = 6 then .trimBounds
  else .unknown

/-! ### Payloads

A payload parser returns `none` where the source returns `false`. -/

def readCoefficient : Read WarpCoefficient := do
  let kr0 ← readDouble
  let kr1 ← readDouble
  let kr2 ← readDouble
  let kr3 ← readDouble
  let kt0 ← readDouble
  let kt1 ← readDouble
  return { kr0, kr1, kr2, kr3, kt0, kt1 }

def readBadPoint : Read BadPoint := do
  let row ← readU32
  let column ← readU32
  return { row, column }

def readBadRect : Read BadRect := do
  let top ← readU32
  let left ← readU32
  let bottom ← readU32
  let right ← readU32
  return { top, left, bottom, right }

def parseWarpRectilinear (params : List UInt8) : Read (Option WarpRectilinear) :=
  if params.length < 4 then
    return none
  else do
    let count ← readU32
    if count = 0 ∨ kMaxWarpPlanes < count then
      return none
    else if params.length ≠ 4 + count.toNat*6*8 + 2*8 then
      return none
    else
      let coefficients ← readMany readCoefficient count.toNat
      let cxHat ← readDouble
      let cyHat ← readDouble
      return some { coefficients, cxHat, cyHat }

def parseFixVignetteRadial (params : List UInt8) : Read (Option FixVignetteRadial) :=
  if params.length ≠ 7*8 then
    return none
  else do
    let k0 ← readDouble
    let k1 ← readDouble
    let k2 ← readDouble
    let k3 ← readDouble
    let k4 ← readDouble
    let cxHat ← readDouble
    let cyHat ← readDouble
    return some { k := #v[k0,k1,k2,k3,k4], cxHat, cyHat }

def parseFixBadPixelsConstant (params : List UInt8) : Read (Option FixBadPixelsConstant) :=
  if params.length ≠ 2*4 then
    return none
  else do
    let constant ← readU32
    let bayerPhase ← readU32
    return some { constant, bayerPhase }

/-- The size of a list of bad pixels, refused where it exceeds `size_t`. -/
def checkedListSize (points rects : UInt32) : Option Nat :=
  if points.toNat > (2^64 - 1 - 12) / 8 then
    none
  else
    let withPoints := 12 + points.toNat*8
    if rects.toNat > (2^64 - 1 - withPoints) / 16 then
      none
    else
      some (withPoints + rects.toNat*16)

def parseFixBadPixelsList (params : List UInt8) : Read (Option FixBadPixelsList) :=
  if params.length < 3*4 then
    return none
  else do
    let bayerPhase ← readU32
    let pointCount ← readU32
    let rectCount ← readU32
    if checkedListSize pointCount rectCount ≠ some params.length then
      return none
    else
      let badPoints ← readMany readBadPoint pointCount.toNat
      let badRects ← readMany readBadRect rectCount.toNat
      return some { bayerPhase, badPoints, badRects }

def parseTrimBounds (params : List UInt8) : Read (Option TrimBounds) :=
  if params.length ≠ 4*4 then
    return none
  else do
    let top ← readU32
    let left ← readU32
    let bottom ← readU32
    let right ← readU32
    return some { top, left, bottom, right }

/-- Each payload parser starts a reader of its own on the parameters. -/
def parseKnownOpcode (params : List UInt8) (opcode : Opcode) : Except Fault (Option Opcode) :=
  match opcode.id with
  | .warpRectilinear => do
    let warp ← (parseWarpRectilinear params).run' { bytes := params }
    return warp.map (fun w => { opcode with warpRectilinear := some w })
  | .fixVignetteRadial => do
    let vignette ← (parseFixVignetteRadial params).run' { bytes := params }
    return vignette.map (fun v => { opcode with fixVignetteRadial := some v })
  | .fixBadPixelsConstant => do
    let constant ← (parseFixBadPixelsConstant params).run' { bytes := params }
    return constant.map (fun c => { opcode with fixBadPixelsConstant := some c })
  | .fixBadPixelsList => do
    let list ← (parseFixBadPixelsList params).run' { bytes := params }
    return list.map (fun l => { opcode with fixBadPixelsList := some l })
  | .trimBounds => do
    let bounds ← (parseTrimBounds params).run' { bytes := params }
    return bounds.map (fun t => { opcode with trimBounds := some t })
  | .unknown => return none

/-! ### The list -/

/-- One round of the loop in `parse`: the opcode to append, or the result the
function returns with. -/
def parseOpcode : Read (Except ParseResult Opcode) := do
  let reader ← get
  if !reader.canRead kOpcodeHeaderBytes then
    return .error (failed "OpcodeList3 opcode header truncated")
  else
    let rawId ← readU32
    let dngVersion ← readU32
    let flags ← readU32
    let paramSize ← readU32
    let reader ← get
    if !reader.canRead paramSize.toNat then
      return .error (failed "OpcodeList3 opcode params truncated")
    else
      let params := (reader.bytes.drop reader.offset).take paramSize.toNat
      set (reader.skip paramSize.toNat)
      let opcode : Opcode :=
        { id := opcodeIdFromRaw rawId, rawId, dngVersion, flags
          optional := flags &&& kOptionalFlag != 0, rawParams := params }
      if opcode.id = .unknown then
        if !opcode.optional then
          return .error (unsupported "OpcodeList3 mandatory unknown opcode")
        else
          return .ok opcode
      else
        match ← parseKnownOpcode params opcode with
        | none => return .error (failed "OpcodeList3 known opcode params invalid")
        | some opcode => return .ok opcode

/-- The loop of `parse` with the rounds left and the opcodes so far. -/
def parseOpcodes : Nat → List Opcode → Read ParseResult
  | 0, opcodes => return { status := .ok, opcodes }
  | k+1, opcodes => do
    match ← parseOpcode with
    | .error result => return result
    | .ok opcode => parseOpcodes k (opcodes ++ [opcode])

/-- `parse` with the reader it leaves behind. -/
def parseRead (bytes : List UInt8) : Read ParseResult :=
  if bytes = [] then
    return { status := .ok }
  else do
    let reader ← get
    if !reader.canRead 4 then
      return failed "OpcodeList3 count truncated"
    else
      let count ← readU32
      parseOpcodes count.toNat []

def parse (bytes : List UInt8) : Except Fault ParseResult :=
  (parseRead bytes).run' { bytes := bytes }

end Cpipe.Ingest.OpcodeList3
