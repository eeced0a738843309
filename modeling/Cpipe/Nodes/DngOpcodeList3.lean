import Cpipe.Ingest.OpcodeList3

namespace Cpipe.Nodes.DngOpcodeList3
open Ingest.OpcodeList3 Library.Bytes Library.Ieee

/-- The numbers of `OpcodeId`, which `pack_opcode_list_3` stores in a record. -/
def recordId : OpcodeId → UInt32
  | .unknown => 0
  | .warpRectilinear => 1
  | .fixVignetteRadial => 3
  | .fixBadPixelsConstant => 4
  | .fixBadPixelsList => 5
  | .trimBounds => 6

/-- The corrections of the kernel, by the function that applies each. -/
inductive Correction
  | warp | vignette | badPixelsConstant | badPixelsList | trimBounds
  deriving DecidableEq, Repr

/-- The switch of the kernel over one record: the correction it applies, nothing
for a record it passes over, or the status it stops with. -/
def dispatchRecord (id : UInt32) (optional : Bool) : Except Status (Option Correction) :=
  if id = 0 then
    if !optional then .error .unsupported else .ok none
  else if id = 1 then .ok (some .warp)
  else if id = 3 then .ok (some .vignette)
  else if id = 4 then .ok (some .badPixelsConstant)
  else if id = 5 then .ok (some .badPixelsList)
  else if id = 6 then .ok (some .trimBounds)
  else .error .unsupported

/-! ### The parameter blob -/

@[ext] structure Opcode3DispatchRecord where
  id : UInt32
  optional : UInt32
  coefficientCount : UInt32 := 0
  coefficients : Vector WarpCoefficient 4 := Vector.replicate 4 ⟨⟨0⟩,⟨0⟩,⟨0⟩,⟨0⟩,⟨0⟩,⟨0⟩⟩
  cxHat : Double := ⟨0⟩
  cyHat : Double := ⟨0⟩
  vignetteK : Vector Double 5 := Vector.replicate 5 ⟨0⟩
  vignetteCxHat : Double := ⟨0⟩
  vignetteCyHat : Double := ⟨0⟩
  constant : UInt32 := 0
  bayerPhase : UInt32 := 0
  pointOffset : UInt32 := 0
  pointCount : UInt32 := 0
  rectOffset : UInt32 := 0
  rectCount : UInt32 := 0
  top : UInt32 := 0
  left : UInt32 := 0
  bottom : UInt32 := 0
  right : UInt32 := 0
  deriving DecidableEq, Repr

def packWarp (warp : WarpRectilinear) (record : Opcode3DispatchRecord) : Opcode3DispatchRecord :=
  { record with
    coefficientCount := UInt32.ofNat (min warp.coefficients.length 4)
    coefficients := Vector.ofFn (fun i => warp.coefficients.getD i record.coefficients[i])
    cxHat := warp.cxHat, cyHat := warp.cyHat }

def packVignette (vignette : FixVignetteRadial) (record : Opcode3DispatchRecord) :
    Opcode3DispatchRecord :=
  { record with
    vignetteK := vignette.k, vignetteCxHat := vignette.cxHat, vignetteCyHat := vignette.cyHat }

def packConstant (fix : FixBadPixelsConstant) (record : Opcode3DispatchRecord) :
    Opcode3DispatchRecord :=
  { record with constant := fix.constant, bayerPhase := fix.bayerPhase }

/-- The offsets are the sizes of the tables so far, cut to 32 bits. -/
def packList (points rects : Nat) (fix : FixBadPixelsList) (record : Opcode3DispatchRecord) :
    Opcode3DispatchRecord :=
  { record with
    bayerPhase := fix.bayerPhase
    pointOffset := UInt32.ofNat points, pointCount := UInt32.ofNat fix.badPoints.length
    rectOffset := UInt32.ofNat rects, rectCount := UInt32.ofNat fix.badRects.length }

def packTrim (trim : TrimBounds) (record : Opcode3DispatchRecord) : Opcode3DispatchRecord :=
  { record with top := trim.top, left := trim.left, bottom := trim.bottom, right := trim.right }

def packPayload (payload : Option α) (pack : α → Opcode3DispatchRecord → Opcode3DispatchRecord)
    (record : Opcode3DispatchRecord) : Opcode3DispatchRecord :=
  match payload with
  | none => record
  | some p => pack p record

/-- The record of an opcode behind so many points and rectangles. -/
def packRecord (points rects : Nat) (opcode : Opcode) : Opcode3DispatchRecord :=
  let record : Opcode3DispatchRecord :=
    { id := recordId opcode.id, optional := if opcode.optional then 1 else 0 }
  packPayload opcode.trimBounds packTrim
    (packPayload opcode.fixBadPixelsList (packList points rects)
      (packPayload opcode.fixBadPixelsConstant packConstant
        (packPayload opcode.fixVignetteRadial packVignette
          (packPayload opcode.warpRectilinear packWarp record))))

def opcodePoints (opcode : Opcode) : List BadPoint :=
  match opcode.fixBadPixelsList with
  | none => []
  | some fix => fix.badPoints

def opcodeRects (opcode : Opcode) : List BadRect :=
  match opcode.fixBadPixelsList with
  | none => []
  | some fix => fix.badRects

/-- The loop over the opcodes with the sizes of the two tables. -/
def packRecords : List Opcode → Nat → Nat → List Opcode3DispatchRecord
  | [], _, _ => []
  | opcode :: opcodes, points, rects =>
    packRecord points rects opcode ::
      packRecords opcodes (points + (opcodePoints opcode).length)
        (rects + (opcodeRects opcode).length)

def coefficientBytes (k : WarpCoefficient) : List UInt8 :=
  k.kr0.native ++ (k.kr1.native ++ (k.kr2.native ++ (k.kr3.native ++
    (k.kt0.native ++ k.kt1.native))))

/-- Sixteen bytes of words, the last four of them padding, 33 doubles and ten words. -/
def recordBytes (r : Opcode3DispatchRecord) : List UInt8 :=
  [r.id,r.optional,r.coefficientCount,0].flatMap le32 ++
    (r.coefficients.toList.flatMap coefficientBytes ++
      ((r.cxHat :: r.cyHat :: (r.vignetteK.toList ++
          [r.vignetteCxHat,r.vignetteCyHat])).flatMap Double.native ++
        [r.constant,r.bayerPhase,r.pointOffset,r.pointCount,r.rectOffset,r.rectCount,
          r.top,r.left,r.bottom,r.right].flatMap le32))

def pointBytes (p : BadPoint) : List UInt8 := le32 p.row ++ le32 p.column

def rectBytes (r : BadRect) : List UInt8 :=
  le32 r.top ++ (le32 r.left ++ (le32 r.bottom ++ le32 r.right))

def packOpcodeList3 (opcodes : List Opcode) : List UInt8 :=
  le32 (UInt32.ofNat opcodes.length) ++ (le32 0 ++
    ((packRecords opcodes 0 0).flatMap recordBytes ++
      ((opcodes.flatMap opcodePoints).flatMap pointBytes ++
        (opcodes.flatMap opcodeRects).flatMap rectBytes)))

end Cpipe.Nodes.DngOpcodeList3
