import Cpipe.Core.Manifest
import Cpipe.Library.Bytes

namespace Cpipe.Ingest.OpcodeListParser
open Library.Bytes (Fault byteAt copyN)

/-! ### Tags and types -/

def kTiffMagic : UInt16 := 42

def kTypeByte : UInt16 := 1
def kTypeAscii : UInt16 := 2
def kTypeShort : UInt16 := 3
def kTypeLong : UInt16 := 4
def kTypeRational : UInt16 := 5
def kTypeUndefined : UInt16 := 7
def kTypeSRational : UInt16 := 10

def kTagXmp : UInt16 := 700
def kTagImageWidth : UInt16 := 256
def kTagImageLength : UInt16 := 257
def kTagBitsPerSample : UInt16 := 258
def kTagCompression : UInt16 := 259
def kTagPhotometricInterpretation : UInt16 := 262
def kTagMake : UInt16 := 271
def kTagModel : UInt16 := 272
def kTagStripOffsets : UInt16 := 273
def kTagOrientation : UInt16 := 274
def kTagSamplesPerPixel : UInt16 := 277
def kTagStripByteCounts : UInt16 := 279
def kTagExifIFD : UInt16 := 34665
def kTagIsoSpeedRatings : UInt16 := 34855
def kTagIccProfile : UInt16 := 34675
def kTagExposureTime : UInt16 := 33434
def kTagFNumber : UInt16 := 33437
def kTagFocalLength : UInt16 := 37386
def kTagCfaRepeatPatternDim : UInt16 := 33421
def kTagCfaPattern : UInt16 := 33422
def kTagLinearizationTable : UInt16 := 50712
def kTagBlackLevel : UInt16 := 50714
def kTagWhiteLevel : UInt16 := 50717
def kTagColorMatrix1 : UInt16 := 50721
def kTagColorMatrix2 : UInt16 := 50722
def kTagAsShotNeutral : UInt16 := 50728
def kTagCalibrationIlluminant1 : UInt16 := 50778
def kTagCalibrationIlluminant2 : UInt16 := 50779
def kTagActiveArea : UInt16 := 50829
def kTagForwardMatrix1 : UInt16 := 50964
def kTagForwardMatrix2 : UInt16 := 50965
def kTagOpcodeList1 : UInt16 := 51008
def kTagOpcodeList2 : UInt16 := 51009
def kTagOpcodeList3 : UInt16 := 51022

def kCompressionNone : UInt32 := 1
def kPhotometricCfa : UInt32 := 32803

/-! ### Reading the file -/

structure Entry where
  tag : UInt16
  type : UInt16
  count : UInt32
  valueOrOffset : UInt32

def readU16 (bytes : List UInt8) (offset : Nat) : Except Fault UInt16 := do
  let low ← byteAt bytes offset
  let high ← byteAt bytes (offset+1)
  return low.toUInt16 ||| (high.toUInt16 <<< 8)

def readU32 (bytes : List UInt8) (offset : Nat) : Except Fault UInt32 := do
  let low ← readU16 bytes offset
  let high ← readU16 bytes (offset+2)
  return low.toUInt32 ||| (high.toUInt32 <<< 16)

def readI32 (bytes : List UInt8) (offset : Nat) : Except Fault Int32 := do
  return (← readU32 bytes offset).toInt32

def typeSize (type : UInt16) : Nat :=
  if type = kTypeByte ∨ type = kTypeAscii ∨ type = kTypeUndefined then 1
  else if type = kTypeShort then 2
  else if type = kTypeLong then 4
  else if type = kTypeRational ∨ type = kTypeSRational then 8
  else 0

def entryData (bytes : List UInt8) (entry : Entry) : Except Fault (List UInt8) :=
  let itemSize := typeSize entry.type
  let byteCount := entry.count.toNat*itemSize
  if itemSize = 0 ∨ byteCount = 0 ∨ bytes.length < byteCount then
    return []
  else if byteCount ≤ 4 then
    return (List.range byteCount).map
      (fun i => (entry.valueOrOffset >>> UInt32.ofNat (8*i)).toUInt8)
  else if bytes.length < entry.valueOrOffset.toNat ∨
      bytes.length - entry.valueOrOffset.toNat < byteCount then
    return []
  else
    copyN bytes entry.valueOrOffset.toNat byteCount

def findEntry (entries : List Entry) (tag : UInt16) : Option Entry :=
  entries.find? (fun entry => entry.tag == tag)

/-- One row of the table. Its offsets are 32-bit sums. -/
def readEntry (bytes : List UInt8) (offset : UInt32) : Except Fault Entry := do
  let tag ← readU16 bytes offset.toNat
  let type ← readU16 bytes (offset + 2).toNat
  let count ← readU32 bytes (offset + 4).toNat
  let valueOrOffset ← readU32 bytes (offset + 8).toNat
  return { tag, type, count, valueOrOffset }

/-- The first two checks add in 32 bits and in 64 bits, as the source does. -/
def readEntries (bytes : List UInt8) (ifdOffset : UInt32) :
    Except Fault (Option (List Entry)) :=
  if bytes.length < (ifdOffset + 2).toNat then
    return none
  else do
    let entryCount ← readU16 bytes ifdOffset.toNat
    let entriesOffset := ifdOffset + 2
    if bytes.length < entriesOffset.toNat + entryCount.toNat*12 then
      return none
    else
      let entries ← (List.range entryCount.toNat).mapM
        (fun i => readEntry bytes (entriesOffset + UInt32.ofNat i*12))
      return some entries

def copyIfdBytes (bytes : List UInt8) (ifdOffset : UInt32) : Except Fault (List UInt8) :=
  if bytes.length < (ifdOffset + 2).toNat then
    return []
  else do
    let entryCount ← readU16 bytes ifdOffset.toNat
    let byteCount := 2 + entryCount.toNat*12 + 4
    if bytes.length < byteCount ∨ bytes.length - byteCount < ifdOffset.toNat then
      return []
    else
      copyN bytes ifdOffset.toNat byteCount

/-! ### Values of an entry -/

def firstU32 (bytes : List UInt8) (entry : Entry) : Except Fault UInt32 := do
  let data ← entryData bytes entry
  if data = [] then
    return 0
  else if entry.type = kTypeShort ∧ 2 ≤ data.length then
    return (← readU16 data 0).toUInt32
  else if entry.type = kTypeLong ∧ 4 ≤ data.length then
    readU32 data 0
  else if entry.type = kTypeByte then
    return (← byteAt data 0).toUInt32
  else
    return 0

def u32Values (bytes : List UInt8) (entry : Entry) : Except Fault (List UInt32) := do
  let data ← entryData bytes entry
  if data = [] then
    return []
  else if entry.type = kTypeByte ∧ entry.count.toNat ≤ data.length then
    (List.range entry.count.toNat).mapM (fun i => return (← byteAt data i).toUInt32)
  else if entry.type = kTypeShort ∧ entry.count.toNat*2 ≤ data.length then
    (List.range entry.count.toNat).mapM (fun i => return (← readU16 data (i*2)).toUInt32)
  else if entry.type = kTypeLong ∧ entry.count.toNat*4 ≤ data.length then
    (List.range entry.count.toNat).mapM (fun i => readU32 data (i*4))
  else
    return []

def shorts (bytes : List UInt8) (entry : Entry) : Except Fault (List UInt16) := do
  let values ← u32Values bytes entry
  if entry.type ≠ kTypeShort then
    return []
  else
    return values.map UInt32.toUInt16

/-- A signed or unsigned part of a fraction. -/
def fractionPart (data : List UInt8) (type : UInt16) (offset : Nat) : Except Fault Float32 :=
  if type = kTypeRational then
    UInt32.toFloat32 <$> readU32 data offset
  else
    Int32.toFloat32 <$> readI32 data offset

/-- One fraction, at a 32-bit offset; a zero denominator gives zero. -/
def fraction (data : List UInt8) (type : UInt16) (offset : UInt32) : Except Fault Float32 := do
  let denominator ← fractionPart data type (offset + 4).toNat
  if denominator == 0 then
    return 0
  else
    let numerator ← fractionPart data type offset.toNat
    return numerator / denominator

def numericValues (bytes : List UInt8) (entry : Entry) : Except Fault (List Float32) := do
  let data ← entryData bytes entry
  if data = [] then
    return []
  else if entry.type = kTypeByte ∨ entry.type = kTypeShort ∨ entry.type = kTypeLong then
    let values ← u32Values bytes entry
    return values.map UInt32.toFloat32
  else if (entry.type ≠ kTypeRational ∧ entry.type ≠ kTypeSRational) ∨
      data.length < entry.count.toNat*8 then
    return []
  else
    (List.range entry.count.toNat).mapM
      (fun i => fraction data entry.type (UInt32.ofNat i*8))

/-- The bytes of a text up to the first zero. -/
def ascii (bytes : List UInt8) (entry : Entry) : Except Fault (List UInt8) := do
  let data ← entryData bytes entry
  if entry.type ≠ kTypeAscii ∨ data = [] then
    return []
  else
    return data.takeWhile (fun b => b != 0)

def blob (bytes : List UInt8) (entry : Entry) : Except Fault (List UInt8) :=
  entryData bytes entry

abbrev Matrix3 := Vector Float32 9

def matrix3 (bytes : List UInt8) (entry : Entry) : Except Fault Matrix3 := do
  let values ← numericValues bytes entry
  return Vector.ofFn (fun i => values.getD i 0)

/-! ### The metadata -/

structure CfaDescriptor where
  cfaRepeat : UInt8 × UInt8 := (2,2)
  pattern : Vector UInt8 16 := Vector.replicate 16 0

structure CalibrationBlock where
  cfa : Option CfaDescriptor := none
  blackLevel : Vector Float32 4 := Vector.replicate 4 0
  whiteLevel : UInt32 := 0
  linearizationTable : Option (List UInt16) := none
  colorMatrix1 : Option Matrix3 := none
  colorMatrix2 : Option Matrix3 := none
  forwardMatrix1 : Option Matrix3 := none
  forwardMatrix2 : Option Matrix3 := none
  calibrationIlluminant1 : UInt16 := 0
  calibrationIlluminant2 : UInt16 := 0

structure CaptureBlock where
  exposureTimeNs : Int64 := 0
  iso : Int32 := 0
  lensFocalLengthMm : Float32 := 0
  lensAperture : Float32 := 0
  asShotNeutral : Vector Float32 3 := Vector.replicate 3 1
  orientation : UInt8 := 1
  cameraId : List UInt8 := []
  physicalCameraId : List UInt8 := []

structure Rect2u where
  x : UInt32
  y : UInt32
  width : UInt32
  height : UInt32

structure DngMetadata where
  width : UInt32 := 0
  height : UInt32 := 0
  bitsPerSample : UInt16 := 0
  stripOffset : UInt32 := 0
  stripByteCount : UInt32 := 0
  calibration : CalibrationBlock := {}
  capture : CaptureBlock := {}
  activeArea : Option Rect2u := none
  make : List UInt8 := []
  model : List UInt8 := []
  linearizationTable : List UInt16 := []
  exifBlob : List UInt8 := []
  xmpBlob : List UInt8 := []
  iccBlob : List UInt8 := []
  opcodeList1 : List UInt8 := []
  opcodeList2 : List UInt8 := []
  opcodeList3 : List UInt8 := []

structure ParseResult where
  status : Status := .failed
  metadata : DngMetadata := {}
  message : String := ""

def failed (message : String) : ParseResult := { status := .failed, message }

/-! ### Stages of `parse` -/

/-- What is done with an entry, if the table has it. -/
def withEntry (entries : List Entry) (tag : UInt16) (f : Entry → α → Except Fault α) (out : α) :
    Except Fault α :=
  match findEntry entries tag with
  | none => return out
  | some entry => f entry out

def applyU32 (bytes : List UInt8) (entries : List Entry) (tag : UInt16) (setter : UInt32 → α → α)
    (out : α) : Except Fault α :=
  withEntry entries tag (fun entry out => return setter (← firstU32 bytes entry) out) out

def firstOr (bytes : List UInt8) (entries : List Entry) (tag : UInt16) (fallback : UInt32) :
    Except Fault UInt32 :=
  withEntry entries tag (fun entry _ => firstU32 bytes entry) fallback

/-- The first number of an entry, where it has one. -/
def applyFirst (bytes : List UInt8) (entries : List Entry) (tag : UInt16)
    (setter : Float32 → α → α) (out : α) : Except Fault α :=
  withEntry entries tag (fun entry out => do
    match ← numericValues bytes entry with
    | [] => return out
    | value :: _ => return setter value out) out

def applyCaptureEntries (bytes : List UInt8) (entries : List Entry) (capture : CaptureBlock) :
    Except Fault CaptureBlock := do
  let capture ← applyFirst bytes entries kTagExposureTime
    (fun v c => { c with exposureTimeNs := (v*1000000000).toInt64 }) capture
  let capture ← applyU32 bytes entries kTagIsoSpeedRatings
    (fun v c => { c with iso := v.toInt32 }) capture
  let capture ← applyFirst bytes entries kTagFNumber
    (fun v c => { c with lensAperture := v }) capture
  applyFirst bytes entries kTagFocalLength (fun v c => { c with lensFocalLengthMm := v }) capture

def applyImageEntries (bytes : List UInt8) (entries : List Entry) (out : DngMetadata) :
    Except Fault DngMetadata := do
  let out ← applyU32 bytes entries kTagImageWidth (fun v o => { o with width := v }) out
  let out ← applyU32 bytes entries kTagImageLength (fun v o => { o with height := v }) out
  let out ← applyU32 bytes entries kTagBitsPerSample
    (fun v o => { o with bitsPerSample := v.toUInt16 }) out
  let out ← applyU32 bytes entries kTagStripOffsets (fun v o => { o with stripOffset := v }) out
  let out ← applyU32 bytes entries kTagStripByteCounts
    (fun v o => { o with stripByteCount := v }) out
  let out ← applyU32 bytes entries kTagOrientation
    (fun v o => { o with capture.orientation := v.toUInt8 }) out
  let out ← applyU32 bytes entries kTagWhiteLevel
    (fun v o => { o with calibration.whiteLevel := v }) out
  let out ← applyU32 bytes entries kTagCalibrationIlluminant1
    (fun v o => { o with calibration.calibrationIlluminant1 := v.toUInt16 }) out
  let out ← applyU32 bytes entries kTagCalibrationIlluminant2
    (fun v o => { o with calibration.calibrationIlluminant2 := v.toUInt16 }) out
  let capture ← applyCaptureEntries bytes entries out.capture
  let out := { out with capture }
  let out ← withEntry entries kTagMake (fun entry o => do
    let make ← ascii bytes entry
    return { o with make, capture.cameraId := make }) out
  withEntry entries kTagModel (fun entry o => do
    let model ← ascii bytes entry
    return { o with model, capture.physicalCameraId := model }) out

def unsupported (out : DngMetadata) (message : String) : ParseResult :=
  { status := .unsupported, metadata := out, message }

/-- The repeat of the color filter array, or the result `parse` returns with. -/
def cfaRepeat (bytes : List UInt8) (entries : List Entry) (out : DngMetadata) :
    Except Fault (Except ParseResult (UInt8 × UInt8)) :=
  match findEntry entries kTagCfaRepeatPatternDim with
  | none => return .error (unsupported out "DNG is missing CFARepeatPatternDim")
  | some entry => do
    match ← shorts bytes entry with
    | [rows,columns] =>
      if rows = columns ∧ (rows = 2 ∨ rows = 4) then
        return .ok (rows.toUInt8,columns.toUInt8)
      else
        return .error (unsupported out "only 2x2 Bayer or 4x4 Quad Bayer DNG is supported")
    | _ => return .error (unsupported out "only 2x2 Bayer or 4x4 Quad Bayer DNG is supported")

/-- The pattern for a repeat, where the file has one of the right size. -/
def cfaPattern (bytes : List UInt8) (entries : List Entry) (dims : UInt8 × UInt8) :
    Except Fault (Option (Vector UInt8 16)) :=
  match findEntry entries kTagCfaPattern with
  | none => return none
  | some entry => do
    let data ← entryData bytes entry
    let expectedCount := dims.1.toNat*dims.2.toNat
    if data.length = expectedCount ∧ expectedCount ≤ 16 then
      return some (Vector.ofFn (fun i => data.getD i 0))
    else
      return none

/-- Sets each element that has a value. -/
def fill {n : Nat} (values : List Float32) (old : Vector Float32 n) : Vector Float32 n :=
  Vector.ofFn (fun i => values.getD i old[i])

def applyMatrix (bytes : List UInt8) (entries : List Entry) (tag : UInt16)
    (setter : Matrix3 → DngMetadata → DngMetadata) (out : DngMetadata) :
    Except Fault DngMetadata :=
  withEntry entries tag (fun entry o => return setter (← matrix3 bytes entry) o) out

def applyCalibrationEntries (bytes : List UInt8) (entries : List Entry) (out : DngMetadata) :
    Except Fault DngMetadata := do
  let out ← withEntry entries kTagBlackLevel (fun entry o => do
    let black ← numericValues bytes entry
    return { o with calibration.blackLevel := fill black o.calibration.blackLevel }) out
  let out ← withEntry entries kTagLinearizationTable (fun entry o => do
    let table ← shorts bytes entry
    return { o with linearizationTable := table,
                    calibration.linearizationTable := some table }) out
  let out ← applyMatrix bytes entries kTagColorMatrix1
    (fun m o => { o with calibration.colorMatrix1 := some m }) out
  let out ← applyMatrix bytes entries kTagColorMatrix2
    (fun m o => { o with calibration.colorMatrix2 := some m }) out
  let out ← applyMatrix bytes entries kTagForwardMatrix1
    (fun m o => { o with calibration.forwardMatrix1 := some m }) out
  let out ← applyMatrix bytes entries kTagForwardMatrix2
    (fun m o => { o with calibration.forwardMatrix2 := some m }) out
  let out ← withEntry entries kTagAsShotNeutral (fun entry o => do
    let neutral ← numericValues bytes entry
    return { o with capture.asShotNeutral := fill neutral o.capture.asShotNeutral }) out
  withEntry entries kTagActiveArea (fun entry o => do
    match ← u32Values bytes entry with
    | [top,left,bottom,right] =>
      if top ≤ bottom ∧ left ≤ right then
        let area : Rect2u := { x := left, y := top, width := right - left, height := bottom - top }
        return { o with activeArea := some area }
      else
        return o
    | _ => return o) out

/-- The tags in front of the Exif table: the metadata and the compression, or the
result `parse` returns with. -/
def parseImage (bytes : List UInt8) (entries : List Entry) :
    Except Fault (Except ParseResult (DngMetadata × UInt32)) := do
  let compression ← firstOr bytes entries kTagCompression kCompressionNone
  let photometric ← firstOr bytes entries kTagPhotometricInterpretation kPhotometricCfa
  let samplesPerPixel ← firstOr bytes entries kTagSamplesPerPixel 1
  if photometric ≠ kPhotometricCfa ∨ samplesPerPixel ≠ 1 then
    return .error (unsupported {} "only single-plane Bayer CFA DNG is supported in P1")
  else
    let out ← applyImageEntries bytes entries {}
    match ← cfaRepeat bytes entries out with
    | .error result => return .error result
    | .ok dims =>
      match ← cfaPattern bytes entries dims with
      | none => return .error (unsupported out "DNG is missing a supported CFA pattern")
      | some pattern =>
        let out := { out with calibration.cfa := some { cfaRepeat := dims, pattern } }
        let out ← applyCalibrationEntries bytes entries out
        return .ok (out,compression)

def applyExif (bytes : List UInt8) (entries : List Entry) (out : DngMetadata) :
    Except Fault DngMetadata :=
  withEntry entries kTagExifIFD (fun entry o => do
    let exifOffset ← firstU32 bytes entry
    let exifBlob ← copyIfdBytes bytes exifOffset
    let o := { o with exifBlob }
    match ← readEntries bytes exifOffset with
    | none => return o
    | some exifEntries =>
      let capture ← applyCaptureEntries bytes exifEntries o.capture
      return { o with capture }) out

def applyBlobs (bytes : List UInt8) (entries : List Entry) (out : DngMetadata) :
    Except Fault DngMetadata := do
  let out ← withEntry entries kTagXmp
    (fun entry o => return { o with xmpBlob := ← blob bytes entry }) out
  let out ← withEntry entries kTagIccProfile
    (fun entry o => return { o with iccBlob := ← blob bytes entry }) out
  let out ← withEntry entries kTagOpcodeList1
    (fun entry o => return { o with opcodeList1 := ← blob bytes entry }) out
  let out ← withEntry entries kTagOpcodeList2
    (fun entry o => return { o with opcodeList2 := ← blob bytes entry }) out
  withEntry entries kTagOpcodeList3
    (fun entry o => return { o with opcodeList3 := ← blob bytes entry }) out

/-- The checks after all tags. -/
def finish (out : DngMetadata) (compression : UInt32) : ParseResult :=
  if out.width = 0 ∨ out.height = 0 ∨ out.bitsPerSample = 0 ∨ 16 < out.bitsPerSample ∨
      out.stripByteCount = 0 then
    failed "DNG is missing required RAW fields"
  else if compression ≠ kCompressionNone ∧ out.stripOffset = 0 then
    failed "compressed DNG is missing a raw strip offset"
  else
    { status := .ok, metadata := out }

/-- The header check: whether the file is little-endian TIFF. -/
def headerOk (bytes : List UInt8) : Except Fault Bool :=
  if bytes.length < 8 then
    return false
  else do
    let first ← byteAt bytes 0
    let second ← byteAt bytes 1
    if first ≠ 0x49 ∨ second ≠ 0x49 then
      return false
    else
      return (← readU16 bytes 2) == kTiffMagic

/-- `parse` on the content of a file that could be opened. -/
def parse (bytes : List UInt8) : Except Fault ParseResult := do
  if !(← headerOk bytes) then
    return failed "unsupported DNG/TIFF header"
  else
    let ifdOffset ← readU32 bytes 4
    match ← readEntries bytes ifdOffset with
    | none => return failed "invalid IFD table"
    | some entries =>
      match ← parseImage bytes entries with
      | .error result => return result
      | .ok (out,compression) =>
        let out ← applyExif bytes entries out
        let out ← applyBlobs bytes entries out
        return finish out compression

end Cpipe.Ingest.OpcodeListParser
