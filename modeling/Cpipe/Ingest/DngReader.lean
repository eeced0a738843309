import Cpipe.Core.Layout
import Cpipe.Ingest.OpcodeListParser

namespace Cpipe.Ingest
open Compute
open OpcodeListParser (DngMetadata CalibrationBlock CaptureBlock)
open Library.Bytes (Fault)

/-- What the strip decoder reads of the parsed tags. -/
structure ParsedDngMetadata where
  width : UInt32
  height : UInt32
  stripOffset : UInt32
  stripByteCount : UInt32

namespace DngReader

/-- Bytes of a 16-bit RAW image, in the 64-bit arithmetic of the source. -/
def expectedBytes (metadata : ParsedDngMetadata) : UInt64 :=
  metadata.width.toUInt64 * metadata.height.toUInt64 * 2

/-- The strip, cut or padded with zeroes to the expected size. -/
def decodeSingleStrip (bytes : List UInt8) (metadata : ParsedDngMetadata) : Option (List UInt8) :=
  if bytes.length < metadata.stripOffset.toNat ∨
      bytes.length - metadata.stripOffset.toNat < metadata.stripByteCount.toNat then
    none
  else
    let expected := (expectedBytes metadata).toNat
    let copyBytes := min expected metadata.stripByteCount.toNat
    some ((bytes.drop metadata.stripOffset.toNat).take copyBytes ++
      List.replicate (expected - copyBytes) 0)

/-- The layout of the buffer `DngReader::read` hands over. -/
def rawLayout (metadata : ParsedDngMetadata) : BufferLayout :=
  imageLayout .r16Uint metadata.width metadata.height

/-- What LibRaw has of a file it opened and unpacked. -/
structure LibRawImage where
  make : List UInt8
  model : List UInt8
  isoSpeed : Float32
  shutter : Float32
  aperture : Float32
  focalLen : Float32
  maximum : UInt32
  black : UInt32
  xmpdata : List UInt8
  profile : List UInt8
  rawopcodes : Vector (List UInt8) 3
  rawWidth : UInt16
  rawHeight : UInt16
  rawImage : List UInt16

/-- The four levels, as `==` of arrays of floats sees them. -/
def allZero (level : Vector Float32 4) : Bool :=
  level.toList.all (fun b => b == 0)

def librawCapture (image : LibRawImage) (m : DngMetadata) : CaptureBlock :=
  let c := m.capture
  { c with
    cameraId := if m.make = [] then image.make else c.cameraId
    physicalCameraId := if m.model = [] then image.model else c.physicalCameraId
    iso := if c.iso = 0 ∧ 0 < image.isoSpeed then image.isoSpeed.toInt32 else c.iso
    exposureTimeNs := if c.exposureTimeNs = 0 ∧ 0 < image.shutter then
      (image.shutter*1000000000).toInt64 else c.exposureTimeNs
    lensAperture := if c.lensAperture == 0 ∧ 0 < image.aperture then image.aperture
      else c.lensAperture
    lensFocalLengthMm := if c.lensFocalLengthMm == 0 ∧ 0 < image.focalLen then image.focalLen
      else c.lensFocalLengthMm }

def librawCalibration (image : LibRawImage) (c : CalibrationBlock) : CalibrationBlock :=
  { c with
    whiteLevel := if c.whiteLevel = 0 ∧ 0 < image.maximum then image.maximum else c.whiteLevel
    blackLevel := if allZero c.blackLevel ∧ 0 < image.black then
      Vector.replicate 4 image.black.toFloat32 else c.blackLevel }

def orBlob (blob : List UInt8) (fallback : List UInt8) : List UInt8 :=
  if blob = [] then fallback else blob

/-- LibRaw's value where the tags gave none. -/
def applyLibrawMetadata (image : LibRawImage) (m : DngMetadata) : DngMetadata :=
  { m with
    make := orBlob m.make image.make
    model := orBlob m.model image.model
    capture := librawCapture image m
    calibration := librawCalibration image m.calibration
    xmpBlob := orBlob m.xmpBlob image.xmpdata
    iccBlob := orBlob m.iccBlob image.profile
    opcodeList1 := orBlob m.opcodeList1 image.rawopcodes[0]
    opcodeList2 := orBlob m.opcodeList2 image.rawopcodes[1]
    opcodeList3 := orBlob m.opcodeList3 image.rawopcodes[2] }

structure DecodedRaw where
  bytes : List UInt8
  metadata : DngMetadata

def sampleBytes (v : UInt16) : List UInt8 := [v.toUInt8,(v >>> 8).toUInt8]

def decodeWithLibraw (image : Option LibRawImage) (metadata : DngMetadata) : Option DecodedRaw :=
  match image with
  | none => none
  | some image =>
    let metadata := applyLibrawMetadata image metadata
    let width := metadata.width.toNat
    let height := metadata.height.toNat
    if width = 0 ∨ height = 0 ∨ image.rawWidth.toNat < width ∨
        image.rawHeight.toNat < height then
      none
    else
      let row (y : Nat) := (image.rawImage.drop (y*image.rawWidth.toNat)).take width
      some { bytes := (List.range height).flatMap (fun y => (row y).flatMap sampleBytes),
             metadata }

def parsedStrip (m : DngMetadata) : ParsedDngMetadata where
  width := m.width
  height := m.height
  stripOffset := m.stripOffset
  stripByteCount := m.stripByteCount

/-- The buffer handed over. Its metadata are those of the decoded image. -/
structure RawBuffer where
  layout : BufferLayout
  bytes : List UInt8
  metadata : DngMetadata

structure DngReadResult where
  status : Status
  buffer : Option RawBuffer := none
  message : String := ""

/-- The decoded bytes over the start of a buffer. Memory of a fresh buffer is not set by
the source; here it is zero. -/
def fillBuffer (size : Nat) (bytes : List UInt8) : List UInt8 :=
  bytes.take size ++ List.replicate (size - bytes.length) 0

/-- LibRaw's image, or the strip with the metadata as they were parsed. -/
def decode (image : Option LibRawImage) (bytes : List UInt8) (metadata : DngMetadata) :
    Option DecodedRaw :=
  match decodeWithLibraw image metadata with
  | some decoded => some decoded
  | none => (decodeSingleStrip bytes (parsedStrip metadata)).map
      (fun raw => { bytes := raw, metadata })

def rawBuffer (decoded : DecodedRaw) : RawBuffer :=
  let layout := rawLayout (parsedStrip decoded.metadata)
  { layout, bytes := fillBuffer layout.sizeBytes.toNat decoded.bytes,
    metadata := decoded.metadata }

/-- `DngReader::read` on the content of a file and what LibRaw makes of it. -/
def read (image : Option LibRawImage) (bytes : List UInt8) : Except Fault DngReadResult := do
  let parsed ← OpcodeListParser.parse bytes
  if parsed.status ≠ .ok then
    let status := if parsed.status = .unsupported then .failed else parsed.status
    return { status, message := parsed.message }
  else
    match decode image bytes parsed.metadata with
    | none => return { status := .failed, message := "failed to decode DNG RAW16 payload" }
    | some decoded => return { status := .ok, buffer := some (rawBuffer decoded) }

end DngReader
end Cpipe.Ingest
