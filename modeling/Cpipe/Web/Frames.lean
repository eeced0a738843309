import Cpipe.Library.Bytes

namespace Cpipe.Web
open Library.Bytes (be32 be32At)

/-! ### Values of the editor

A `number` that is written into a frame is an integer here. -/

namespace EditorFrameTypes

def thumbnail : Nat := 0x01
def profile : Nat := 0x02
def log : Nat := 0x03
def ack : Nat := 0x04
def control : Nat := 0x10

end EditorFrameTypes

/-- A decoded frame. Its type is any byte: the cast in `decodeEditorFrame` checks
nothing. -/
structure EditorFrame where
  nodeId : Nat
  payload : List UInt8
  timestampMs : Nat
  type : Nat
deriving DecidableEq, Repr

inductive Payload where
  | bytes (data : List UInt8)
  | text (value : String)

/-- Texts are encoded as UTF-8. -/
def Payload.payloadBytes : Payload → List UInt8
  | .bytes data => data
  | .text value => value.toUTF8.toList

/-- A window of a buffer. -/
structure ArrayBufferView where
  buffer : List UInt8
  byteOffset : Nat
  byteLength : Nat
  fits : byteOffset+byteLength ≤ buffer.length

inductive Data where
  | buffer (data : List UInt8)
  | view (data : ArrayBufferView)

def Data.bytes : Data → List UInt8
  | .buffer data => data
  | .view data => (data.buffer.drop data.byteOffset).take data.byteLength

/-! ### Frames -/

def headerBytes : Nat := 13

/-- What `value >>> 0` leaves of a number. -/
def toUint32 (value : Int) : UInt32 := UInt32.ofInt value

def writeBe32 (value : Int) : List UInt8 := be32 (toUint32 value)

def readBe32 (view : List UInt8) (offset : Nat) (h : offset+4 ≤ view.length) : Nat :=
  (be32At view offset h).toNat

def encodeEditorFrame (type : Nat) (payload : Payload) (nodeId timestampMs : Int := 0) :
    List UInt8 :=
  let payloadBytes := payload.payloadBytes
  UInt8.ofNat type ::
    (writeBe32 nodeId ++ writeBe32 timestampMs ++ writeBe32 payloadBytes.length ++ payloadBytes)

def decodeEditorFrame (data : Data) : Except String EditorFrame :=
  let bytes := data.bytes
  if h : bytes.length < headerBytes then
    .error "editor frame shorter than 13-byte header"
  else
    have hlen : 13 ≤ bytes.length := Nat.not_lt.mp h
    let length := readBe32 bytes 9 hlen
    if bytes.length ≠ headerBytes + length then
      .error "editor frame payload length mismatch"
    else
      .ok { nodeId := readBe32 bytes 1 (by omega), payload := bytes.drop headerBytes,
            timestampMs := readBe32 bytes 5 (by omega), type := bytes[0].toNat }

end Cpipe.Web
