import Cpipe.Library.Bytes

namespace Cpipe.Server
open Library.Bytes (be32 be32At)

inductive EditorFrameType where
  | thumbnail | profile | log | ack | control
deriving DecidableEq, Repr

def EditorFrameType.byte : EditorFrameType → UInt8
  | .thumbnail => 0x01
  | .profile => 0x02
  | .log => 0x03
  | .ack => 0x04
  | .control => 0x10

structure EditorFrame where
  type : EditorFrameType := .control
  nodeId : UInt32 := 0
  timestampMs : UInt32 := 0
  payload : List UInt8
deriving DecidableEq, Repr

def kHeaderBytes : Nat := 13

/-- The caller has found the four bytes to be there. -/
def readBe32 (bytes : List UInt8) (offset : Nat) (h : offset+4 ≤ bytes.length) : UInt32 :=
  be32At bytes offset h

def frameTypeFromByte (value : UInt8) : Option EditorFrameType :=
  if value = EditorFrameType.thumbnail.byte then
    some .thumbnail
  else if value = EditorFrameType.profile.byte then
    some .profile
  else if value = EditorFrameType.log.byte then
    some .log
  else if value = EditorFrameType.ack.byte then
    some .ack
  else if value = EditorFrameType.control.byte then
    some .control
  else
    none

/-- The length field is the low 32 bits of the payload's size. -/
def encodeFrame (type : EditorFrameType) (nodeId timestampMs : UInt32) (payload : List UInt8) :
    List UInt8 :=
  type.byte :: (be32 nodeId ++ be32 timestampMs ++ be32 (UInt32.ofNat payload.length) ++ payload)

def decodeFrame (bytes : List UInt8) : Option EditorFrame :=
  if h : bytes.length < kHeaderBytes then
    none
  else
    have hlen : 13 ≤ bytes.length := Nat.not_lt.mp h
    match frameTypeFromByte bytes[0] with
    | none => none
    | some type =>
      let length := readBe32 bytes 9 hlen
      if bytes.length ≠ kHeaderBytes + length.toNat then
        none
      else
        some { type, nodeId := readBe32 bytes 1 (by omega),
               timestampMs := readBe32 bytes 5 (by omega), payload := bytes.drop kHeaderBytes }

end Cpipe.Server
