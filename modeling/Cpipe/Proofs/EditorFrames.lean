import Cpipe.Server.EditorProtocol
import Cpipe.Web.Frames

namespace Cpipe.Proofs.EditorFrames
open Server (EditorFrameType frameTypeFromByte encodeFrame decodeFrame)
open Web (encodeEditorFrame decodeEditorFrame)
open Library.Bytes (be32 join32 be32_join32 join32_be32 toNat_ofNat_lt ofNat_length_eq)

/-! ### The layout on the wire -/

/-- The bytes of a frame as both sides lay them out. -/
def layout (type : UInt8) (nodeId timestampMs length : UInt32) (payload : List UInt8) :
    List UInt8 :=
  type :: (be32 nodeId ++ be32 timestampMs ++ be32 length ++ payload)

variable {type : UInt8} {nodeId timestampMs length : UInt32} {payload bytes : List UInt8}

@[simp] theorem layout_length :
    (layout type nodeId timestampMs length payload).length = 13 + payload.length := by
  simp only [layout, List.length_cons, List.length_append, Library.Bytes.be32_length]
  omega

/-- Every byte string that can hold a header is laid out as a frame. -/
theorem exists_layout (h : 13 ≤ bytes.length) :
    ∃ type nodeId timestampMs length payload,
      bytes = layout type nodeId timestampMs length payload := by
  match bytes, h with
  | t :: a0 :: a1 :: a2 :: a3 :: b0 :: b1 :: b2 :: b3 :: c0 :: c1 :: c2 :: c3 :: rest, _ =>
    refine ⟨t,join32 a0 a1 a2 a3,join32 b0 b1 b2 b3,join32 c0 c1 c2 c3,rest,?_⟩
    simp only [layout, be32_join32, List.cons_append, List.nil_append]

-- the four bytes of each field stand at a fixed place, so a read is the word's own split
theorem readBe32_nodeId {h} :
    Server.readBe32 (layout type nodeId timestampMs length payload) 1 h = nodeId :=
  join32_be32 nodeId

theorem readBe32_timestampMs {h} :
    Server.readBe32 (layout type nodeId timestampMs length payload) 5 h = timestampMs :=
  join32_be32 timestampMs

theorem readBe32_length {h} :
    Server.readBe32 (layout type nodeId timestampMs length payload) 9 h = length :=
  join32_be32 length

theorem web_readBe32 {offset : Nat} {h : offset+4 ≤ bytes.length} :
    Web.readBe32 bytes offset h = (Server.readBe32 bytes offset h).toNat :=
  rfl

/-! ### The server's codec -/

theorem encodeFrame_layout (type : EditorFrameType) (nodeId timestampMs : UInt32)
    (payload : List UInt8) : encodeFrame type nodeId timestampMs payload =
      layout type.byte nodeId timestampMs (UInt32.ofNat payload.length) payload :=
  rfl

theorem decodeFrame_layout :
    decodeFrame (layout type nodeId timestampMs length payload) =
      (frameTypeFromByte type).bind (fun known =>
        if payload.length = length.toNat then
          some { type := known, nodeId, timestampMs, payload }
        else
          none) := by
  have hlen : ¬ (layout type nodeId timestampMs length payload).length < Server.kHeaderBytes := by
    rw [layout_length, Server.kHeaderBytes]
    omega
  unfold decodeFrame
  rw [dif_neg hlen]
  simp only [readBe32_nodeId, readBe32_timestampMs, readBe32_length, layout_length,
    Server.kHeaderBytes, Nat.add_left_cancel_iff, ite_not]
  cases hknown : frameTypeFromByte type with
  | none => simp [layout, hknown]
  | some known => simp [layout, hknown, be32]

theorem frameTypeFromByte_byte (type : EditorFrameType) :
    frameTypeFromByte type.byte = some type := by
  cases type <;> rfl

theorem byte_of_frameTypeFromByte {value : UInt8} {type : EditorFrameType}
    (h : frameTypeFromByte value = some type) : type.byte = value := by
  unfold frameTypeFromByte at h
  split_ifs at h <;> cases h <;> symm <;> assumption

theorem frameTypeFromByte_isSome_iff {value : UInt8} :
    (frameTypeFromByte value).isSome ↔ value ∈ [0x01,0x02,0x03,0x04,0x10] := by
  constructor
  · intro h
    obtain ⟨type,htype⟩ := Option.isSome_iff_exists.mp h
    rw [← byte_of_frameTypeFromByte htype]
    cases type <;> decide
  · intro h
    simp only [List.mem_cons, List.not_mem_nil, or_false] at h
    rcases h with rfl | rfl | rfl | rfl | rfl <;> rfl

/-- Every frame of a payload whose size fits the length field comes back. -/
theorem decodeFrame_encodeFrame (type : EditorFrameType) (nodeId timestampMs : UInt32)
    {payload : List UInt8} (h : payload.length < 2^32) :
    decodeFrame (encodeFrame type nodeId timestampMs payload) =
      some { type, nodeId, timestampMs, payload } := by
  rw [encodeFrame_layout, decodeFrame_layout, frameTypeFromByte_byte]
  simp [toNat_ofNat_lt h]

/-- A frame the server accepts is the encoding of what it decodes to. -/
theorem encodeFrame_of_decodeFrame {frame : Server.EditorFrame}
    (h : decodeFrame bytes = some frame) :
    encodeFrame frame.type frame.nodeId frame.timestampMs frame.payload = bytes := by
  by_cases hlen : bytes.length < 13
  · have hshort : decodeFrame bytes = none := dif_pos hlen
    rw [hshort] at h
    cases h
  obtain ⟨type,nodeId,timestampMs,length,payload,rfl⟩ := exists_layout (Nat.not_lt.mp hlen)
  rw [decodeFrame_layout] at h
  obtain ⟨known,hknown,hframe⟩ := Option.bind_eq_some_iff.mp h
  split_ifs at hframe with hpayload
  cases hframe
  rw [encodeFrame_layout, byte_of_frameTypeFromByte hknown, ofNat_length_eq hpayload]

/-! ### The editor's codec -/

theorem toUint32_natCast (n : Nat) : Web.toUint32 n = UInt32.ofNat n := by
  have hmod : ((n : Int) % 2^32).toNat = n % 2^32 := by omega
  rw [Web.toUint32, UInt32.ofInt, hmod]
  exact UInt32.ofNat_mod_size

/-- The editor writes the bytes the server would write. -/
theorem encodeEditorFrame_eq (type : EditorFrameType) (nodeId timestampMs : UInt32)
    (payload : Web.Payload) :
    encodeEditorFrame type.byte.toNat payload nodeId.toNat timestampMs.toNat =
      encodeFrame type nodeId timestampMs payload.payloadBytes := by
  simp only [encodeEditorFrame, encodeFrame, Web.writeBe32, toUint32_natCast,
    UInt32.ofNat_toNat, UInt8.ofNat_toNat]

theorem decodeEditorFrame_layout {data : Web.Data}
    (h : data.bytes = layout type nodeId timestampMs length payload) :
    decodeEditorFrame data =
      if payload.length = length.toNat then
        .ok { nodeId := nodeId.toNat, payload, timestampMs := timestampMs.toNat,
              type := type.toNat }
      else
        .error "editor frame payload length mismatch" := by
  have hlen : ¬ (layout type nodeId timestampMs length payload).length < Web.headerBytes := by
    rw [layout_length, Web.headerBytes]
    omega
  unfold decodeEditorFrame
  simp only [h]
  rw [dif_neg hlen]
  simp only [web_readBe32, readBe32_nodeId, readBe32_timestampMs, readBe32_length, layout_length,
    Web.headerBytes, Nat.add_left_cancel_iff, ite_not]
  rfl

/-! ### Agreement -/

/-- A server's frame as the editor sees it. -/
def toWeb (frame : Server.EditorFrame) : Web.EditorFrame :=
  { nodeId := frame.nodeId.toNat, payload := frame.payload,
    timestampMs := frame.timestampMs.toNat, type := frame.type.byte.toNat }

/-- The two codecs, on every frame that can be sent and on one byte string that
comes in. -/
structure CodecsAgree (data : Web.Data) : Prop where
  inverts : ∀ type nodeId timestampMs payload, payload.length < 2^32 →
    decodeFrame (encodeFrame type nodeId timestampMs payload) =
      some { type, nodeId, timestampMs, payload }
  canonical : ∀ frame, decodeFrame data.bytes = some frame →
    encodeFrame frame.type frame.nodeId frame.timestampMs frame.payload = data.bytes
  encode : ∀ (type : EditorFrameType) (nodeId timestampMs : UInt32) (payload : Web.Payload),
    payload.payloadBytes.length < 2^32 →
      encodeEditorFrame type.byte.toNat payload nodeId.toNat timestampMs.toNat =
        encodeFrame type nodeId timestampMs payload.payloadBytes
  decode : (decodeFrame data.bytes).map toWeb = (decodeEditorFrame data).toOption

/-- A byte string of the right size for its length field starts with the byte of a
frame type. -/
def TypeKnown (bytes : List UInt8) : Prop :=
  ∀ h : 13 ≤ bytes.length, bytes.length = 13 + (Server.readBe32 bytes 9 h).toNat →
    ∃ type ∈ ([0x01,0x02,0x03,0x04,0x10] : List UInt8), bytes.head? = some type

theorem decoders_agree_iff {data : Web.Data} :
    (decodeFrame data.bytes).map toWeb = (decodeEditorFrame data).toOption ↔
      TypeKnown data.bytes := by
  by_cases hlen : data.bytes.length < 13
  · have hserver : decodeFrame data.bytes = none := dif_pos hlen
    have heditor : decodeEditorFrame data =
        .error "editor frame shorter than 13-byte header" := dif_pos hlen
    rw [hserver, heditor]
    exact ⟨fun _ h => absurd h (Nat.not_le.mpr hlen),fun _ => rfl⟩
  obtain ⟨type,nodeId,timestampMs,length,payload,hbytes⟩ := exists_layout (Nat.not_lt.mp hlen)
  have htype : TypeKnown data.bytes ↔
      (payload.length = length.toNat → (frameTypeFromByte type).isSome) := by
    rw [hbytes, frameTypeFromByte_isSome_iff, TypeKnown]
    simp only [readBe32_length, layout_length, Nat.add_left_cancel_iff]
    have hhead : (layout type nodeId timestampMs length payload).head? = some type := rfl
    constructor
    · intro h hpayload
      obtain ⟨known,hknown,htype⟩ := h (by omega) hpayload
      rw [hhead] at htype
      cases htype
      exact hknown
    · intro h _ hpayload
      exact ⟨type,h hpayload,hhead⟩
  rw [htype, decodeEditorFrame_layout hbytes, hbytes, decodeFrame_layout]
  by_cases hpayload : payload.length = length.toNat
  · cases hknown : frameTypeFromByte type with
    | none => simp [hpayload, Except.toOption]
    | some known => simp [hpayload, Except.toOption, toWeb, byte_of_frameTypeFromByte hknown]
  · cases frameTypeFromByte type <;> simp [hpayload, Except.toOption]

/-- The codecs agree on a byte string exactly when the editor's decoder is not handed
an unknown type in a frame of the right size: only the server's decoder looks at it. -/
theorem codecs_agree_iff (data : Web.Data) : CodecsAgree data ↔ TypeKnown data.bytes := by
  constructor
  · intro h
    exact decoders_agree_iff.mp h.decode
  · intro h
    exact {
      inverts := fun type nodeId timestampMs _ hlt =>
        decodeFrame_encodeFrame type nodeId timestampMs hlt
      canonical := fun _ hframe => encodeFrame_of_decodeFrame hframe
      encode := fun type nodeId timestampMs payload _ =>
        encodeEditorFrame_eq type nodeId timestampMs payload
      decode := decoders_agree_iff.mpr h }

/-- A header of type 5 and nothing else: the server refuses it, the editor decodes it. -/
theorem unknown_type_disagrees : ¬ CodecsAgree (.buffer [5,0,0,0,0,0,0,0,0,0,0,0,0]) := by
  intro h
  have hserver : decodeFrame [5,0,0,0,0,0,0,0,0,0,0,0,0] = none := by decide
  have hdecode := h.decode
  rw [Web.Data.bytes, hserver] at hdecode
  exact absurd hdecode (by decide)

end Cpipe.Proofs.EditorFrames
