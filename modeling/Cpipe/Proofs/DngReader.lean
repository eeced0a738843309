import Cpipe.Proofs.DngTags
import Cpipe.Proofs.Sizes
import Cpipe.Ingest.DngReader

namespace Cpipe.Ingest.DngReader
open Compute OpcodeListParser
open Proofs.Sizes (expectedBytes_toNat rawLayout_size decodeSingleStrip_length)
open Library.Bytes (Fault le32)
open Library.Checked (bind_ok map_ok)

variable {image : Option LibRawImage} {bytes : List UInt8}

/-! ### What `read` hands over -/

/-- A buffer is handed over with the status `CPIPE_OK`, for an accepted file whose image
could be decoded. -/
theorem read_buffer {result : DngReadResult} {buffer : RawBuffer}
    (h : DngReader.read image bytes = .ok result) (hbuffer : result.buffer = some buffer) :
    ∃ parsed decoded, parse bytes = .ok parsed ∧ parsed.status = .ok ∧
      decode image bytes parsed.metadata = some decoded ∧ buffer = rawBuffer decoded := by
  obtain ⟨parsed,hparsed,h⟩ := bind_ok.mp h
  split at h
  · obtain rfl := Except.ok.inj h
    cases hbuffer
  rename_i hstatus
  cases hdecode : decode image bytes parsed.metadata with
  | none =>
    rw [hdecode] at h
    obtain rfl := Except.ok.inj h
    cases hbuffer
  | some decoded =>
    rw [hdecode] at h
    obtain rfl := Except.ok.inj h
    exact ⟨parsed,decoded,hparsed,not_not.mp hstatus,hdecode,(Option.some.inj hbuffer).symm⟩

theorem read_status {result : DngReadResult} (h : DngReader.read image bytes = .ok result)
    (hok : result.status = .ok) : ∃ buffer, result.buffer = some buffer := by
  obtain ⟨parsed,-,h⟩ := bind_ok.mp h
  split at h
  · rename_i hstatus
    obtain rfl := Except.ok.inj h
    simp only at hok
    split at hok
    · cases hok
    · exact absurd hok hstatus
  split at h
  · obtain rfl := Except.ok.inj h
    cases hok
  · obtain rfl := Except.ok.inj h
    exact ⟨_,rfl⟩

/-! ### The strip -/

/-- A 16-bit little-endian sample. -/
def sample (data : List UInt8) (i : Nat) : UInt16 :=
  (data.getD (2*i) 0).toUInt16 ||| ((data.getD (2*i + 1) 0).toUInt16 <<< 8)

theorem dims_zero : 0 < 8 := by decide

theorem dims_one : 1 < 8 := by decide

def RawBuffer.width (buffer : RawBuffer) : Nat := (getElem buffer.layout.dims 0 dims_zero).toNat

def RawBuffer.height (buffer : RawBuffer) : Nat := (getElem buffer.layout.dims 1 dims_one).toNat

def RawBuffer.pixel (buffer : RawBuffer) (x y : Nat) : UInt16 :=
  sample buffer.bytes (y*buffer.width + x)

/-- The file stores its image as the samples of one strip of 16-bit samples. -/
structure StoresRaw16 (bytes : List UInt8) (width height : Nat) (offset count : UInt32) :
    Prop where
  uncompressed : tagged bytes kTagCompression firstU32 = .ok none ∨
    tagged bytes kTagCompression firstU32 = .ok (some kCompressionNone)
  bits : tagged bytes kTagBitsPerSample firstU32 = .ok (some 16)
  offsets : tagged bytes kTagStripOffsets u32Values = .ok (some [offset])
  counts : tagged bytes kTagStripByteCounts u32Values = .ok (some [count])
  enough : 2*width*height ≤ count.toNat

/-- A file read with success stores 16-bit samples in one strip, and these are the pixels. -/
def DecodesFaithfully (image : Option LibRawImage) (bytes : List UInt8) : Prop :=
  ∀ result, DngReader.read image bytes = .ok result → result.status = .ok →
    ∃ buffer offset count, result.buffer = some buffer ∧
      StoresRaw16 bytes buffer.width buffer.height offset count ∧
      offset.toNat + count.toNat ≤ bytes.length ∧
      ∀ x < buffer.width, ∀ y < buffer.height, buffer.pixel x y =
        sample ((bytes.drop offset.toNat).take count.toNat) (y*buffer.width + x)

/-- The strip of the tags lies in the file. -/
def StripInFile (bytes : List UInt8) (m : DngMetadata) : Prop :=
  m.stripOffset.toNat + m.stripByteCount.toNat ≤ bytes.length

/-- No tag the decoder leaves unread contradicts it: a file that the parser accepts and
whose strip lies in the file stores 16-bit samples in that strip. -/
def TagsFit (bytes : List UInt8) : Prop :=
  ∀ parsed, parse bytes = .ok parsed → parsed.status = .ok → StripInFile bytes parsed.metadata →
    ∃ offset count, StoresRaw16 bytes parsed.metadata.width.toNat parsed.metadata.height.toNat
      offset count

theorem decodeSingleStrip_isSome (m : DngMetadata) :
    (decodeSingleStrip bytes (parsedStrip m)).isSome ↔ StripInFile bytes m := by
  have hrange : ¬ (bytes.length < m.stripOffset.toNat ∨
      bytes.length - m.stripOffset.toNat < m.stripByteCount.toNat) ↔ StripInFile bytes m := by
    unfold StripInFile
    omega
  rw [← hrange]
  simp only [decodeSingleStrip, parsedStrip]
  by_cases hout : bytes.length < m.stripOffset.toNat ∨
      bytes.length - m.stripOffset.toNat < m.stripByteCount.toNat
  · simp [hout]
  · simp [hout]

theorem rawBuffer_width (decoded : DecodedRaw) :
    (rawBuffer decoded).width = decoded.metadata.width.toNat := rfl

theorem rawBuffer_height (decoded : DecodedRaw) :
    (rawBuffer decoded).height = decoded.metadata.height.toNat := rfl

/-- The bytes of a strip that is long enough are those of the buffer. -/
theorem rawBuffer_bytes {m : DngMetadata} {raw : List UInt8}
    (h : decodeSingleStrip bytes (parsedStrip m) = some raw)
    (henough : 2*m.width.toNat*m.height.toNat ≤ m.stripByteCount.toNat) :
    (rawBuffer { bytes := raw, metadata := m }).bytes =
      ((bytes.drop m.stripOffset.toNat).take m.stripByteCount.toNat).take
        (2*m.width.toNat*m.height.toNat) := by
  have hlt := m.stripByteCount.toNat_lt
  have hproduct : m.width.toNat*m.height.toNat*2 = 2*m.width.toNat*m.height.toNat := by ring
  have hexpected : (expectedBytes (parsedStrip m)).toNat = 2*m.width.toNat*m.height.toNat := by
    rw [expectedBytes_toNat]
    simp only [parsedStrip]
    omega
  have hsize : (rawLayout (parsedStrip m)).sizeBytes.toNat = 2*m.width.toNat*m.height.toNat := by
    rw [rawLayout_size]
    simp only [parsedStrip]
    omega
  have hlen := decodeSingleStrip_length h
  rw [hexpected] at hlen
  have hraw : raw = (bytes.drop m.stripOffset.toNat).take (2*m.width.toNat*m.height.toNat) := by
    have hcopied : min (2*m.width.toNat*m.height.toNat) (parsedStrip m).stripByteCount.toNat =
        2*m.width.toNat*m.height.toNat := Nat.min_eq_left henough
    unfold decodeSingleStrip at h
    split at h
    · cases h
    · simp only [hexpected, hcopied, Nat.sub_self, List.replicate_zero, List.append_nil,
        Option.some.injEq] at h
      exact h.symm
  have hfill : fillBuffer (2*m.width.toNat*m.height.toNat) raw = raw := by
    simp [fillBuffer, hlen, List.take_of_length_le]
  simp only [rawBuffer, hsize, hfill]
  rw [hraw, List.take_take, Nat.min_eq_left henough]

theorem sample_take {data : List UInt8} {n i : Nat} (h : 2*i + 1 < n) :
    sample (data.take n) i = sample data i := by
  simp only [sample, List.getD_eq_getElem?_getD]
  rw [List.getElem?_take_of_lt (by omega), List.getElem?_take_of_lt h]

/-- The numbers of the tags are those the decoder uses. -/
theorem stored_strip {entries : List Entry} {m : DngMetadata} {width height : Nat}
    {offset count : UInt32} (htags : ParsedTags bytes entries m)
    (h : StoresRaw16 bytes width height offset count) :
    m.stripOffset = offset ∧ m.stripByteCount = count := by
  have single (tag : UInt16) {v w : UInt32}
      (hv : tagged bytes tag u32Values = .ok (some [v]))
      (hw : firstOr bytes entries tag 0 = .ok w) : w = v := by
    obtain ⟨entry,hentry,hvalues⟩ := tagged_some hv htags.table
    simp only [firstOr, withEntry, hentry] at hw
    exact Except.ok.inj (hw.symm.trans (firstU32_of_single hvalues))
  exact ⟨single _ h.offsets htags.raw.stripOffset,single _ h.counts htags.raw.stripByteCount⟩

/-- With LibRaw failing, a file is decoded faithfully or refused exactly when no unread
tag contradicts the decoder. -/
theorem single_strip_faithful_iff {image : Option LibRawImage} {bytes : List UInt8}
    (hlibraw : ∀ parsed, parse bytes = .ok parsed → decodeWithLibraw image parsed.metadata = none) :
    DecodesFaithfully image bytes ↔ TagsFit bytes := by
  constructor
  · intro h parsed hparse hstatus hstrip
    obtain ⟨raw,hraw⟩ := Option.isSome_iff_exists.mp
      ((decodeSingleStrip_isSome parsed.metadata).mpr hstrip)
    have hdecode : decode image bytes parsed.metadata =
        some { bytes := raw, metadata := parsed.metadata } := by
      simp only [decode, hlibraw parsed hparse, hraw, Option.map_some]
    have hread : DngReader.read image bytes = .ok { status := .ok, buffer := some (rawBuffer
        { bytes := raw, metadata := parsed.metadata }) } := by
      refine bind_ok.mpr ⟨parsed,hparse,?_⟩
      rw [if_neg (not_not.mpr hstatus), hdecode]
      rfl
    obtain ⟨buffer,offset,count,hbuffer,hstores,-⟩ := h _ hread rfl
    obtain rfl := Option.some.inj hbuffer
    exact ⟨offset,count,hstores⟩
  · intro h result hread hok
    obtain ⟨buffer,hbuffer⟩ := read_status hread hok
    obtain ⟨parsed,decoded,hparse,hstatus,hdecode,rfl⟩ := read_buffer hread hbuffer
    simp only [decode, hlibraw parsed hparse] at hdecode
    obtain ⟨raw,hraw,rfl⟩ := Option.map_eq_some_iff.mp hdecode
    have hstrip := (decodeSingleStrip_isSome parsed.metadata).mp (Option.isSome_of_eq_some hraw)
    obtain ⟨offset,count,hstores⟩ := h parsed hparse hstatus hstrip
    obtain ⟨entries,htags⟩ := parse_tags hparse hstatus
    obtain ⟨rfl,rfl⟩ := stored_strip htags hstores
    refine ⟨_,_,_,hbuffer,hstores,hstrip,?_⟩
    intro x hx y hy
    rw [RawBuffer.pixel, rawBuffer_bytes hraw hstores.enough]
    apply sample_take
    rw [rawBuffer_width] at hx ⊢
    rw [rawBuffer_height] at hy
    -- The last pixel is the last sample.
    have hrow : (y + 1)*parsed.metadata.width.toNat ≤
        parsed.metadata.height.toNat*parsed.metadata.width.toNat := Nat.mul_le_mul_right _ hy
    calc 2*(y*parsed.metadata.width.toNat + x) + 1
        < 2*((y + 1)*parsed.metadata.width.toNat) := by
          rw [Nat.add_mul, Nat.one_mul]
          simp only at hx
          omega
      _ ≤ 2*(parsed.metadata.height.toNat*parsed.metadata.width.toNat) :=
          Nat.mul_le_mul_left 2 hrow
      _ = 2*parsed.metadata.width.toNat*parsed.metadata.height.toNat := by ring

/-! ### Two files -/

/-- A file with one table of tags and a payload behind it. -/
def tiffFile (rows : List Entry) (payload : List UInt8) : List UInt8 :=
  [0x49,0x49,42,0,8,0,0,0] ++ sampleBytes rows.length.toUInt16 ++
    rows.flatMap (fun row => sampleBytes row.tag ++ sampleBytes row.type ++ le32 row.count ++
      le32 row.valueOrOffset) ++ [0,0,0,0] ++ payload

/-- Tags of a two by two RGGB image of 16 bits, with its strip behind them. -/
def rawRows (stripOffset : UInt32) : List Entry :=
  [⟨kTagImageWidth,kTypeShort,1,2⟩,⟨kTagImageLength,kTypeShort,1,2⟩,
   ⟨kTagBitsPerSample,kTypeShort,1,16⟩,⟨kTagStripOffsets,kTypeLong,1,stripOffset⟩,
   ⟨kTagStripByteCounts,kTypeLong,1,8⟩,⟨kTagCfaRepeatPatternDim,kTypeShort,2,0x20002⟩,
   ⟨kTagCfaPattern,kTypeByte,4,0x02010100⟩]

def plainFile : List UInt8 := tiffFile (rawRows 98) [1,0,2,0,3,0,4,1]

theorem plainFile_faithful : DecodesFaithfully none plainFile := by
  refine (single_strip_faithful_iff (fun _ _ => rfl)).mpr ?_
  intro parsed hparse _ _
  have hsize : (parse plainFile).map (fun r => (r.metadata.width,r.metadata.height)) =
      .ok (2,2) := by
    decide +kernel
  simp only [hparse, Except.map, Except.ok.injEq, Prod.mk.injEq] at hsize
  rw [hsize.1, hsize.2]
  exact ⟨98,8,⟨.inl (by decide +kernel),by decide +kernel,by decide +kernel,by decide +kernel,
    by decide⟩⟩

/-- The same image, said to be compressed. -/
def compressedFile : List UInt8 :=
  tiffFile (rawRows 110 ++ [⟨kTagCompression,kTypeShort,1,7⟩]) [1,0,2,0,3,0,4,1]

/-- A compressed strip is handed over as if it held the samples. -/
theorem compressed_strip_accepted :
    (DngReader.read none compressedFile).map (·.status) = .ok .ok ∧
      tagged compressedFile kTagCompression firstU32 = .ok (some 7) ∧
      ¬ DecodesFaithfully none compressedFile := by
  have hread : (DngReader.read none compressedFile).map (·.status) = .ok .ok := by decide +kernel
  have htag : tagged compressedFile kTagCompression firstU32 = .ok (some 7) := by decide +kernel
  refine ⟨hread,htag,fun h => ?_⟩
  obtain ⟨result,hresult,hok⟩ := map_ok.mp hread
  obtain ⟨buffer,offset,count,-,hstores,-⟩ := h result hresult hok
  have huncompressed := hstores.uncompressed
  rw [htag] at huncompressed
  revert huncompressed
  decide

end Cpipe.Ingest.DngReader
