import Cpipe.Ingest.OpcodeListParser

namespace Cpipe.Ingest.OpcodeListParser
open Library.Bytes (Fault byteAt copyN Safe safe_byteAt_iff safe_copyN)

variable {bytes data : List UInt8} {offset : Nat}

/-! ### Words -/

theorem safe_readU16_iff : Safe (readU16 bytes offset) ↔ offset+2 ≤ bytes.length := by
  constructor
  · intro ⟨v,hv⟩
    by_contra h
    have hhigh : ¬ Safe (byteAt bytes (offset+1)) := by
      rw [safe_byteAt_iff]
      omega
    unfold readU16 at hv
    cases hlow : byteAt bytes offset with
    | error e => rw [hlow] at hv; cases hv
    | ok low =>
      cases hb : byteAt bytes (offset+1) with
      | error e => rw [hlow, hb] at hv; cases hv
      | ok high => exact hhigh ⟨high,hb⟩
  · intro h
    exact .bind (safe_byteAt_iff.mpr (by omega)) fun _ =>
      .bind (safe_byteAt_iff.mpr (by omega)) fun _ => .pure _

theorem safe_readU32 (h : offset+4 ≤ bytes.length) : Safe (readU32 bytes offset) :=
  .bind (safe_readU16_iff.mpr (by omega)) fun _ =>
    .bind (safe_readU16_iff.mpr (by omega)) fun _ => .pure _

theorem safe_readI32 (h : offset+4 ≤ bytes.length) : Safe (readI32 bytes offset) :=
  .bind (safe_readU32 h) fun _ => .pure _

/-! ### Entries -/

theorem safe_entryData (bytes : List UInt8) (entry : Entry) : Safe (entryData bytes entry) := by
  unfold entryData
  refine .ite (fun _ => .pure _) fun _ => .ite (fun _ => .pure _) fun _ =>
    .ite (fun _ => .pure _) fun h => safe_copyN ?_
  omega

theorem safe_firstU32 (bytes : List UInt8) (entry : Entry) : Safe (firstU32 bytes entry) := by
  refine .bind (safe_entryData bytes entry) fun data => .ite (fun _ => .pure _) fun hne =>
    .ite (fun h => .bind (safe_readU16_iff.mpr h.2) fun _ => .pure _) fun _ =>
      .ite (fun h => safe_readU32 h.2) fun _ => .ite (fun _ => ?_) fun _ => .pure _
  exact .bind (safe_byteAt_iff.mpr (List.length_pos_iff.mpr hne)) fun _ => .pure _

theorem safe_u32Values (bytes : List UInt8) (entry : Entry) : Safe (u32Values bytes entry) := by
  refine .bind (safe_entryData bytes entry) fun data => .ite (fun _ => .pure _) fun _ =>
    .ite (fun h => .mapM ?_) fun _ => .ite (fun h => .mapM ?_) fun _ =>
      .ite (fun h => .mapM ?_) fun _ => .pure _
  · intro i hi
    rw [List.mem_range] at hi
    exact .bind (safe_byteAt_iff.mpr (by omega)) fun _ => .pure _
  · intro i hi
    rw [List.mem_range] at hi
    exact .bind (safe_readU16_iff.mpr (by omega)) fun _ => .pure _
  · intro i hi
    rw [List.mem_range] at hi
    exact safe_readU32 (by omega)

theorem safe_shorts (bytes : List UInt8) (entry : Entry) : Safe (shorts bytes entry) :=
  .bind (safe_u32Values bytes entry) fun _ => .ite (fun _ => .pure _) fun _ => .pure _

theorem safe_fractionPart {type : UInt16} (h : offset+4 ≤ data.length) :
    Safe (fractionPart data type offset) :=
  .ite (fun _ => .map (safe_readU32 h)) fun _ => .map (safe_readI32 h)

/-- A sum in 32 bits is never above the exact one. -/
theorem toNat_add_le (a b : UInt32) : (a + b).toNat ≤ a.toNat + b.toNat := by
  rw [UInt32.toNat_add]
  exact Nat.mod_le _ _

theorem toNat_ofNat_mul_le (i : Nat) (k : UInt32) : (UInt32.ofNat i*k).toNat ≤ i*k.toNat := by
  rw [UInt32.toNat_mul]
  refine Nat.le_trans (Nat.mod_le _ _) (Nat.mul_le_mul_right _ ?_)
  rw [UInt32.toNat_ofNat']
  exact Nat.mod_le _ _

theorem safe_fraction {type : UInt16} {offset : UInt32} (h : offset.toNat+8 ≤ data.length) :
    Safe (fraction data type offset) := by
  have hle : (offset + 4).toNat ≤ offset.toNat + 4 := toNat_add_le offset 4
  exact .bind (safe_fractionPart (by omega)) fun _ => .ite (fun _ => .pure _) fun _ =>
    .bind (safe_fractionPart (by omega)) fun _ => .pure _

theorem safe_numericValues (bytes : List UInt8) (entry : Entry) :
    Safe (numericValues bytes entry) := by
  refine .bind (safe_entryData bytes entry) fun data => .ite (fun _ => .pure _) fun _ =>
    .ite (fun _ => .bind (safe_u32Values bytes entry) fun _ => .pure _) fun _ =>
      .ite (fun _ => .pure _) fun h => .mapM ?_
  intro i hi
  rw [List.mem_range] at hi
  have hle : (UInt32.ofNat i*8).toNat ≤ i*8 := toNat_ofNat_mul_le i 8
  exact safe_fraction (by omega)

theorem safe_ascii (bytes : List UInt8) (entry : Entry) : Safe (ascii bytes entry) :=
  .bind (safe_entryData bytes entry) fun _ => .ite (fun _ => .pure _) fun _ => .pure _

theorem safe_matrix3 (bytes : List UInt8) (entry : Entry) : Safe (matrix3 bytes entry) :=
  .bind (safe_numericValues bytes entry) fun _ => .pure _

/-! ### Tables -/

/-- A table offset from which the two bytes of the count can be read, or whose
check does not wrap around. -/
def InRange (bytes : List UInt8) (ifdOffset : UInt32) : Prop :=
  ifdOffset.toNat + 2 < 2^32 ∨ ifdOffset.toNat + 2 ≤ bytes.length

/-- The check in front of a table does its work except where its sum wraps. -/
theorem count_readable {ifdOffset : UInt32} (h : InRange bytes ifdOffset)
    (hcheck : ¬ bytes.length < (ifdOffset + 2).toNat) : ifdOffset.toNat + 2 ≤ bytes.length := by
  rcases h with hlt | hle
  · have hsum : (ifdOffset + 2).toNat = ifdOffset.toNat + 2 := by
      rw [UInt32.toNat_add]
      exact Nat.mod_eq_of_lt hlt
    omega
  · exact hle

theorem wrapped_check {ifdOffset : UInt32} (h : ¬ InRange bytes ifdOffset) (hne : bytes ≠ []) :
    ¬ bytes.length < (ifdOffset + 2).toNat ∧ bytes.length < ifdOffset.toNat + 2 := by
  have hpos := List.length_pos_iff.mpr hne
  have hlt := ifdOffset.toNat_lt
  rw [InRange, not_or] at h
  refine ⟨?_,by omega⟩
  rw [UInt32.toNat_add]
  simp only [UInt32.reduceToNat]
  omega

theorem safe_readEntry {offset : UInt32} (h : offset.toNat+12 ≤ bytes.length) :
    Safe (readEntry bytes offset) := by
  have h2 : (offset + 2).toNat ≤ offset.toNat + 2 := toNat_add_le offset 2
  have h4 : (offset + 4).toNat ≤ offset.toNat + 4 := toNat_add_le offset 4
  have h8 : (offset + 8).toNat ≤ offset.toNat + 8 := toNat_add_le offset 8
  exact .bind (safe_readU16_iff.mpr (by omega)) fun _ =>
    .bind (safe_readU16_iff.mpr (by omega)) fun _ => .bind (safe_readU32 (by omega)) fun _ =>
      .bind (safe_readU32 (by omega)) fun _ => .pure _

theorem safe_readEntries {ifdOffset : UInt32} (h : InRange bytes ifdOffset) :
    Safe (readEntries bytes ifdOffset) := by
  refine .ite (fun _ => .pure _) fun hcheck => .bind (safe_readU16_iff.mpr
    (count_readable h hcheck)) fun count => .ite (fun _ => .pure _) fun hrows =>
      .bind (.mapM ?_) fun _ => .pure _
  intro i hi
  rw [List.mem_range] at hi
  -- wrapped row offsets are only smaller than the exact ones
  have hmul : (UInt32.ofNat i*12).toNat ≤ i*12 := toNat_ofNat_mul_le i 12
  have hadd := toNat_add_le (ifdOffset + 2) (UInt32.ofNat i*12)
  exact safe_readEntry (by omega)

theorem safe_copyIfdBytes {ifdOffset : UInt32} (h : InRange bytes ifdOffset) :
    Safe (copyIfdBytes bytes ifdOffset) := by
  refine .ite (fun _ => .pure _) fun hcheck => .bind (safe_readU16_iff.mpr
    (count_readable h hcheck)) fun count => .ite (fun _ => .pure _) fun hsize => safe_copyN ?_
  omega

theorem fault_bind {α β : Type} {x : Except Fault α} {f : α → Except Fault β} (h : ¬ Safe x) :
    ¬ Safe (x >>= f) := by
  intro ⟨b,hb⟩
  cases x with
  | error e => cases hb
  | ok a => exact h ⟨a,rfl⟩

/-- Both table readers check the offset and read the count behind the check. -/
theorem fault_count {α : Type} {ifdOffset : UInt32} (h : ¬ InRange bytes ifdOffset)
    (hne : bytes ≠ []) {refused : Except Fault α} {f : UInt16 → Except Fault α} :
    ¬ Safe (if bytes.length < (ifdOffset + 2).toNat then refused
      else readU16 bytes ifdOffset.toNat >>= f) := by
  obtain ⟨hcheck,hlen⟩ := wrapped_check h hne
  rw [if_neg hcheck]
  apply fault_bind
  rw [safe_readU16_iff]
  omega

theorem fault_readEntries {ifdOffset : UInt32} (h : ¬ InRange bytes ifdOffset)
    (hne : bytes ≠ []) : ¬ Safe (readEntries bytes ifdOffset) :=
  fault_count h hne

theorem fault_copyIfdBytes {ifdOffset : UInt32} (h : ¬ InRange bytes ifdOffset)
    (hne : bytes ≠ []) : ¬ Safe (copyIfdBytes bytes ifdOffset) :=
  fault_count h hne

/-! ### Stages -/

variable {entries : List Entry}

theorem safe_withEntry {α : Type} {tag : UInt16} {f : Entry → α → Except Fault α}
    (h : ∀ entry out, Safe (f entry out)) (out : α) : Safe (withEntry entries tag f out) := by
  unfold withEntry
  split
  · exact .pure _
  · exact h _ out

theorem safe_applyU32 {α : Type} (tag : UInt16) (setter : UInt32 → α → α) (out : α) :
    Safe (applyU32 bytes entries tag setter out) :=
  safe_withEntry (fun entry _ => .bind (safe_firstU32 bytes entry) fun _ => .pure _) out

theorem safe_firstOr (tag : UInt16) (fallback : UInt32) :
    Safe (firstOr bytes entries tag fallback) :=
  safe_withEntry (fun entry _ => safe_firstU32 bytes entry) fallback

theorem safe_applyFirst {α : Type} (tag : UInt16) (setter : Float32 → α → α) (out : α) :
    Safe (applyFirst bytes entries tag setter out) := by
  refine safe_withEntry (fun entry out => .bind (safe_numericValues bytes entry) ?_) out
  intro values
  cases values with
  | nil => exact .pure _
  | cons value _ => exact .pure _

theorem safe_applyCaptureEntries (capture : CaptureBlock) :
    Safe (applyCaptureEntries bytes entries capture) :=
  .bind (safe_applyFirst _ _ _) fun _ => .bind (safe_applyU32 _ _ _) fun _ =>
    .bind (safe_applyFirst _ _ _) fun _ => safe_applyFirst _ _ _

theorem safe_applyImageEntries (out : DngMetadata) :
    Safe (applyImageEntries bytes entries out) :=
  .bind (safe_applyU32 _ _ _) fun _ => .bind (safe_applyU32 _ _ _) fun _ =>
  .bind (safe_applyU32 _ _ _) fun _ => .bind (safe_applyU32 _ _ _) fun _ =>
  .bind (safe_applyU32 _ _ _) fun _ => .bind (safe_applyU32 _ _ _) fun _ =>
  .bind (safe_applyU32 _ _ _) fun _ => .bind (safe_applyU32 _ _ _) fun _ =>
  .bind (safe_applyU32 _ _ _) fun _ => .bind (safe_applyCaptureEntries _) fun _ =>
  .bind (safe_withEntry (fun entry _ => .bind (safe_ascii bytes entry) fun _ => .pure _) _) fun _ =>
    safe_withEntry (fun entry _ => .bind (safe_ascii bytes entry) fun _ => .pure _) _

theorem safe_cfaRepeat (out : DngMetadata) : Safe (cfaRepeat bytes entries out) := by
  unfold cfaRepeat
  split
  · exact .pure _
  · refine .bind (safe_shorts bytes _) fun values => ?_
    split
    · exact .ite (fun _ => .pure _) fun _ => .pure _
    · exact .pure _

theorem safe_cfaPattern (dims : UInt8 × UInt8) : Safe (cfaPattern bytes entries dims) := by
  unfold cfaPattern
  split
  · exact .pure _
  · exact .bind (safe_entryData bytes _) fun _ => .ite (fun _ => .pure _) fun _ => .pure _

theorem safe_applyMatrix (tag : UInt16) (setter : Matrix3 → DngMetadata → DngMetadata)
    (out : DngMetadata) : Safe (applyMatrix bytes entries tag setter out) :=
  safe_withEntry (fun entry _ => .bind (safe_matrix3 bytes entry) fun _ => .pure _) out

theorem safe_applyCalibrationEntries (out : DngMetadata) :
    Safe (applyCalibrationEntries bytes entries out) := by
  refine .bind (safe_withEntry (fun entry _ =>
      .bind (safe_numericValues bytes entry) fun _ => .pure _) _) fun _ =>
    .bind (safe_withEntry (fun entry _ =>
      .bind (safe_shorts bytes entry) fun _ => .pure _) _) fun _ =>
    .bind (safe_applyMatrix _ _ _) fun _ => .bind (safe_applyMatrix _ _ _) fun _ =>
    .bind (safe_applyMatrix _ _ _) fun _ => .bind (safe_applyMatrix _ _ _) fun _ =>
    .bind (safe_withEntry (fun entry _ =>
      .bind (safe_numericValues bytes entry) fun _ => .pure _) _) fun _ =>
    safe_withEntry (fun entry o => .bind (safe_u32Values bytes entry) ?_) _
  intro values
  split
  · exact .ite (fun _ => .pure _) fun _ => .pure _
  · exact .pure _

theorem safe_parseImage (bytes : List UInt8) (entries : List Entry) :
    Safe (parseImage bytes entries) := by
  refine .bind (safe_firstOr _ _) fun _ => .bind (safe_firstOr _ _) fun _ =>
    .bind (safe_firstOr _ _) fun _ => .ite (fun _ => .pure _) fun _ =>
      .bind (safe_applyImageEntries _) fun out => .bind (safe_cfaRepeat out) fun found => ?_
  cases found with
  | error result => exact .pure _
  | ok dims =>
    refine .bind (safe_cfaPattern dims) fun pattern => ?_
    cases pattern with
    | none => exact .pure _
    | some pattern => exact .bind (safe_applyCalibrationEntries _) fun _ => .pure _

theorem safe_applyBlobs (out : DngMetadata) : Safe (applyBlobs bytes entries out) := by
  have hblob : ∀ entry, Safe (blob bytes entry) := safe_entryData bytes
  exact .bind (safe_withEntry (fun entry _ => .bind (hblob entry) fun _ => .pure _) _) fun _ =>
    .bind (safe_withEntry (fun entry _ => .bind (hblob entry) fun _ => .pure _) _) fun _ =>
    .bind (safe_withEntry (fun entry _ => .bind (hblob entry) fun _ => .pure _) _) fun _ =>
    .bind (safe_withEntry (fun entry _ => .bind (hblob entry) fun _ => .pure _) _) fun _ =>
      safe_withEntry (fun entry _ => .bind (hblob entry) fun _ => .pure _) _

/-- The Exif stage needs an offset in range, where the table has one. -/
theorem safe_applyExif_iff (hne : bytes ≠ []) (out : DngMetadata) :
    Safe (applyExif bytes entries out) ↔
      ∀ entry exifOffset, findEntry entries kTagExifIFD = some entry →
        firstU32 bytes entry = .ok exifOffset → InRange bytes exifOffset := by
  unfold applyExif withEntry
  cases hfind : findEntry entries kTagExifIFD with
  | none => exact ⟨fun _ _ _ h => (by cases h),fun _ => .pure _⟩
  | some entry =>
    obtain ⟨exifOffset,hfirst⟩ := safe_firstU32 bytes entry
    dsimp only
    rw [Safe.bind_ok hfirst]
    constructor
    · intro hsafe entry' offset' he ho
      cases he
      rw [hfirst] at ho
      cases ho
      by_contra hrange
      exact fault_bind (fault_copyIfdBytes hrange hne) hsafe
    · intro h
      have hrange := h entry exifOffset rfl hfirst
      refine .bind (safe_copyIfdBytes hrange) fun _ =>
        .bind (safe_readEntries hrange) fun found => ?_
      cases found with
      | none => exact .pure _
      | some exifEntries => exact .bind (safe_applyCaptureEntries _) fun _ => .pure _

/-- The header is read inside the file, and a good one has its eight bytes. -/
theorem headerOk_cases (bytes : List UInt8) :
    headerOk bytes = .ok false ∨ (headerOk bytes = .ok true ∧ 8 ≤ bytes.length) := by
  by_cases hlen : bytes.length < 8
  · left
    unfold headerOk
    rw [if_pos hlen]
    rfl
  · have hsafe : Safe (headerOk bytes) := by
      refine .ite (fun _ => .pure _) fun _ => .bind (safe_byteAt_iff.mpr (by omega)) fun _ =>
        .bind (safe_byteAt_iff.mpr (by omega)) fun _ => .ite (fun _ => .pure _) fun _ =>
          .bind (safe_readU16_iff.mpr (by omega)) fun _ => .pure _
    obtain ⟨good,hgood⟩ := hsafe
    cases good with
    | false => exact .inl hgood
    | true => exact .inr ⟨hgood,by omega⟩

/-- The offsets of the tables that `parse` goes to: that of the first one, behind
a good header, and that of the Exif table, behind tags that are accepted. -/
def OffsetsInRange (bytes : List UInt8) : Prop :=
  ∀ ifdOffset, headerOk bytes = .ok true → readU32 bytes 4 = .ok ifdOffset →
    InRange bytes ifdOffset ∧
      ∀ entries image entry exifOffset, readEntries bytes ifdOffset = .ok (some entries) →
        parseImage bytes entries = .ok (.ok image) → findEntry entries kTagExifIFD = some entry →
          firstU32 bytes entry = .ok exifOffset → InRange bytes exifOffset

/-- `parse` after its header check. -/
theorem parse_of_header {ifdOffset : UInt32} (hheader : headerOk bytes = .ok true)
    (hfirst : readU32 bytes 4 = .ok ifdOffset) :
    parse bytes = (readEntries bytes ifdOffset >>= fun found =>
      match found with
      | none => return failed "invalid IFD table"
      | some entries => parseImage bytes entries >>= fun image =>
        match image with
        | .error result => return result
        | .ok (out,compression) => applyExif bytes entries out >>= fun out =>
          applyBlobs bytes entries out >>= fun out => return finish out compression) := by
  simp only [parse, hheader, hfirst]
  rfl

/-- Behind a good header, `parse` stays inside its buffers exactly when both tables
it may go to are in range. -/
theorem safe_parse_of_header {ifdOffset : UInt32} (hne : bytes ≠ [])
    (hheader : headerOk bytes = .ok true) (hfirst : readU32 bytes 4 = .ok ifdOffset) :
    Safe (parse bytes) ↔ InRange bytes ifdOffset ∧
      ∀ entries image entry exifOffset, readEntries bytes ifdOffset = .ok (some entries) →
        parseImage bytes entries = .ok (.ok image) → findEntry entries kTagExifIFD = some entry →
          firstU32 bytes entry = .ok exifOffset → InRange bytes exifOffset := by
  rw [parse_of_header hheader hfirst]
  constructor
  · intro hsafe
    refine ⟨?_,?_⟩
    · by_contra hrange
      exact fault_bind (fault_readEntries hrange hne) hsafe
    · intro entries image entry exifOffset hentries himage hfind hexif
      have himaged := (Safe.bind_ok himage).mp ((Safe.bind_ok hentries).mp hsafe)
      by_contra hrange
      refine fault_bind (fun hstage => hrange ?_) himaged
      exact (safe_applyExif_iff hne _).mp hstage entry exifOffset hfind hexif
  · intro ⟨hrange,hexif⟩
    obtain ⟨found,hfound⟩ := safe_readEntries hrange
    rw [Safe.bind_ok hfound]
    cases found with
    | none => exact .pure _
    | some entries =>
      obtain ⟨image,himage⟩ := safe_parseImage bytes entries
      rw [Safe.bind_ok himage]
      cases image with
      | error result => exact .pure _
      | ok image =>
        refine Safe.bind ((safe_applyExif_iff hne _).mpr ?_) fun out =>
          .bind (safe_applyBlobs out) fun _ => .pure _
        intro entry exifOffset hfind hoffset
        exact hexif entries image entry exifOffset hfound himage hfind hoffset

/-- `parse` reads inside its buffers exactly when no table offset on its way wraps
the 32-bit check in front of the table. -/
theorem parse_in_bounds_iff (bytes : List UInt8) : Safe (parse bytes) ↔ OffsetsInRange bytes := by
  rcases headerOk_cases bytes with hbad | ⟨hgood,hlen⟩
  · have hparse : parse bytes = .ok (failed "unsupported DNG/TIFF header") := by
      simp only [parse, hbad]
      rfl
    rw [hparse]
    refine ⟨fun _ _ hgood => ?_,fun _ => .pure _⟩
    rw [hbad] at hgood
    cases hgood
  have hne : bytes ≠ [] := List.ne_nil_of_length_pos (by omega)
  obtain ⟨ifdOffset,hfirst⟩ : Safe (readU32 bytes 4) := safe_readU32 (by omega)
  rw [safe_parse_of_header hne hgood hfirst]
  constructor
  · intro h offset' _ ho
    rw [hfirst] at ho
    cases ho
    exact h
  · intro h
    exact h ifdOffset hgood hfirst

/-- A file of eight bytes whose first table is said to start two bytes before the
end of the address range: the check wraps to zero and the count is read there. -/
theorem parse_reads_outside :
    ¬ Safe (parse [0x49,0x49,42,0,0xFE,0xFF,0xFF,0xFF]) := by
  intro ⟨result,hresult⟩
  have hfault : parse [0x49,0x49,42,0,0xFE,0xFF,0xFF,0xFF] = .error ⟨4294967294,8⟩ := by
    rfl
  rw [hfault] at hresult
  cases hresult

end Cpipe.Ingest.OpcodeListParser
