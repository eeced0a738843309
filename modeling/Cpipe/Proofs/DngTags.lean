import Cpipe.Library.Checked
import Cpipe.Ingest.OpcodeListParser

namespace Cpipe.Ingest.OpcodeListParser
open Library.Bytes (Fault byteAt)
open Library.Checked (bind_ok mapM_forall₂)

variable {bytes : List UInt8} {entries : List Entry} {α β : Type}

/-! ### One tag -/

theorem withEntry_keeps {tag : UInt16} {f : Entry → α → Except Fault α} {out out' : α}
    (view : α → β) (hf : ∀ entry o', f entry out = .ok o' → view o' = view out)
    (h : withEntry entries tag f out = .ok out') : view out' = view out := by
  unfold withEntry at h
  split at h
  · obtain rfl := Except.ok.inj h
    rfl
  · exact hf _ _ h

/-- What a tag of one number leaves: the old value without the tag, else its number. -/
theorem applyU32_ok {tag : UInt16} {setter : UInt32 → α → α} {out out' : α}
    (h : applyU32 bytes entries tag setter out = .ok out') :
    (findEntry entries tag = none ∧ out' = out) ∨
      ∃ entry v, findEntry entries tag = some entry ∧ firstU32 bytes entry = .ok v ∧
        out' = setter v out := by
  unfold applyU32 withEntry at h
  split at h
  · rename_i hnone
    exact .inl ⟨hnone,(Except.ok.inj h).symm⟩
  · rename_i entry hsome
    obtain ⟨v,hv,h⟩ := bind_ok.mp h
    exact .inr ⟨entry,v,hsome,hv,(Except.ok.inj h).symm⟩

theorem applyU32_keeps {tag : UInt16} {setter : UInt32 → α → α} {out out' : α}
    (view : α → β) (hset : ∀ v, view (setter v out) = view out)
    (h : applyU32 bytes entries tag setter out = .ok out') : view out' = view out := by
  rcases applyU32_ok h with ⟨_,rfl⟩ | ⟨_,v,_,_,rfl⟩
  · rfl
  · exact hset v

theorem applyU32_field {tag : UInt16} {setter : UInt32 → α → α} {out out' : α}
    (view : α → UInt32) (hset : ∀ v, view (setter v out) = v)
    (h : applyU32 bytes entries tag setter out = .ok out') :
    firstOr bytes entries tag (view out) = .ok (view out') := by
  rcases applyU32_ok h with ⟨hnone,rfl⟩ | ⟨entry,v,hsome,hv,rfl⟩
  · simp only [firstOr, withEntry, hnone]
    rfl
  · simp only [firstOr, withEntry, hsome]
    rw [hv, hset]

theorem range_mapM_single {n : Nat} {f : Nat → Except Fault α} {v : α}
    (h : (List.range n).mapM f = .ok [v]) : n = 1 ∧ f 0 = .ok v := by
  have hall := mapM_forall₂ h
  obtain rfl : n = 1 := by simpa using hall.length_eq
  cases hall with
  | cons hv _ => exact ⟨rfl,hv⟩

/-- The number of an entry with one number is the first one. -/
theorem firstU32_of_single {entry : Entry} {v : UInt32}
    (h : u32Values bytes entry = .ok [v]) : firstU32 bytes entry = .ok v := by
  obtain ⟨data,hdata,h⟩ := bind_ok.mp h
  refine bind_ok.mpr ⟨data,hdata,?_⟩
  by_cases hnil : data = []
  · rw [if_pos hnil] at h
    cases h
  rw [if_neg hnil] at h ⊢
  split at h
  · rename_i hbyte
    obtain ⟨-,hv⟩ := range_mapM_single h
    simpa [hbyte.1, kTypeByte, kTypeShort, kTypeLong] using hv
  · split at h
    · rename_i hshort
      obtain ⟨hcount,hv⟩ := range_mapM_single h
      rw [if_pos ⟨hshort.1,by omega⟩]
      simpa using hv
    · split at h
      · rename_i hlong
        obtain ⟨hcount,hv⟩ := range_mapM_single h
        rw [if_neg (by simp [hlong.1, kTypeShort, kTypeLong]), if_pos ⟨hlong.1,by omega⟩]
        simpa using hv
      · cases h

/-! ### The stages -/

/-- The fields the decoder of the strip and the checks at the end read. -/
def rawFields (m : DngMetadata) : UInt32 × UInt32 × UInt16 × UInt32 × UInt32 :=
  (m.width,m.height,m.bitsPerSample,m.stripOffset,m.stripByteCount)

/-- Tags of the RAW image and the fields they end in. -/
structure RawTags (bytes : List UInt8) (entries : List Entry) (m : DngMetadata) : Prop where
  width : firstOr bytes entries kTagImageWidth 0 = .ok m.width
  height : firstOr bytes entries kTagImageLength 0 = .ok m.height
  bits : ∃ v, firstOr bytes entries kTagBitsPerSample 0 = .ok v ∧ m.bitsPerSample = v.toUInt16
  stripOffset : firstOr bytes entries kTagStripOffsets 0 = .ok m.stripOffset
  stripByteCount : firstOr bytes entries kTagStripByteCounts 0 = .ok m.stripByteCount

theorem RawTags.of_fields {m m' : DngMetadata} (h : RawTags bytes entries m)
    (heq : rawFields m' = rawFields m) : RawTags bytes entries m' := by
  simp only [rawFields, Prod.mk.injEq] at heq
  obtain ⟨hw,hh,hb,ho,hc⟩ := heq
  exact ⟨hw ▸ h.width,hh ▸ h.height,hb ▸ h.bits,ho ▸ h.stripOffset,hc ▸ h.stripByteCount⟩

theorem bits_of_applyU32 {out out' : DngMetadata} (hout : out.bitsPerSample = 0)
    (h : applyU32 bytes entries kTagBitsPerSample
      (fun v o => { o with bitsPerSample := v.toUInt16 }) out = .ok out') :
    ∃ v, firstOr bytes entries kTagBitsPerSample 0 = .ok v ∧ out'.bitsPerSample = v.toUInt16 := by
  rcases applyU32_ok h with ⟨hnone,rfl⟩ | ⟨entry,v,hsome,hv,rfl⟩
  · refine ⟨0,?_,hout⟩
    simp only [firstOr, withEntry, hnone]
    rfl
  · refine ⟨v,?_,rfl⟩
    simp only [firstOr, withEntry, hsome]
    exact hv

theorem applyImageEntries_tags {out : DngMetadata}
    (h : applyImageEntries bytes entries {} = .ok out) :
    RawTags bytes entries out ∧ out.calibration.blackLevel = Vector.replicate 4 0 := by
  unfold applyImageEntries at h
  obtain ⟨o1,h1,h⟩ := bind_ok.mp h
  obtain ⟨o2,h2,h⟩ := bind_ok.mp h
  obtain ⟨o3,h3,h⟩ := bind_ok.mp h
  obtain ⟨o4,h4,h⟩ := bind_ok.mp h
  obtain ⟨o5,h5,h⟩ := bind_ok.mp h
  obtain ⟨o6,h6,h⟩ := bind_ok.mp h
  obtain ⟨o7,h7,h⟩ := bind_ok.mp h
  obtain ⟨o8,h8,h⟩ := bind_ok.mp h
  obtain ⟨o9,h9,h⟩ := bind_ok.mp h
  obtain ⟨capture,-,h⟩ := bind_ok.mp h
  obtain ⟨o10,h10,h11⟩ := bind_ok.mp h
  -- Each of the first five tags sets one field and keeps those before it.
  have w1 := applyU32_field DngMetadata.width (fun _ => rfl) h1
  have l1 := applyU32_keeps (fun m => (m.height,m.bitsPerSample,m.stripOffset,m.stripByteCount,
    m.calibration.blackLevel)) (fun _ => rfl) h1
  have w2 := applyU32_field DngMetadata.height (fun _ => rfl) h2
  have l2 := applyU32_keeps (fun m => (m.width,m.bitsPerSample,m.stripOffset,m.stripByteCount,
    m.calibration.blackLevel)) (fun _ => rfl) h2
  have l3 := applyU32_keeps (fun m => (m.width,m.height,m.stripOffset,m.stripByteCount,
    m.calibration.blackLevel)) (fun _ => rfl) h3
  have w4 := applyU32_field DngMetadata.stripOffset (fun _ => rfl) h4
  have l4 := applyU32_keeps (fun m => (m.width,m.height,m.bitsPerSample,m.stripByteCount,
    m.calibration.blackLevel)) (fun _ => rfl) h4
  have w5 := applyU32_field DngMetadata.stripByteCount (fun _ => rfl) h5
  have l5 := applyU32_keeps (fun m => (m.width,m.height,m.bitsPerSample,m.stripOffset,
    m.calibration.blackLevel)) (fun _ => rfl) h5
  let rest (m : DngMetadata) := (rawFields m,m.calibration.blackLevel)
  have l6 := applyU32_keeps rest (fun _ => rfl) h6
  have l7 := applyU32_keeps rest (fun _ => rfl) h7
  have l8 := applyU32_keeps rest (fun _ => rfl) h8
  have l9 := applyU32_keeps rest (fun _ => rfl) h9
  have l10 := withEntry_keeps rest (fun _ _ ho => by
    obtain ⟨_,-,ho⟩ := bind_ok.mp ho
    obtain rfl := Except.ok.inj ho
    rfl) h10
  have l11 := withEntry_keeps rest (fun _ _ ho => by
    obtain ⟨_,-,ho⟩ := bind_ok.mp ho
    obtain rfl := Except.ok.inj ho
    rfl) h11
  have hrest : rest out = rest o5 := by
    rw [l11, l10, ← l6, ← l7, ← l8, ← l9]
    rfl
  simp only [Prod.mk.injEq] at l1 l2 l3 l4 l5
  have hbits := bits_of_applyU32 (by rw [l2.2.1, l1.2.1]) h3
  have htags : RawTags bytes entries o5 := by
    refine ⟨?_,?_,?_,?_,w5 ▸ ?_⟩
    · rw [l5.1, l4.1, l3.1, l2.1]
      exact w1
    · rw [l5.2.1, l4.2.1, l3.2.1, ← w2, l1.1]
    · rw [l5.2.2.1, l4.2.2.1]
      exact hbits
    · rw [l5.2.2.2.1, ← w4, l3.2.2.1, l2.2.2.1, l1.2.2.1]
    · rw [l4.2.2.2.1, l3.2.2.2.1, l2.2.2.2.1, l1.2.2.2.1]
  refine ⟨htags.of_fields (congrArg Prod.fst hrest),(congrArg Prod.snd hrest).trans ?_⟩
  simp only [rest, l5.2.2.2.2, l4.2.2.2.2, l3.2.2.2.2, l2.2.2.2.2, l1.2.2.2.2]

/-- What the later stages keep. -/
def kept (m : DngMetadata) : (UInt32 × UInt32 × UInt16 × UInt32 × UInt32) × CalibrationBlock :=
  (rawFields m,m.calibration)

theorem withEntry_bind_keeps {tag : UInt16} {read : Entry → Except Fault β}
    {f : β → α → α} {γ : Type} {out out' : α} (view : α → γ)
    (hf : ∀ v, view (f v out) = view out)
    (h : withEntry entries tag (fun entry o => do return f (← read entry) o) out = .ok out') :
    view out' = view out := by
  refine withEntry_keeps view (fun entry o' ho => ?_) h
  obtain ⟨v,-,ho⟩ := bind_ok.mp ho
  obtain rfl := Except.ok.inj ho
  exact hf v

/-- The values of the tag over the levels there were. -/
def BlackTag (bytes : List UInt8) (entries : List Entry) (before after : Vector Float32 4) : Prop :=
  ∀ entry, findEntry entries kTagBlackLevel = some entry →
    ∃ levels, numericValues bytes entry = .ok levels ∧ after = fill levels before

theorem applyCalibrationEntries_tags {out out' : DngMetadata}
    (h : applyCalibrationEntries bytes entries out = .ok out') :
    rawFields out' = rawFields out ∧ out'.calibration.cfa = out.calibration.cfa ∧
      BlackTag bytes entries out.calibration.blackLevel out'.calibration.blackLevel := by
  unfold applyCalibrationEntries at h
  obtain ⟨o1,h1,h⟩ := bind_ok.mp h
  obtain ⟨o2,h2,h⟩ := bind_ok.mp h
  obtain ⟨o3,h3,h⟩ := bind_ok.mp h
  obtain ⟨o4,h4,h⟩ := bind_ok.mp h
  obtain ⟨o5,h5,h⟩ := bind_ok.mp h
  obtain ⟨o6,h6,h⟩ := bind_ok.mp h
  obtain ⟨o7,h7,h8⟩ := bind_ok.mp h
  let view (m : DngMetadata) := (rawFields m,m.calibration.cfa,m.calibration.blackLevel)
  have k1 := withEntry_bind_keeps (fun m => (rawFields m,m.calibration.cfa)) (fun _ => rfl) h1
  have k2 := withEntry_bind_keeps view (fun _ => rfl) h2
  have k3 := withEntry_bind_keeps view (fun _ => rfl) h3
  have k4 := withEntry_bind_keeps view (fun _ => rfl) h4
  have k5 := withEntry_bind_keeps view (fun _ => rfl) h5
  have k6 := withEntry_bind_keeps view (fun _ => rfl) h6
  have k7 := withEntry_bind_keeps view (fun _ => rfl) h7
  have k8 : view out' = view o7 := by
    refine withEntry_keeps view (fun entry o' ho => ?_) h8
    obtain ⟨values,-,ho⟩ := bind_ok.mp ho
    split at ho
    · split at ho <;> obtain rfl := Except.ok.inj ho <;> rfl
    · obtain rfl := Except.ok.inj ho
      rfl
  have hview : view out' = view o1 := by rw [k8, k7, k6, k5, k4, k3, k2]
  simp only [view, Prod.mk.injEq] at hview k1
  refine ⟨hview.1.trans k1.1,hview.2.1.trans k1.2,?_⟩
  intro entry hentry
  simp only [withEntry, hentry] at h1
  obtain ⟨levels,hlevels,h1⟩ := bind_ok.mp h1
  obtain rfl := Except.ok.inj h1
  exact ⟨levels,hlevels,hview.2.2⟩

theorem applyExif_keeps {out out' : DngMetadata} (h : applyExif bytes entries out = .ok out') :
    kept out' = kept out := by
  refine withEntry_keeps kept (fun entry o' ho => ?_) h
  obtain ⟨_,-,ho⟩ := bind_ok.mp ho
  obtain ⟨_,-,ho⟩ := bind_ok.mp ho
  obtain ⟨_,-,ho⟩ := bind_ok.mp ho
  split at ho
  · obtain rfl := Except.ok.inj ho
    rfl
  · obtain ⟨_,-,ho⟩ := bind_ok.mp ho
    obtain rfl := Except.ok.inj ho
    rfl

theorem applyBlobs_keeps {out out' : DngMetadata} (h : applyBlobs bytes entries out = .ok out') :
    kept out' = kept out := by
  unfold applyBlobs at h
  obtain ⟨o1,h1,h⟩ := bind_ok.mp h
  obtain ⟨o2,h2,h⟩ := bind_ok.mp h
  obtain ⟨o3,h3,h⟩ := bind_ok.mp h
  obtain ⟨o4,h4,h5⟩ := bind_ok.mp h
  rw [withEntry_bind_keeps kept (fun _ => rfl) h5, withEntry_bind_keeps kept (fun _ => rfl) h4,
    withEntry_bind_keeps kept (fun _ => rfl) h3, withEntry_bind_keeps kept (fun _ => rfl) h2,
    withEntry_bind_keeps kept (fun _ => rfl) h1]

/-! ### A parsed file -/

/-- The table of tags of a file. -/
def tableOf (bytes : List UInt8) : Except Fault (Option (List Entry)) := do
  let ifdOffset ← readU32 bytes 4
  readEntries bytes ifdOffset

/-- What a file has under a tag. -/
def tagged (bytes : List UInt8) (tag : UInt16) (read : List UInt8 → Entry → Except Fault α) :
    Except Fault (Option α) := do
  match ← tableOf bytes with
  | none => return none
  | some entries =>
    match findEntry entries tag with
    | none => return none
    | some entry => return some (← read bytes entry)

theorem tagged_some {tag : UInt16} {read : List UInt8 → Entry → Except Fault α} {v : α}
    (h : tagged bytes tag read = .ok (some v)) (htable : tableOf bytes = .ok (some entries)) :
    ∃ entry, findEntry entries tag = some entry ∧ read bytes entry = .ok v := by
  obtain ⟨found,hfound,h⟩ := bind_ok.mp h
  obtain rfl := Except.ok.inj (htable.symm.trans hfound)
  cases hentry : findEntry entries tag with
  | none => simp [hentry, pure, Except.pure] at h
  | some entry =>
    simp only [hentry] at h
    obtain ⟨v',hv,h⟩ := bind_ok.mp h
    cases Except.ok.inj h
    exact ⟨entry,rfl,hv⟩

/-- What the metadata of an accepted file say of its tags. -/
structure ParsedTags (bytes : List UInt8) (entries : List Entry) (m : DngMetadata) : Prop where
  table : tableOf bytes = .ok (some entries)
  raw : RawTags bytes entries m
  nonzero : m.width ≠ 0 ∧ m.height ≠ 0 ∧ m.stripByteCount ≠ 0
  bits : m.bitsPerSample ≠ 0 ∧ m.bitsPerSample ≤ 16
  cfa : ∃ dims pattern, m.calibration.cfa = some { cfaRepeat := dims, pattern }
  black : BlackTag bytes entries (Vector.replicate 4 0) m.calibration.blackLevel

theorem finish_ok {out : DngMetadata} {compression : UInt32}
    (h : (finish out compression).status = .ok) :
    (finish out compression).metadata = out ∧
      (out.width ≠ 0 ∧ out.height ≠ 0 ∧ out.stripByteCount ≠ 0) ∧
      out.bitsPerSample ≠ 0 ∧ out.bitsPerSample ≤ 16 := by
  unfold finish at h ⊢
  split at h
  · cases h
  · rename_i hraw
    split at h
    · cases h
    · rename_i hcompressed
      simp only [not_or, UInt16.not_lt] at hraw
      rw [if_neg (by simpa only [not_or, UInt16.not_lt] using hraw), if_neg hcompressed]
      exact ⟨rfl,⟨hraw.1,hraw.2.1,hraw.2.2.2.2⟩,hraw.2.2.1,hraw.2.2.2.1⟩

theorem parseImage_tags {out : DngMetadata} {compression : UInt32}
    (h : parseImage bytes entries = .ok (.ok (out,compression))) :
    RawTags bytes entries out ∧
      (∃ dims pattern, out.calibration.cfa = some { cfaRepeat := dims, pattern }) ∧
      BlackTag bytes entries (Vector.replicate 4 0) out.calibration.blackLevel := by
  unfold parseImage at h
  obtain ⟨c,hc,h⟩ := bind_ok.mp h
  obtain ⟨_,-,h⟩ := bind_ok.mp h
  obtain ⟨_,-,h⟩ := bind_ok.mp h
  split at h
  · cases Except.ok.inj h
  obtain ⟨image,himage,h⟩ := bind_ok.mp h
  obtain ⟨dims?,-,h⟩ := bind_ok.mp h
  cases dims? with
  | error result => cases Except.ok.inj h
  | ok dims =>
    obtain ⟨pattern?,-,h⟩ := bind_ok.mp h
    cases pattern? with
    | none => cases Except.ok.inj h
    | some pattern =>
      obtain ⟨calibrated,hcal,h⟩ := bind_ok.mp h
      obtain ⟨rfl,rfl⟩ := Prod.mk.inj (Except.ok.inj (Except.ok.inj h))
      obtain ⟨htags,hblack⟩ := applyImageEntries_tags himage
      obtain ⟨hraw,hcfa,htag⟩ := applyCalibrationEntries_tags hcal
      exact ⟨htags.of_fields hraw,⟨dims,pattern,hcfa⟩,hblack ▸ htag⟩

theorem cfaRepeat_refused {out : DngMetadata} {result : ParseResult}
    (h : cfaRepeat bytes entries out = .ok (.error result)) : result.status = .unsupported := by
  unfold cfaRepeat at h
  split at h
  · cases Except.ok.inj h
    rfl
  · obtain ⟨values,-,h⟩ := bind_ok.mp h
    split at h
    · split at h
      · cases Except.ok.inj h
      · cases Except.ok.inj h
        rfl
    · cases Except.ok.inj h
      rfl

theorem parseImage_refused {result : ParseResult}
    (h : parseImage bytes entries = .ok (.error result)) : result.status = .unsupported := by
  unfold parseImage at h
  obtain ⟨_,-,h⟩ := bind_ok.mp h
  obtain ⟨_,-,h⟩ := bind_ok.mp h
  obtain ⟨_,-,h⟩ := bind_ok.mp h
  split at h
  · cases Except.ok.inj h
    rfl
  obtain ⟨image,-,h⟩ := bind_ok.mp h
  obtain ⟨dims?,hdims,h⟩ := bind_ok.mp h
  cases dims? with
  | error refused =>
    cases Except.ok.inj h
    exact cfaRepeat_refused hdims
  | ok dims =>
    obtain ⟨pattern?,-,h⟩ := bind_ok.mp h
    cases pattern? with
    | none =>
      cases Except.ok.inj h
      rfl
    | some pattern =>
      obtain ⟨_,-,h⟩ := bind_ok.mp h
      cases Except.ok.inj h

theorem parse_tags {result : ParseResult} (h : parse bytes = .ok result)
    (hok : result.status = .ok) : ∃ entries, ParsedTags bytes entries result.metadata := by
  unfold parse at h
  obtain ⟨good,-,h⟩ := bind_ok.mp h
  split at h
  · obtain rfl := Except.ok.inj h
    cases hok
  obtain ⟨ifdOffset,hfirst,h⟩ := bind_ok.mp h
  obtain ⟨found,hfound,h⟩ := bind_ok.mp h
  cases found with
  | none =>
    obtain rfl := Except.ok.inj h
    cases hok
  | some entries =>
    obtain ⟨image,himage,h⟩ := bind_ok.mp h
    cases image with
    | error refused =>
      obtain rfl := Except.ok.inj h
      rw [parseImage_refused himage] at hok
      cases hok
    | ok image =>
      obtain ⟨out,compression⟩ := image
      obtain ⟨o1,h1,h⟩ := bind_ok.mp h
      obtain ⟨o2,h2,h⟩ := bind_ok.mp h
      obtain rfl := Except.ok.inj h
      obtain ⟨hout,hnonzero,hbits⟩ := finish_ok hok
      obtain ⟨htags,hcfa,hblack⟩ := parseImage_tags himage
      have hkept : kept o2 = kept out := (applyBlobs_keeps h2).trans (applyExif_keeps h1)
      simp only [kept, Prod.mk.injEq] at hkept
      rw [hout]
      exact ⟨entries,⟨bind_ok.mpr ⟨ifdOffset,hfirst,hfound⟩,htags.of_fields hkept.1,hnonzero,hbits,
        hkept.2 ▸ hcfa,hkept.2 ▸ hblack⟩⟩

end Cpipe.Ingest.OpcodeListParser
