import Cpipe.Proofs.OpcodeCorrections
import Cpipe.Proofs.OpcodeTables
import Cpipe.Proofs.HalidePlane
import Mathlib.Data.Rat.Floor
import Mathlib.Data.Rat.Sqrt

/-! The kernel of an opcode list against the fold of its image functions. -/

namespace Cpipe.Nodes.DngOpcodeList3
open Compute Ingest.OpcodeList3 Library.Bytes Library.Ieee
open Library.Raster (load store scatter pixels channelsOf InImage Holds offset_lt scatter_fault)
open Library.Checked (bind_ok foldlM_congr_mem)
open Runtime.HalideBufferAdapter
open Runtime.HalidePlane (checkedIndex checkedIndex_ok)

/-! ### Buffers -/

/-- The view of a packed image of four half floats. -/
def packedBuffer (width height : UInt32) (host : List UInt16) : HalideBuffer where
  dims := interleaved (imageLayout .r16g16b16a16Sfloat width height)
  host := host

section Buffers

variable {width height : UInt32} {host : List UInt16} {p : Nat × Nat × Nat}

theorem packedBuffer_dims : (packedBuffer width height host).dims =
    [⟨width.toInt32,4⟩,⟨height.toInt32,castInt32 (8*width.toUInt64/2)⟩,⟨4,1⟩] := by
  have hbytes : bytesPerChannel .r16g16b16a16Sfloat = 2 := by decide
  have hpixel : (2*4 : UInt64) = 8 := by decide
  have hfour : castInt32 (8/2) = 4 := by decide
  have hchannels : castInt32 4 = 4 := by decide
  simp only [packedBuffer, interleaved, imageLayout, channelCount, hbytes, Vector.getElem_replicate,
    ne_eq, not_true_eq_false, if_false, hpixel, hfour, hchannels]
  rfl

theorem packedBuffer_offset :
    (packedBuffer width height host).offset p =
      Int32.ofNat (Library.Raster.offset kChannels width.toNat p) := by
  have hrow : castInt32 (8*width.toUInt64/2) = Int32.ofNat (width.toNat*4) := by
    have hw := width.toNat_lt
    rw [castInt32_eq]
    congr 1
    simp only [UInt64.toNat_div, UInt64.toNat_mul, UInt32.toNat_toUInt64, UInt64.reduceToNat]
    omega
  simp only [HalideBuffer.offset, HalideBuffer.dim, packedBuffer_dims, List.getD_cons_zero,
    List.getD_cons_succ, hrow, Library.Raster.offset, kChannels]
  rw [Int32.ofNat_add, Int32.ofNat_mul, Int32.ofNat_mul, Int32.ofNat_add, Int32.ofNat_mul,
    Int32.add_mul, Int32.mul_one, Int32.mul_assoc]
  rfl

/-! ### Reading and writing -/

theorem pixel_count (hsize : 4*width.toNat*height.toNat ≤ 2^31)
    (hp : InImage kChannels width.toNat height.toNat p) :
    Library.Raster.offset kChannels width.toNat p < 2^31 := by
  have hlt := offset_lt hp
  have hproduct : width.toNat*height.toNat*kChannels = 4*width.toNat*height.toNat := by
    rw [kChannels]
    ring
  omega

variable {picture : Picture}

theorem readImage_ok (hsize : 4*width.toNat*height.toNat ≤ 2^31)
    (h : Holds kChannels width.toNat height.toNat host picture) :
    ∃ image, readImage (packedBuffer width height host) width.toNat height.toNat =
        .ok (some image) ∧ Holds kChannels width.toNat height.toNat image picture := by
  obtain ⟨image,himage,hholds⟩ := scatter_cells
    (fun p => do load host (← checkedIndex host.length
      ((packedBuffer width height host).offset p)))
    (Holds.replicate kChannels width.toNat height.toNat 0) le_rfl
    (fun p hp => by
      rw [packedBuffer_offset, checkedIndex_ok (pixel_count hsize hp)]
      exact h.load hp)
    (fun p hp hc => absurd hp.2.2 hc)
  refine ⟨image,?_,hholds⟩
  unfold readImage
  rw [if_neg (by simp [HalideBuffer.dim, packedBuffer_dims])]
  exact congrArg (some <$> ·) himage

variable (host) in
/-- The index of the pixel numbered `2^29` does not fit an `int`. -/
theorem readImage_fault (hw : 0 < width.toNat) (hsize : 2^31 < 4*width.toNat*height.toNat) :
    ∃ e, readImage (packedBuffer width height host) width.toNat height.toNat = .error e := by
  have hproduct : 4*width.toNat*height.toNat = 4*(width.toNat*height.toNat) := by ring
  have hcell : (2^29 % width.toNat,2^29 / width.toNat,0) ∈
      cellsOf width.toNat height.toNat kChannels := by
    refine mem_cellsOf.mpr ⟨Nat.mod_lt _ hw,?_,Nat.succ_pos 3⟩
    rw [Nat.div_lt_iff_lt_mul hw, Nat.mul_comm]
    omega
  have hindex : Library.Raster.offset kChannels width.toNat
      (2^29 % width.toNat,2^29 / width.toNat,0) = 2^31 := by
    have hdiv := Nat.div_add_mod (2^29) width.toNat
    rw [Nat.mul_comm] at hdiv
    simp only [Library.Raster.offset, kChannels, hdiv]
    decide
  let value (p : Nat × Nat × Nat) : Except Fault UInt16 := do
    load host (← checkedIndex host.length ((packedBuffer width height host).offset p))
  have hvalue : value (2^29 % width.toNat,2^29 / width.toNat,0) =
      .error ⟨2^64 - 2^31,host.length⟩ := by
    simp only [value]
    rw [packedBuffer_offset, hindex]
    rfl
  obtain ⟨e,he⟩ := scatter_fault (pixelOffset width.toNat) hcell hvalue
    (List.replicate (width.toNat*height.toNat*kChannels) 0)
  refine ⟨e,?_⟩
  unfold readImage
  rw [if_neg (by simp [HalideBuffer.dim, packedBuffer_dims])]
  exact congrArg (some <$> ·) he

variable (host) in
theorem writeImage_ok {image : Image} (hsize : 4*width.toNat*height.toNat ≤ 2^31)
    (hw : width.toNat < 2^31) (hh : height.toNat < 2^31)
    (h : Holds kChannels width.toNat height.toNat image picture)
    (hlen : host.length = width.toNat*height.toNat*kChannels) :
    ∃ out, writeImage image (packedBuffer width height host) width.toNat height.toNat =
        .ok (some out) ∧ Holds kChannels width.toNat height.toNat out picture := by
  have hbefore : Holds kChannels width.toNat height.toNat host
      (fun p => host.getD (Library.Raster.offset kChannels width.toNat p) 0) := by
    refine ⟨hlen,fun p hp => ?_⟩
    have hlt : Library.Raster.offset kChannels width.toNat p < host.length := hlen ▸ offset_lt hp
    simp [List.getElem?_eq_getElem hlt]
  obtain ⟨out,hout,hholds⟩ := scatter_cells
    (fun p => load image (pixelOffset width.toNat p)) hbefore le_rfl (fun p hp => h.load hp)
    (fun p hp hc => absurd hp.2.2 hc)
  refine ⟨out,?_,hholds⟩
  unfold writeImage
  rw [if_neg (by simp [HalideBuffer.dim, packedBuffer_dims, toInt32_toInt hw, toInt32_toInt hh])]
  rw [foldlM_congr_mem (g := fun out p => load image (pixelOffset width.toNat p) >>=
    store out (pixelOffset width.toNat p)) (fun p hp out => ?_)]
  · exact congrArg (some <$> ·) hout
  · rw [packedBuffer_offset, checkedIndex_ok (pixel_count hsize (mem_cellsOf.mp hp))]
    rfl

end Buffers

/-! ### The loop over the records -/

section Records

variable {K : Type} [Field K] [LinearOrder K] [FloorRing K] {conv : Conversions K}
  {width height : Nat} {blob : List UInt8} {tables : Tables}

theorem warpCoefficient_packed {warp : WarpRectilinear} (h : warp.Planes)
    {record : Opcode3DispatchRecord} (c : Nat) :
    warpCoefficient (packWarp warp record) c = planeCoefficient warp c := by
  obtain ⟨h1,h4⟩ := h
  have hcount : (packWarp warp record).coefficientCount.toNat = warp.coefficients.length := by
    simp only [packWarp, Nat.min_eq_left h4]
    exact toNat_ofNat_lt (by omega)
  have hindex : min c (warp.coefficients.length - 1) < warp.coefficients.length := by omega
  have hfour : min c (warp.coefficients.length - 1) < 4 := by omega
  rw [warpCoefficient, planeCoefficient, hcount]
  simp only [packWarp, List.getD_eq_getElem?_getD, Vector.getElem?_toList, Vector.getElem?_ofFn,
    hfour, hindex, List.getElem?_eq_getElem, dif_pos, Option.getD_some]

theorem packWarp_count {warp : WarpRectilinear} (h : warp.Planes)
    (record : Opcode3DispatchRecord) : (packWarp warp record).coefficientCount ≠ 0 := by
  obtain ⟨h1,h4⟩ := h
  have hcount : (packWarp warp record).coefficientCount.toNat = warp.coefficients.length := by
    simp only [packWarp, Nat.min_eq_left h4]
    exact toNat_ofNat_lt (by omega)
  intro h0
  rw [h0] at hcount
  change 0 = warp.coefficients.length at hcount
  omega

variable (conv) in
/-- A record is passed over where its opcode changes nothing, or else its correction
computes the image function of the opcode. -/
theorem record_step {opcode : Opcode} (hop : opcode.WellFormed) (points rects : Nat)
    {src : Image} {picture : Picture} (h : Holds kChannels width height src picture)
    (hw : 0 < width) (hh : 0 < height) (hw32 : width < 2^32) (hh32 : height < 2^32)
    (hpoints : recordPoints blob tables (packRecord points rects opcode) =
      .ok (opcodePoints opcode))
    (hrects : recordRects blob tables (packRecord points rects opcode) = .ok (opcodeRects opcode)) :
    let record := packRecord points rects opcode
    (dispatchRecord record.id (record.optional != 0) = .ok none ∧
      opcodePicture conv width height picture opcode = picture) ∨
    ∃ correction, dispatchRecord record.id (record.optional != 0) = .ok (some correction) ∧
      ∀ dst, ∃ out, applyCorrection conv blob tables width height correction record src dst =
          .ok out ∧
        Holds kChannels width height out (opcodePicture conv width height picture opcode) := by
  intro record
  obtain ⟨shape,-⟩ := hop
  cases shape with
  | warpRectilinear version flags w hplanes =>
    refine .inr ⟨.warp,rfl,fun dst => ?_⟩
    exact applyWarp_ok h hw hh (packWarp_count hplanes _)
      (fun c _ => warpCoefficient_packed hplanes c) rfl rfl
  | fixVignetteRadial version flags v =>
    exact .inr ⟨.vignette,rfl,fun dst => applyVignette_ok h rfl rfl rfl⟩
  | fixBadPixelsConstant version flags fix =>
    exact .inr ⟨.badPixelsConstant,rfl,fun dst => applyBadPixelsConstant_ok h record⟩
  | fixBadPixelsList version flags l =>
    refine .inr ⟨.badPixelsList,rfl,fun dst => ?_⟩
    obtain ⟨out,hout,hholds⟩ := applyBadPixels_ok dst h l.badPoints l.badRects
    refine ⟨out,?_,hholds⟩
    exact bind_ok.mpr ⟨_,hpoints,bind_ok.mpr ⟨_,hrects,hout⟩⟩
  | trimBounds version flags t =>
    exact .inr ⟨.trimBounds,rfl,fun dst => applyTrimBounds_ok h hw32 hh32 rfl rfl rfl rfl⟩
  | unknown rawId version flags params hid hflag =>
    left
    have hoptional : (flags &&& kOptionalFlag != 0) = true := by simpa using hflag
    have hrecord : record.id = 0 ∧ record.optional = 1 := by
      simp [record, packRecord, packPayload, Opcode.base, hid, hoptional, recordId]
    refine ⟨?_,?_⟩
    · rw [hrecord.1, hrecord.2]
      rfl
    · simp only [opcodePicture, Opcode.base, hid]

variable (conv) in
/-- The loop computes the fold, whatever the second image held. -/
theorem runRecords_ok {opcodes : List Opcode} (hwf : ∀ op ∈ opcodes, op.WellFormed)
    (hfit : SlicesFit opcodes) (hw : 0 < width) (hh : 0 < height) (hw32 : width < 2^32)
    (hh32 : height < 2^32) (after : List Opcode) :
    ∀ (before : List Opcode) (working next : Image) (picture : Picture),
      opcodes = before ++ after → Holds kChannels width height working picture →
      ∃ out, runRecords conv (packOpcodeList3 opcodes) (packedTables opcodes) width height
          (packRecords after (pointsBefore before) (rectsBefore before)) working next =
          .ok (.ok out) ∧
        Holds kChannels width height out
          (after.foldl (opcodePicture conv width height) picture) := by
  induction after with
  | nil =>
    intro before working next picture _ h
    exact ⟨working,rfl,h⟩
  | cons opcode after ih =>
    intro before working next picture hsplit h
    obtain ⟨hpoints,hrects⟩ := record_slices hwf hfit hsplit
    have hop := hwf opcode (by simp [hsplit])
    have hnext := ih (before ++ [opcode])
    rw [pointsBefore_snoc, rectsBefore_snoc] at hnext
    rw [packRecords, runRecords, List.foldl_cons]
    rcases record_step conv hop _ _ h hw hh hw32 hh32 hpoints hrects with
      ⟨hdispatch,hsame⟩ | ⟨correction,hdispatch,happly⟩
    · rw [hdispatch, hsame]
      exact hnext working next picture (by simp [hsplit]) h
    · obtain ⟨out,hout,hholds⟩ := happly next
      obtain ⟨final,hfinal,hlast⟩ := hnext out working _ (by simp [hsplit]) hholds
      refine ⟨final,?_,hlast⟩
      rw [hdispatch]
      exact bind_ok.mpr ⟨out,hout,hfinal⟩

end Records

/-! ### The kernel -/

section Kernel

variable {K : Type} [Field K] [LinearOrder K] [FloorRing K]

/-- The blob of a list is accepted, each record has the slices that its opcode was packed
to, and on every image of this size the kernel computes the fold of the image functions. -/
def ComputesFold (conv : Conversions K) (opcodes : List Opcode) (width height : UInt32) : Prop :=
  ∃ tables, checkedParamBlob (packOpcodeList3 opcodes) = .ok (some tables) ∧
    (∀ before opcode after, opcodes = before ++ opcode :: after →
      ∃ record, tables.records[before.length]? = some record ∧
        recordPoints (packOpcodeList3 opcodes) tables record = .ok (opcodePoints opcode) ∧
        recordRects (packOpcodeList3 opcodes) tables record = .ok (opcodeRects opcode) ∧
        (opcodePoints opcode ≠ [] → record.pointOffset.toNat = pointsBefore before) ∧
        (opcodeRects opcode ≠ [] → record.rectOffset.toNat = rectsBefore before)) ∧
    ∀ (picture : Picture) (host out : List UInt16),
      Holds kChannels width.toNat height.toNat host picture →
      out.length = width.toNat*height.toNat*kChannels →
      ∃ result, lensDngOpcodeList3Param conv (packOpcodeList3 opcodes)
          (packedBuffer width height host) (packedBuffer width height out) =
          .ok (.ok,result) ∧
        Holds kChannels width.toNat height.toNat result
          (opcodes.foldl (opcodePicture conv width.toNat height.toNat) picture)

variable {conv : Conversions K} {opcodes : List Opcode} {width height : UInt32}

theorem packRecords_getElem : ∀ (before after : List Opcode) (opcode : Opcode) (points rects : Nat),
    (packRecords (before ++ opcode :: after) points rects)[before.length]? =
      some (packRecord (points + pointsBefore before) (rects + rectsBefore before) opcode) := by
  intro before
  induction before with
  | nil =>
    intro after opcode points rects
    rfl
  | cons first before ih =>
    intro after opcode points rects
    simp only [List.cons_append, packRecords, List.length_cons, List.getElem?_cons_succ]
    rw [ih]
    simp [pointsBefore, rectsBefore, Nat.add_assoc]

theorem computesFold_of_fit (hlen : opcodes.length < 2^32) (hwf : ∀ op ∈ opcodes, op.WellFormed)
    (hfit : SlicesFit opcodes) (hw : 0 < width.toNat) (hh : 0 < height.toNat)
    (hsize : 4*width.toNat*height.toNat ≤ 2^31) : ComputesFold conv opcodes width height := by
  have hw31 : width.toNat < 2^31 := by
    have : 4*width.toNat*1 ≤ 4*width.toNat*height.toNat := Nat.mul_le_mul_left _ hh
    omega
  have hh31 : height.toNat < 2^31 := by
    have : 4*1*height.toNat ≤ 4*width.toNat*height.toNat :=
      Nat.mul_le_mul_right _ (Nat.mul_le_mul_left 4 hw)
    omega
  have hchecked := checkedParamBlob_packed hlen hwf hfit
  refine ⟨packedTables opcodes,hchecked,?_,?_⟩
  · intro before opcode after hsplit
    obtain ⟨hpoints,hrects⟩ := record_slices hwf hfit hsplit
    obtain ⟨hp,hr⟩ := hfit before opcode after hsplit
    have hop := hwf opcode (by simp [hsplit])
    refine ⟨packRecord (pointsBefore before) (rectsBefore before) opcode,?_,hpoints,hrects,?_,?_⟩
    · simp only [packedTables, hsplit, packRecords_getElem, Nat.zero_add]
    · intro hne
      exact (packRecord_points hop _ _).start
        (fun h0 => hne (List.length_eq_zero_iff.mp h0)) (hp hne)
    · intro hne
      exact (packRecord_rects hop _ _).start
        (fun h0 => hne (List.length_eq_zero_iff.mp h0)) (hr hne)
  · intro picture host out hhost hout
    obtain ⟨image,hread,himage⟩ := readImage_ok hsize hhost
    obtain ⟨final,hrun,hfinal⟩ := runRecords_ok conv hwf hfit hw hh (by omega)
      (by omega) opcodes [] image image picture rfl himage
    obtain ⟨result,hwrite,hresult⟩ := writeImage_ok out hsize hw31 hh31 hfinal hout
    refine ⟨result,?_,hresult⟩
    refine bind_ok.mpr ⟨_,hchecked,?_⟩
    have hdims (data : List UInt16) : (packedBuffer width height data).dim 0 = ⟨width.toInt32,4⟩ ∧
        ((packedBuffer width height data).dim 1).extent = height.toInt32 := by
      simp [HalideBuffer.dim, packedBuffer_dims]
    simp only [(hdims host).1, (hdims host).2, (hdims out).1, (hdims out).2]
    rw [if_neg (by simp [extent_pos_iff.mpr ⟨hw,hw31⟩, extent_pos_iff.mpr ⟨hh,hh31⟩]),
      toInt32_toInt hw31, toInt32_toInt hh31, Int.toNat_natCast, Int.toNat_natCast, hread]
    exact bind_ok.mpr ⟨_,rfl,bind_ok.mpr ⟨_,hrun,bind_ok.mpr ⟨_,hwrite,rfl⟩⟩⟩

theorem kernel_too_large (hw : 0 < width.toNat) (hsize : 2^31 < 4*width.toNat*height.toNat)
    (blob : List UInt8) (host out result : List UInt16) :
    lensDngOpcodeList3Param conv blob (packedBuffer width height host)
      (packedBuffer width height out) ≠ .ok (.ok,result) := by
  intro hrun
  obtain ⟨tables?,-,hrun⟩ := bind_ok.mp hrun
  cases tables? with
  | none => cases Except.ok.inj hrun
  | some tables =>
    simp only at hrun
    split at hrun
    · cases Except.ok.inj hrun
    rename_i hpositive
    have hdims : ((packedBuffer width height host).dim 0).extent = width.toInt32 ∧
        ((packedBuffer width height host).dim 1).extent = height.toInt32 := by
      simp [HalideBuffer.dim, packedBuffer_dims]
    rw [hdims.1, hdims.2] at hpositive hrun
    simp only [not_or] at hpositive
    have hextent {n : UInt32} (h : ¬ n.toInt32 ≤ 0) : n.toInt32.toInt.toNat = n.toNat := by
      rw [toInt32_toInt (extent_pos_iff.mp h).2, Int.toNat_natCast]
    rw [hextent hpositive.1, hextent hpositive.2.1] at hrun
    obtain ⟨e,he⟩ := readImage_fault host hw hsize
    rw [he] at hrun
    obtain ⟨_,hno,-⟩ := bind_ok.mp hrun
    cases hno

/-- For an accepted list: the kernel computes the fold exactly when all 32-bit offsets of
the tables are exact and the image has no more than `2^31` values. -/
theorem computes_fold_iff {bytes : List UInt8} {result : ParseResult}
    (hparse : parse bytes = .ok result) (hok : result.status = .ok) (conv : Conversions K)
    (width height : UInt32) (hw : width ≠ 0) (hh : height ≠ 0) :
    ComputesFold conv result.opcodes width height ↔
      SlicesFit result.opcodes ∧ 4*width.toNat*height.toNat ≤ 2^31 := by
  obtain ⟨hwf,hlen⟩ := parse_wellFormed hparse hok
  have hw' : 0 < width.toNat :=
    Nat.pos_of_ne_zero fun h0 => hw (UInt32.toNat_inj.mp h0)
  have hh' : 0 < height.toNat :=
    Nat.pos_of_ne_zero fun h0 => hh (UInt32.toNat_inj.mp h0)
  constructor
  · rintro ⟨tables,-,hslices,hkernel⟩
    refine ⟨fun before opcode after hsplit => ?_,?_⟩
    · obtain ⟨record,-,-,-,hp,hr⟩ := hslices before opcode after hsplit
      exact ⟨fun hne => hp hne ▸ record.pointOffset.toNat_lt,
        fun hne => hr hne ▸ record.rectOffset.toNat_lt⟩
    · by_contra hlarge
      have hblank := Holds.replicate kChannels width.toNat height.toNat (0 : UInt16)
      obtain ⟨out,hrun,-⟩ := hkernel _ _ _ hblank hblank.length
      exact kernel_too_large hw' (by omega) _ _ _ _ hrun
  · intro ⟨hfit,hsize⟩
    exact computesFold_of_fit hlen hwf hfit hw' hh' hsize

end Kernel

/-! ### A list that trims the image -/

/-- Rational coordinates. -/
def rationalConversions : Conversions ℚ where
  ofDouble := Double.value
  ofFloat v := (Single.mk v.toBits).value
  toFloat r := Float32.ofInt r.num / Float32.ofNat r.den
  sqrt := Rat.sqrt

theorem parse_trim :
    parse (encode [trimOpcode]) = .ok { status := .ok, opcodes := [trimOpcode] } :=
  parse_encode (by decide) (List.forall_mem_singleton.mpr trim_wellFormed)

theorem parse_repair_trim : parse (encode [repairOpcode,trimOpcode]) =
    .ok { status := .ok, opcodes := [repairOpcode,trimOpcode] } :=
  parse_encode (by decide) (List.forall_mem_cons.mpr
    ⟨repair_wellFormed,List.forall_mem_singleton.mpr trim_wellFormed⟩)

theorem tables_append_le (before after : List Opcode) :
    pointsBefore before ≤ pointsBefore (before ++ after) ∧
      rectsBefore before ≤ rectsBefore (before ++ after) := by
  simp [pointsBefore, rectsBefore]

/-- A list whose tables are short fits, wherever its slices begin. -/
theorem slicesFit_of_lt {opcodes : List Opcode} (hp : pointsBefore opcodes < 2^32)
    (hr : rectsBefore opcodes < 2^32) : SlicesFit opcodes := by
  rintro before opcode after rfl
  obtain ⟨hpoints,hrects⟩ := tables_append_le before (opcode :: after)
  exact ⟨fun _ => hpoints.trans_lt hp,fun _ => hrects.trans_lt hr⟩

theorem repair_computes_fold :
    ComputesFold rationalConversions [repairOpcode,trimOpcode] 4 5 :=
  (computes_fold_iff parse_repair_trim rfl rationalConversions 4 5 (by decide)
    (by decide)).mpr ⟨slicesFit_of_lt (by decide) (by decide),by decide⟩

/-- An image of `2^15` by `2^15` pixels has more values than an `int` counts. -/
theorem trim_large_image :
    parse (encode [trimOpcode]) = .ok { status := .ok, opcodes := [trimOpcode] } ∧
      ¬ ComputesFold rationalConversions [trimOpcode] 32768 32768 := by
  refine ⟨parse_trim,?_⟩
  rintro ⟨tables,-,-,hkernel⟩
  have hblank := Holds.replicate kChannels (32768 : UInt32).toNat (32768 : UInt32).toNat
    (0 : UInt16)
  obtain ⟨out,hrun,-⟩ := hkernel _ _ _ hblank hblank.length
  exact kernel_too_large (by decide) (by decide) _ _ _ _ hrun

end Cpipe.Nodes.DngOpcodeList3
