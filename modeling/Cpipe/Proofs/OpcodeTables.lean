import Cpipe.Nodes.DngOpcodeList3Dispatch
import Cpipe.Proofs.OpcodeList3

/-! The blob of an opcode list, packed and read back. -/

namespace Cpipe.Nodes.DngOpcodeList3
open Ingest.OpcodeList3 Library.Bytes Library.Ieee
open Library.Checked (bind_ok)

/-! ### Structures in memory -/

theorem codecLoadCoefficient : Codec 48 coefficientBytes loadCoefficient := by
  have c := (codecNativeDouble.pair (codecNativeDouble.pair (codecNativeDouble.pair
    (codecNativeDouble.pair (codecNativeDouble.pair codecNativeDouble))))).xmap
      (fun v => WarpCoefficient.mk v.1 v.2.1 v.2.2.1 v.2.2.2.1 v.2.2.2.2.1 v.2.2.2.2.2)
      (fun c => (c.kr0,c.kr1,c.kr2,c.kr3,c.kt0,c.kt1)) (fun _ => rfl) (fun _ => rfl)
  exact c.congr (by simp [loadCoefficient])

theorem codecPoint : Codec sizeofPoint pointBytes loadPoint := by
  have c := (codecLE32.pair codecLE32).xmap (fun v => BadPoint.mk v.1 v.2)
    (fun p => (p.row,p.column)) (fun _ => rfl) (fun _ => rfl)
  exact c.congr (by simp [loadPoint])

theorem codecRect : Codec sizeofRect rectBytes loadRect := by
  have c := (codecLE32.pair (codecLE32.pair (codecLE32.pair codecLE32))).xmap
    (fun v => BadRect.mk v.1 v.2.1 v.2.2.1 v.2.2.2)
    (fun b => (b.top,b.left,b.bottom,b.right)) (fun _ => rfl) (fun _ => rfl)
  exact c.congr (by simp [loadRect])

theorem vector_five {α : Type} (v : Vector α 5) : ∃ a b c d e, v = #v[a,b,c,d,e] := by
  refine ⟨v[0],v[1],v[2],v[3],v[4],?_⟩
  ext i hi
  have h : i = 0 ∨ i = 1 ∨ i = 2 ∨ i = 3 ∨ i = 4 := by omega
  rcases h with rfl | rfl | rfl | rfl | rfl <;> rfl

theorem loadsRecord : Loads sizeofRecord recordBytes loadRecord where
  length := by
    intro r
    simp only [recordBytes, List.length_append, codecLE32.length_flatMap,
      codecLoadCoefficient.length_flatMap, codecNativeDouble.length_flatMap, List.length_cons,
      List.length_nil, Vector.length_toList]
    rfl
  read := by
    intro r record tail h
    rw [recordBytes, List.append_assoc, List.append_assoc, List.append_assoc] at h
    obtain ⟨hhead,h⟩ := codecLE32.many_append h
    obtain ⟨hcoefficients,h⟩ := codecLoadCoefficient.many_append h
    obtain ⟨hdoubles,h⟩ := codecNativeDouble.many_append h
    obtain ⟨hwords,h⟩ := codecLE32.many_append h
    simp only [List.length_cons, List.length_nil, List.length_append, Vector.length_toList,
      Reader.skip_skip] at hhead hcoefficients hdoubles hwords h
    refine ⟨?_,h⟩
    unfold loadRecord
    rw [bind_read hhead, bind_read hcoefficients, bind_read hdoubles, bind_read hwords]
    refine congrArg Except.ok (Prod.ext ?_ rfl)
    obtain ⟨a,b,c,d,e,hk⟩ := vector_five record.vignetteK
    have hlist : record.vignetteK.toList = [a,b,c,d,e] := by rw [hk]; rfl
    rw [hlist]
    refine Opcode3DispatchRecord.ext rfl rfl rfl ?_ rfl rfl ?_ rfl rfl rfl rfl rfl rfl rfl rfl rfl rfl rfl rfl
    · ext i hi
      simp
    · rw [hk]
      rfl

/-! ### Slices of the tables -/

/-- Points of the opcodes in front of one. -/
def pointsBefore (before : List Opcode) : Nat := (before.flatMap opcodePoints).length

def rectsBefore (before : List Opcode) : Nat := (before.flatMap opcodeRects).length

/-- No table has a slice that begins behind the reach of a 32-bit offset. -/
def SlicesFit (opcodes : List Opcode) : Prop :=
  ∀ before opcode after, opcodes = before ++ opcode :: after →
    (opcodePoints opcode ≠ [] → pointsBefore before < 2^32) ∧
    (opcodeRects opcode ≠ [] → rectsBefore before < 2^32)

/-- The slice of a record in a table, for an opcode whose own values start at `start`. -/
structure SliceOf (start : Nat) (count : Nat) (offset size : UInt32) : Prop where
  size : size.toNat = count
  offset : offset.toNat = start % 2^32 ∨ (offset = 0 ∧ count = 0)

theorem wellFormed_counts {opcode : Opcode} (h : opcode.WellFormed) :
    (opcodePoints opcode).length < 2^32 ∧ (opcodeRects opcode).length < 2^32 := by
  obtain ⟨shape,fits⟩ := h
  cases shape with
  | fixBadPixelsList version flags l =>
    obtain ⟨hp,hr⟩ := l.counted fits
    exact ⟨hp,hr⟩
  | warpRectilinear | fixVignetteRadial | fixBadPixelsConstant | trimBounds | unknown =>
    exact ⟨Nat.two_pow_pos 32,Nat.two_pow_pos 32⟩

theorem packRecord_points {opcode : Opcode} (h : opcode.WellFormed) (points rects : Nat) :
    SliceOf points (opcodePoints opcode).length (packRecord points rects opcode).pointOffset
      (packRecord points rects opcode).pointCount := by
  obtain ⟨hcount,-⟩ := wellFormed_counts h
  obtain ⟨shape,-⟩ := h
  cases shape with
  | fixBadPixelsList version flags l =>
    exact ⟨toNat_ofNat_lt hcount,.inl (UInt32.toNat_ofNat' ..)⟩
  | warpRectilinear | fixVignetteRadial | fixBadPixelsConstant | trimBounds | unknown =>
    exact ⟨rfl,.inr ⟨rfl,rfl⟩⟩

theorem packRecord_rects {opcode : Opcode} (h : opcode.WellFormed) (points rects : Nat) :
    SliceOf rects (opcodeRects opcode).length (packRecord points rects opcode).rectOffset
      (packRecord points rects opcode).rectCount := by
  obtain ⟨-,hcount⟩ := wellFormed_counts h
  obtain ⟨shape,-⟩ := h
  cases shape with
  | fixBadPixelsList version flags l =>
    exact ⟨toNat_ofNat_lt hcount,.inl (UInt32.toNat_ofNat' ..)⟩
  | warpRectilinear | fixVignetteRadial | fixBadPixelsConstant | trimBounds | unknown =>
    exact ⟨rfl,.inr ⟨rfl,rfl⟩⟩

/-- A slice ends at the end of the table so far, or before it when it is empty. -/
theorem SliceOf.max_end {start count : Nat} {offset size : UInt32}
    (h : SliceOf start count offset size) (hfit : count ≠ 0 → start < 2^32) :
    max start (offset.toNat + size.toNat) = start + count := by
  rw [h.size]
  rcases h.offset with ho | ⟨rfl,rfl⟩
  · by_cases hcount : count = 0
    · have := Nat.mod_le start (2^32)
      omega
    · rw [ho, Nat.mod_eq_of_lt (hfit hcount)]
      omega
  · simp

theorem SliceOf.start {start count : Nat} {offset size : UInt32}
    (h : SliceOf start count offset size) (hcount : count ≠ 0) (hfit : start < 2^32) :
    offset.toNat = start := by
  rcases h.offset with ho | ⟨-,h0⟩
  · rw [ho, Nat.mod_eq_of_lt hfit]
  · exact absurd h0 hcount

theorem pointsBefore_snoc (before : List Opcode) (opcode : Opcode) :
    pointsBefore (before ++ [opcode]) = pointsBefore before + (opcodePoints opcode).length := by
  simp [pointsBefore]

theorem rectsBefore_snoc (before : List Opcode) (opcode : Opcode) :
    rectsBefore (before ++ [opcode]) = rectsBefore before + (opcodeRects opcode).length := by
  simp [rectsBefore]

section Packed

variable {opcodes : List Opcode}

/-- The largest end of a slice is the size of the table. -/
theorem extent_packed (hwf : ∀ op ∈ opcodes, op.WellFormed) (hfit : SlicesFit opcodes) :
    extent (·.pointOffset) (·.pointCount) (packRecords opcodes 0 0) = pointsBefore opcodes ∧
      extent (·.rectOffset) (·.rectCount) (packRecords opcodes 0 0) = rectsBefore opcodes := by
  -- The maximum so far is the number of points, or rectangles, packed so far.
  have hloop (after : List Opcode) : ∀ before, opcodes = before ++ after →
      (packRecords after (pointsBefore before) (rectsBefore before)).foldl
          (fun n r => max n (r.pointOffset.toNat + r.pointCount.toNat)) (pointsBefore before) =
        pointsBefore opcodes ∧
      (packRecords after (pointsBefore before) (rectsBefore before)).foldl
          (fun n r => max n (r.rectOffset.toNat + r.rectCount.toNat)) (rectsBefore before) =
        rectsBefore opcodes := by
    induction after with
    | nil =>
      intro before h
      rw [List.append_nil] at h
      rw [h]
      exact ⟨rfl,rfl⟩
    | cons opcode after ih =>
      intro before h
      obtain ⟨hp,hr⟩ := hfit before opcode after h
      have hop := hwf opcode (by simp [h])
      have hnext := ih (before ++ [opcode]) (by simp [h])
      rw [pointsBefore_snoc, rectsBefore_snoc] at hnext
      simp only [packRecords, List.foldl_cons]
      rw [(packRecord_points hop _ _).max_end (fun h => hp (List.ne_nil_of_length_pos (by omega))),
        (packRecord_rects hop _ _).max_end (fun h => hr (List.ne_nil_of_length_pos (by omega)))]
      exact hnext
  exact hloop opcodes [] rfl

theorem packRecords_length : ∀ (opcodes : List Opcode) (points rects : Nat),
    (packRecords opcodes points rects).length = opcodes.length := by
  intro opcodes
  induction opcodes with
  | nil =>
    intro points rects
    rfl
  | cons opcode opcodes ih =>
    intro points rects
    rw [packRecords, List.length_cons, List.length_cons, ih]

/-- Where the parts of the blob stand. -/
def packedTables (opcodes : List Opcode) : Tables where
  records := packRecords opcodes 0 0
  pointsOffset := sizeofHeader + opcodes.length*sizeofRecord
  rectsOffset := sizeofHeader + opcodes.length*sizeofRecord + pointsBefore opcodes*sizeofPoint

theorem packed_rest (opcodes : List Opcode) :
    (packOpcodeList3 opcodes).drop sizeofHeader =
      (packRecords opcodes 0 0).flatMap recordBytes ++
        ((opcodes.flatMap opcodePoints).flatMap pointBytes ++
          (opcodes.flatMap opcodeRects).flatMap rectBytes) := by
  have hheader : sizeofHeader = (le32 (UInt32.ofNat opcodes.length) ++ le32 0).length := rfl
  rw [packOpcodeList3, ← List.append_assoc, hheader, List.drop_left]

theorem packed_points (opcodes : List Opcode) :
    (packOpcodeList3 opcodes).drop (packedTables opcodes).pointsOffset =
      (opcodes.flatMap opcodePoints).flatMap pointBytes ++
        (opcodes.flatMap opcodeRects).flatMap rectBytes := by
  have hrecords : ((packRecords opcodes 0 0).flatMap recordBytes).length =
      opcodes.length*sizeofRecord := by
    rw [loadsRecord.length_flatMap, packRecords_length]
  rw [packedTables, ← List.drop_drop, packed_rest, ← hrecords, List.drop_left]

theorem packed_rects (opcodes : List Opcode) :
    (packOpcodeList3 opcodes).drop (packedTables opcodes).rectsOffset =
      (opcodes.flatMap opcodeRects).flatMap rectBytes ++ [] := by
  have hpoints : ((opcodes.flatMap opcodePoints).flatMap pointBytes).length =
      pointsBefore opcodes*sizeofPoint := codecPoint.length_flatMap _
  have hsplit : (packedTables opcodes).rectsOffset =
      (packedTables opcodes).pointsOffset + pointsBefore opcodes*sizeofPoint := rfl
  rw [hsplit, ← List.drop_drop, packed_points, ← hpoints, List.drop_left, List.append_nil]

theorem packed_length (opcodes : List Opcode) :
    (packOpcodeList3 opcodes).length =
      (packedTables opcodes).rectsOffset + rectsBefore opcodes*sizeofRect := by
  have hrects : ((opcodes.flatMap opcodeRects).flatMap rectBytes).length =
      rectsBefore opcodes*sizeofRect := codecRect.length_flatMap _
  have hpoints : ((opcodes.flatMap opcodePoints).flatMap pointBytes).length =
      pointsBefore opcodes*sizeofPoint := codecPoint.length_flatMap _
  have hrecords : ((packRecords opcodes 0 0).flatMap recordBytes).length =
      opcodes.length*sizeofRecord := by
    rw [loadsRecord.length_flatMap, packRecords_length]
  simp only [packOpcodeList3, List.length_append, hrects, hpoints, hrecords, packedTables,
    codecLE32.length, sizeofHeader]
  omega

/-- The blob is accepted with the tables where they were packed. -/
theorem checkedParamBlob_packed (hlen : opcodes.length < 2^32)
    (hwf : ∀ op ∈ opcodes, op.WellFormed) (hfit : SlicesFit opcodes) :
    checkedParamBlob (packOpcodeList3 opcodes) = .ok (some (packedTables opcodes)) := by
  obtain ⟨hpoints,hrects⟩ := extent_packed hwf hfit
  have hlength := packed_length opcodes
  have hcount : readLE32.run' { bytes := packOpcodeList3 opcodes } =
      .ok (UInt32.ofNat opcodes.length) := by
    rw [StateT.run', (codecLE32.read_append (r := { bytes := packOpcodeList3 opcodes }) rfl).1]
    rfl
  have hrecords : (readMany loadRecord opcodes.length).run'
      { bytes := packOpcodeList3 opcodes, offset := sizeofHeader } =
      .ok (packRecords opcodes 0 0) := by
    have hread := (loadsRecord.many (r := ⟨packOpcodeList3 opcodes,sizeofHeader⟩)
      (packed_rest opcodes)).1
    rw [packRecords_length] at hread
    rw [StateT.run', hread]
    rfl
  simp only [packedTables] at hlength
  unfold checkedParamBlob
  rw [if_neg (by omega), hcount]
  refine bind_ok.mpr ⟨_,rfl,?_⟩
  rw [toNat_ofNat_lt hlen, if_neg (by omega), hrecords]
  refine bind_ok.mpr ⟨_,rfl,?_⟩
  rw [hpoints, hrects, if_neg (by omega)]
  rfl

/-- The points and rectangles read for a record are those of its opcode. -/
theorem record_slices (hwf : ∀ op ∈ opcodes, op.WellFormed) (hfit : SlicesFit opcodes)
    {before after : List Opcode} {opcode : Opcode} (h : opcodes = before ++ opcode :: after) :
    let record := packRecord (pointsBefore before) (rectsBefore before) opcode
    recordPoints (packOpcodeList3 opcodes) (packedTables opcodes) record =
        .ok (opcodePoints opcode) ∧
      recordRects (packOpcodeList3 opcodes) (packedTables opcodes) record =
        .ok (opcodeRects opcode) := by
  intro record
  obtain ⟨hp,hr⟩ := hfit before opcode after h
  have hop := hwf opcode (by simp [h])
  have hpoints := packRecord_points hop (pointsBefore before) (rectsBefore before)
  have hrects := packRecord_rects hop (pointsBefore before) (rectsBefore before)
  constructor
  · unfold recordPoints
    rw [hpoints.size]
    by_cases hnil : opcodePoints opcode = []
    · rw [hnil]
      rfl
    have hstart := hpoints.start (fun h0 => hnil (List.length_eq_zero_iff.mp h0)) (hp hnil)
    have htable : opcodes.flatMap opcodePoints = before.flatMap opcodePoints ++
        (opcodePoints opcode ++ after.flatMap opcodePoints) := by
      simp [h]
    rw [hstart, codecPoint.loads.slice (packed_points opcodes)]
    · rw [htable, pointsBefore, List.drop_left, List.take_left]
    · simp only [htable, List.length_append, pointsBefore]
      omega
  · unfold recordRects
    rw [hrects.size]
    by_cases hnil : opcodeRects opcode = []
    · rw [hnil]
      rfl
    have hstart := hrects.start (fun h0 => hnil (List.length_eq_zero_iff.mp h0)) (hr hnil)
    have htable : opcodes.flatMap opcodeRects = before.flatMap opcodeRects ++
        (opcodeRects opcode ++ after.flatMap opcodeRects) := by
      simp [h]
    rw [hstart, codecRect.loads.slice (packed_rects opcodes)]
    · rw [htable, rectsBefore, List.drop_left, List.take_left]
    · simp only [htable, List.length_append, rectsBefore]
      omega

end Packed

end Cpipe.Nodes.DngOpcodeList3
