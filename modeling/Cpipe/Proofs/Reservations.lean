import Cpipe.Ingest.Reservations
import Cpipe.Library.Checked
import Cpipe.Proofs.OpcodeList2
import Cpipe.Proofs.OpcodeList3

namespace Cpipe.Ingest.Reservations
open Library.Bytes Library.Requests

/-- A word is read without touching the buffer. -/
theorem readU32_bytes {r r' : Reader} {v : UInt32} (h : readU32 r = .ok (v,r')) :
    r'.bytes = r.bytes := by
  have hfault {α : Type} {f : UInt8 → Read α} {i : Nat} {p : α × Reader}
      (h : ((byteAt r.bytes i : Read UInt8) >>= f) r = .ok p) : ∃ b, f b r = .ok p := by
    cases hb : byteAt r.bytes i with
    | error e =>
      rw [hb] at h
      cases h
    | ok b =>
      rw [lift_read hb] at h
      exact ⟨b,h⟩
  rw [readU32, readQuad, bind_assoc, get_read] at h
  obtain ⟨a,h⟩ := hfault (by simpa only [bind_assoc] using h)
  obtain ⟨b,h⟩ := hfault h
  obtain ⟨c,h⟩ := hfault h
  obtain ⟨d,h⟩ := hfault h
  cases h
  rfl

/-! ### Frames

Both lists go through the same header and differ in what they make of the parameters. -/

section Frames

variable {β : Type}

/-- One round with requests: the header, the bounds of the parameters, then `body`. -/
def framed (short cut : β) (body : UInt32 → UInt32 → UInt32 → List UInt8 → MeteredRead β) :
    MeteredRead β := do
  let reader ← get
  if !reader.canRead 16 then
    return short
  else
    let id ← readU32
    let version ← readU32
    let flags ← readU32
    let size ← readU32
    let reader ← get
    if !reader.canRead size.toNat then
      return cut
    else
      let params := (reader.bytes.drop reader.offset).take size.toNat
      set (reader.skip size.toNat)
      body id version flags params

variable {short cut : β} {body : UInt32 → UInt32 → UInt32 → List UInt8 → MeteredRead β}

theorem erase_framed : erase (framed short cut body) =
    Cpipe.Ingest.framed short cut fun id version flags params =>
      erase (body id version flags params) := by
  simp only [framed, Cpipe.Ingest.framed, erase_bind, erase_get, erase_ite, erase_lift, erase_set,
    erase_pure]

/-- The parameters of a frame are part of the buffer. -/
theorem bounded_framed (r : Reader)
    (h : ∀ id version flags params r', params.length ≤ r.bytes.length → r'.bytes = r.bytes →
      Bounded r.bytes.length (body id version flags params r') fun p => p.2.bytes = r.bytes) :
    Bounded r.bytes.length (framed short cut body r) fun p => p.2.bytes = r.bytes := by
  refine .read (m := get) (P := fun p => p = (r,r)) (.pure rfl) fun _ _ hr => ?_
  cases hr
  refine .iteRead (fun _ => .pure rfl) fun _ => .silent fun id r₁ h₁ => .silent fun version r₂ h₂ =>
    .silent fun flags r₃ h₃ => .silent fun size r₄ h₄ => ?_
  have hbytes : r₄.bytes = r.bytes := by
    rw [readU32_bytes h₄, readU32_bytes h₃, readU32_bytes h₂, readU32_bytes h₁]
  refine .read (m := get) (P := fun p => p = (r₄,r₄)) (.pure rfl) fun _ _ hr => ?_
  cases hr
  refine .iteRead (fun _ => .pure hbytes) fun _ => ?_
  refine .read (m := set _) (P := fun p => p.2 = r₄.skip size.toNat) (.pure rfl) fun _ _ hr => ?_
  cases hr
  refine h _ _ _ _ _ ?_ hbytes
  rw [List.length_take, List.length_drop, hbytes]
  omega

end Frames

/-! ### Opcode list 3 -/

namespace List3
open OpcodeList3 (Opcode ParseResult WarpRectilinear FixBadPixelsList)

theorem erase_parseWarpRectilinear (params : List UInt8) :
    erase (parseWarpRectilinear params) = OpcodeList3.parseWarpRectilinear params := by
  simp [parseWarpRectilinear, OpcodeList3.parseWarpRectilinear]

theorem erase_parseFixBadPixelsList (params : List UInt8) :
    erase (parseFixBadPixelsList params) = OpcodeList3.parseFixBadPixelsList params := by
  simp [parseFixBadPixelsList, OpcodeList3.parseFixBadPixelsList]

theorem result_parseKnownOpcode (params : List UInt8) (opcode : Opcode) :
    (parseKnownOpcode params opcode).result = OpcodeList3.parseKnownOpcode params opcode := by
  unfold parseKnownOpcode
  split
  · rename_i hid
    rw [OpcodeList3.parseKnownOpcode, hid, result_bind, result_run', erase_parseWarpRectilinear]
    rfl
  · rename_i hid
    rw [OpcodeList3.parseKnownOpcode, hid, result_bind, result_run', erase_parseFixBadPixelsList]
    rfl
  · rfl

theorem parseOpcode_framed : parseOpcode = framed
    (.error (OpcodeList3.failed "OpcodeList3 opcode header truncated"))
    (.error (OpcodeList3.failed "OpcodeList3 opcode params truncated"))
    (fun id version flags params => do
      reserve params.length
      let opcode := OpcodeList3.Opcode.base id version flags params
      if opcode.id = .unknown then
        if !opcode.optional then
          return .error (OpcodeList3.unsupported "OpcodeList3 mandatory unknown opcode")
        else
          return .ok opcode
      else
        match ← parseKnownOpcode params opcode with
        | none => return .error (OpcodeList3.failed "OpcodeList3 known opcode params invalid")
        | some opcode => return .ok opcode) := rfl

theorem erase_parseOpcode : erase parseOpcode = OpcodeList3.parseOpcode := by
  rw [parseOpcode_framed, erase_framed, OpcodeList3.parseOpcode_framed]
  congr 1
  funext id version flags params
  simp only [erase_bind, erase_ite, erase_pure, erase_metered, result_reserve,
    result_parseKnownOpcode, liftM_pure, pure_bind]
  refine ite_congr rfl (fun _ => rfl) fun _ => bind_congr fun found => ?_
  cases found with
  | none => rfl
  | some opcode => rfl

theorem erase_parseOpcodes (k : Nat) (opcodes : List Opcode) :
    erase (parseOpcodes k opcodes) = OpcodeList3.parseOpcodes k opcodes := by
  induction k generalizing opcodes with
  | zero => rfl
  | succ k ih =>
    rw [parseOpcodes, OpcodeList3.parseOpcodes, erase_bind, erase_parseOpcode]
    refine bind_congr fun found => ?_
    cases found with
    | error result => rfl
    | ok opcode => exact ih _

theorem result_parse (bytes : List UInt8) : (parse bytes).result = OpcodeList3.parse bytes := by
  have hread : erase (parseRead bytes) = OpcodeList3.parseRead bytes := by
    simp [parseRead, OpcodeList3.parseRead, erase_parseOpcodes]
  rw [parse, OpcodeList3.parse, result_run', hread]

theorem bounded_parseWarpRectilinear (params : List UInt8) (r : Reader) :
    Bounded params.length (parseWarpRectilinear params r) fun _ => True := by
  refine .iteRead (fun _ => .pure trivial) fun _ => .silent fun count _ _ => ?_
  refine .iteRead (fun _ => .pure trivial) fun _ => ?_
  refine .iteRead (fun _ => .pure trivial) fun hsize => ?_
  refine .read (.metered (.reserve (by omega))) fun _ _ _ => ?_
  exact .silent fun _ _ _ => .silent fun _ _ _ => .silent fun _ _ _ => .pure trivial

theorem bounded_parseFixBadPixelsList (params : List UInt8) (r : Reader) :
    Bounded params.length (parseFixBadPixelsList params r) fun _ => True := by
  refine .iteRead (fun _ => .pure trivial) fun _ => .silent fun _ _ _ => .silent fun points _ _ =>
    .silent fun rects _ _ => ?_
  refine .iteRead (fun _ => .pure trivial) fun hsize => ?_
  rw [not_not, OpcodeList3.checkedListSize_eq, Option.some.injEq] at hsize
  refine .read (.metered (.reserve (by omega))) fun _ _ _ => .silent fun _ _ _ => ?_
  refine .read (.metered (.reserve (by omega))) fun _ _ _ => .silent fun _ _ _ => .pure trivial

theorem bounded_parseKnownOpcode (params : List UInt8) (opcode : Opcode) :
    Bounded params.length (parseKnownOpcode params opcode) fun _ => True := by
  unfold parseKnownOpcode
  split
  · exact .bind (.run' (bounded_parseWarpRectilinear params _)) fun _ _ => .pure trivial
  · exact .bind (.run' (bounded_parseFixBadPixelsList params _)) fun _ _ => .pure trivial
  · exact .lift fun _ _ => trivial

theorem bounded_parseOpcode (r : Reader) :
    Bounded r.bytes.length (parseOpcode r) fun p => p.2.bytes = r.bytes := by
  rw [parseOpcode_framed]
  refine bounded_framed r fun id version flags params r' hparams hr => ?_
  refine .read (.metered (.reserve hparams)) fun _ _ hr' => ?_
  cases hr'
  refine .iteRead (fun _ => .iteRead (fun _ => .pure hr) fun _ => .pure hr) fun _ => ?_
  refine .read (.metered ((bounded_parseKnownOpcode _ _).mono hparams)) fun found _ hr' => ?_
  cases hr'
  cases found with
  | none => exact .pure hr
  | some opcode => exact .pure hr

theorem bounded_parseOpcodes {bytes : List UInt8} (k : Nat) (opcodes : List Opcode) (r : Reader)
    (h : r.bytes = bytes) : Bounded bytes.length (parseOpcodes k opcodes r) fun _ => True := by
  induction k generalizing opcodes r with
  | zero => exact .pure trivial
  | succ k ih =>
    rw [← h]
    refine .read (bounded_parseOpcode r) fun found r' hr => ?_
    rw [h]
    cases found with
    | error result => exact .pure trivial
    | ok opcode => exact ih _ _ (hr.trans h)

/-- The number of opcodes the list starts with is not larger than the list. -/
def CountFits (bytes : List UInt8) : Prop :=
  ∀ count tail, bytes = be32 count ++ tail → count.toNat ≤ bytes.length

theorem bounded_parse {bytes : List UInt8} (h : CountFits bytes) :
    Bounded bytes.length (parse bytes) fun _ => True := by
  refine .run' (.iteRead (fun _ => .pure trivial) fun _ => ?_)
  refine .read (m := get) (P := fun p => p = (⟨bytes,0⟩,⟨bytes,0⟩)) (.pure rfl) fun _ _ hr => ?_
  cases hr
  refine .iteRead (fun _ => .pure trivial) fun hread => .silent fun count r hcount => ?_
  rw [Bool.not_eq_true', Bool.not_eq_false, (Reader.within_start bytes).canRead_iff,
    Reader.rest_start] at hread
  obtain ⟨count',hrest,hread⟩ := codecU32.reads ⟨bytes,0⟩ hread
  rw [hread] at hcount
  cases hcount
  refine .read (.metered (.reserve (h count _ hrest))) fun _ _ hr => ?_
  cases hr
  exact bounded_parseOpcodes _ _ _ rfl

/-- Whatever the count, it is asked for. -/
theorem count_requested {bytes tail : List UInt8} {count : UInt32}
    (h : bytes = be32 count ++ tail) : count.toNat ∈ (parse bytes).requests := by
  have hne : bytes ≠ [] := by
    rintro rfl
    cases h
  have hlen : 4 ≤ bytes.length := by
    rw [h, List.length_append, be32_length]
    omega
  have hcan : Reader.canRead ⟨bytes,0⟩ 4 = true :=
    (Reader.within_start bytes).canRead_iff.mpr hlen
  obtain ⟨hread,_⟩ := codecU32.read_append (r := ⟨bytes,0⟩) h
  rw [parse, requests_run']
  unfold parseRead
  rw [if_neg hne, get_metered, if_neg (by simp [hcan]), silent_metered hread, reserve_metered]
  exact List.mem_cons_self

end List3

/-! ### Opcode list 2 -/

namespace List2
open OpcodeList2 (GainMap GainMapParseResult)

theorem erase_parseGainMap (params : List UInt8) :
    erase (parseGainMap params) = OpcodeList2.parseGainMap params := by
  unfold parseGainMap OpcodeList2.parseGainMap
  rw [erase_ite, erase_bind, erase_lift]
  congr 1
  refine bind_congr fun map => ?_
  cases OpcodeList2.checkedGainCount map with
  | none => rfl
  | some gainCount => simp

theorem parseOpcode_framed : parseOpcode = framed
    (.error (OpcodeList2.failed "OpcodeList2 opcode header truncated"))
    (.error (OpcodeList2.failed "OpcodeList2 opcode params truncated"))
    (fun id _ _ params => do
      if id ≠ OpcodeList2.kOpcodeGainMap then
        return .ok none
      else
        match ← (parseGainMap params).run' { bytes := params } with
        | .error result => return .error result
        | .ok map => return .ok (some map)) := rfl

theorem erase_parseOpcode : erase parseOpcode = OpcodeList2.parseOpcode := by
  rw [parseOpcode_framed, erase_framed, OpcodeList2.parseOpcode_framed]
  congr 1
  funext id _ _ params
  simp only [erase_bind, erase_ite, erase_pure, erase_metered, result_run', erase_parseGainMap]
  refine ite_congr rfl (fun _ => rfl) fun _ => ?_
  refine bind_congr fun found => ?_
  cases found with
  | error result => rfl
  | ok map => rfl

theorem erase_parseOpcodes (k : Nat) (maps : List GainMap) :
    erase (parseOpcodes k maps) = OpcodeList2.parseOpcodes k maps := by
  induction k generalizing maps with
  | zero => rfl
  | succ k ih =>
    rw [parseOpcodes, OpcodeList2.parseOpcodes, erase_bind, erase_parseOpcode]
    refine bind_congr fun found => ?_
    cases found with
    | error result => rfl
    | ok map => exact ih _

theorem result_parseGainMaps (bytes : List UInt8) :
    (parseGainMaps bytes).result = OpcodeList2.parseGainMaps bytes := by
  have hread : erase (parseRead bytes) = OpcodeList2.parseRead bytes := by
    simp [parseRead, OpcodeList2.parseRead, erase_parseOpcodes]
  rw [parseGainMaps, OpcodeList2.parseGainMaps, result_run', hread]

theorem bounded_parseGainMap (params : List UInt8) (r : Reader) :
    Bounded params.length (parseGainMap params r) fun _ => True := by
  refine .iteRead (fun _ => .pure trivial) fun _ => .silent fun map _ _ => ?_
  cases OpcodeList2.checkedGainCount map with
  | none => exact .pure trivial
  | some gainCount =>
    refine .iteRead (fun _ => .pure trivial) fun _ => .iteRead (fun _ => .pure trivial) fun hsize =>
      .iteRead (fun _ => .pure trivial) fun _ => ?_
    refine .read (.metered (.reserve (by omega))) fun _ _ _ => .silent fun _ _ _ => .pure trivial

theorem bounded_parseOpcode (r : Reader) :
    Bounded r.bytes.length (parseOpcode r) fun p => p.2.bytes = r.bytes := by
  rw [parseOpcode_framed]
  refine bounded_framed r fun id _ _ params r' hparams hr => ?_
  refine .iteRead (fun _ => .pure hr) fun _ => ?_
  refine .read (.metered (.run' ((bounded_parseGainMap _ _).mono hparams))) fun found _ hr' => ?_
  cases hr'
  cases found with
  | error result => exact .pure hr
  | ok map => exact .pure hr

theorem bounded_parseOpcodes {bytes : List UInt8} (k : Nat) (maps : List GainMap) (r : Reader)
    (h : r.bytes = bytes) : Bounded bytes.length (parseOpcodes k maps r) fun _ => True := by
  induction k generalizing maps r with
  | zero => exact .pure trivial
  | succ k ih =>
    rw [← h]
    refine .read (bounded_parseOpcode r) fun found r' hr => ?_
    rw [h]
    cases found with
    | error result => exact .pure trivial
    | ok map => exact ih _ _ (hr.trans h)

theorem bounded_parseGainMaps (bytes : List UInt8) :
    Bounded bytes.length (parseGainMaps bytes) fun _ => True := by
  refine .run' (.iteRead (fun _ => .pure trivial) fun _ => ?_)
  refine .read (m := get) (P := fun p => p = (⟨bytes,0⟩,⟨bytes,0⟩)) (.pure rfl) fun _ _ hr => ?_
  cases hr
  refine .iteRead (fun _ => .pure trivial) fun _ => .silent fun count r hcount => ?_
  exact bounded_parseOpcodes _ _ _ (readU32_bytes hcount)

end List2

/-! ### Tables of the file -/

namespace Tiff
open OpcodeListParser (Entry)

theorem result_entryData (bytes : List UInt8) (entry : Entry) :
    (entryData bytes entry).result = OpcodeListParser.entryData bytes entry := by
  simp [entryData, OpcodeListParser.entryData]

theorem result_readEntries (bytes : List UInt8) (ifdOffset : UInt32) :
    (readEntries bytes ifdOffset).result = OpcodeListParser.readEntries bytes ifdOffset := by
  simp [readEntries, OpcodeListParser.readEntries]

theorem result_u32Values (bytes : List UInt8) (entry : Entry) :
    (u32Values bytes entry).result = OpcodeListParser.u32Values bytes entry := by
  simp [u32Values, OpcodeListParser.u32Values, result_entryData]

theorem result_numericValues (bytes : List UInt8) (entry : Entry) :
    (numericValues bytes entry).result = OpcodeListParser.numericValues bytes entry := by
  simp [numericValues, OpcodeListParser.numericValues, result_entryData, result_u32Values]

/-- The data of an entry are no larger than the file. -/
theorem bounded_entryData (bytes : List UInt8) (entry : Entry) :
    Bounded bytes.length (entryData bytes entry) fun data => data.length ≤ bytes.length := by
  refine .ite (fun _ => .pure (Nat.zero_le _)) fun hsize => ?_
  refine .bind (.reserve (by omega)) fun _ _ => .ite (fun _ => .pure ?_) fun _ =>
    .ite (fun _ => .pure (Nat.zero_le _)) fun _ => .lift fun data hdata => ?_
  · rw [List.length_map, List.length_range]
    omega
  · have := (Library.Checked.mapM_forall₂ hdata).length_eq
    rw [List.length_range] at this
    omega

theorem bounded_readEntries (bytes : List UInt8) (ifdOffset : UInt32) :
    Bounded bytes.length (readEntries bytes ifdOffset) fun _ => True := by
  refine .ite (fun _ => .pure trivial) fun _ => .bind (.lift fun _ _ => trivial) fun count _ => ?_
  refine .ite (fun _ => .pure trivial) fun hrows => .bind (.reserve (by omega)) fun _ _ => ?_
  exact .bind (.lift fun _ _ => trivial) fun _ _ => .pure trivial

/-- As many elements are asked for as the loop appends. -/
theorem bounded_loop {α : Type} {n k : Nat} (h : k ≤ n) (f : Nat → Except Fault α) :
    Bounded n (do reserve k; ((List.range k).mapM f : Except Fault _))
      fun values => values.length ≤ n := by
  refine .bind (.reserve h) fun _ _ => .lift fun values hvalues => ?_
  have hlen := (Library.Checked.mapM_forall₂ hvalues).length_eq
  rw [List.length_range] at hlen
  omega

theorem bounded_u32Values (bytes : List UInt8) (entry : Entry) :
    Bounded bytes.length (u32Values bytes entry) fun values => values.length ≤ bytes.length := by
  refine .bind (bounded_entryData bytes entry) fun data hdata => ?_
  refine .ite (fun _ => .pure (Nat.zero_le _)) fun _ => .ite (fun h => bounded_loop (by omega) _)
    fun _ => .ite (fun h => bounded_loop (by omega) _) fun _ =>
      .ite (fun h => bounded_loop (by omega) _) fun _ => .pure (Nat.zero_le _)

theorem bounded_numericValues (bytes : List UInt8) (entry : Entry) :
    Bounded bytes.length (numericValues bytes entry) fun _ => True := by
  refine .bind (bounded_entryData bytes entry) fun data hdata => ?_
  refine .ite (fun _ => .pure trivial) fun _ => .ite (fun _ => ?_) fun _ =>
    .ite (fun _ => .pure trivial) fun hsize => ?_
  · exact .bind (bounded_u32Values bytes entry) fun values hvalues =>
      .bind (.reserve hvalues) fun _ _ => .pure trivial
  · exact .bind (.reserve (by omega)) fun _ _ => .lift fun _ _ => trivial

end Tiff

/-! ### All of them -/

/-- No size the parsers ask memory for exceeds the number of bytes they are given. -/
structure RequestsFit (bytes : List UInt8) : Prop where
  gainMaps : ∀ k ∈ (List2.parseGainMaps bytes).requests, k ≤ bytes.length
  opcodes : ∀ k ∈ (List3.parse bytes).requests, k ≤ bytes.length
  entryData : ∀ entry, ∀ k ∈ (Tiff.entryData bytes entry).requests, k ≤ bytes.length
  readEntries : ∀ offset, ∀ k ∈ (Tiff.readEntries bytes offset).requests, k ≤ bytes.length
  u32Values : ∀ entry, ∀ k ∈ (Tiff.u32Values bytes entry).requests, k ≤ bytes.length
  numericValues : ∀ entry, ∀ k ∈ (Tiff.numericValues bytes entry).requests, k ≤ bytes.length

/-- Without its requests each metered parser is the parser itself. -/
structure SameResults (bytes : List UInt8) : Prop where
  gainMaps : (List2.parseGainMaps bytes).result = OpcodeList2.parseGainMaps bytes
  opcodes : (List3.parse bytes).result = OpcodeList3.parse bytes
  entryData : ∀ entry, (Tiff.entryData bytes entry).result = OpcodeListParser.entryData bytes entry
  readEntries : ∀ offset,
    (Tiff.readEntries bytes offset).result = OpcodeListParser.readEntries bytes offset
  u32Values : ∀ entry, (Tiff.u32Values bytes entry).result = OpcodeListParser.u32Values bytes entry
  numericValues : ∀ entry,
    (Tiff.numericValues bytes entry).result = OpcodeListParser.numericValues bytes entry

/-- All requests fit except for the count of opcode list 3, which is asked for unchecked. -/
theorem requests_fit_iff (bytes : List UInt8) :
    (RequestsFit bytes ↔ List3.CountFits bytes) ∧ SameResults bytes := by
  refine ⟨?_,List2.result_parseGainMaps bytes,List3.result_parse bytes,Tiff.result_entryData bytes,
    Tiff.result_readEntries bytes,Tiff.result_u32Values bytes,Tiff.result_numericValues bytes⟩
  constructor
  · intro h count tail hbytes
    exact h.opcodes _ (List3.count_requested hbytes)
  · intro h
    exact {
      gainMaps := (List2.bounded_parseGainMaps bytes).requests
      opcodes := (List3.bounded_parse h).requests
      entryData := fun entry => (Tiff.bounded_entryData bytes entry).requests
      readEntries := fun offset => (Tiff.bounded_readEntries bytes offset).requests
      u32Values := fun entry => (Tiff.bounded_u32Values bytes entry).requests
      numericValues := fun entry => (Tiff.bounded_numericValues bytes entry).requests }

/-- Four bytes ask for room for four thousand million opcodes. -/
theorem count_unchecked :
    4294967295 ∈ (List3.parse [0xff,0xff,0xff,0xff]).requests ∧
      ¬RequestsFit [0xff,0xff,0xff,0xff] := by
  have hcount : 4294967295 ∈ (List3.parse [0xff,0xff,0xff,0xff]).requests :=
    List3.count_requested (show _ = be32 0xffffffff ++ [] from rfl)
  refine ⟨hcount,?_⟩
  intro h
  have := h.opcodes _ hcount
  simp at this

end Cpipe.Ingest.Reservations
