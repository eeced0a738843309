import Cpipe.Ingest.OpcodeList2
import Cpipe.Proofs.OpcodeFrames

namespace Cpipe.Ingest.OpcodeList2
open Library.Bytes Library.Ieee

/-! ### The gain map format -/

def GainMap.encodeHeader (m : GainMap) : List UInt8 :=
  be32 m.top ++ (be32 m.left ++ (be32 m.bottom ++ (be32 m.right ++ (be32 m.plane ++
    (be32 m.planes ++ (be32 m.rowPitch ++ (be32 m.colPitch ++ (be32 m.mapPointsV ++
      (be32 m.mapPointsH ++ (m.mapSpacingV.bytes ++ (m.mapSpacingH.bytes ++
        (m.mapOriginV.bytes ++ (m.mapOriginH.bytes ++ be32 m.mapPlanes)))))))))))))

def GainMap.encode (m : GainMap) : List UInt8 :=
  m.encodeHeader ++ m.gain.flatMap Single.bytes

/-- A map inside what version 1 supports, with one gain for each grid point. -/
structure GainMap.Valid (m : GainMap) : Prop where
  points_v : 0 < m.mapPointsV.toNat
  points_h : 0 < m.mapPointsH.toNat
  shape : validRequiredShape m = true
  gains : m.gain.length = m.mapPointsV.toNat*m.mapPointsH.toNat

theorem GainMap.Valid.map_planes {m : GainMap} (h : m.Valid) : m.mapPlanes = 1 := by
  have hs := h.shape
  simp only [validRequiredShape, Bool.and_eq_true, beq_iff_eq] at hs
  exact hs.1.1.1.1.1.1.1.1.2

/-- A map whose gain table has not been read. -/
abbrev Bare := { m : GainMap // m.gain = [] }

theorem codecHeader : ∃ read : Read Bare,
    Codec 76 (fun b => b.1.encodeHeader) read ∧ readGainMapHeader = Subtype.val <$> read := by
  have c := (codecU32.pair (codecU32.pair (codecU32.pair (codecU32.pair (codecU32.pair
    (codecU32.pair (codecU32.pair (codecU32.pair (codecU32.pair (codecU32.pair
      (codecDouble.pair (codecDouble.pair (codecDouble.pair (codecDouble.pair
        codecU32)))))))))))))).xmap
    (fun (a,b,c,d,e,f,g,i,j,k,l,m,n,o,p) =>
      (⟨⟨a,b,c,d,e,f,g,i,j,k,l,m,n,o,p,[]⟩,rfl⟩ : Bare))
    (fun b => (b.1.top,b.1.left,b.1.bottom,b.1.right,b.1.plane,b.1.planes,b.1.rowPitch,
      b.1.colPitch,b.1.mapPointsV,b.1.mapPointsH,b.1.mapSpacingV,b.1.mapSpacingH,
      b.1.mapOriginV,b.1.mapOriginH,b.1.mapPlanes))
    (fun _ => rfl) (by
      intro b
      obtain ⟨m,hm⟩ := b
      cases m
      cases hm
      rfl)
  exact ⟨_,c,by simp only [readGainMapHeader, bind_pure_comp, map_bind, Functor.map_map]⟩

theorem readGainMapHeader_reads {r : Reader} (h : 76 ≤ r.rest.length) :
    ∃ m : GainMap, m.gain = [] ∧ r.rest = m.encodeHeader ++ (r.skip 76).rest ∧
      readGainMapHeader r = .ok (m,r.skip 76) := by
  obtain ⟨read,c,he⟩ := codecHeader
  obtain ⟨b,hb,hm⟩ := c.reads r h
  exact ⟨b.1,b.2,hb,by rw [he, map_read hm]⟩

theorem readGainMapHeader_append {r : Reader} {m : GainMap} {tail : List UInt8}
    (h : r.rest = m.encodeHeader ++ tail) :
    readGainMapHeader r = .ok ({ m with gain := [] },r.skip 76) ∧ (r.skip 76).rest = tail := by
  obtain ⟨read,c,he⟩ := codecHeader
  have hb : r.rest = ({ m with gain := [] } : GainMap).encodeHeader ++ tail := h
  obtain ⟨hm,ht⟩ := c.read_append (v := ⟨{ m with gain := [] },rfl⟩) hb
  exact ⟨by rw [he, map_read hm],ht⟩

theorem GainMap.encodeHeader_length (m : GainMap) : m.encodeHeader.length = 76 := by
  simp only [GainMap.encodeHeader, List.length_append, be32_length, codecDouble.length]

theorem GainMap.encode_length (m : GainMap) : m.encode.length = 76 + m.gain.length*4 := by
  rw [GainMap.encode, List.length_append, m.encodeHeader_length, codecFloat.length_flatMap]

/-! ### The checks -/

theorem gainCount_toNat (m : GainMap) :
    (m.mapPointsV.toUInt64*m.mapPointsH.toUInt64).toNat =
      m.mapPointsV.toNat*m.mapPointsH.toNat := by
  rw [UInt64.toNat_mul, UInt32.toNat_toUInt64, UInt32.toNat_toUInt64]
  apply Nat.mod_eq_of_lt
  have hv := m.mapPointsV.toNat_lt
  have hh := m.mapPointsH.toNat_lt
  calc m.mapPointsV.toNat*m.mapPointsH.toNat
      ≤ (2^32 - 1)*(2^32 - 1) := Nat.mul_le_mul (by omega) (by omega)
    _ < 2^64 := by decide

theorem eq_zero_iff {n : UInt32} : n = 0 ↔ n.toNat = 0 := by
  rw [← UInt32.toNat_inj]
  rfl

/-- With one plane the checked count is the exact number of grid points. -/
theorem checkedGainCount_one {m : GainMap} (h : m.mapPlanes = 1) :
    checkedGainCount m = if m.mapPointsV.toNat = 0 ∨ m.mapPointsH.toNat = 0 then none
      else some (m.mapPointsV.toUInt64*m.mapPointsH.toUInt64) := by
  have hlt := (m.mapPointsV.toUInt64*m.mapPointsH.toUInt64).toNat_lt
  have hprod := gainCount_toNat m
  by_cases hz : m.mapPointsV.toNat = 0 ∨ m.mapPointsH.toNat = 0
  · rw [if_pos hz, checkedGainCount, if_pos]
    rcases hz with hz | hz
    · exact .inl (eq_zero_iff.mpr hz)
    · exact .inr (.inl (eq_zero_iff.mpr hz))
  · have hdiv : m.mapPointsV.toNat ≤ (2^64 - 1) / m.mapPointsH.toNat := by
      rw [Nat.le_div_iff_mul_le (by omega)]
      omega
    have hfirst : ¬ (m.mapPointsV = 0 ∨ m.mapPointsH = 0 ∨ m.mapPlanes = 0 ∨
        (2^64 - 1) / m.mapPointsH.toUInt64.toNat < m.mapPointsV.toUInt64.toNat) := by
      rw [eq_zero_iff, eq_zero_iff, h, UInt32.toNat_toUInt64, UInt32.toNat_toUInt64]
      intro hbad
      rcases hbad with hbad | hbad | hbad | hbad
      · exact hz (.inl hbad)
      · exact hz (.inr hbad)
      · cases hbad
      · omega
    have hone : (UInt32.toUInt64 1).toNat = 1 := rfl
    have hunit : ∀ n : UInt64, n * UInt32.toUInt64 1 = n := UInt64.mul_one
    simp only [checkedGainCount]
    rw [if_neg hz, if_neg hfirst, h, hone, Nat.div_one, if_neg (by omega), hunit]

/-- What parsing one map can come to. -/
inductive Found (params : List UInt8) : Except GainMapParseResult GainMap → Prop
  | map (m : GainMap) (tail : List UInt8) (hm : m.Valid) (h : params = m.encode ++ tail) :
      Found params (.ok m)
  | failed (message : String) : Found params (.error (failed message))
  | unsupported (message : String) : Found params (.error (unsupported message))

theorem parseGainMap_found (params : List UInt8) :
    ∃ found, (parseGainMap params).run' { bytes := params } = .ok found ∧ Found params found := by
  have hk : kGainMapHeaderBytes = 76 := rfl
  unfold parseGainMap
  by_cases h76 : params.length < kGainMapHeaderBytes
  · rw [if_pos h76]
    exact ⟨_,rfl,.failed _⟩
  · rw [if_neg h76]
    obtain ⟨m,_,hrest,hm⟩ := readGainMapHeader_reads (r := { bytes := params }) (by
      rw [Reader.rest_start]
      omega)
    simp only [StateT.run', bind_read hm]
    cases hc : checkedGainCount m with
    | none => exact ⟨_,rfl,.failed _⟩
    | some count =>
      simp only
      by_cases hover : (2^64 - 1 - kGainMapHeaderBytes) / 4 < count.toNat
      · rw [if_pos hover]
        exact ⟨_,rfl,.failed _⟩
      rw [if_neg hover]
      by_cases hsize : params.length < kGainMapHeaderBytes + count.toNat*4
      · rw [if_pos hsize]
        exact ⟨_,rfl,.failed _⟩
      rw [if_neg hsize]
      cases hshape : validRequiredShape m with
      | false => exact ⟨_,rfl,.unsupported _⟩
      | true =>
        obtain ⟨gain,hlen,hgain,hms⟩ := codecFloat.many count.toNat
          (Reader.skip { bytes := params } 76) (by
            rw [Reader.rest_skip, Reader.rest_start, List.length_drop]
            omega)
        simp only [Bool.not_true, Bool.false_eq_true, if_false]
        rw [bind_read hms]
        refine ⟨_,rfl,.map { m with gain }
          (Reader.skip { bytes := params } (76 + count.toNat*4)).rest ?_ ?_⟩
        · have hone : m.mapPlanes = 1 := by
            simp only [validRequiredShape, Bool.and_eq_true, beq_iff_eq] at hshape
            exact hshape.1.1.1.1.1.1.1.1.2
          rw [checkedGainCount_one hone] at hc
          split at hc
          · cases hc
          · rename_i hz
            cases hc
            rw [gainCount_toNat] at hlen
            exact ⟨Nat.pos_of_ne_zero (fun h => hz (.inl h)),
              Nat.pos_of_ne_zero (fun h => hz (.inr h)),hshape,hlen⟩
        · rw [Reader.skip_skip] at hgain
          rw [hgain, Reader.rest_start] at hrest
          rw [GainMap.encode, List.append_assoc]
          exact hrest

/-- A valid map is found wherever its encoding stands in front of a frame's
parameters. -/
theorem parseGainMap_encode {m : GainMap} (h : m.Valid) {params tail : List UInt8}
    (hfits : params.length < 2^32) (hp : params = m.encode ++ tail) :
    (parseGainMap params).run' { bytes := params } = .ok (.ok m) := by
  have hk : kGainMapHeaderBytes = 76 := rfl
  have hlen : params.length = 76 + m.gain.length*4 + tail.length := by
    rw [hp, List.length_append, m.encode_length]
  rw [GainMap.encode, List.append_assoc] at hp
  obtain ⟨hm,hgains⟩ := readGainMapHeader_append (r := { bytes := params }) hp
  obtain ⟨hms,_⟩ := codecFloat.many_append hgains
  have hv := h.points_v
  have hh := h.points_h
  have hcount : checkedGainCount { m with gain := [] } =
      some (m.mapPointsV.toUInt64*m.mapPointsH.toUInt64) := by
    rw [checkedGainCount_one (m := { m with gain := [] }) h.map_planes]
    rw [if_neg (by show ¬ (m.mapPointsV.toNat = 0 ∨ m.mapPointsH.toNat = 0); omega)]
  have hnat : (m.mapPointsV.toUInt64*m.mapPointsH.toUInt64).toNat = m.gain.length := by
    rw [gainCount_toNat, h.gains]
  have hshape : validRequiredShape { m with gain := [] } = true := h.shape
  unfold parseGainMap
  rw [if_neg (by omega)]
  simp only [StateT.run', bind_read hm, hcount]
  rw [hnat, if_neg (by omega), if_neg (by omega), hshape]
  simp only [Bool.not_true, Bool.false_eq_true, if_false]
  rw [bind_read hms]
  rfl

/-! ### The list -/

variable {r : Reader}

/-- What the loop makes of a complete frame. -/
def judge (f : Frame) : Except Fault (Except GainMapParseResult (Option GainMap)) :=
  if f.id ≠ kOpcodeGainMap then
    .ok (.ok none)
  else do
    match ← (parseGainMap f.params).run' { bytes := f.params } with
    | .error result => return .error result
    | .ok map => return .ok (some map)

/-- A frame is skipped, or it carries a map, or it is refused. -/
inductive Verdict (f : Frame) : Except GainMapParseResult (Option GainMap) → Prop
  | skipped (hid : f.id ≠ kOpcodeGainMap) : Verdict f (.ok none)
  | map (hid : f.id = kOpcodeGainMap) (m : GainMap) (tail : List UInt8) (hm : m.Valid)
      (h : f.params = m.encode ++ tail) : Verdict f (.ok (some m))
  | refused (e : GainMapParseResult) (hid : f.id = kOpcodeGainMap) (he : e.status ≠ .ok) :
      Verdict f (.error e)

theorem judge_verdict (f : Frame) : ∃ x, judge f = .ok x ∧ Verdict f x := by
  unfold judge
  by_cases hid : f.id = kOpcodeGainMap
  · rw [if_neg (by simpa using hid)]
    obtain ⟨found,hp,hf⟩ := parseGainMap_found f.params
    rw [hp]
    cases hf with
    | map m tail hm h => exact ⟨_,rfl,.map hid m tail hm h⟩
    | failed message => exact ⟨_,rfl,.refused _ hid (by simp [failed])⟩
    | unsupported message => exact ⟨_,rfl,.refused _ hid (by simp [unsupported])⟩
  · rw [if_pos hid]
    exact ⟨_,rfl,.skipped hid⟩

theorem parseOpcode_framed : parseOpcode = framed
    (.error (failed "OpcodeList2 opcode header truncated"))
    (.error (failed "OpcodeList2 opcode params truncated"))
    (fun id _ _ params => do
      if id ≠ kOpcodeGainMap then
        return .ok none
      else
        match ← (parseGainMap params).run' { bytes := params } with
        | .error result => return .error result
        | .ok map => return .ok (some map)) := rfl

theorem parseOpcode_frame (hw : r.Within) {f : Frame} {tail : List UInt8}
    (h : r.rest = f.encode ++ tail) :
    parseOpcode r = (judge f).map (fun x => (x,r.skip (16 + f.params.length))) := by
  rw [parseOpcode_framed, framed_frame hw h, judge]
  by_cases hid : f.id = kOpcodeGainMap
  · rw [if_neg (by simpa using hid), if_neg (by simpa using hid)]
    obtain ⟨found,hf,_⟩ := parseGainMap_found f.params
    rw [hf]
    cases found <;> rfl
  · rw [if_pos hid, if_pos hid]
    rfl

/-- The verdict on a frame as what the loop appends. -/
abbrev verdict : Frame → Except Fault (Except GainMapParseResult (List GainMap)) :=
  appending judge Option.toList

theorem parseOpcodes_rounds : Rounds (failed "OpcodeList2 opcode header truncated")
    (failed "OpcodeList2 opcode params truncated") verdict
    (fun maps => { status := .ok, gainMaps := maps }) parseOpcodes := by
  apply Rounds.of_framed _ parseOpcode_framed (fun _ _ _ hw h => parseOpcode_frame hw h)
  · exact fun _ _ => rfl
  · intro k acc
    rw [parseOpcodes]
    congr 1
    funext x
    cases x <;> rfl
  · intro f
    obtain ⟨x,hj,_⟩ := judge_verdict f
    exact ⟨x,hj⟩

theorem parseRead_counted (bytes : List UInt8) :
    parseRead bytes = counted { status := .ok } (failed "OpcodeList2 count truncated")
      (fun k => parseOpcodes k []) bytes := rfl

theorem parseGainMaps_eq {bytes : List UInt8} {result : GainMapParseResult} {reader : Reader}
    (h : parseRead bytes { bytes := bytes } = .ok (result,reader)) :
    parseGainMaps bytes = .ok result := by
  rw [parseGainMaps, StateT.run', h]
  rfl

theorem verdict_error_status {f : Frame} {e : GainMapParseResult}
    (h : verdict f = .ok (.error e)) : e.status ≠ .ok := by
  obtain ⟨x,hj,hx⟩ := judge_verdict f
  rw [appending_error h] at hj
  cases hj
  cases hx with
  | refused _ _ he => exact he

/-- The maps of an accepted list are those of its frames. -/
theorem parseGainMaps_accepted {bytes : List UInt8} {result : GainMapParseResult}
    (hp : parseGainMaps bytes = .ok result) (hok : result.status = .ok) :
    (bytes = [] ∧ result = { status := .ok }) ∨
      ∃ items, Judged verdict items ∧ Lists bytes (items.map Prod.fst) ∧
        result = { status := .ok, gainMaps := itemValues items } := by
  obtain ⟨found,reader,hrun,hend⟩ := parseOpcodes_rounds.list_ended bytes
  rw [← parseRead_counted] at hrun
  rw [parseGainMaps_eq hrun] at hp
  cases hp
  by_cases h0 : bytes = []
  · refine .inl ⟨h0,?_⟩
    subst h0
    cases hrun
    rfl
  · refine .inr (hend.lists h0 ?_ ?_ ?_ ?_)
    · intro h
      rw [h] at hok
      cases hok
    · intro h
      rw [h] at hok
      cases hok
    · intro h
      rw [h] at hok
      cases hok
    · intro f hf
      exact verdict_error_status hf hok

/-- The frames a list may hold for the parser to accept it. -/
def Supported (f : Frame) : Prop :=
  f.id = kOpcodeGainMap → ∃ (m : GainMap) (tail : List UInt8), m.Valid ∧ f.params = m.encode ++ tail

theorem judged_of_supported {frames : List Frame} (h : ∀ f ∈ frames, Supported f) :
    ∃ items, Judged verdict items ∧ items.map Prod.fst = frames := by
  induction frames with
  | nil => exact ⟨[],(by intro p hp; cases hp),rfl⟩
  | cons f frames ih =>
    obtain ⟨items,hj,hl⟩ := ih (fun g hg => h g (by simp [hg]))
    have hv : ∃ values, verdict f = .ok (.ok values) := by
      by_cases hid : f.id = kOpcodeGainMap
      · obtain ⟨m,tail,hm,hp⟩ := h f (by simp) hid
        refine ⟨[m],?_⟩
        rw [verdict, appending, judge, if_neg (by simpa using hid),
          parseGainMap_encode hm f.fits hp]
        rfl
      · refine ⟨[],?_⟩
        rw [verdict, appending, judge, if_pos hid]
        rfl
    obtain ⟨values,hv⟩ := hv
    refine ⟨(f,values) :: items,?_,by simp [hl]⟩
    intro p hp
    rcases List.mem_cons.mp hp with rfl | hp
    · exact hv
    · exact hj p hp

/-- A list of supported frames is accepted, whatever its other opcodes are. -/
theorem parseGainMaps_supported {bytes : List UInt8} {frames : List Frame}
    (hl : Lists bytes frames) (h : ∀ f ∈ frames, Supported f) :
    ∃ result, parseGainMaps bytes = .ok result ∧ result.status = .ok := by
  obtain ⟨items,hj,rfl⟩ := judged_of_supported h
  obtain ⟨reader,hrun⟩ := parseOpcodes_rounds.parse_lists hj hl
  refine ⟨_,parseGainMaps_eq (by rw [parseRead_counted]; exact hrun),rfl⟩

theorem supported_of_judged {items : List (Item GainMap)} (hj : Judged verdict items) :
    ∀ f ∈ items.map Prod.fst, Supported f := by
  intro f hf hid
  obtain ⟨p,hp,rfl⟩ := List.mem_map.mp hf
  obtain ⟨x,hx,hverdict⟩ := judge_verdict p.1
  obtain ⟨d,hd,_⟩ := appending_ok (hj p hp)
  rw [hd] at hx
  cases hx
  cases hverdict with
  | skipped hne => exact absurd hid hne
  | map _ m tail hm h => exact ⟨m,tail,hm,h⟩

/-- Every map of an accepted list is valid, and its table fits a frame. -/
theorem gainMaps_valid {bytes : List UInt8} {result : GainMapParseResult}
    (hp : parseGainMaps bytes = .ok result) (hok : result.status = .ok) :
    ∀ m ∈ result.gainMaps, m.Valid ∧ 76 + m.gain.length*4 < 2^32 := by
  intro m hm
  rcases parseGainMaps_accepted hp hok with ⟨_,rfl⟩ | ⟨items,hj,_,rfl⟩
  · cases hm
  · obtain ⟨p,hpi,hmp⟩ := List.mem_flatMap.mp hm
    obtain ⟨d,hd,hvalues⟩ := appending_ok (hj p hpi)
    obtain ⟨x,hx,hverdict⟩ := judge_verdict p.1
    rw [hd] at hx
    cases hx
    rw [hvalues] at hmp
    cases hverdict with
    | skipped _ => cases hmp
    | map _ m' tail hm' h =>
      obtain rfl := List.mem_singleton.mp hmp
      refine ⟨hm',?_⟩
      have hfits := p.1.fits
      rw [h, List.length_append, m.encode_length] at hfits
      omega

end Cpipe.Ingest.OpcodeList2
