import Cpipe.Ingest.OpcodeList3
import Cpipe.Proofs.OpcodeFrames

namespace Cpipe.Ingest.OpcodeList3
open Library.Bytes Library.Ieee

/-! ### The reference encoding -/

def WarpCoefficient.encode (c : WarpCoefficient) : List UInt8 :=
  c.kr0.bytes ++ (c.kr1.bytes ++ (c.kr2.bytes ++ (c.kr3.bytes ++ (c.kt0.bytes ++ c.kt1.bytes))))

def WarpRectilinear.encode (w : WarpRectilinear) : List UInt8 :=
  be32 (UInt32.ofNat w.coefficients.length) ++
    (w.coefficients.flatMap WarpCoefficient.encode ++ (w.cxHat.bytes ++ w.cyHat.bytes))

def FixVignetteRadial.encode (v : FixVignetteRadial) : List UInt8 :=
  v.k[0].bytes ++ (v.k[1].bytes ++ (v.k[2].bytes ++ (v.k[3].bytes ++ (v.k[4].bytes ++
    (v.cxHat.bytes ++ v.cyHat.bytes)))))

def FixBadPixelsConstant.encode (c : FixBadPixelsConstant) : List UInt8 :=
  be32 c.constant ++ be32 c.bayerPhase

def BadPoint.encode (p : BadPoint) : List UInt8 :=
  be32 p.row ++ be32 p.column

def BadRect.encode (b : BadRect) : List UInt8 :=
  be32 b.top ++ (be32 b.left ++ (be32 b.bottom ++ be32 b.right))

def FixBadPixelsList.encode (l : FixBadPixelsList) : List UInt8 :=
  be32 l.bayerPhase ++ (be32 (UInt32.ofNat l.badPoints.length) ++
    (be32 (UInt32.ofNat l.badRects.length) ++
      (l.badPoints.flatMap BadPoint.encode ++ l.badRects.flatMap BadRect.encode)))

def TrimBounds.encode (t : TrimBounds) : List UInt8 :=
  be32 t.top ++ (be32 t.left ++ (be32 t.bottom ++ be32 t.right))

/-- One to four planes. -/
def WarpRectilinear.Planes (w : WarpRectilinear) : Prop :=
  1 ≤ w.coefficients.length ∧ w.coefficients.length ≤ 4

/-- Both counts fit their words. -/
def FixBadPixelsList.Counted (l : FixBadPixelsList) : Prop :=
  l.badPoints.length < 2^32 ∧ l.badRects.length < 2^32

/-- An opcode with its header fields set and no payload read yet. -/
def Opcode.base (rawId version flags : UInt32) (params : List UInt8) : Opcode :=
  { id := opcodeIdFromRaw rawId, rawId, dngVersion := version, flags
    optional := flags &&& kOptionalFlag != 0, rawParams := params }

/-- The opcodes a list can carry: each known one with its own payload, and any
other one that is marked optional. -/
inductive Opcode.Shaped : Opcode → Prop
  | warpRectilinear (version flags : UInt32) (w : WarpRectilinear) (h : w.Planes) :
      Shaped { base 1 version flags w.encode with warpRectilinear := some w }
  | fixVignetteRadial (version flags : UInt32) (v : FixVignetteRadial) :
      Shaped { base 3 version flags v.encode with fixVignetteRadial := some v }
  | fixBadPixelsConstant (version flags : UInt32) (c : FixBadPixelsConstant) :
      Shaped { base 4 version flags c.encode with fixBadPixelsConstant := some c }
  | fixBadPixelsList (version flags : UInt32) (l : FixBadPixelsList) :
      Shaped { base 5 version flags l.encode with fixBadPixelsList := some l }
  | trimBounds (version flags : UInt32) (t : TrimBounds) :
      Shaped { base 6 version flags t.encode with trimBounds := some t }
  | unknown (rawId version flags : UInt32) (params : List UInt8)
      (hid : opcodeIdFromRaw rawId = .unknown) (hflag : flags &&& kOptionalFlag ≠ 0) :
      Shaped (base rawId version flags params)

/-- The parameter bytes, written from the payload and not from `rawParams`. -/
def Opcode.payload (op : Opcode) : List UInt8 :=
  match op.id with
  | .warpRectilinear => (op.warpRectilinear.map WarpRectilinear.encode).getD []
  | .fixVignetteRadial => (op.fixVignetteRadial.map FixVignetteRadial.encode).getD []
  | .fixBadPixelsConstant => (op.fixBadPixelsConstant.map FixBadPixelsConstant.encode).getD []
  | .fixBadPixelsList => (op.fixBadPixelsList.map FixBadPixelsList.encode).getD []
  | .trimBounds => (op.trimBounds.map TrimBounds.encode).getD []
  | .unknown => op.rawParams

structure Opcode.WellFormed (op : Opcode) : Prop where
  shape : op.Shaped
  fits : op.payload.length < 2^32

def Opcode.encode (op : Opcode) : List UInt8 :=
  be32 op.rawId ++ (be32 op.dngVersion ++ (be32 op.flags ++
    (be32 (UInt32.ofNat op.payload.length) ++ op.payload)))

def encode (ops : List Opcode) : List UInt8 :=
  be32 (UInt32.ofNat ops.length) ++ ops.flatMap Opcode.encode

/-- Well-formed opcodes up to one that is unknown and not marked optional. -/
def MandatoryUnknownFirst (bytes : List UInt8) : Prop :=
  ∃ (count : UInt32) (before : List Opcode) (f : Frame) (tail : List UInt8),
    bytes = be32 count ++ (before.flatMap Opcode.encode ++ (f.encode ++ tail)) ∧
      before.length < count.toNat ∧ (∀ op ∈ before, op.WellFormed) ∧
      opcodeIdFromRaw f.id = .unknown ∧ f.optional = false

/-! ### Fixed-width records -/

theorem codecCoefficient : Codec 48 WarpCoefficient.encode readCoefficient := by
  have c := (codecDouble.pair (codecDouble.pair (codecDouble.pair (codecDouble.pair
    (codecDouble.pair codecDouble))))).xmap
      (fun v => WarpCoefficient.mk v.1 v.2.1 v.2.2.1 v.2.2.2.1 v.2.2.2.2.1 v.2.2.2.2.2)
      (fun c => (c.kr0,c.kr1,c.kr2,c.kr3,c.kt0,c.kt1)) (fun _ => rfl) (fun _ => rfl)
  exact c.congr (by simp [readCoefficient])

theorem codecBadPoint : Codec 8 BadPoint.encode readBadPoint := by
  have c := (codecU32.pair codecU32).xmap (fun v => BadPoint.mk v.1 v.2)
    (fun p => (p.row,p.column)) (fun _ => rfl) (fun _ => rfl)
  exact c.congr (by simp [readBadPoint])

theorem codecBadRect : Codec 16 BadRect.encode readBadRect := by
  have c := (codecU32.pair (codecU32.pair (codecU32.pair codecU32))).xmap
    (fun v => BadRect.mk v.1 v.2.1 v.2.2.1 v.2.2.2)
    (fun b => (b.top,b.left,b.bottom,b.right)) (fun _ => rfl) (fun _ => rfl)
  exact c.congr (by simp [readBadRect])

theorem decodesConstant : Decodes (fun _ => True) FixBadPixelsConstant.encode
    (fun params => (parseFixBadPixelsConstant params).run' { bytes := params }) := by
  have c := (codecU32.pair codecU32).xmap (fun v => FixBadPixelsConstant.mk v.1 v.2)
    (fun p => (p.constant,p.bayerPhase)) (fun _ => rfl) (fun _ => rfl)
  apply c.decodes
  intro params
  simp [parseFixBadPixelsConstant]

theorem decodesTrimBounds : Decodes (fun _ => True) TrimBounds.encode
    (fun params => (parseTrimBounds params).run' { bytes := params }) := by
  have c := (codecU32.pair (codecU32.pair (codecU32.pair codecU32))).xmap
    (fun v => TrimBounds.mk v.1 v.2.1 v.2.2.1 v.2.2.2)
    (fun b => (b.top,b.left,b.bottom,b.right)) (fun _ => rfl) (fun _ => rfl)
  apply c.decodes
  intro params
  simp [parseTrimBounds]

theorem decodesVignette : Decodes (fun _ => True) FixVignetteRadial.encode
    (fun params => (parseFixVignetteRadial params).run' { bytes := params }) := by
  have c := (codecDouble.pair (codecDouble.pair (codecDouble.pair (codecDouble.pair
    (codecDouble.pair (codecDouble.pair codecDouble)))))).xmap
      (fun v => FixVignetteRadial.mk #v[v.1,v.2.1,v.2.2.1,v.2.2.2.1,v.2.2.2.2.1]
        v.2.2.2.2.2.1 v.2.2.2.2.2.2)
      (fun p => (p.k[0],p.k[1],p.k[2],p.k[3],p.k[4],p.cxHat,p.cyHat)) (fun _ => rfl) (by
        intro p
        have hk : #v[p.k[0],p.k[1],p.k[2],p.k[3],p.k[4]] = p.k := by
          ext i hi
          match i with
          | 0 | 1 | 2 | 3 | 4 => rfl
        simp [hk])
  apply c.decodes
  intro params
  simp [parseFixVignetteRadial]

/-! ### Payloads with counts -/

theorem WarpRectilinear.encode_length (w : WarpRectilinear) :
    w.encode.length = 4 + w.coefficients.length*48 + 16 := by
  simp only [WarpRectilinear.encode, List.length_append, be32_length,
    codecCoefficient.length_flatMap, codecDouble.length]
  omega

theorem FixBadPixelsList.encode_length (l : FixBadPixelsList) :
    l.encode.length = 12 + l.badPoints.length*8 + l.badRects.length*16 := by
  simp only [FixBadPixelsList.encode, List.length_append, be32_length,
    codecBadPoint.length_flatMap, codecBadRect.length_flatMap]
  omega

theorem FixBadPixelsList.counted (l : FixBadPixelsList) (h : l.encode.length < 2^32) :
    l.Counted := by
  rw [l.encode_length] at h
  exact ⟨by omega,by omega⟩

/-- Sizes of counted lists never reach the limits that are checked. -/
theorem checkedListSize_eq (points rects : UInt32) :
    checkedListSize points rects = some (12 + points.toNat*8 + rects.toNat*16) := by
  have hp := points.toNat_lt
  have hr := rects.toNat_lt
  simp only [checkedListSize]
  rw [if_neg (by omega), if_neg (by omega)]

theorem warp_count_ok {count : UInt32} :
    ¬ (count = 0 ∨ kMaxWarpPlanes < count) ↔ 1 ≤ count.toNat ∧ count.toNat ≤ 4 := by
  have h0 : count = 0 ↔ count.toNat = 0 := by
    rw [← UInt32.toNat_inj]
    rfl
  have h4 : kMaxWarpPlanes < count ↔ 4 < count.toNat := by
    rw [UInt32.lt_iff_toNat_lt]
    rfl
  rw [h0, h4]
  omega

theorem parseWarpRectilinear_sound (params : List UInt8) :
    ∃ found, (parseWarpRectilinear params).run' { bytes := params } = .ok found ∧
      ∀ w, found = some w → w.Planes ∧ params = w.encode := by
  unfold parseWarpRectilinear
  split
  · exact ⟨none,rfl,by simp⟩
  · rename_i h4
    obtain ⟨count,hc,mc⟩ := codecU32.reads { bytes := params } (by simpa using h4)
    simp only [StateT.run', bind_read mc]
    split
    · exact ⟨none,rfl,by simp⟩
    · rename_i hcount
      split
      · exact ⟨none,rfl,by simp⟩
      · rename_i hsize
        have hsize : params.length = 4 + count.toNat*48 + 16 := by omega
        have hleft : ∀ n, (Reader.skip { bytes := params } n).rest.length = params.length - n := by
          intro n
          simp
        obtain ⟨cs,hlen,hcs,mcs⟩ := codecCoefficient.many count.toNat
          (Reader.skip { bytes := params } 4) (by rw [hleft]; omega)
        rw [Reader.skip_skip] at hcs mcs
        obtain ⟨cx,hcx,mcx⟩ := codecDouble.reads
          (Reader.skip { bytes := params } (4 + count.toNat*48)) (by rw [hleft]; omega)
        rw [Reader.skip_skip] at hcx mcx
        obtain ⟨cy,hcy,mcy⟩ := codecDouble.reads
          (Reader.skip { bytes := params } (4 + count.toNat*48 + 8)) (by rw [hleft]; omega)
        rw [bind_read mcs, bind_read mcx, bind_read mcy]
        refine ⟨some ⟨cs,cx,cy⟩,rfl,?_⟩
        intro w hw
        obtain rfl := Option.some.inj hw
        refine ⟨?_,?_⟩
        · simpa [WarpRectilinear.Planes, hlen] using warp_count_ok.mp hcount
        · have hend : (Reader.skip { bytes := params } (4 + count.toNat*48 + 8 + 8)).rest = [] := by
            rw [← List.length_eq_zero_iff, hleft]
            omega
          rw [Reader.skip_skip, hend, List.append_nil] at hcy
          rw [Reader.rest_start, hcs, hcx, hcy] at hc
          rw [hc, WarpRectilinear.encode, ofNat_length_eq hlen]

theorem parseWarpRectilinear_complete (w : WarpRectilinear) (h : w.Planes) :
    (parseWarpRectilinear w.encode).run' { bytes := w.encode } = .ok (some w) := by
  have hlen := w.encode_length
  obtain ⟨h1,h4⟩ := h
  have hcount : (UInt32.ofNat w.coefficients.length).toNat = w.coefficients.length :=
    toNat_ofNat_lt (by omega)
  obtain ⟨mc,hc⟩ := codecU32.read_append (r := { bytes := w.encode }) rfl
  obtain ⟨mcs,hcs⟩ := codecCoefficient.many_append hc
  obtain ⟨mcx,hcx⟩ := codecDouble.read_append hcs
  obtain ⟨mcy,_⟩ := codecDouble.read_append (hcx.trans (List.append_nil _).symm)
  unfold parseWarpRectilinear
  rw [if_neg (by omega)]
  simp only [StateT.run', bind_read mc]
  rw [if_neg (warp_count_ok.mpr (by omega)), if_neg (by omega), hcount]
  rw [bind_read mcs, bind_read mcx, bind_read mcy]
  rfl

theorem parseFixBadPixelsList_sound (params : List UInt8) :
    ∃ found, (parseFixBadPixelsList params).run' { bytes := params } = .ok found ∧
      ∀ l, found = some l → l.Counted ∧ params = l.encode := by
  have hleft : ∀ n, (Reader.skip { bytes := params } n).rest.length = params.length - n := by
    intro n
    simp
  unfold parseFixBadPixelsList
  split
  · exact ⟨none,rfl,by simp⟩
  · rename_i h12
    obtain ⟨phase,hb,mb⟩ := codecU32.reads { bytes := params } (by
      rw [Reader.rest_start]
      omega)
    obtain ⟨np,hp,mp⟩ := codecU32.reads (Reader.skip { bytes := params } 4) (by rw [hleft]; omega)
    rw [Reader.skip_skip] at hp mp
    obtain ⟨nr,hr,mr⟩ := codecU32.reads (Reader.skip { bytes := params } 8) (by rw [hleft]; omega)
    rw [Reader.skip_skip] at hr mr
    simp only [StateT.run']
    rw [bind_read mb, bind_read mp, bind_read mr]
    split
    · exact ⟨none,rfl,by simp⟩
    · rename_i hsize
      have hsize : 12 + np.toNat*8 + nr.toNat*16 = params.length := by
        rw [checkedListSize_eq] at hsize
        simpa using hsize
      obtain ⟨ps,hps,eps,mps⟩ := codecBadPoint.many np.toNat
        (Reader.skip { bytes := params } 12) (by rw [hleft]; omega)
      rw [Reader.skip_skip] at eps mps
      obtain ⟨rs,hrs,ers,mrs⟩ := codecBadRect.many nr.toNat
        (Reader.skip { bytes := params } (12 + np.toNat*8)) (by rw [hleft]; omega)
      rw [bind_read mps, bind_read mrs]
      refine ⟨some ⟨phase,ps,rs⟩,rfl,?_⟩
      intro l hl
      obtain rfl := Option.some.inj hl
      refine ⟨⟨hps ▸ np.toNat_lt,hrs ▸ nr.toNat_lt⟩,?_⟩
      have hend : (Reader.skip { bytes := params } (12 + np.toNat*8 + nr.toNat*16)).rest = [] := by
        rw [← List.length_eq_zero_iff, hleft]
        omega
      rw [Reader.skip_skip, hend, List.append_nil] at ers
      rw [Reader.rest_start, hp, hr, eps, ers] at hb
      rw [hb, FixBadPixelsList.encode, ofNat_length_eq hps, ofNat_length_eq hrs]

theorem parseFixBadPixelsList_complete (l : FixBadPixelsList) (h : l.Counted) :
    (parseFixBadPixelsList l.encode).run' { bytes := l.encode } = .ok (some l) := by
  have hlen := l.encode_length
  have hp := toNat_ofNat_lt h.1
  have hr := toNat_ofNat_lt h.2
  obtain ⟨mb,eb⟩ := codecU32.read_append (r := { bytes := l.encode }) rfl
  obtain ⟨mp,ep⟩ := codecU32.read_append eb
  obtain ⟨mr,er⟩ := codecU32.read_append ep
  obtain ⟨mps,eps⟩ := codecBadPoint.many_append er
  obtain ⟨mrs,_⟩ := codecBadRect.many_append (eps.trans (List.append_nil _).symm)
  unfold parseFixBadPixelsList
  rw [if_neg (by omega)]
  simp only [StateT.run']
  rw [bind_read mb, bind_read mp, bind_read mr, checkedListSize_eq, hp, hr, hlen]
  rw [if_neg (by simp), bind_read mps, bind_read mrs]
  rfl

theorem decodesWarp : Decodes WarpRectilinear.Planes WarpRectilinear.encode
    (fun params => (parseWarpRectilinear params).run' { bytes := params }) :=
  .intro parseWarpRectilinear_sound parseWarpRectilinear_complete

theorem decodesList : Decodes FixBadPixelsList.Counted FixBadPixelsList.encode
    (fun params => (parseFixBadPixelsList params).run' { bytes := params }) :=
  .intro parseFixBadPixelsList_sound parseFixBadPixelsList_complete

/-! ### One opcode -/

/-- `op` is what the bytes of `f` encode. -/
structure Describes (op : Opcode) (f : Frame) : Prop where
  wf : op.WellFormed
  id : op.rawId = f.id
  version : op.dngVersion = f.version
  flags : op.flags = f.flags
  params : op.payload = f.params

theorem Describes.encode {op : Opcode} {f : Frame} (h : Describes op f) :
    op.encode = f.encode := by
  rw [Opcode.encode, Frame.encode, h.id, h.version, h.flags, h.params]
  rfl

def Opcode.WellFormed.frame {op : Opcode} (h : op.WellFormed) : Frame :=
  ⟨op.rawId,op.dngVersion,op.flags,op.payload,h.fits⟩

theorem Opcode.WellFormed.describes {op : Opcode} (h : op.WellFormed) : Describes op h.frame :=
  ⟨h,rfl,rfl,rfl,rfl⟩

/-- A payload parser of one known identifier finds exactly the opcodes that the
frame encodes. -/
theorem known_spec {α : Type} {valid : α → Prop} {enc : α → List UInt8}
    {parse : List UInt8 → Except Fault (Option α)} (hdec : Decodes valid enc parse)
    (raw : UInt32) (put : Opcode → α → Opcode)
    (shape : ∀ version flags v, valid v → (put (.base raw version flags (enc v)) v).Shaped)
    (fields : ∀ version flags v,
      let op := put (.base raw version flags (enc v)) v
      op.rawId = raw ∧ op.dngVersion = version ∧ op.flags = flags ∧ op.payload = enc v)
    (inv : ∀ op : Opcode, op.WellFormed → op.rawId = raw →
      ∃ v, valid v ∧ op = put (.base raw op.dngVersion op.flags (enc v)) v)
    (f : Frame) (hid : f.id = raw) :
    ∃ found, (do
        let v ← parse f.params
        return v.map (put (.base f.id f.version f.flags f.params))) = Except.ok found ∧
      ∀ op, found = some op ↔ Describes op f := by
  subst hid
  obtain ⟨found,hp,hs⟩ := hdec f.params
  refine ⟨found.map (put (.base f.id f.version f.flags f.params)),?_,?_⟩
  · rw [hp]
    rfl
  · intro op
    rw [Option.map_eq_some_iff]
    constructor
    · intro ⟨v,hv,hop⟩
      obtain ⟨hvalid,he⟩ := (hs v).mp hv
      obtain ⟨h1,h2,h3,h4⟩ := fields f.version f.flags v
      rw [he] at hop
      subst hop
      have hfits := f.fits
      rw [he, ← h4] at hfits
      exact ⟨⟨shape f.version f.flags v hvalid,hfits⟩,h1,h2,h3,h4.trans he.symm⟩
    · intro hd
      obtain ⟨v,hvalid,hop⟩ := inv op hd.wf hd.id
      obtain ⟨_,_,_,h4⟩ := fields op.dngVersion op.flags v
      have he : f.params = enc v := by
        rw [← h4, ← hop, hd.params]
      refine ⟨v,(hs v).mpr ⟨hvalid,he⟩,?_⟩
      rw [hop, he, ← hd.version, ← hd.flags]

theorem opcodeIdFromRaw_cases (raw : UInt32) :
    (raw = 1 ∧ opcodeIdFromRaw raw = .warpRectilinear) ∨
    (raw = 3 ∧ opcodeIdFromRaw raw = .fixVignetteRadial) ∨
    (raw = 4 ∧ opcodeIdFromRaw raw = .fixBadPixelsConstant) ∨
    (raw = 5 ∧ opcodeIdFromRaw raw = .fixBadPixelsList) ∨
    (raw = 6 ∧ opcodeIdFromRaw raw = .trimBounds) ∨ opcodeIdFromRaw raw = .unknown := by
  unfold opcodeIdFromRaw
  split_ifs <;> simp_all

theorem parseKnownOpcode_spec (f : Frame) (h : opcodeIdFromRaw f.id ≠ .unknown) :
    ∃ found, parseKnownOpcode f.params (.base f.id f.version f.flags f.params) = .ok found ∧
      ∀ op, found = some op ↔ Describes op f := by
  have hbase : (Opcode.base f.id f.version f.flags f.params).id = opcodeIdFromRaw f.id := rfl
  unfold parseKnownOpcode
  rcases opcodeIdFromRaw_cases f.id with ⟨hid,hk⟩ | ⟨hid,hk⟩ | ⟨hid,hk⟩ | ⟨hid,hk⟩ | ⟨hid,hk⟩ | hk
  · split <;> rename_i heq <;> rw [hbase, hk] at heq <;> cases heq
    apply known_spec decodesWarp 1 (fun op v => { op with warpRectilinear := some v })
      (fun version flags v h => .warpRectilinear version flags v h)
      (fun _ _ _ => ⟨rfl,rfl,rfl,rfl⟩) _ f hid
    intro op hop hraw
    obtain ⟨shape,fits⟩ := hop
    cases shape with
    | warpRectilinear version flags v h => exact ⟨v,h,rfl⟩
    | unknown rawId version flags params hu _ => cases hraw; cases hu
    | _ => cases hraw
  · split <;> rename_i heq <;> rw [hbase, hk] at heq <;> cases heq
    apply known_spec decodesVignette 3 (fun op v => { op with fixVignetteRadial := some v })
      (fun version flags v _ => .fixVignetteRadial version flags v)
      (fun _ _ _ => ⟨rfl,rfl,rfl,rfl⟩) _ f hid
    intro op hop hraw
    obtain ⟨shape,fits⟩ := hop
    cases shape with
    | fixVignetteRadial version flags v => exact ⟨v,trivial,rfl⟩
    | unknown rawId version flags params hu _ => cases hraw; cases hu
    | _ => cases hraw
  · split <;> rename_i heq <;> rw [hbase, hk] at heq <;> cases heq
    apply known_spec decodesConstant 4 (fun op v => { op with fixBadPixelsConstant := some v })
      (fun version flags v _ => .fixBadPixelsConstant version flags v)
      (fun _ _ _ => ⟨rfl,rfl,rfl,rfl⟩) _ f hid
    intro op hop hraw
    obtain ⟨shape,fits⟩ := hop
    cases shape with
    | fixBadPixelsConstant version flags v => exact ⟨v,trivial,rfl⟩
    | unknown rawId version flags params hu _ => cases hraw; cases hu
    | _ => cases hraw
  · split <;> rename_i heq <;> rw [hbase, hk] at heq <;> cases heq
    apply known_spec decodesList 5 (fun op v => { op with fixBadPixelsList := some v })
      (fun version flags v _ => .fixBadPixelsList version flags v)
      (fun _ _ _ => ⟨rfl,rfl,rfl,rfl⟩) _ f hid
    intro op hop hraw
    obtain ⟨shape,fits⟩ := hop
    cases shape with
    | fixBadPixelsList version flags v => exact ⟨v,v.counted fits,rfl⟩
    | unknown rawId version flags params hu _ => cases hraw; cases hu
    | _ => cases hraw
  · split <;> rename_i heq <;> rw [hbase, hk] at heq <;> cases heq
    apply known_spec decodesTrimBounds 6 (fun op v => { op with trimBounds := some v })
      (fun version flags v _ => .trimBounds version flags v)
      (fun _ _ _ => ⟨rfl,rfl,rfl,rfl⟩) _ f hid
    intro op hop hraw
    obtain ⟨shape,fits⟩ := hop
    cases shape with
    | trimBounds version flags v => exact ⟨v,trivial,rfl⟩
    | unknown rawId version flags params hu _ => cases hraw; cases hu
    | _ => cases hraw
  · exact absurd hk h

/-- What the body of the loop makes of a complete frame. -/
def judge (f : Frame) : Except Fault (Except ParseResult Opcode) :=
  if opcodeIdFromRaw f.id = .unknown then
    if !f.optional then
      .ok (.error (unsupported "OpcodeList3 mandatory unknown opcode"))
    else
      .ok (.ok (.base f.id f.version f.flags f.params))
  else do
    match ← parseKnownOpcode f.params (.base f.id f.version f.flags f.params) with
    | none => return .error (failed "OpcodeList3 known opcode params invalid")
    | some opcode => return .ok opcode

/-- A frame is an opcode, a mandatory unknown one, or a known one with invalid
parameters. -/
inductive Verdict (f : Frame) : Except ParseResult Opcode → Prop
  | opcode (op : Opcode) (h : Describes op f) : Verdict f (.ok op)
  | mandatory (hid : opcodeIdFromRaw f.id = .unknown) (hflag : f.optional = false) :
      Verdict f (.error (unsupported "OpcodeList3 mandatory unknown opcode"))
  | invalid (hid : opcodeIdFromRaw f.id ≠ .unknown) (h : ∀ op, ¬ Describes op f) :
      Verdict f (.error (failed "OpcodeList3 known opcode params invalid"))

theorem judge_verdict (f : Frame) : ∃ x, judge f = .ok x ∧ Verdict f x := by
  unfold judge
  split
  · rename_i hid
    cases hflag : f.optional with
    | false => exact ⟨_,rfl,.mandatory hid hflag⟩
    | true =>
      refine ⟨_,rfl,.opcode _ ⟨⟨.unknown f.id f.version f.flags f.params hid ?_,?_⟩,rfl,rfl,rfl,?_⟩⟩
      · simpa [Frame.optional, kOptionalFlag] using hflag
      · simpa [Opcode.payload, Opcode.base, hid] using f.fits
      · simp [Opcode.payload, Opcode.base, hid]
  · rename_i hid
    obtain ⟨found,hp,hs⟩ := parseKnownOpcode_spec f hid
    rw [hp]
    cases found with
    | none =>
      refine ⟨_,rfl,.invalid hid ?_⟩
      intro op hd
      cases (hs op).mpr hd
    | some op => exact ⟨_,rfl,.opcode op ((hs op).mp rfl)⟩

theorem judge_describes {op : Opcode} {f : Frame} (h : Describes op f) :
    judge f = .ok (.ok op) := by
  by_cases hid : opcodeIdFromRaw f.id = .unknown
  · obtain ⟨⟨shape,_⟩,h1,h2,h3,h4⟩ := h
    rw [← h1] at hid
    cases shape with
    | unknown rawId version flags params hu hflag =>
      change rawId = f.id at h1
      change version = f.version at h2
      change flags = f.flags at h3
      have hp : params = f.params := by simpa [Opcode.payload, Opcode.base, hu] using h4
      have hopt : f.optional = true := by simpa [Frame.optional, ← h3, kOptionalFlag] using hflag
      rw [judge, ← h1, if_pos hu, hopt, ← h2, ← h3, ← hp]
      rfl
    | _ => cases hid
  · obtain ⟨found,hp,hs⟩ := parseKnownOpcode_spec f hid
    rw [judge, if_neg hid, hp, (hs op).mpr h]
    rfl

/-! ### The loop -/

variable {r : Reader}

theorem parseOpcode_framed : parseOpcode = framed
    (.error (failed "OpcodeList3 opcode header truncated"))
    (.error (failed "OpcodeList3 opcode params truncated"))
    (fun id version flags params => do
      let opcode := Opcode.base id version flags params
      if opcode.id = .unknown then
        if !opcode.optional then
          return .error (unsupported "OpcodeList3 mandatory unknown opcode")
        else
          return .ok opcode
      else
        match ← parseKnownOpcode params opcode with
        | none => return .error (failed "OpcodeList3 known opcode params invalid")
        | some opcode => return .ok opcode) := rfl

theorem parseOpcode_frame (hw : r.Within) {f : Frame} {tail : List UInt8}
    (h : r.rest = f.encode ++ tail) :
    parseOpcode r = (judge f).map (fun x => (x,r.skip (16 + f.params.length))) := by
  rw [parseOpcode_framed, framed_frame hw h, judge]
  have hopt : (Opcode.base f.id f.version f.flags f.params).optional = f.optional := rfl
  have hbase : (Opcode.base f.id f.version f.flags f.params).id = opcodeIdFromRaw f.id := rfl
  by_cases hid : opcodeIdFromRaw f.id = .unknown
  · rw [if_pos hid, if_pos (hbase.trans hid), hopt]
    cases f.optional <;> rfl
  · rw [if_neg hid, if_neg (hbase ▸ hid)]
    obtain ⟨found,hf,_⟩ := parseKnownOpcode_spec f hid
    rw [hf]
    cases found <;> rfl

/-- The verdict on a frame as what the loop appends. -/
abbrev verdict : Frame → Except Fault (Except ParseResult (List Opcode)) :=
  appending judge (fun op => [op])

theorem refused_cases {f : Frame} {e : ParseResult} (h : verdict f = .ok (.error e)) :
    (e.status = .unsupported ∧ opcodeIdFromRaw f.id = .unknown ∧ f.optional = false) ∨
      e.status = .failed := by
  obtain ⟨x,hj,hx⟩ := judge_verdict f
  rw [appending_error h] at hj
  cases hj
  cases hx with
  | mandatory hid hflag => exact .inl ⟨rfl,hid,hflag⟩
  | invalid _ _ => exact .inr rfl

theorem parseOpcodes_rounds : Rounds (failed "OpcodeList3 opcode header truncated")
    (failed "OpcodeList3 opcode params truncated") verdict
    (fun ops => { status := .ok, opcodes := ops }) parseOpcodes := by
  apply Rounds.of_framed _ parseOpcode_framed (fun _ _ _ hw h => parseOpcode_frame hw h)
  · exact fun _ _ => rfl
  · intro k acc
    rw [parseOpcodes]
    congr 1
    funext x
    cases x <;> rfl
  · intro f
    obtain ⟨x,hj,_⟩ := judge_verdict f
    exact ⟨x,hj⟩

/-- Accepted frames are the encodings of well-formed opcodes. -/
theorem values_of_judged {items : List (Item Opcode)} (hj : Judged verdict items) :
    (∀ op ∈ itemValues items, op.WellFormed) ∧
      (itemValues items).flatMap Opcode.encode = itemBytes items ∧
      (itemValues items).length = items.length := by
  induction items with
  | nil => exact ⟨by simp [itemValues],rfl,rfl⟩
  | cons p items ih =>
    obtain ⟨h1,h2,h3⟩ := ih (fun q hq => hj q (by simp [hq]))
    obtain ⟨op,hop,hp⟩ := appending_ok (hj p (by simp))
    have hd : Describes op p.1 := by
      obtain ⟨x,hx,hjudged⟩ := judge_verdict p.1
      rw [hop] at hx
      cases hx
      cases hjudged with
      | opcode _ hd => exact hd
    have hv : itemValues (p :: items) = op :: itemValues items := by
      rw [itemValues, List.flatMap_cons, hp]
      rfl
    rw [hv]
    refine ⟨?_,?_,?_⟩
    · intro o ho
      rcases List.mem_cons.mp ho with rfl | ho
      · exact hd.wf
      · exact h1 o ho
    · rw [List.flatMap_cons, h2, hd.encode]
      rfl
    · rw [List.length_cons, h3, List.length_cons]

/-- Well-formed opcodes encode to frames that are accepted as these opcodes. -/
theorem judged_of_values {ops : List Opcode} (h : ∀ op ∈ ops, op.WellFormed) :
    ∃ items, Judged verdict items ∧ itemValues items = ops ∧
      itemBytes items = ops.flatMap Opcode.encode ∧ items.length = ops.length := by
  induction ops with
  | nil => exact ⟨[],(by intro p hp; cases hp),rfl,rfl,rfl⟩
  | cons op ops ih =>
    obtain ⟨items,hj,hv,hb,hl⟩ := ih (fun o ho => h o (by simp [ho]))
    have hd := (h op (by simp)).describes
    refine ⟨((h op (by simp)).frame,[op]) :: items,?_,?_,?_,by simp [hl]⟩
    · intro p hp
      rcases List.mem_cons.mp hp with rfl | hp
      · rw [verdict, appending, judge_describes hd]
        rfl
      · exact hj p hp
    · rw [itemValues, List.flatMap_cons, ← itemValues, hv]
      rfl
    · rw [itemBytes, List.flatMap_cons, ← itemBytes, hb, List.flatMap_cons, hd.encode]

/-! ### The whole list -/

theorem parseRead_counted (bytes : List UInt8) :
    parseRead bytes = counted { status := .ok } (failed "OpcodeList3 count truncated")
      (fun k => parseOpcodes k []) bytes := rfl

theorem parseRead_count {bytes tail : List UInt8} {count : UInt32}
    (h : bytes = be32 count ++ tail) :
    parseRead bytes { bytes := bytes } =
        parseOpcodes count.toNat [] (Reader.skip { bytes := bytes } 4) ∧
      (Reader.skip { bytes := bytes } 4).rest = tail ∧
      (Reader.skip { bytes := bytes } 4).Within := by
  rw [parseRead_counted]
  exact counted_count h

theorem parse_encode {ops : List Opcode} (hlen : ops.length < 2^32)
    (hops : ∀ op ∈ ops, op.WellFormed) :
    parse (encode ops) = .ok { status := .ok, opcodes := ops } := by
  have h0 : encode ops = be32 (UInt32.ofNat ops.length) ++ ops.flatMap Opcode.encode := rfl
  obtain ⟨hp,hrest,hw⟩ := parseRead_count h0
  obtain ⟨items,hj,hv,hb,hl⟩ := judged_of_values hops
  rw [← hb] at hrest
  obtain ⟨n,hn,_,_⟩ := parseOpcodes_rounds.walk hj hw (hrest.trans (List.append_nil _).symm) 0 []
  rw [Nat.add_zero, hl, hv] at hn
  rw [parse, StateT.run', hp, toNat_ofNat_lt hlen, hn]
  rfl

theorem parseRead_ended (bytes : List UInt8) :
    ∃ result reader, parseRead bytes { bytes := bytes } = .ok (result,reader) ∧
      ListEnded { status := .ok } (failed "OpcodeList3 count truncated")
        (failed "OpcodeList3 opcode header truncated")
        (failed "OpcodeList3 opcode params truncated") verdict
        (fun ops => { status := .ok, opcodes := ops }) bytes result reader := by
  rw [parseRead_counted]
  exact parseOpcodes_rounds.list_ended bytes

theorem parse_eq {bytes : List UInt8} {result : ParseResult} {reader : Reader}
    (h : parseRead bytes { bytes := bytes } = .ok (result,reader)) : parse bytes = .ok result := by
  rw [parse, StateT.run', h]
  rfl

theorem parse_total (bytes : List UInt8) : ∃ result, parse bytes = .ok result := by
  obtain ⟨result,reader,hp,_⟩ := parseRead_ended bytes
  exact ⟨result,parse_eq hp⟩

theorem encode_consumed {bytes : List UInt8} {result : ParseResult} {reader : Reader}
    (h : bytes ≠ []) (hp : parseRead bytes { bytes := bytes } = .ok (result,reader))
    (hok : result.status = .ok) :
    reader.offset ≤ bytes.length ∧ encode result.opcodes = bytes.take reader.offset := by
  obtain ⟨_,_,hp',hend⟩ := parseRead_ended bytes
  rw [hp'] at hp
  cases hp
  cases hend with
  | empty h0 => exact absurd h0 h
  | truncated => cases hok
  | rounds count tail hc hrest _ _ he =>
    cases he with
    | done items hj hk _ hr hitems =>
      obtain ⟨_,hb,hl⟩ := values_of_judged hj
      have henc : encode (itemValues items) = be32 count ++ itemBytes items := by
        rw [encode, hb, ofNat_length_eq (hl.trans hk)]
      have hoff : reader.offset = (encode (itemValues items)).length := by
        rw [hr, henc, List.length_append, be32_length]
        simp [Reader.skip]
      have hbytes : bytes = encode (itemValues items) ++ reader.rest := by
        rw [henc, List.append_assoc, ← hitems, hrest]
        exact hc
      rw [List.nil_append, hoff, hbytes, List.take_left, List.length_append]
      exact ⟨by omega,rfl⟩
    | refused items hj hk f _ hf =>
      rcases refused_cases hf with ⟨hs,_⟩ | hs
      · rw [hok] at hs
        cases hs
      · rw [hok] at hs
        cases hs
    | short => cases hok
    | cut => cases hok

/-- An accepted list has well-formed opcodes, and fewer than a word can count. -/
theorem parse_wellFormed {bytes : List UInt8} {result : ParseResult}
    (hp : parse bytes = .ok result) (hok : result.status = .ok) :
    (∀ op ∈ result.opcodes, op.WellFormed) ∧ result.opcodes.length < 2^32 := by
  obtain ⟨_,_,hrun,hend⟩ := parseRead_ended bytes
  rw [parse_eq hrun] at hp
  cases hp
  cases hend with
  | empty h0 => exact ⟨by simp,by simp⟩
  | truncated => cases hok
  | rounds count tail hc hrest _ _ he =>
    cases he with
    | done items hj hk _ hr hitems =>
      obtain ⟨hops,_,hl⟩ := values_of_judged hj
      rw [List.nil_append]
      refine ⟨hops,?_⟩
      rw [hl, hk]
      exact count.toNat_lt
    | refused items hj hk f _ hf =>
      rcases refused_cases hf with ⟨hs,_⟩ | hs
      · rw [hok] at hs
        cases hs
      · rw [hok] at hs
        cases hs
    | short => cases hok
    | cut => cases hok

theorem unsupported_iff {bytes : List UInt8} {result : ParseResult}
    (hp : parse bytes = .ok result) :
    result.status = .unsupported ↔ MandatoryUnknownFirst bytes := by
  constructor
  · intro hu
    obtain ⟨_,_,hp',hend⟩ := parseRead_ended bytes
    rw [parse_eq hp'] at hp
    cases hp
    cases hend with
    | empty => cases hu
    | truncated => cases hu
    | rounds count tail hc hrest _ _ he =>
      cases he with
      | done => cases hu
      | short => cases hu
      | cut => cases hu
      | refused items hj hk f _ hf tail' hitems =>
        obtain ⟨hops,hb,hl⟩ := values_of_judged hj
        rcases refused_cases hf with ⟨_,hid,hflag⟩ | hs
        · refine ⟨count,itemValues items,f,tail',?_,hl ▸ hk,hops,hid,hflag⟩
          rw [hb, ← hitems, hrest]
          exact hc
        · rw [hu] at hs
          cases hs
  · intro ⟨count,before,f,tail,hb,hk,hops,hid,hflag⟩
    obtain ⟨hc,hrest,hw⟩ := parseRead_count hb
    obtain ⟨items,hj,hv,hbytes,hl⟩ := judged_of_values hops
    rw [← hbytes] at hrest
    obtain ⟨k,hk⟩ := Nat.exists_eq_add_of_lt hk
    obtain ⟨n,hn,hwn,hf⟩ := parseOpcodes_rounds.walk hj hw hrest (k+1) []
    have hverdict : verdict f =
        .ok (.error (unsupported "OpcodeList3 mandatory unknown opcode")) := by
      rw [verdict, appending, judge, if_pos hid, hflag]
      rfl
    have hstop := parseOpcodes_rounds.refused k ([] ++ itemValues items) _ f tail _ hwn hf hverdict
    rw [← Nat.add_assoc, hl, ← hk, hstop] at hn
    rw [hn] at hc
    rw [parse_eq hc] at hp
    cases hp
    rfl

/-- The frames of an accepted list were all judged. -/
theorem parse_accepted {bytes : List UInt8} {result : ParseResult}
    (hp : parse bytes = .ok result) (hok : result.status = .ok) (h0 : bytes ≠ []) :
    ∃ items, Judged verdict items ∧ Lists bytes (items.map Prod.fst) := by
  obtain ⟨_,_,hrun,hend⟩ := parseRead_ended bytes
  rw [parse_eq hrun] at hp
  cases hp
  have hne : ∀ r : ParseResult, r.status = .failed → result ≠ r := by
    intro r hr h
    rw [← h, hok] at hr
    cases hr
  obtain ⟨items,hj,hl,_⟩ := hend.lists h0 (hne _ rfl) (hne _ rfl) (hne _ rfl) (by
    intro f hf
    rcases refused_cases hf with ⟨hs,_⟩ | hs
    · rw [hok] at hs
      cases hs
    · exact hne _ hs rfl)
  exact ⟨items,hj,hl⟩

/-- An accepted frame is known or marked optional. -/
theorem known_or_optional {f : Frame} {values : List Opcode} (h : verdict f = .ok (.ok values)) :
    opcodeIdFromRaw f.id ≠ .unknown ∨ f.optional = true := by
  obtain ⟨op,hop,_⟩ := appending_ok h
  by_cases hid : opcodeIdFromRaw f.id = .unknown
  · right
    cases hflag : f.optional with
    | true => rfl
    | false =>
      rw [judge, if_pos hid, hflag] at hop
      cases hop
  · exact .inl hid

/-- The parser inverts the reference encoding, re-encodes to what it consumed,
reads no byte outside its buffers, and reports an unsupported list exactly when
the first problem is an unknown opcode that is not marked optional. -/
theorem parse_codec :
    (∀ ops : List Opcode, ops.length < 2^32 → (∀ op ∈ ops, op.WellFormed) →
      parse (encode ops) = .ok { status := .ok, opcodes := ops }) ∧
    (∀ (bytes : List UInt8) (result : ParseResult) (reader : Reader), bytes ≠ [] →
      (parseRead bytes).run { bytes := bytes } = .ok (result,reader) → result.status = .ok →
      reader.offset ≤ bytes.length ∧ encode result.opcodes = bytes.take reader.offset) ∧
    (∀ bytes, ∃ result, parse bytes = .ok result) ∧
    (∀ (bytes : List UInt8) (result : ParseResult), parse bytes = .ok result →
      (result.status = .unsupported ↔ MandatoryUnknownFirst bytes)) :=
  ⟨fun _ hlen hops => parse_encode hlen hops,fun _ _ _ h hp hok => encode_consumed h hp hok,
    parse_total,fun _ _ hp => unsupported_iff hp⟩

/-- Two points and a rectangle. -/
def repairOpcode : Opcode :=
  { Opcode.base 5 0x01030000 1 (FixBadPixelsList.encode ⟨1,[⟨0,1⟩,⟨3,2⟩],[⟨1,1,3,2⟩]⟩) with
    fixBadPixelsList := some ⟨1,[⟨0,1⟩,⟨3,2⟩],[⟨1,1,3,2⟩]⟩ }

def trimOpcode : Opcode :=
  { Opcode.base 6 0x01030000 0 (TrimBounds.encode ⟨0,0,1,1⟩) with trimBounds := some ⟨0,0,1,1⟩ }

theorem repair_wellFormed : repairOpcode.WellFormed :=
  ⟨.fixBadPixelsList 0x01030000 1 ⟨1,[⟨0,1⟩,⟨3,2⟩],[⟨1,1,3,2⟩]⟩,by decide⟩

theorem trim_wellFormed : trimOpcode.WellFormed := ⟨.trimBounds 0x01030000 0 ⟨0,0,1,1⟩,by decide⟩

/-- A vignette, constant pixels to repair, a list of them, an opcode that may be ignored and a
trim. -/
theorem parse_codec_mixed :
    let vignette : FixVignetteRadial :=
      ⟨#v[⟨0x3FB999999999999A⟩,⟨0⟩,⟨0x8000000000000000⟩,⟨0⟩,⟨0x7FF8000000000000⟩],
        ⟨0x3FE0000000000000⟩,⟨0x3FE0000000000000⟩⟩
    let ops : List Opcode := [
      { Opcode.base 3 0x01030000 0 vignette.encode with fixVignetteRadial := some vignette },
      { Opcode.base 4 0x01030000 0 (FixBadPixelsConstant.encode ⟨7,1⟩) with
        fixBadPixelsConstant := some ⟨7,1⟩ },
      repairOpcode,
      Opcode.base 9 0x01030000 1 [1,2,3],
      trimOpcode]
    parse (encode ops) = .ok { status := .ok, opcodes := ops } := by
  intro vignette ops
  refine parse_codec.1 _ (by simp [ops]) ?_
  simp only [ops, List.forall_mem_cons]
  exact ⟨⟨.fixVignetteRadial 0x01030000 0 vignette,by decide⟩,
    ⟨.fixBadPixelsConstant 0x01030000 0 ⟨7,1⟩,by decide⟩,repair_wellFormed,
    ⟨.unknown 9 0x01030000 1 [1,2,3] (by decide) (by decide),by decide⟩,trim_wellFormed,
    List.forall_mem_nil _⟩

end Cpipe.Ingest.OpcodeList3
