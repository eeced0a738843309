import Cpipe.Color.IccV44Writer
import Cpipe.Library.Slices
import Mathlib.Data.List.Sort

namespace Cpipe.Color.IccV44Writer
open Library.Bytes Library.Raster Library.Slices
open Library.Checked (bind_ok foldlM_progress mapM_map mapM_mem mapM_range)

variable {base out : List UInt8} {record : TagRecord} {records : List TagRecord}

/-! ### Words -/

theorem toUInt8_masked (v : UInt32) : (v &&& 0xff).toUInt8 = v.toUInt8 := by
  apply UInt8.toNat_inj.mp
  rw [UInt32.toNat_toUInt8, UInt32.toNat_toUInt8, UInt32.toNat_and]
  change (v.toNat &&& (2^8 - 1)) % 2^8 = _
  rw [Nat.and_two_pow_sub_one_eq_mod, Nat.mod_mod]

theorem appendU32Be_eq (bytes : List UInt8) (v : UInt32) :
    appendU32Be bytes v = bytes ++ be32 v := by
  simp only [appendU32Be, be32, toUInt8_masked]

/-- A word is read where its four bytes stand. -/
theorem readU32Be_of_slice {offset : Nat} {v : UInt32} (h : slice out offset 4 = be32 v) :
    readU32Be out offset = .ok v := by
  have hcell (k : Nat) (hk : k < 4) : out[offset + k]? = (be32 v)[k]? := by
    rw [← h, slice_getElem?, if_pos hk]
  rw [readU32Be, load_ok (hcell 0 (by decide)), load_ok (hcell 1 (by decide)),
    load_ok (hcell 2 (by decide)), load_ok (hcell 3 (by decide))]
  exact congrArg Except.ok (join32_be32 v)

theorem readU32Be_slice {offset : Nat} {v : UInt32} (hlen : offset + 4 ≤ out.length)
    (h : readU32Be out offset = .ok v) : slice out offset 4 = be32 v := by
  obtain ⟨a,b,c,d,hbytes⟩ : ∃ a b c d, slice out offset 4 = [a,b,c,d] := by
    have hfour := slice_length hlen
    exact List.length_eq_four.mp hfour
  have hread := readU32Be_of_slice (hbytes.trans (be32_join32 a b c d).symm)
  rw [h] at hread
  cases hread
  exact hbytes.trans (be32_join32 a b c d).symm

theorem writeU32Be_frame (out : List UInt8) (offset : Nat) (h : offset + 4 ≤ out.length)
    (v : UInt32) : ∃ out', writeU32Be out offset v = .ok out' ∧
      SameOutside offset (offset + 4) out out' ∧ slice out' offset 4 = be32 v := by
  obtain ⟨o1,h1,f1,c1⟩ := store_frame (a := out) (k := offset + 0) (by omega) (v >>> 24).toUInt8
  obtain ⟨o2,h2,f2,c2⟩ := store_frame (a := o1) (k := offset + 1) (by rw [f1.length]; omega)
    (v >>> 16).toUInt8
  obtain ⟨o3,h3,f3,c3⟩ := store_frame (a := o2) (k := offset + 2)
    (by rw [f2.length, f1.length]; omega) (v >>> 8).toUInt8
  obtain ⟨o4,h4,f4,c4⟩ := store_frame (a := o3) (k := offset + 3)
    (by rw [f3.length, f2.length, f1.length]; omega) v.toUInt8
  refine ⟨o4,?_,?_,?_⟩
  · simp only [writeU32Be, toUInt8_masked, h1, h2, h3, h4, bind, Except.bind]
  · exact (((f1.mono (by omega) (by omega)).trans (f2.mono (by omega) (by omega))).trans
      (f3.mono (by omega) (by omega))).trans (f4.mono (by omega) (by omega))
  · have g0 : o4[offset + 0]? = some (v >>> 24).toUInt8 := by
      rw [f4.cell _ (by omega), f3.cell _ (by omega), f2.cell _ (by omega), c1]
    have g1 : o4[offset + 1]? = some (v >>> 16).toUInt8 := by
      rw [f4.cell _ (by omega), f3.cell _ (by omega), c2]
    have g2 : o4[offset + 2]? = some (v >>> 8).toUInt8 := by
      rw [f4.cell _ (by omega), c3]
    apply List.ext_getElem?
    intro k
    rw [slice_getElem?]
    have hk : k = 0 ∨ k = 1 ∨ k = 2 ∨ k = 3 ∨ 4 ≤ k := by omega
    rcases hk with rfl | rfl | rfl | rfl | hk
    · exact g0
    · exact g1
    · exact g2
    · exact c4
    · rw [if_neg (by omega), List.getElem?_eq_none (by simpa using hk)]

/-! ### Reading a profile -/

/-- The payload of a tag in a profile. -/
def payloadOf (profile : List UInt8) (record : TagRecord) : Payload :=
  { signature := record.signature
    bytes := slice profile record.offset.toNat record.size.toNat }

/-- A row of the tag table stands at its place. -/
structure RowAt (profile : List UInt8) (i : Nat) (record : TagRecord) : Prop where
  signature : slice profile (132 + i*12) 4 = be32 record.signature
  offset : slice profile (132 + i*12 + 4) 4 = be32 record.offset
  size : slice profile (132 + i*12 + 8) 4 = be32 record.size

theorem readTagRecord_row {i : Nat} (h : RowAt out i record)
    (hin : record.offset.toNat + record.size.toNat ≤ out.length) :
    readTagRecord out i = .ok record := by
  simp only [readTagRecord, readU32Be_of_slice h.signature, readU32Be_of_slice h.offset,
    readU32Be_of_slice h.size]
  exact if_neg (by omega)

theorem lift_ok {α : Type} {x : Except Fault α} {a : α} (h : x = .ok a) :
    (liftM x : Except Failure α) = .ok a := by
  rw [h]
  rfl

theorem lift_bind {α β : Type} {x : Except Fault α} {a : α} (h : x = .ok a)
    (f : α → Except Failure β) : ((liftM x : Except Failure α) >>= f) = f a := by
  rw [lift_ok h]
  rfl

theorem lift_eq_ok {α : Type} {x : Except Fault α} {a : α}
    (h : (liftM x : Except Failure α) = .ok a) : x = .ok a := by
  cases x with
  | error fault => cases h
  | ok b =>
    cases h
    rfl

theorem readTagRecord_inside {i : Nat} (h : readTagRecord base i = .ok record) :
    record.offset.toNat + record.size.toNat ≤ base.length := by
  unfold readTagRecord at h
  obtain ⟨signature,-,h⟩ := bind_ok.mp h
  obtain ⟨offset,-,h⟩ := bind_ok.mp h
  obtain ⟨size,-,h⟩ := bind_ok.mp h
  dsimp only at h
  split at h
  · cases h
  · cases h
    dsimp only
    omega

/-- What the reader checks of an accepted profile. -/
theorem readTagRecords_checked (h : readTagRecords base = .ok records) :
    132 ≤ base.length ∧ slice base 36 4 = be32 (fourcc 'a' 'c' 's' 'p') ∧
      ∀ r ∈ records, r.offset.toNat + r.size.toNat ≤ base.length := by
  unfold readTagRecords at h
  by_cases hlen : base.length < 132
  · rw [if_pos hlen] at h
    cases h
  rw [if_neg hlen] at h
  obtain ⟨magic,hmagic,h⟩ := bind_ok.mp h
  by_cases hacsp : magic ≠ fourcc 'a' 'c' 's' 'p'
  · rw [if_pos hacsp] at h
    cases h
  rw [if_neg hacsp] at h
  obtain ⟨count,-,h⟩ := bind_ok.mp h
  split at h
  · cases h
  rw [not_not] at hacsp
  subst hacsp
  refine ⟨by omega,readU32Be_slice (by omega) (lift_eq_ok hmagic),fun r hr => ?_⟩
  obtain ⟨i,-,hi⟩ := mapM_mem h hr
  exact readTagRecord_inside hi

/-- A profile is accepted for its length, its magic word and its table. -/
theorem readTagRecords_rows (hlen : 132 + records.length*12 ≤ out.length)
    (hmagic : slice out 36 4 = be32 (fourcc 'a' 'c' 's' 'p'))
    (hcount : slice out 128 4 = be32 (UInt32.ofNat records.length))
    (hfit : records.length < 2^32) (hrows : ∀ i (hi : i < records.length), RowAt out i records[i])
    (hin : ∀ r ∈ records, r.offset.toNat + r.size.toNat ≤ out.length) :
    readTagRecords out = .ok records := by
  have hn : (UInt32.ofNat records.length).toNat = records.length := by
    rw [UInt32.toNat_ofNat']
    omega
  have hread : (List.range records.length).mapM (readTagRecord out) = .ok records :=
    mapM_range fun i hi => readTagRecord_row (hrows i hi) (hin _ (List.getElem_mem hi))
  unfold readTagRecords
  rw [if_neg (by omega), lift_bind (readU32Be_of_slice hmagic), if_neg (not_not.mpr rfl),
    lift_bind (readU32Be_of_slice hcount), hn, if_neg (by omega), hread]

/-! ### Payloads of the base profile -/

theorem basePayloads_eq (h : readTagRecords base = .ok records) :
    basePayloads base records =
      .ok ((records.filter fun r => !replaced r.signature).map (payloadOf base)) := by
  obtain ⟨-,-,hin⟩ := readTagRecords_checked h
  refine mapM_map fun r hr => ?_
  have hcopy := copyN_slice (hin r (List.mem_of_mem_filter hr))
  rw [basePayload, lift_ok hcopy]
  rfl

/-! ### Layout -/

theorem pad_eq : ∀ n (bytes : List UInt8), ∃ k, pad n bytes = bytes ++ List.replicate k 0 := by
  intro n
  induction n with
  | zero =>
    intro bytes
    exact ⟨0,by simp [pad]⟩
  | succ n ih =>
    intro bytes
    rw [pad]
    split_ifs with h
    · obtain ⟨k,hk⟩ := ih (bytes ++ [0])
      exact ⟨k + 1,by rw [hk, List.append_assoc, List.replicate_succ]; rfl⟩
    · exact ⟨0,by simp⟩

/-- The loop has stopped by itself after three rounds. -/
theorem pad_aligned : ∀ n (bytes : List UInt8), (4 - bytes.length % 4) % 4 ≤ n →
    (pad n bytes).length % 4 = 0 := by
  intro n
  induction n with
  | zero =>
    intro bytes h
    rw [pad]
    omega
  | succ n ih =>
    intro bytes h
    rw [pad]
    split_ifs with hstop
    · refine ih _ ?_
      rw [List.length_append, List.length_singleton]
      omega
    · omega

theorem align4_aligned (bytes : List UInt8) : (align4 bytes).length % 4 = 0 :=
  pad_aligned 3 bytes (by omega)

theorem align4_grows (bytes : List UInt8) : bytes <+: align4 bytes := by
  obtain ⟨k,hk⟩ := pad_eq 3 bytes
  exact ⟨_,hk.symm⟩

/-- A payload stands where its record says. -/
structure Stands (start : Nat) (out : List UInt8) (payload : Payload) (record : TagRecord) :
    Prop where
  payload : payloadOf out record = payload
  aligned : record.offset.toNat % 4 = 0
  after : start ≤ record.offset.toNat
  inside : record.offset.toNat + record.size.toNat ≤ out.length

/-- The payloads so far stand behind the table, one after the other. -/
structure Placed (table : List UInt8) (done : List Payload) (state : List UInt8 × List TagRecord) :
    Prop where
  kept : table <+: state.1
  stands : List.Forall₂ (Stands table.length state.1) done state.2
  ordered : state.2.Pairwise fun a b => a.offset.toNat + a.size.toNat ≤ b.offset.toNat

theorem Stands.grow {start : Nat} {out out' : List UInt8} {payload : Payload}
    (h : Stands start out payload record) (hout : out <+: out') :
    Stands start out' payload record where
  payload := by
    rw [← h.payload, payloadOf, payloadOf, slice_initial hout h.inside]
  aligned := h.aligned
  after := h.after
  inside := h.inside.trans hout.length_le

theorem place_length (state : List UInt8 × List TagRecord) (payload : Payload) :
    state.1.length + payload.bytes.length ≤ (place state payload).1.length := by
  have := (align4_grows state.1).length_le
  simp only [place, List.length_append]
  omega

theorem Placed.place {table : List UInt8} {done : List Payload}
    {state : List UInt8 × List TagRecord} (h : Placed table done state) (payload : Payload)
    (hfit : (IccV44Writer.place state payload).1.length < 2^32) :
    Placed table (done ++ [payload]) (IccV44Writer.place state payload) := by
  have halign := align4_grows state.1
  have hgrow : state.1 <+: (IccV44Writer.place state payload).1 :=
    halign.trans (List.prefix_append _ _)
  simp only [IccV44Writer.place, List.length_append] at hfit
  have hoffset : (UInt32.ofNat (align4 state.1).length).toNat = (align4 state.1).length := by
    rw [UInt32.toNat_ofNat']
    omega
  have hsize : (UInt32.ofNat payload.bytes.length).toNat = payload.bytes.length := by
    rw [UInt32.toNat_ofNat']
    omega
  have hnew : Stands table.length (IccV44Writer.place state payload).1 payload
      ⟨payload.signature,UInt32.ofNat (align4 state.1).length,
        UInt32.ofNat payload.bytes.length⟩ := by
    refine ⟨?_,?_,?_,?_⟩
    · simp only [payloadOf, hoffset, hsize, IccV44Writer.place, slice_append_right]
    · rw [hoffset]
      exact align4_aligned _
    · rw [hoffset]
      exact (h.kept.trans halign).length_le
    · simp only [hoffset, hsize, IccV44Writer.place, List.length_append, le_refl]
  refine ⟨h.kept.trans hgrow,?_,?_⟩
  · exact List.rel_append (h.stands.imp fun _ _ hs => hs.grow hgrow) (.cons hnew .nil)
  · refine List.pairwise_append.mpr ⟨h.ordered,List.pairwise_singleton _ _,fun a ha b hb => ?_⟩
    obtain rfl := List.mem_singleton.mp hb
    obtain ⟨_,-,hstands⟩ := Library.Checked.forall₂_right h.stands ha
    rw [hoffset]
    exact hstands.inside.trans halign.length_le

theorem foldl_place_length (payloads : List Payload) (state : List UInt8 × List TagRecord) :
    state.1.length ≤ (payloads.foldl place state).1.length := by
  induction payloads generalizing state with
  | nil => exact le_refl _
  | cons payload payloads ih =>
    have hplace := place_length state payload
    have hrest := ih (place state payload)
    rw [List.foldl_cons]
    omega

/-- The loop lays out all payloads, as long as the offsets fit their fields. -/
theorem Placed.foldl {table : List UInt8} (payloads : List Payload) :
    ∀ {done : List Payload} {state : List UInt8 × List TagRecord}, Placed table done state →
      (payloads.foldl IccV44Writer.place state).1.length < 2^32 →
        Placed table (done ++ payloads) (payloads.foldl IccV44Writer.place state) := by
  induction payloads with
  | nil =>
    intro done state h _
    simpa using h
  | cons payload payloads ih =>
    intro done state h hfit
    rw [List.foldl_cons] at hfit ⊢
    have hnow := foldl_place_length payloads (IccV44Writer.place state payload)
    have hnext := ih (h.place payload (hnow.trans_lt hfit)) hfit
    rwa [List.append_assoc] at hnext

theorem foldl_place_records (payloads : List Payload) (state : List UInt8 × List TagRecord) :
    (payloads.foldl place state).2.length = state.2.length + payloads.length := by
  induction payloads generalizing state with
  | nil => rfl
  | cons payload payloads ih =>
    rw [List.foldl_cons, ih, place, List.length_append, List.length_singleton, List.length_cons]
    omega

/-! ### Back-patching -/

theorem writeRecord_frame {i : Nat} (out : List UInt8) (hi : i < records.length)
    (h : 132 + i*12 + 12 ≤ out.length) : ∃ out', writeRecord records out i = .ok out' ∧
      SameOutside (132 + i*12) (132 + i*12 + 12) out out' ∧ RowAt out' i records[i] := by
  obtain ⟨o1,h1,f1,s1⟩ := writeU32Be_frame out (132 + i*12) (by omega) records[i].signature
  obtain ⟨o2,h2,f2,s2⟩ := writeU32Be_frame o1 (132 + i*12 + 4)
    (by rw [f1.length]; omega) records[i].offset
  obtain ⟨o3,h3,f3,s3⟩ := writeU32Be_frame o2 (132 + i*12 + 8)
    (by rw [f2.length, f1.length]; omega) records[i].size
  refine ⟨o3,?_,?_,?_,?_,s3⟩
  · have hload : load records i = .ok records[i] := load_ok (List.getElem?_eq_getElem hi)
    rw [writeRecord, lift_bind hload, lift_bind h1, lift_bind h2, lift_ok h3]
  · exact ((f1.mono (by omega) (by omega)).trans (f2.mono (by omega) (by omega))).trans
      (f3.mono (by omega) (by omega))
  · rw [f3.slice (by omega), f2.slice (by omega), s1]
  · rw [f3.slice (by omega), s2]

theorem RowAt.congr {i : Nat} {lo hi : Nat} {out' : List UInt8} (h : RowAt out i record)
    (hframe : SameOutside lo hi out out') (hrow : 132 + i*12 + 12 ≤ lo ∨ hi ≤ 132 + i*12) :
    RowAt out' i record where
  signature := (hframe.slice (by omega)).trans h.signature
  offset := (hframe.slice (by omega)).trans h.offset
  size := (hframe.slice (by omega)).trans h.size

/-- The second loop writes every row into the table. -/
theorem writeRecords_frame (h : 132 + records.length*12 ≤ out.length) :
    ∃ out', (List.range records.length).foldlM (writeRecord records) out = .ok out' ∧
      SameOutside 132 (132 + records.length*12) out out' ∧
      ∀ i (hi : i < records.length), RowAt out' i records[i] := by
  have hstep : ∀ done s i, i ∈ List.range records.length →
      (SameOutside 132 (132 + records.length*12) out s ∧
        ∀ j ∈ done, ∀ hj : j < records.length, RowAt s j records[j]) →
      ∃ s', writeRecord records s i = .ok s' ∧
        SameOutside 132 (132 + records.length*12) out s' ∧
          ∀ j ∈ done ++ [i], ∀ hj : j < records.length, RowAt s' j records[j] := by
    intro done s i hi hs
    obtain ⟨hframe,hrows⟩ := hs
    rw [List.mem_range] at hi
    obtain ⟨s',hs',hframe',hrow⟩ := writeRecord_frame s hi (by rw [hframe.length]; omega)
    refine ⟨s',hs',hframe.trans (hframe'.mono (by omega) (by omega)),fun j hj hlt => ?_⟩
    by_cases hsame : j = i
    · subst hsame
      exact hrow
    · refine (hrows j ((List.mem_append.mp hj).resolve_right fun hj => ?_) hlt).congr hframe'
        (by omega)
      exact hsame (List.mem_singleton.mp hj)
  obtain ⟨out',hout',hframe,hrows⟩ :=
    foldlM_progress _ hstep [] out ⟨.refl out _ _,fun j hj => by cases hj⟩
  exact ⟨out',hout',hframe,fun i hi => hrows i (List.mem_range.mpr hi) hi⟩

/-- The words and bytes of the header that are set after the layout. -/
theorem header_frame (out : List UInt8) (h : 132 ≤ out.length) (v : UInt32) :
    ∃ o0 o1 o2 o3 o4, writeU32Be out 0 v = .ok o0 ∧ store o0 8 0x04 = .ok o1 ∧
      store o1 9 0x40 = .ok o2 ∧ store o2 10 0x00 = .ok o3 ∧ store o3 11 0x00 = .ok o4 ∧
      SameOutside 0 12 out o4 ∧ slice o4 0 4 = be32 v := by
  obtain ⟨o0,h0,f0,s0⟩ := writeU32Be_frame out 0 (by omega) v
  obtain ⟨o1,h1,f1,-⟩ := store_frame (a := o0) (k := 8) (by rw [f0.length]; omega) 0x04
  obtain ⟨o2,h2,f2,-⟩ := store_frame (a := o1) (k := 9)
    (by rw [f1.length, f0.length]; omega) 0x40
  obtain ⟨o3,h3,f3,-⟩ := store_frame (a := o2) (k := 10)
    (by rw [f2.length, f1.length, f0.length]; omega) 0x00
  obtain ⟨o4,h4,f4,-⟩ := store_frame (a := o3) (k := 11)
    (by rw [f3.length, f2.length, f1.length, f0.length]; omega) 0x00
  have hstores : SameOutside 8 12 o0 o4 :=
    (((f1.mono (by omega) (by omega)).trans (f2.mono (by omega) (by omega))).trans
      (f3.mono (by omega) (by omega))).trans (f4.mono (by omega) (by omega))
  refine ⟨o0,o1,o2,o3,o4,h0,h1,h2,h3,h4,?_,?_⟩
  · exact (f0.mono (by omega) (by omega)).trans (hstores.mono (by omega) (by omega))
  · rw [hstores.slice (by omega), s0]

/-! ### The rebuilt profile -/

theorem tableOf_eq (h : 132 ≤ base.length) (n : Nat) :
    ∃ zeros, tableOf base n = base.take 128 ++ (be32 (UInt32.ofNat n) ++ zeros) ∧
      (tableOf base n).length = 132 + n*12 := by
  have hlen : (base.take 128).length = 128 := by
    rw [List.length_take]
    omega
  refine ⟨List.replicate (132 + n*12 - (base.take 128 ++ be32 (UInt32.ofNat n)).length) 0,?_,?_⟩
  · rw [tableOf, appendU32Be_eq, List.append_assoc]
  · simp only [tableOf, appendU32Be_eq, List.length_append, List.length_replicate, hlen,
      be32_length]
    omega

/-- The header of the base profile and the number of tags. -/
theorem tableOf_words (h : 132 ≤ base.length) (n : Nat) :
    slice (tableOf base n) 36 4 = slice base 36 4 ∧
      slice (tableOf base n) 128 4 = be32 (UInt32.ofNat n) := by
  obtain ⟨zeros,htable,-⟩ := tableOf_eq h n
  have hlen : (base.take 128).length = 128 := by
    rw [List.length_take]
    omega
  rw [htable, ← List.append_assoc]
  constructor
  · rw [List.append_assoc, slice_append_left (by omega), slice_initial ( List.take_prefix 128 base)
      (by omega)]
  · have hword := slice_append_right (base.take 128) (be32 (UInt32.ofNat n))
    rw [hlen, be32_length] at hword
    rw [slice_append_left (by rw [List.length_append, hlen, be32_length]), hword]

/-- The new profile next to the one it is made from. -/
structure Rebuilt (base : List UInt8) (records : List TagRecord) (out : List UInt8)
    (table : List TagRecord) : Prop where
  accepted : readTagRecords out = .ok table
  sorted : table.Pairwise fun a b => a.signature ≤ b.signature
  tags : (table.map (payloadOf out)).Perm
    ((records.filter fun r => !replaced r.signature).map (payloadOf base) ++ newPayloads)
  aligned : ∀ r ∈ table, r.offset.toNat % 4 = 0
  afterTable : ∀ r ∈ table, 132 + table.length*12 ≤ r.offset.toNat
  inside : ∀ r ∈ table, r.offset.toNat + r.size.toNat ≤ out.length
  disjoint : table.Pairwise fun a b => a.offset.toNat + a.size.toNat ≤ b.offset.toNat
  size : ∃ v, readU32Be out 0 = .ok v ∧ v.toNat = out.length

/-- What the back-patching leaves: the size of the file, the rows, and all other bytes. -/
structure Patched (body : List UInt8) (table : List TagRecord) (out : List UInt8) : Prop where
  length : out.length = body.length
  size : slice out 0 4 = be32 (UInt32.ofNat body.length)
  row : ∀ i (hi : i < table.length), RowAt out i table[i]
  kept : ∀ k, 12 ≤ k → k < 132 ∨ 132 + table.length*12 ≤ k → out[k]? = body[k]?

theorem Patched.slice {body : List UInt8} {table : List TagRecord} (h : Patched body table out)
    {offset n : Nat} (hlo : 12 ≤ offset) (hn : offset + n ≤ 132 ∨ 132 + table.length*12 ≤ offset) :
    Library.Slices.slice out offset n = Library.Slices.slice body offset n :=
  slice_congr fun k _ _ => h.kept k (by omega) (by omega)

theorem backPatch_ok {body : List UInt8} {table : List TagRecord}
    (h : 132 + table.length*12 ≤ body.length) :
    ∃ out, backPatch body table = .ok out ∧ Patched body table out := by
  obtain ⟨o0,o1,o2,o3,o4,h0,h1,h2,h3,h4,hheader,hsize⟩ :=
    header_frame body (by omega) (UInt32.ofNat body.length)
  have hroom : 132 + table.length*12 ≤ o4.length := by
    rw [hheader.length]
    exact h
  obtain ⟨out,hout,hrows,hrow⟩ := writeRecords_frame hroom
  refine ⟨out,?_,?_,?_,hrow,fun k h12 hk => ?_⟩
  · rw [backPatch, lift_bind h0, lift_bind h1, lift_bind h2, lift_bind h3, lift_bind h4, hout]
  · exact hrows.length.trans hheader.length
  · rw [hrows.slice (by omega), hsize]
  · rw [hrows.cell k (by omega), hheader.cell k (by omega)]

/-- `bt2020_pq` lays the sorted payloads out and patches the result. -/
theorem bt2020Pq_run (sort : StdSort) (h : readTagRecords base = .ok records) :
    ∃ ordered body table out,
      ordered = sort.run ((records.filter fun r => !replaced r.signature).map (payloadOf base) ++
        newPayloads) ∧
      ordered.foldl place (tableOf base ordered.length,[]) = (body,table) ∧
      bt2020Pq sort base = .ok out ∧ Patched body table out := by
  obtain ⟨hlen,-,-⟩ := readTagRecords_checked h
  generalize hordered : sort.run ((records.filter fun r => !replaced r.signature).map
    (payloadOf base) ++ newPayloads) = ordered
  obtain ⟨zeros,-,htable⟩ := tableOf_eq hlen ordered.length
  have hgrow := foldl_place_length ordered (tableOf base ordered.length,[])
  have hcount := foldl_place_records ordered (tableOf base ordered.length,[])
  cases hfold : ordered.foldl place (tableOf base ordered.length,[]) with
  | mk body table =>
    rw [hfold] at hgrow hcount
    dsimp only at hgrow hcount
    rw [List.length_nil, Nat.zero_add] at hcount
    have hroom : 132 + table.length*12 ≤ body.length := by omega
    obtain ⟨out,hout,hpatched⟩ := backPatch_ok hroom
    refine ⟨ordered,body,table,out,rfl,hfold,?_,hpatched⟩
    simp only [bt2020Pq, h, basePayloads_eq h, bind, Except.bind, hordered, hfold, hout]

theorem Patched.rebuilt {ordered : List Payload} {body : List UInt8} {table : List TagRecord}
    (h : Patched body table out) (hbase : readTagRecords base = .ok records)
    (hplaced : Placed (tableOf base ordered.length) ordered (body,table))
    (hperm : ordered.Perm ((records.filter fun r => !replaced r.signature).map (payloadOf base) ++
      newPayloads))
    (hsorted : ordered.Pairwise fun a b => a.signature ≤ b.signature)
    (hfit : out.length < 2^32) : Rebuilt base records out table := by
  obtain ⟨hlen,hmagic,-⟩ := readTagRecords_checked hbase
  obtain ⟨zeros,htable,htableLen⟩ := tableOf_eq hlen ordered.length
  have hcount := hplaced.stands.length_eq
  have hkept := hplaced.kept
  have hbody := hkept.length_le
  dsimp only at hcount hkept hbody
  have hrange : ∀ r ∈ table, ∃ payload ∈ ordered,
      Stands (tableOf base ordered.length).length body payload r :=
    fun r hr => Library.Checked.forall₂_right hplaced.stands hr
  have hpayload : ∀ r ∈ table, payloadOf out r = payloadOf body r := by
    intro r hr
    obtain ⟨payload,-,hstands⟩ := hrange r hr
    have hafter := hstands.after
    rw [payloadOf, payloadOf, h.slice (by omega) (by omega)]
  have hin : ∀ r ∈ table, r.offset.toNat + r.size.toNat ≤ out.length := by
    intro r hr
    obtain ⟨payload,-,hstands⟩ := hrange r hr
    exact h.length ▸ hstands.inside
  have htags : table.map (payloadOf out) = ordered := by
    rw [List.map_congr_left hpayload]
    have hsame : List.Forall₂ (· = ·) ordered (table.map (payloadOf body)) :=
      List.forall₂_map_right_iff.mpr (hplaced.stands.imp fun _ _ hs => hs.payload.symm)
    rw [List.forall₂_eq_eq_eq] at hsame
    exact hsame.symm
  refine ⟨?_,?_,?_,?_,?_,hin,hplaced.ordered,?_⟩
  · obtain ⟨hword,hnumber⟩ := tableOf_words hlen ordered.length
    have hlength := h.length
    refine readTagRecords_rows (by omega) ?_ ?_ (by omega) h.row hin
    · rw [h.slice (by omega) (by omega), slice_initial hkept (by omega), hword, hmagic]
    · rw [h.slice (by omega) (by omega), slice_initial hkept (by omega), hnumber, hcount]
  · rw [← htags, List.pairwise_map] at hsorted
    exact hsorted
  · rw [htags]
    exact hperm
  · intro r hr
    obtain ⟨payload,-,hstands⟩ := hrange r hr
    exact hstands.aligned
  · intro r hr
    obtain ⟨payload,-,hstands⟩ := hrange r hr
    have hafter := hstands.after
    omega
  · refine ⟨_,readU32Be_of_slice h.size,?_⟩
    rw [UInt32.toNat_ofNat', ← h.length]
    omega

/-- Every profile that is accepted is rebuilt, as long as the new one fits its fields. -/
theorem bt2020Pq_rebuilds (sort : StdSort) (h : readTagRecords base = .ok records) :
    ∃ out, bt2020Pq sort base = .ok out ∧
      (out.length < 2^32 → ∃ table, Rebuilt base records out table) := by
  obtain ⟨ordered,body,table,out,rfl,hfold,hrun,hpatched⟩ := bt2020Pq_run sort h
  refine ⟨out,hrun,fun hfit => ⟨table,?_⟩⟩
  refine hpatched.rebuilt h ?_ (sort.perm _) (sort.sorted _) hfit
  have hstart (table : List UInt8) : Placed table [] (table,[]) :=
    ⟨List.prefix_refl _,.nil,.nil⟩
  have hplaced := Placed.foldl _ (hstart _) (by rwa [hfold, ← hpatched.length])
  rwa [hfold] at hplaced

/-- A sort that keeps the order of equal signatures. -/
def insertionSort : StdSort where
  run := List.insertionSort fun lhs rhs => lhs.signature ≤ rhs.signature
  perm := List.perm_insertionSort _
  sorted payloads := by
    have : Std.Total fun lhs rhs : Payload => lhs.signature ≤ rhs.signature :=
      ⟨fun lhs rhs => UInt32.le_total lhs.signature rhs.signature⟩
    have : IsTrans Payload fun lhs rhs => lhs.signature ≤ rhs.signature :=
      ⟨fun _ _ _ h h' => UInt32.le_trans h h'⟩
    exact List.pairwise_insertionSort _ payloads

/-- A profile with one tag of five bytes and an old `cicp` tag that shares them. -/
def twoTags : List UInt8 :=
  List.replicate 36 0 ++ be32 (fourcc 'a' 'c' 's' 'p') ++ List.replicate 88 0 ++ be32 2 ++
    be32 (fourcc 'd' 'e' 's' 'c') ++ be32 156 ++ be32 5 ++
    be32 (fourcc 'c' 'i' 'c' 'p') ++ be32 156 ++ be32 5 ++ [1,2,3,4,5]

theorem twoTags_rebuilds : ∃ out table, bt2020Pq insertionSort twoTags = .ok out ∧
    out.length < 2^32 ∧ Rebuilt twoTags [⟨fourcc 'd' 'e' 's' 'c',156,5⟩,
      ⟨fourcc 'c' 'i' 'c' 'p',156,5⟩] out table := by
  have hread : readTagRecords twoTags = .ok [⟨fourcc 'd' 'e' 's' 'c',156,5⟩,
      ⟨fourcc 'c' 'i' 'c' 'p',156,5⟩] := by decide +kernel
  have hlength : (bt2020Pq insertionSort twoTags).map List.length = .ok 205 := by decide +kernel
  obtain ⟨out,hout,hrebuilt⟩ := bt2020Pq_rebuilds insertionSort hread
  rw [hout] at hlength
  have hfit : out.length < 2^32 := by
    have := Except.ok.inj hlength
    omega
  obtain ⟨table,htable⟩ := hrebuilt hfit
  exact ⟨out,table,hout,hfit,htable⟩

end Cpipe.Color.IccV44Writer
