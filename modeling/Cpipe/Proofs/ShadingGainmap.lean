import Cpipe.Nodes.ShadingGainmap
import Cpipe.Proofs.OpcodeList2
import Mathlib.Data.List.Perm.Subperm
import Mathlib.Data.Rat.Floor

namespace Cpipe.Nodes.ShadingGainmap
open Library.Bytes Library.Ieee Ingest.OpcodeList2

/-! ### Samples stay on the grid -/

theorem le_one_iff {n : UInt32} : n ≤ 1 ↔ n.toNat ≤ 1 := UInt32.le_iff_toNat_le

theorem sub_one_toNat {points : UInt32} (h : 0 < points.toNat) :
    (points - 1).toNat = points.toNat - 1 := by
  have hle : (1 : UInt32) ≤ points := UInt32.le_iff_toNat_le.mpr h
  rw [UInt32.toNat_sub_of_le _ _ hle]
  rfl

/-- Both neighbours of a coordinate are grid points. -/
theorem sampleAxis_lt (coord : Rat) {points : UInt32} (h : 0 < points.toNat) :
    (sampleAxis coord points).low.toNat < points.toNat ∧
      (sampleAxis coord points).high.toNat < points.toNat := by
  have hlt := points.toNat_lt
  have hsub := sub_one_toNat h
  unfold sampleAxis
  by_cases h1 : points ≤ 1 ∨ coord ≤ 0
  · rw [if_pos h1]
    exact ⟨h,h⟩
  rw [if_neg h1]
  rw [le_one_iff] at h1
  by_cases h2 : ((points - 1).toNat : Rat) ≤ coord
  · rw [if_pos h2]
    simp only [hsub]
    omega
  · rw [if_neg h2]
    rw [hsub] at h2
    have hfloor : coord.floor < ((points.toNat - 1 : Nat) : Int) := by
      have hle : (coord.floor : Rat) ≤ coord := Rat.floor_le coord
      exact_mod_cast lt_of_le_of_lt hle (not_le.mp h2)
    have hnat : coord.floor.toNat < points.toNat - 1 := by omega
    have hlow : (UInt32.ofNat coord.floor.toNat).toNat = coord.floor.toNat :=
      toNat_ofNat_lt (by omega)
    have hhigh : (UInt32.ofNat coord.floor.toNat + 1).toNat = coord.floor.toNat + 1 := by
      rw [UInt32.toNat_add, hlow]
      exact Nat.mod_eq_of_lt (by
        have : (1 : UInt32).toNat = 1 := rfl
        omega)
    simp only [hlow, hhigh]
    omega

/-- A position in a table of `v` rows and `h` columns, in 32-bit arithmetic. -/
theorem index_eq {v : Nat} {i j stride : UInt32} (hrow : i.toNat < v)
    (hcolumn : j.toNat < stride.toNat) (hfit : v*stride.toNat < 2^32) :
    (i*stride + j).toNat = i.toNat*stride.toNat + j.toNat ∧
      i.toNat*stride.toNat + j.toNat < v*stride.toNat := by
  have hle : i.toNat*stride.toNat + j.toNat < v*stride.toNat := by
    calc i.toNat*stride.toNat + j.toNat < i.toNat*stride.toNat + stride.toNat := by omega
      _ = (i.toNat+1)*stride.toNat := by rw [Nat.succ_mul]
      _ ≤ v*stride.toNat := Nat.mul_le_mul_right _ hrow
  rw [UInt32.toNat_add, UInt32.toNat_mul, Nat.mod_add_mod]
  exact ⟨Nat.mod_eq_of_lt (by omega),hle⟩

theorem index_lt {v : Nat} {i j stride : UInt32} (hrow : i.toNat < v)
    (hcolumn : j.toNat < stride.toNat) (hfit : v*stride.toNat < 2^32) :
    (i*stride + j).toNat < v*stride.toNat := by
  rw [(index_eq hrow hcolumn hfit).1]
  exact (index_eq hrow hcolumn hfit).2

theorem gainIndices_lt {p : GainMapDispatchPlane} (hv : 0 < p.mapPointsV.toNat)
    (hh : 0 < p.mapPointsH.toNat) (hfit : p.mapPointsV.toNat*p.mapPointsH.toNat < 2^32)
    (x y : UInt32) :
    ∀ k ∈ (gainIndices p x y).toList, k.toNat < p.mapPointsV.toNat*p.mapPointsH.toNat := by
  intro k hk
  obtain ⟨hylow,hyhigh⟩ := sampleAxis_lt (gridCoord y p.mapOriginV p.mapSpacingV) hv
  obtain ⟨hxlow,hxhigh⟩ := sampleAxis_lt (gridCoord x p.mapOriginH p.mapSpacingH) hh
  simp only [gainIndices, Vector.toList_mk, List.mem_cons, List.not_mem_nil, or_false] at hk
  rcases hk with rfl | rfl | rfl | rfl
  · exact index_lt hylow hxlow hfit
  · exact index_lt hylow hxhigh hfit
  · exact index_lt hyhigh hxlow hfit
  · exact index_lt hyhigh hxhigh hfit

/-! ### The set of maps -/

/-- One map for all pixels, or four maps with one for each CFA position. -/
def Complete (maps : List GainMap) : Prop :=
  maps.length = 1 ∨ (maps.length = 4 ∧ (maps.map GainMap.plane).Nodup ∧
    ∀ plane < (4 : UInt32), ∃ m ∈ maps, m.plane = plane)

theorem validatePlanes_ok {maps : List GainMap} {seen : List UInt32}
    (h : validatePlanes maps seen = .ok ()) :
    (maps.map GainMap.plane).Nodup ∧ (∀ m ∈ maps, m.plane ∉ seen) ∧ ∀ m ∈ maps, m.plane < 4 := by
  induction maps generalizing seen with
  | nil => exact ⟨List.nodup_nil,by simp,by simp⟩
  | cons m maps ih =>
    unfold validatePlanes at h
    split at h
    · cases h
    · rename_i hm
      rw [not_or, not_or, UInt32.not_le] at hm
      obtain ⟨_,hlt,hseen⟩ := hm
      obtain ⟨hnodup,hnot,hall⟩ := ih h
      refine ⟨?_,?_,?_⟩
      · rw [List.map_cons, List.nodup_cons]
        refine ⟨?_,hnodup⟩
        intro hmem
        obtain ⟨m',hm',he⟩ := List.mem_map.mp hmem
        exact hnot m' hm' (by rw [he]; exact List.mem_cons_self)
      · intro m' hm'
        rcases List.mem_cons.mp hm' with rfl | hm'
        · exact hseen
        · exact fun hs => hnot m' hm' (List.mem_cons_of_mem _ hs)
      · intro m' hm'
        rcases List.mem_cons.mp hm' with rfl | hm'
        · exact hlt
        · exact hall m' hm'

theorem lt_four_iff {plane : UInt32} : plane < 4 ↔ plane ∈ [0,1,2,(3 : UInt32)] := by
  constructor
  · intro h
    have hlt : plane.toNat < 4 := UInt32.lt_iff_toNat_lt.mp h
    have hcases : plane.toNat = 0 ∨ plane.toNat = 1 ∨ plane.toNat = 2 ∨ plane.toNat = 3 := by omega
    simp only [List.mem_cons, List.not_mem_nil, or_false, ← UInt32.toNat_inj]
    exact hcases
  · intro h
    simp only [List.mem_cons, List.not_mem_nil, or_false] at h
    rcases h with rfl | rfl | rfl | rfl <;> decide

theorem validateGainMaps_complete {maps : List GainMap} (h : validateGainMaps maps = .ok ()) :
    Complete maps := by
  unfold validateGainMaps at h
  split at h
  · cases h
  · exact .inl rfl
  · split at h
    · cases h
    · rename_i hlen
      obtain ⟨hnodup,_,hlt⟩ := validatePlanes_ok h
      have hfour : maps.length = 4 := by omega
      -- four different numbers below four are all of them
      have hsub : maps.map GainMap.plane ⊆ [0,1,2,(3 : UInt32)] := by
        intro plane hp
        obtain ⟨m,hm,rfl⟩ := List.mem_map.mp hp
        exact lt_four_iff.mp (hlt m hm)
      have hperm : (maps.map GainMap.plane).Perm [0,1,2,3] := by
        apply (hnodup.subperm hsub).perm_of_length_le
        rw [List.length_map, hfour]
        exact Nat.le_refl 4
      refine .inr ⟨hfour,hnodup,?_⟩
      intro plane hp
      obtain ⟨m,hm,he⟩ := List.mem_map.mp (hperm.mem_iff.mpr (lt_four_iff.mp hp))
      exact ⟨m,hm,he⟩

/-- A CFA position is one of four. -/
theorem cfaPlane_lt (repeat0 repeat1 : UInt8) (x y : UInt32) :
    cfaPlane repeat0 repeat1 x y < 4 := by
  have hand : ∀ n : UInt32, (n &&& 1).toNat < 2 := by
    intro n
    rw [UInt32.toNat_and]
    exact Nat.lt_of_le_of_lt Nat.and_le_right (by decide)
  have hdiv : ∀ n : UInt32, ((n % 4) / 2).toNat < 2 := by
    intro n
    simp only [UInt32.toNat_div, UInt32.toNat_mod, UInt32.reduceToNat]
    omega
  have hsum : ∀ a b : UInt32, a.toNat < 2 → b.toNat < 2 → a*2 + b < 4 := by
    intro a b ha hb
    simp only [UInt32.lt_iff_toNat_lt, UInt32.toNat_add, UInt32.toNat_mul, UInt32.reduceToNat]
    omega
  unfold cfaPlane
  split
  · exact hsum _ _ (hdiv y) (hdiv x)
  · exact hsum _ _ (hand y) (hand x)

/-! ### Packing -/

/-- The number of gains of some maps. -/
def gainTotal (maps : List GainMap) : Nat := (maps.map (fun m => m.gain.length)).sum

@[simp] theorem gainTotal_nil : gainTotal [] = 0 := rfl

@[simp] theorem gainTotal_cons (m : GainMap) (maps : List GainMap) :
    gainTotal (m :: maps) = m.gain.length + gainTotal maps := by
  simp [gainTotal]

theorem gainTotal_append (xs ys : List GainMap) :
    gainTotal (xs ++ ys) = gainTotal xs + gainTotal ys := by
  simp [gainTotal]

/-- Maps whose tables fit a frame each. -/
def Bounded (maps : List GainMap) : Prop := ∀ m ∈ maps, m.Valid ∧ 76 + m.gain.length*4 < 2^32

/-- A complete set has at most four tables, so no sum of offsets leaves 32 bits. -/
theorem gainTotal_lt {maps : List GainMap} (hb : Bounded maps) (hc : Complete maps) :
    gainTotal maps < 2^32 := by
  have hle : ∀ ms : List GainMap, Bounded ms → gainTotal ms ≤ ms.length*(2^30 - 1) := by
    intro ms
    induction ms with
    | nil => intro _; simp
    | cons m ms ih =>
      intro h
      have hm := (h m (by simp)).2
      have hms := ih (fun m' hm' => h m' (by simp [hm']))
      rw [gainTotal_cons, List.length_cons, Nat.succ_mul]
      omega
  have hlen : maps.length ≤ 4 := by
    rcases hc with hc | ⟨hc,_⟩ <;> omega
  have := hle maps hb
  have : maps.length*(2^30 - 1) ≤ 4*(2^30 - 1) := Nat.mul_le_mul_right _ hlen
  omega

/-- The record of each map carries the exact number of gains before its own. -/
theorem packPlanes_eq {maps : List GainMap} {offset : UInt32}
    (h : offset.toNat + gainTotal maps < 2^32) :
    ∀ before m after, maps = before ++ m :: after →
      (packPlanes maps offset)[before.length]? =
        some (packPlane m (UInt32.ofNat (offset.toNat + gainTotal before))) := by
  induction maps generalizing offset with
  | nil =>
    intro before m after he
    cases before <;> cases he
  | cons m' maps ih =>
    intro before m after he
    rw [gainTotal_cons] at h
    cases before with
    | nil =>
      cases he
      simp [packPlanes]
    | cons b before =>
      cases he
      have hnext : (offset + UInt32.ofNat m'.gain.length).toNat =
          offset.toNat + m'.gain.length := by
        rw [UInt32.toNat_add, toNat_ofNat_lt (by omega)]
        exact Nat.mod_eq_of_lt (by omega)
      rw [packPlanes, List.length_cons, List.getElem?_cons_succ]
      rw [ih (by rw [hnext]; omega) before m after rfl, hnext, gainTotal_cons, Nat.add_assoc]

@[simp] theorem packPlanes_length (maps : List GainMap) (offset : UInt32) :
    (packPlanes maps offset).length = maps.length := by
  induction maps generalizing offset with
  | nil => rfl
  | cons m maps ih => simp [packPlanes, ih]

theorem split_at {maps : List GainMap} {i : Nat} (hi : i < maps.length) :
    maps = maps.take i ++ maps[i] :: maps.drop (i+1) := by
  rw [← List.drop_eq_getElem_cons hi, List.take_append_drop]

theorem codecPlane : Codec 72 GainMapDispatchPlane.bytes loadPlane := by
  have c := (codecLE32.pair (codecLE32.pair (codecLE32.pair (codecLE32.pair (codecLE32.pair
    (codecLE32.pair (codecLE32.pair (codecLE32.pair (codecNativeDouble.pair
      (codecNativeDouble.pair (codecNativeDouble.pair (codecNativeDouble.pair
        (codecLE32.pair codecLE32))))))))))))).xmap
    (fun (a,b,c,d,e,f,g,h,i,j,k,l,m,n) => GainMapDispatchPlane.mk a b c d e f g h i j k l m n)
    (fun p => (p.top,p.left,p.bottom,p.right,p.plane,p.planes,p.mapPointsV,p.mapPointsH,
      p.mapSpacingV,p.mapSpacingH,p.mapOriginV,p.mapOriginH,p.gainOffset,p.gainCount))
    (fun _ => rfl) (fun _ => rfl)
  exact c.congr (by simp only [loadPlane, bind_pure_comp, map_bind, Functor.map_map])

section Blob
variable {calibration : CalibrationView} {maps : List GainMap}

/-- The table of gains behind the records. -/
def gainTable (maps : List GainMap) : List UInt8 :=
  maps.flatMap (fun map => map.gain.flatMap Single.native)

theorem gainTable_length (maps : List GainMap) : (gainTable maps).length = gainTotal maps*4 := by
  induction maps with
  | nil => rfl
  | cons m maps ih =>
    rw [gainTable, List.flatMap_cons, List.length_append, ← gainTable, ih,
      codecNativeFloat.length_flatMap, gainTotal_cons, Nat.add_mul]

def blobHeader (calibration : CalibrationView) (maps : List GainMap) : GainMapDispatchHeader :=
  { mapCount := UInt32.ofNat maps.length
    cfaRepeat := calibration.cfaRepeat, cfaPattern := calibration.cfaPattern }

theorem header_length (h : GainMapDispatchHeader) : h.bytes.length = 24 := by
  simp [GainMapDispatchHeader.bytes, codecLE32.length]

theorem packGainMaps_eq : packGainMaps calibration maps =
    (blobHeader calibration maps).bytes ++
      ((packPlanes maps 0).flatMap GainMapDispatchPlane.bytes ++ gainTable maps) := rfl

theorem packGainMaps_length : (packGainMaps calibration maps).length =
    24 + maps.length*72 + gainTotal maps*4 := by
  rw [packGainMaps_eq, List.length_append, List.length_append, header_length,
    codecPlane.length_flatMap, packPlanes_length, gainTable_length, Nat.add_assoc]

theorem loadHeader_blob : loadHeader.run' { bytes := packGainMaps calibration maps } =
    .ok (UInt32.ofNat maps.length,calibration.cfaRepeat[0],calibration.cfaRepeat[1]) := by
  have hr : calibration.cfaRepeat.toList = [calibration.cfaRepeat[0],calibration.cfaRepeat[1]] := by
    apply List.ext_getElem
    · simp
    · intro i h1 h2
      have hi : i < 2 := h2
      match i, hi with
      | 0, _ => simp
      | 1, _ => simp
  have hblob : ∃ tail, packGainMaps calibration maps = le32 (UInt32.ofNat maps.length) ++
      (calibration.cfaRepeat[0] :: calibration.cfaRepeat[1] :: tail) := by
    rw [packGainMaps_eq, GainMapDispatchHeader.bytes, blobHeader, hr]
    exact ⟨_,by simp only [List.append_assoc, List.cons_append, List.nil_append]; rfl⟩
  obtain ⟨tail,hblob⟩ := hblob
  obtain ⟨hm,_⟩ := codecLE32.read_append (r := { bytes := packGainMaps calibration maps }) hblob
  rw [StateT.run', loadHeader, bind_read hm, get_read, hblob]
  rfl

theorem loadPlanes_blob : (readMany loadPlane maps.length).run'
    { bytes := packGainMaps calibration maps, offset := 24 } = .ok (packPlanes maps 0) := by
  have hrest : (Reader.mk (packGainMaps calibration maps) 24).rest =
      (packPlanes maps 0).flatMap GainMapDispatchPlane.bytes ++ gainTable maps := by
    rw [Reader.rest, packGainMaps_eq, List.drop_left' (header_length _)]
  obtain ⟨hm,_⟩ := codecPlane.many_append hrest
  rw [packPlanes_length] at hm
  rw [StateT.run', hm]
  rfl

/-- Each gain of a map is found at its place behind the map's own offset. -/
theorem loadGain_blob {before after : List GainMap} {m : GainMap}
    (h : maps = before ++ m :: after) {k : UInt32} (hk : k.toNat < m.gain.length) :
    loadGain (packGainMaps calibration maps) (24 + maps.length*72 + gainTotal before*4) k =
      .ok m.gain[k.toNat] := by
  have hrest : (Reader.mk (packGainMaps calibration maps)
      (24 + maps.length*72 + gainTotal before*4 + k.toNat*4)).rest =
        m.gain[k.toNat].native ++ ((m.gain.drop (k.toNat+1)).flatMap Single.native ++
          gainTable after) := by
    have htable : gainTable maps = gainTable before ++
        ((m.gain.take k.toNat).flatMap Single.native ++ (m.gain[k.toNat].native ++
          ((m.gain.drop (k.toNat+1)).flatMap Single.native ++ gainTable after))) := by
      have hsplit : m.gain.flatMap Single.native = (m.gain.take k.toNat).flatMap Single.native ++
          (m.gain[k.toNat].native ++ (m.gain.drop (k.toNat+1)).flatMap Single.native) := by
        rw [← List.flatMap_cons, ← List.drop_eq_getElem_cons hk, ← List.flatMap_append,
          List.take_append_drop]
      rw [h, gainTable, List.flatMap_append, List.flatMap_cons, hsplit]
      simp only [gainTable, List.append_assoc]
    have hlen : ((blobHeader calibration maps).bytes ++
        (packPlanes maps 0).flatMap GainMapDispatchPlane.bytes ++ gainTable before ++
          (m.gain.take k.toNat).flatMap Single.native).length =
        24 + maps.length*72 + gainTotal before*4 + k.toNat*4 := by
      simp only [List.length_append, header_length, codecPlane.length_flatMap, packPlanes_length,
        gainTable_length, codecNativeFloat.length_flatMap, List.length_take]
      omega
    have hblob : packGainMaps calibration maps = ((blobHeader calibration maps).bytes ++
        (packPlanes maps 0).flatMap GainMapDispatchPlane.bytes ++ gainTable before ++
          (m.gain.take k.toNat).flatMap Single.native) ++ (m.gain[k.toNat].native ++
        ((m.gain.drop (k.toNat+1)).flatMap Single.native ++ gainTable after)) := by
      rw [packGainMaps_eq, htable]
      simp only [List.append_assoc]
    rw [Reader.rest, hblob, List.drop_left' hlen]
  obtain ⟨hm,_⟩ := codecNativeFloat.read_append hrest
  rw [loadGain, StateT.run', hm]
  rfl

end Blob

/-! ### The kernel on a packed blob -/

/-- What the parser and the check of the set promise about the maps. -/
structure Accepted (maps : List GainMap) : Prop where
  bounded : Bounded maps
  complete : Complete maps

section Kernel
variable {calibration : CalibrationView} {maps : List GainMap} {arith : FloatArith}
  {image : Image}

theorem Accepted.total_lt (h : Accepted maps) : gainTotal maps < 2^32 :=
  gainTotal_lt h.bounded h.complete

theorem Accepted.length_cases (h : Accepted maps) : maps.length = 1 ∨ maps.length = 4 := by
  rcases h.complete with h1 | ⟨h4,_⟩
  · exact .inl h1
  · exact .inr h4

theorem Accepted.count_toNat (h : Accepted maps) :
    (UInt32.ofNat maps.length).toNat = maps.length := by
  apply toNat_ofNat_lt
  rcases h.length_cases with hl | hl <;> omega

/-- The record of a map carries the offset and the size of the map's own slice. -/
structure RecordOf (maps : List GainMap) (i : Nat) (m : GainMap) (p : GainMapDispatchPlane) :
    Prop where
  split : maps = maps.take i ++ m :: maps.drop (i+1)
  valid : m.Valid
  packed : p = packPlane m p.gainOffset
  offset : p.gainOffset.toNat = gainTotal (maps.take i)
  count : p.gainCount.toNat = m.gain.length
  inside : gainTotal (maps.take i) + m.gain.length ≤ gainTotal maps

theorem Accepted.record (h : Accepted maps) {i : Nat} (hi : i < maps.length) :
    ∃ p, (packPlanes maps 0)[i]? = some p ∧ RecordOf maps i maps[i] p := by
  have htotal := h.total_lt
  have hsplit := split_at hi
  have hsum : gainTotal maps =
      gainTotal (maps.take i) + (maps[i].gain.length + gainTotal (maps.drop (i+1))) := by
    rw [← gainTotal_cons, ← gainTotal_append, ← hsplit]
  have hzero : (0 : UInt32).toNat = 0 := rfl
  have hget := @packPlanes_eq maps 0 (by omega) _ _ _ hsplit
  rw [List.length_take, Nat.min_eq_left (Nat.le_of_lt hi), hzero, Nat.zero_add] at hget
  exact ⟨_,hget,hsplit,(h.bounded _ (List.getElem_mem hi)).1,rfl,toNat_ofNat_lt (by omega),
    toNat_ofNat_lt (by omega),by omega⟩

theorem Accepted.record_of_mem (h : Accepted maps) {p : GainMapDispatchPlane}
    (hp : p ∈ packPlanes maps 0) :
    ∃ i, ∃ hi : i < maps.length, (packPlanes maps 0)[i]? = some p ∧ RecordOf maps i maps[i] p := by
  obtain ⟨i,hi,he⟩ := List.mem_iff_getElem.mp hp
  have hi' : i < maps.length := by simpa using hi
  obtain ⟨q,hq,hrecord⟩ := h.record hi'
  have hget : (packPlanes maps 0)[i]? = some p := by rw [List.getElem?_eq_getElem hi, he]
  rw [hget] at hq
  cases hq
  exact ⟨i,hi',hget,hrecord⟩

theorem Accepted.planeFits (h : Accepted maps) :
    (packPlanes maps 0).all (planeFits (gainTotal maps*4)) = true := by
  rw [List.all_eq_true]
  intro p hp
  obtain ⟨i,hi,_,hrecord⟩ := h.record_of_mem hp
  have hv : 0 < p.mapPointsV.toNat := by
    rw [hrecord.packed]
    exact hrecord.valid.points_v
  have hh : 0 < p.mapPointsH.toNat := by
    rw [hrecord.packed]
    exact hrecord.valid.points_h
  have hpos : 0 < maps[i].gain.length := by
    rw [hrecord.valid.gains]
    exact Nat.mul_pos hrecord.valid.points_v hrecord.valid.points_h
  have hne : ∀ n : UInt32, 0 < n.toNat → (n != 0) = true := by
    intro n hn
    rw [bne_iff_ne]
    intro h0
    rw [h0] at hn
    cases hn
  simp only [ShadingGainmap.planeFits, Bool.and_eq_true, decide_eq_true_eq]
  refine ⟨⟨⟨hne _ hv,hne _ hh⟩,hne _ (by rw [hrecord.count]; exact hpos)⟩,?_⟩
  rw [hrecord.offset, hrecord.count]
  exact Nat.mul_le_mul_right 4 hrecord.inside

/-- The blob passes the checks of the kernel, which then sees the packed records. -/
theorem Accepted.kernel (h : Accepted maps) :
    lensShadingGainmapParam arith (packGainMaps calibration maps) image =
      shade arith (packGainMaps calibration maps) (UInt32.ofNat maps.length)
        calibration.cfaRepeat[0] calibration.cfaRepeat[1] (packPlanes maps 0) image
        image.pixels [] := by
  have hlen : (packGainMaps calibration maps).length =
      24 + maps.length*72 + gainTotal maps*4 := packGainMaps_length
  have hcount := h.count_toNat
  have hmaps : maps.length = 1 ∨ maps.length = 4 := h.length_cases
  have h24 : sizeofHeader = 24 := rfl
  have h72 : sizeofPlane = 72 := rfl
  have hrange : ¬ (UInt32.ofNat maps.length = 0 ∨ 4 < UInt32.ofNat maps.length) := by
    rw [← UInt32.toNat_inj, UInt32.lt_iff_toNat_lt, hcount]
    simp only [UInt32.reduceToNat]
    omega
  have hgains : (packGainMaps calibration maps).length - 24 - maps.length*72 =
      gainTotal maps*4 := by
    omega
  unfold lensShadingGainmapParam
  rw [if_neg (by omega), loadHeader_blob]
  simp only [bind, Except.bind]
  rw [if_neg hrange, hcount, h24, h72, if_neg (by omega), loadPlanes_blob]
  simp only [hgains, h.planeFits]
  rfl

theorem packPlanes_plane {maps : List GainMap} {m : GainMap} (hm : m ∈ maps) (offset : UInt32) :
    ∃ p ∈ packPlanes maps offset, p.plane = m.plane := by
  induction maps generalizing offset with
  | nil => cases hm
  | cons m' maps ih =>
    rcases List.mem_cons.mp hm with rfl | hm
    · exact ⟨_,List.mem_cons_self,rfl⟩
    · obtain ⟨p,hp,he⟩ := ih hm (offset + UInt32.ofNat m'.gain.length)
      exact ⟨p,List.mem_cons_of_mem _ hp,he⟩

/-- Every pixel has a map. -/
theorem Accepted.selectMap (h : Accepted maps) (repeat0 repeat1 : UInt8) (x y : UInt32) :
    ∃ p ∈ packPlanes maps 0, ShadingGainmap.selectMap (UInt32.ofNat maps.length) repeat0 repeat1
      (packPlanes maps 0) x y = some p := by
  unfold ShadingGainmap.selectMap
  rcases h.complete with h1 | ⟨h4,_,hplanes⟩
  · rw [h1, if_pos (by decide)]
    obtain ⟨m,rfl⟩ := List.length_eq_one_iff.mp h1
    exact ⟨_,List.mem_cons_self,rfl⟩
  · rw [h4, if_neg (by decide)]
    obtain ⟨m,hm,he⟩ := hplanes _ (cfaPlane_lt repeat0 repeat1 x y)
    obtain ⟨p,hp,hplane⟩ := packPlanes_plane hm 0
    have hfound : ((packPlanes maps 0).find?
        (fun map => map.plane == cfaPlane repeat0 repeat1 x y)).isSome = true := by
      rw [List.find?_isSome]
      exact ⟨p,hp,by rw [hplane, he, beq_self_eq_true]⟩
    obtain ⟨q,hq⟩ := Option.isSome_iff_exists.mp hfound
    exact ⟨q,List.mem_of_find?_eq_some hq,hq⟩

/-- Every gain the sampler asks for is one of the map's own. -/
theorem RecordOf.loadGain {i : Nat} {m : GainMap} {p : GainMapDispatchPlane}
    (h : RecordOf maps i m p) (htotal : gainTotal maps < 2^32) (calibration : CalibrationView)
    (x y : UInt32) :
    ∀ k ∈ (gainIndices p x y).toList, ∃ hk : k.toNat < m.gain.length,
      ShadingGainmap.loadGain (packGainMaps calibration maps)
        (24 + maps.length*72 + p.gainOffset.toNat*4) k = .ok m.gain[k.toNat] := by
  intro k hk
  have hinside := h.inside
  have hfit : p.mapPointsV.toNat*p.mapPointsH.toNat = m.gain.length := by
    rw [h.valid.gains, h.packed]
    rfl
  have hlt := gainIndices_lt (p := p) (by rw [h.packed]; exact h.valid.points_v)
    (by rw [h.packed]; exact h.valid.points_h) (by rw [hfit]; omega) x y k hk
  rw [hfit] at hlt
  exact ⟨hlt,by rw [h.offset]; exact loadGain_blob h.split hlt⟩

theorem Accepted.sampleGain (h : Accepted maps) (arith : FloatArith)
    (calibration : CalibrationView) {p : GainMapDispatchPlane} (hp : p ∈ packPlanes maps 0)
    (x y : UInt32) :
    ∃ gain, ShadingGainmap.sampleGain arith (packGainMaps calibration maps)
      (24 + maps.length*72 + p.gainOffset.toNat*4) p x y = .ok gain := by
  obtain ⟨i,hi,_,hrecord⟩ := h.record_of_mem hp
  have hload := hrecord.loadGain h.total_lt calibration x y
  have hmem : ∀ i (hi : i < 4), (gainIndices p x y)[i] ∈ (gainIndices p x y).toList := by
    intro i hi
    rw [Vector.mem_toList_iff]
    exact Vector.getElem_mem hi
  obtain ⟨_,h0⟩ := hload _ (hmem 0 (by decide))
  obtain ⟨_,h1⟩ := hload _ (hmem 1 (by decide))
  obtain ⟨_,h2⟩ := hload _ (hmem 2 (by decide))
  obtain ⟨_,h3⟩ := hload _ (hmem 3 (by decide))
  rw [ShadingGainmap.sampleGain, h0, h1, h2, h3]
  exact ⟨_,rfl⟩

/-- A store of the kernel: the product of a pixel with the gain of its map. -/
structure Stored (arith : FloatArith) (calibration : CalibrationView) (maps : List GainMap)
    (image : Image) (pixel : Nat × Nat) (w : Write) : Prop where
  at_pixel : w.x = pixel.1 ∧ w.y = pixel.2
  selected : ShadingGainmap.selectMap (UInt32.ofNat maps.length) calibration.cfaRepeat[0]
    calibration.cfaRepeat[1] (packPlanes maps 0) (UInt32.ofNat pixel.1) (UInt32.ofNat pixel.2) =
      some w.map
  product : ∃ gain, ShadingGainmap.sampleGain arith (packGainMaps calibration maps)
    (24 + maps.length*72 + w.map.gainOffset.toNat*4) w.map (UInt32.ofNat pixel.1)
      (UInt32.ofNat pixel.2) = .ok gain ∧ w.value = arith.mul (image.pixel pixel.1 pixel.2) gain

/-- The loops store exactly one product for each pixel. -/
theorem Accepted.shade (h : Accepted maps) (pixels : List (Nat × Nat)) (done : List Write) :
    ∃ writes, ShadingGainmap.shade arith (packGainMaps calibration maps)
        (UInt32.ofNat maps.length) calibration.cfaRepeat[0] calibration.cfaRepeat[1]
        (packPlanes maps 0) image pixels done = .ok (.ok,done ++ writes) ∧
      List.Forall₂ (Stored arith calibration maps image) pixels writes := by
  induction pixels generalizing done with
  | nil => exact ⟨[],by rw [List.append_nil]; rfl,.nil⟩
  | cons pixel pixels ih =>
    obtain ⟨x,y⟩ := pixel
    obtain ⟨p,hp,hsel⟩ := h.selectMap calibration.cfaRepeat[0] calibration.cfaRepeat[1]
      (UInt32.ofNat x) (UInt32.ofNat y)
    obtain ⟨gain,hgain⟩ := h.sampleGain arith calibration hp (UInt32.ofNat x) (UInt32.ofNat y)
    obtain ⟨writes,hrun,hall⟩ := ih (done ++ [⟨x,y,p,arith.mul (image.pixel x y) gain⟩])
    refine ⟨⟨x,y,p,arith.mul (image.pixel x y) gain⟩ :: writes,?_,?_⟩
    · rw [ShadingGainmap.shade, hsel]
      simp only [sizeofHeader, sizeofPlane, h.count_toNat, hgain]
      rw [List.append_assoc] at hrun
      exact hrun
    · exact .cons ⟨⟨rfl,rfl⟩,hsel,gain,hgain,rfl⟩ hall

end Kernel

theorem accepted_of_parse {bytes : List UInt8} {result : GainMapParseResult}
    (hp : parseGainMaps bytes = .ok result) (hok : result.status = .ok)
    (hv : validateGainMaps result.gainMaps = .ok ()) : Accepted result.gainMaps :=
  ⟨gainMaps_valid hp hok,validateGainMaps_complete hv⟩

/-- From an accepted list to the sampler: the packed blob passes the checks of the
kernel, every pixel has a map, the offsets are the exact sums, and each gain that
is asked for lies in the slice of its own map. -/
theorem gainmap_in_bounds {bytes : List UInt8} {result : GainMapParseResult}
    (hp : parseGainMaps bytes = .ok result) (hok : result.status = .ok)
    (hv : validateGainMaps result.gainMaps = .ok ()) (arith : FloatArith)
    (calibration : CalibrationView) (image : Image) :
    let maps := result.gainMaps
    let blob := packGainMaps calibration maps
    let planes := packPlanes maps 0
    (∃ writes, lensShadingGainmapParam arith blob image = .ok (.ok,writes)) ∧
    (∀ x y, ∃ p ∈ planes, selectMap (UInt32.ofNat maps.length) calibration.cfaRepeat[0]
      calibration.cfaRepeat[1] planes x y = some p) ∧
    (∀ i, ∀ hi : i < maps.length, ∃ p, planes[i]? = some p ∧
      p.gainOffset.toNat = gainTotal (maps.take i) ∧ p.gainCount.toNat = maps[i].gain.length ∧
      p.gainOffset.toNat + p.gainCount.toNat < 2^32 ∧
      ∀ x y, ∀ k ∈ (gainIndices p x y).toList, ∃ hk : k.toNat < maps[i].gain.length,
        sizeofHeader + maps.length*sizeofPlane + (p.gainOffset.toNat + k.toNat + 1)*4 ≤
          blob.length ∧
        loadGain blob (sizeofHeader + maps.length*sizeofPlane + p.gainOffset.toNat*4) k =
          .ok maps[i].gain[k.toNat]) := by
  intro maps blob planes
  have h : Accepted maps := accepted_of_parse hp hok hv
  refine ⟨?_,fun x y => h.selectMap _ _ x y,?_⟩
  · obtain ⟨writes,hrun,_⟩ := h.shade image.pixels []
    exact ⟨_,h.kernel.trans hrun⟩
  · intro i hi
    obtain ⟨p,hget,hrecord⟩ := h.record hi
    have htotal := h.total_lt
    have hinside := hrecord.inside
    have hoffset := hrecord.offset
    have hcount := hrecord.count
    refine ⟨p,hget,hoffset,hcount,by omega,?_⟩
    intro x y k hk
    obtain ⟨hlt,hload⟩ := hrecord.loadGain htotal calibration x y k hk
    refine ⟨hlt,?_,hload⟩
    have hlen : blob.length = 24 + maps.length*72 + gainTotal maps*4 := packGainMaps_length
    simp only [sizeofHeader, sizeofPlane]
    omega

/-! ### A list for concrete runs -/

/-- `float` arithmetic of the machine. -/
def hostArith : FloatArith where
  add a b := ⟨(Float32.ofBits a.bits + Float32.ofBits b.bits).toBits⟩
  sub a b := ⟨(Float32.ofBits a.bits - Float32.ofBits b.bits).toBits⟩
  mul a b := ⟨(Float32.ofBits a.bits * Float32.ofBits b.bits).toBits⟩
  ofRat q := ⟨(Float32.ofInt q.num / Float32.ofNat q.den).toBits⟩

def bayerCalibration : CalibrationView where
  hasCfa := true
  cfaRepeat := #v[2,2]
  cfaPattern := #v[0,1,1,2,0,0,0,0,0,0,0,0,0,0,0,0]

/-- Two by two pixels of the value one. -/
def smallImage : Image where
  width := 2
  height := 2
  width_lt := by decide
  height_lt := by decide
  pixel _ _ := ⟨0x3F800000⟩

/-- The map of one position of a Bayer pattern, of two by three points. -/
def phaseMap (plane : UInt32) : GainMap :=
  { top := plane/2, left := plane%2, bottom := 2, right := 2, plane := plane, planes := 4
    rowPitch := 2, colPitch := 2, mapPointsV := 2, mapPointsH := 3
    mapSpacingV := ⟨0x3FF0000000000000⟩, mapSpacingH := ⟨0x3FE0000000000000⟩
    mapOriginV := ⟨0⟩, mapOriginH := ⟨0⟩, mapPlanes := 1
    gain := [⟨0x3F800000⟩,⟨0x3FA00000⟩,⟨0x3FC00000⟩,⟨0x3FE00000⟩,⟨0x40000000⟩,⟨0x40100000⟩] }

def phaseMaps : List GainMap := [phaseMap 0,phaseMap 1,phaseMap 2,phaseMap 3]

def phaseList : List UInt8 :=
  [0,0,0,4] ++ phaseMaps.flatMap (fun m => [0,0,0,9, 1,3,0,0, 0,0,0,0, 0,0,0,100] ++ m.encode)

theorem parse_phaseList :
    parseGainMaps phaseList = .ok { status := .ok, gainMaps := phaseMaps } := by
  decide +kernel

/-- Four maps, of which the last lies behind eighteen gains. -/
theorem gainmap_in_bounds_bayer :
    (∃ writes, lensShadingGainmapParam hostArith (packGainMaps bayerCalibration phaseMaps)
      smallImage = .ok (.ok,writes)) ∧
    (∀ x y, ∃ p ∈ packPlanes phaseMaps 0, selectMap 4 2 2 (packPlanes phaseMaps 0) x y = some p) ∧
    ∃ p, (packPlanes phaseMaps 0)[3]? = some p ∧ p.gainOffset.toNat = 18 ∧
      p.gainCount.toNat = 6 ∧ ∀ x y, ∀ k ∈ (gainIndices p x y).toList, k.toNat < 6 := by
  obtain ⟨hrun,hselected,hrecords⟩ := gainmap_in_bounds parse_phaseList rfl (by decide +kernel)
    hostArith bayerCalibration smallImage
  obtain ⟨p,hget,hoffset,hcount,-,hgains⟩ := hrecords 3 (by decide)
  exact ⟨hrun,hselected,p,hget,hoffset,hcount,fun x y k hk => (hgains x y k hk).1⟩

end Cpipe.Nodes.ShadingGainmap
