import Cpipe.Library.Checked
import Cpipe.Proofs.HalidePlane
import Cpipe.Proofs.ShadingGainmap
import Mathlib.Data.List.Nodup

namespace Cpipe.Nodes.ShadingGainmap
open Library.Bytes Library.Ieee Ingest.OpcodeList2
open Library.Checked (forall₂_left forall₂_right foldlM_congr_mem)
open Library.Raster (store store_ok scatter scatter_ok place_lt place_inj InImage Holds)
open Runtime.HalidePlane

/-- The pixels a gain map is meant for: those of its area on its pitch. -/
structure Covers (m : GainMap) (x y : Nat) : Prop where
  top : m.top.toNat ≤ y
  bottom : y < m.bottom.toNat
  left : m.left.toNat ≤ x
  right : x < m.right.toNat
  row : m.rowPitch.toNat ∣ y - m.top.toNat
  column : m.colPitch.toNat ∣ x - m.left.toNat

def Output.writes : Output → List Write
  | .copied => []
  | .scaled writes => writes

/-- A pixel is multiplied by the gain of a map only where that map covers it, and
the other pixels are those of the input. -/
structure Confined (maps : List GainMap) (image : Image) (output : Output) : Prop where
  multiplied : ∀ w ∈ output.writes, ∀ i, ∀ hi : i < maps.length,
    (packPlanes maps 0)[i]? = some w.map → Covers maps[i] w.x w.y
  others : ∀ before x y, x < image.width → y < image.height →
    (∀ w ∈ output.writes, ¬ (w.x = x ∧ w.y = y)) →
      output.pixel image before x y = image.pixel x y

/-- The map a pixel is shaded with: the only one, or the one for its CFA position. -/
def Chosen (calibration : CalibrationView) (maps : List GainMap) (x y : Nat) (m : GainMap) :
    Prop :=
  m ∈ maps ∧ (maps.length = 1 ∨ m.plane = cfaPlane (calibration.cfaRepeat.get 0)
    (calibration.cfaRepeat.get 1) (UInt32.ofNat x) (UInt32.ofNat y))

/-- The gain of a map between the four points around a pixel, whose coordinates on the
grid end at its edges. -/
def gainAt (arith : FloatArith) (m : GainMap) (x y : UInt32) : Single :=
  let sy := sampleAxis (gridCoord y m.mapOriginV m.mapSpacingV) m.mapPointsV
  let sx := sampleAxis (gridCoord x m.mapOriginH m.mapSpacingH) m.mapPointsH
  let point (row column : UInt32) : Single :=
    m.gain.getD (row.toNat*m.mapPointsH.toNat + column.toNat) ⟨0⟩
  let wx := arith.ofRat sx.weight
  lerp arith (lerp arith (point sy.low sx.low) (point sy.low sx.high) wx)
    (lerp arith (point sy.high sx.low) (point sy.high sx.high) wx) (arith.ofRat sy.weight)

theorem mem_pixels {image : Image} {x y : Nat} :
    (x,y) ∈ image.pixels ↔ x < image.width ∧ y < image.height := by
  simp [Image.pixels, and_comm]

section
variable {calibration : CalibrationView} {maps : List GainMap} {arith : FloatArith}
  {image : Image} {x y : UInt32}

/-- The record selected for a pixel is the one of the only map, or the one of the
map with the pixel's CFA position. -/
theorem Accepted.selected_iff (h : Accepted maps) {p : GainMapDispatchPlane}
    {repeat0 repeat1 : UInt8}
    (hsel : ShadingGainmap.selectMap (UInt32.ofNat maps.length) repeat0 repeat1
      (packPlanes maps 0) x y = some p) {i : Nat} (hi : i < maps.length) :
    (packPlanes maps 0)[i]? = some p ↔
      maps.length = 1 ∨ maps[i].plane = cfaPlane repeat0 repeat1 x y := by
  obtain ⟨q,hq,hrecord⟩ := h.record hi
  have hplane : q.plane = maps[i].plane := by
    rw [hrecord.packed]
    rfl
  unfold ShadingGainmap.selectMap at hsel
  rcases h.complete with h1 | ⟨h4,hnodup,_⟩
  · rw [h1, if_pos (by decide), List.head?_eq_getElem?] at hsel
    have hi0 : i = 0 := by omega
    subst hi0
    exact ⟨fun _ => .inl h1,fun _ => hsel⟩
  · rw [h4, if_neg (by decide)] at hsel
    have hp := List.find?_some hsel
    rw [beq_iff_eq] at hp
    rw [hq]
    constructor
    · intro he
      cases he
      exact .inr (hplane.symm.trans hp)
    · intro hor
      have hi4 : maps[i].plane = p.plane := by
        rcases hor with h1 | he
        · omega
        · rw [he, hp]
      obtain ⟨j,hj,hget,hjrecord⟩ := h.record_of_mem (List.mem_of_find?_eq_some hsel)
      have hjplane : maps[j].plane = p.plane := by
        rw [hjrecord.packed]
        rfl
      have hij : i = j := by
        have hinj := @List.Nodup.getElem_inj_iff _ _ hnodup i (by simpa using hi) j
          (by simpa using hj)
        rw [List.getElem_map, List.getElem_map, hi4, hjplane] at hinj
        exact hinj.mp rfl
      subst hij
      rw [← hq, hget]

/-- The sampler computes the gain of the map behind a record. -/
theorem RecordOf.sampleGain {i : Nat} {m : GainMap} {p : GainMapDispatchPlane}
    (h : RecordOf maps i m p) (htotal : gainTotal maps < 2^32) (arith : FloatArith)
    (calibration : CalibrationView) (x y : UInt32) :
    ShadingGainmap.sampleGain arith (packGainMaps calibration maps)
      (24 + maps.length*72 + p.gainOffset.toNat*4) p x y = .ok (gainAt arith m x y) := by
  have hinside := h.inside
  have hload := h.loadGain htotal calibration x y
  obtain ⟨hylow,hyhigh⟩ := sampleAxis_lt (gridCoord y m.mapOriginV m.mapSpacingV) h.valid.points_v
  obtain ⟨hxlow,hxhigh⟩ := sampleAxis_lt (gridCoord x m.mapOriginH m.mapSpacingH) h.valid.points_h
  have hfit : m.mapPointsV.toNat*m.mapPointsH.toNat < 2^32 := by
    rw [← h.valid.gains]
    omega
  have hpoint {row column : UInt32} (hrow : row.toNat < m.mapPointsV.toNat)
      (hcolumn : column.toNat < m.mapPointsH.toNat)
      (hmem : row*m.mapPointsH + column ∈ (gainIndices p x y).toList) :
      ShadingGainmap.loadGain (packGainMaps calibration maps)
        (24 + maps.length*72 + p.gainOffset.toNat*4) (row*m.mapPointsH + column) =
          .ok (m.gain.getD (row.toNat*m.mapPointsH.toNat + column.toNat) ⟨0⟩) := by
    obtain ⟨hk,hgain⟩ := hload _ hmem
    rw [hgain, ← (index_eq hrow hcolumn hfit).1, List.getD_eq_getElem _ _ hk]
  have hindices : gainIndices p x y = gainIndices (packPlane m p.gainOffset) x y :=
    congrArg (gainIndices · x y) h.packed
  rw [hindices] at hpoint
  simp only [gainIndices, packPlane, Vector.toList_mk, List.mem_cons, List.not_mem_nil,
    or_false] at hpoint
  have hsample : ShadingGainmap.sampleGain arith (packGainMaps calibration maps)
      (24 + maps.length*72 + p.gainOffset.toNat*4) p x y =
      ShadingGainmap.sampleGain arith (packGainMaps calibration maps)
        (24 + maps.length*72 + p.gainOffset.toNat*4) (packPlane m p.gainOffset) x y :=
    congrArg (ShadingGainmap.sampleGain arith _ _ · x y) h.packed
  rw [hsample]
  simp only [ShadingGainmap.sampleGain, gainIndices, packPlane, Vector.getElem_mk,
    List.getElem_toArray, List.getElem_cons_zero, List.getElem_cons_succ,
    hpoint hylow hxlow (.inl rfl), hpoint hylow hxhigh (.inr (.inl rfl)),
    hpoint hyhigh hxlow (.inr (.inr (.inl rfl))), hpoint hyhigh hxhigh (.inr (.inr (.inr rfl)))]
  rfl

/-- A store of the kernel is the product with the gain of the chosen map. -/
theorem Accepted.stored_product (h : Accepted maps) {pixel : Nat × Nat} {w : Write}
    (hstored : Stored arith calibration maps image pixel w) :
    ∃ m, Chosen calibration maps pixel.1 pixel.2 m ∧
      w.value = arith.mul (image.pixel pixel.1 pixel.2)
        (gainAt arith m (UInt32.ofNat pixel.1) (UInt32.ofNat pixel.2)) := by
  obtain ⟨q,hq,hsel⟩ := h.selectMap calibration.cfaRepeat[0] calibration.cfaRepeat[1]
    (UInt32.ofNat pixel.1) (UInt32.ofNat pixel.2)
  obtain rfl := Option.some.inj (hsel.symm.trans hstored.selected)
  obtain ⟨i,hi,hget,hrecord⟩ := h.record_of_mem hq
  obtain ⟨gain,hgain,hvalue⟩ := hstored.product
  rw [hrecord.sampleGain h.total_lt] at hgain
  obtain rfl := Except.ok.inj hgain
  exact ⟨maps[i],⟨List.getElem_mem hi,(h.selected_iff hsel hi).mp hget⟩,hvalue⟩

/-- Two stores to one pixel store the same. -/
theorem Stored.value_eq {pixel : Nat × Nat} {w w' : Write}
    (h : Stored arith calibration maps image pixel w)
    (h' : Stored arith calibration maps image pixel w') : w.value = w'.value := by
  have hmap := Option.some.inj (h.selected.symm.trans h'.selected)
  obtain ⟨gain,hgain,hvalue⟩ := h.product
  obtain ⟨gain',hgain',hvalue'⟩ := h'.product
  rw [hmap, hgain'] at hgain
  obtain rfl := Except.ok.inj hgain
  rw [hvalue, hvalue']

/-- In a plane whose indices fit, every pixel ends as its product with the gain of the
chosen map. -/
theorem Accepted.memory (h : Accepted maps) (hcount : image.width*image.height ≤ 2^31)
    {writes : List Write}
    (hall : List.Forall₂ (Stored arith calibration maps image) image.pixels writes)
    {before : List Single} (hbefore : before.length = image.width*image.height) :
    ∃ out, storeWrites (planeDims (UInt32.ofNat image.width) (UInt32.ofNat image.height)) writes
        before = .ok out ∧
      ∀ x < image.width, ∀ y < image.height, ∃ m, Chosen calibration maps x y m ∧
        out[y*image.width + x]? = some (arith.mul (image.pixel x y)
          (gainAt arith m (UInt32.ofNat x) (UInt32.ofNat y))) := by
  have hwidth := image.width_lt
  have hheight := image.height_lt
  have hw : (UInt32.ofNat image.width).toNat = image.width := toNat_ofNat_lt (by omega)
  have hh : (UInt32.ofNat image.height).toNat = image.height := toNat_ofNat_lt (by omega)
  have hindexable : Indexable (UInt32.ofNat image.width) (UInt32.ofNat image.height) :=
    ⟨by omega,by omega,by rwa [hw, hh]⟩
  let place (w : Write) := w.y*image.width + w.x
  have hinside : ∀ w ∈ writes, w.x < image.width ∧ w.y < image.height := by
    intro w hw
    obtain ⟨⟨x,y⟩,hp,hstored⟩ := forall₂_right hall hw
    obtain ⟨hx,hy⟩ := hstored.at_pixel
    rw [hx, hy]
    exact mem_pixels.mp hp
  have hplace : ∀ w ∈ writes, place w < before.length := by
    intro w hmem
    obtain ⟨hx,hy⟩ := hinside w hmem
    rw [hbefore]
    exact place_lt hx hy
  have hindex : ∀ w ∈ writes, ∀ size, checkedIndex size (Runtime.HalidePlane.offset
      (planeDims (UInt32.ofNat image.width) (UInt32.ofNat image.height)) (w.x,w.y)) =
        .ok (place w) := by
    intro w hmem size
    obtain ⟨hx,hy⟩ := hinside w hmem
    rw [checkedIndex_plane hindexable size (by rwa [hw]) (by rwa [hh]), hw]
  have hvalue : ∀ w ∈ writes, (.ok w.value : Except Library.Bytes.Fault Single) = .ok w.value :=
    fun w _ => rfl
  obtain ⟨out,hout,-,hcells,-⟩ := scatter_ok hvalue hplace
  refine ⟨out,?_,fun x hx y hy => ?_⟩
  · rw [← hout, storeWrites, scatter]
    exact foldlM_congr_mem (fun w hmem out => by
      rw [hindex w hmem]
      rfl) before
  · obtain ⟨w,hw,hstored⟩ := forall₂_left hall (mem_pixels.mpr ⟨hx,hy⟩)
    obtain ⟨m,hm,hvalue⟩ := h.stored_product hstored
    obtain ⟨hwx,hwy⟩ := hstored.at_pixel
    have hcell := hcells w hw fun w' hw' hsame => by
      obtain ⟨⟨x',y'⟩,hp',hstored'⟩ := forall₂_right hall hw'
      obtain ⟨hx',hy'⟩ := mem_pixels.mp hp'
      obtain ⟨hwx',hwy'⟩ := hstored'.at_pixel
      simp only [place, hwx, hwy, hwx', hwy'] at hsame
      obtain ⟨rfl,rfl⟩ := place_inj hx' hx hsame
      exact hstored'.value_eq hstored
    simp only [place, hwx, hwy] at hcell
    exact ⟨m,hm,hcell.trans (congrArg some hvalue)⟩

end

end Cpipe.Nodes.ShadingGainmap
