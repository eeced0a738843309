import Cpipe.Proofs.DngReader
import Cpipe.Proofs.HalidePlane
import Cpipe.Nodes.BlacklevelDngLevels

namespace Cpipe.Nodes.BlacklevelDngLevels
open Ingest Ingest.DngReader Ingest.OpcodeListParser
open Library.Checked (bind_ok map_ok)
open Library.Raster (load store load_ok pixels mem_pixels scatter scatter_ok place_lt place_inj)
open Runtime.HalideBufferAdapter (Dimension)
open Runtime.HalidePlane

variable {image : Option LibRawImage} {bytes : List UInt8} {levels : List Float32}

/-! ### The levels of a file -/

/-- The level DNG gives a pixel: the only one, or that of its place in the 2x2 cell. -/
def dngLevel (levels : List Float32) (x y : Nat) : Float32 :=
  if levels.length = 1 then levels.getD 0 0 else levels.getD (2*(y%2) + x%2) 0

/-- The level LibRaw puts in the place of all four: it decodes the image, the values of
the tag are all zero and its own is not. -/
def librawBlack (image : Option LibRawImage) (m : DngMetadata) (levels : List Float32) :
    Option Float32 :=
  match image with
  | none => none
  | some image =>
    if m.width.toNat ≤ image.rawWidth.toNat ∧ m.height.toNat ≤ image.rawHeight.toNat ∧
        levels.all (fun b => b == 0) ∧ 0 < image.black then
      some image.black.toFloat32
    else
      none

/-- The places of the cell an image of this size has agree: the level LibRaw sets is the
file's; without it, one level is zero or belongs to color zero, and each of four levels
equals the one of the color at its place. -/
def LevelsAgree (override : Option Float32) (levels : List Float32) (pattern : Vector UInt8 16)
    (width height : Nat) : Prop :=
  ∀ x < min width 2, ∀ y < min height 2,
    match override with
    | some black => dngLevel levels x y = black
    | none =>
      let color := pattern[2*(y%2) + x%2].toNat
      if levels.length = 1 then levels.getD 0 0 = 0 ∨ color = 0
      else levels.getD (min color 3) 0 = levels.getD (2*(y%2) + x%2) 0

theorem allZero_fill (hcount : levels.length = 1 ∨ levels.length = 4) :
    allZero (fill levels (Vector.replicate 4 0)) = levels.all (fun b => b == 0) := by
  have hzero : ((0 : Float32) == 0) = true := by decide +kernel
  rcases hcount with hone | hfour
  · obtain ⟨b,rfl⟩ := List.length_eq_one_iff.mp hone
    simp only [allZero, fill, Vector.toList_ofFn, List.ofFn_succ, List.ofFn_zero]
    simp [hzero]
  · match levels, hfour with
    | [a,b,c,d], _ =>
      simp only [allZero, fill, Vector.toList_ofFn, List.ofFn_succ, List.ofFn_zero]
      simp


theorem decodeWithLibraw_metadata (libraw : LibRawImage) {m : DngMetadata}
    (hm : m.width ≠ 0 ∧ m.height ≠ 0) :
    (decodeWithLibraw (some libraw) m).map (·.metadata) =
      if m.width.toNat ≤ libraw.rawWidth.toNat ∧ m.height.toNat ≤ libraw.rawHeight.toNat then
        some (applyLibrawMetadata libraw m)
      else
        none := by
  have hw : m.width.toNat ≠ 0 := fun h => hm.1 (UInt32.toNat_inj.mp h)
  have hh : m.height.toNat ≠ 0 := fun h => hm.2 (UInt32.toNat_inj.mp h)
  simp only [decodeWithLibraw]
  by_cases hfit : m.width.toNat ≤ libraw.rawWidth.toNat ∧ m.height.toNat ≤ libraw.rawHeight.toNat
  · have hlt : ¬ (m.width.toNat = 0 ∨ m.height.toNat = 0 ∨ libraw.rawWidth.toNat < m.width.toNat ∨
        libraw.rawHeight.toNat < m.height.toNat) := by omega
    rw [if_pos hfit]
    exact congrArg (Option.map _) (if_neg hlt)
  · have hlt : m.width.toNat = 0 ∨ m.height.toNat = 0 ∨ libraw.rawWidth.toNat < m.width.toNat ∨
        libraw.rawHeight.toNat < m.height.toNat := by omega
    rw [if_neg hfit]
    exact congrArg (Option.map _) (if_pos hlt)

/-- The levels of a decoded file with one or four of them: LibRaw's, or the tag's over
zeroes. The pattern is the tag's. -/
theorem decoded_levels {m : DngMetadata} {decoded : DecodedRaw}
    (hm : m.width ≠ 0 ∧ m.height ≠ 0)
    (hblack : m.calibration.blackLevel = fill levels (Vector.replicate 4 0))
    (hcount : levels.length = 1 ∨ levels.length = 4)
    (h : decode image bytes m = some decoded) :
    decoded.metadata.calibration.cfa = m.calibration.cfa ∧
      decoded.metadata.calibration.blackLevel =
        match librawBlack image m levels with
        | some black => Vector.replicate 4 black
        | none => fill levels (Vector.replicate 4 0) := by
  have strip (hnone : decodeWithLibraw image m = none) : decoded.metadata = m := by
    simp only [decode, hnone] at h
    obtain ⟨raw,-,rfl⟩ := Option.map_eq_some_iff.mp h
    rfl
  cases image with
  | none =>
    rw [strip rfl]
    exact ⟨rfl,hblack⟩
  | some libraw =>
    have hmeta := decodeWithLibraw_metadata libraw hm
    split at hmeta
    · rename_i hfit
      obtain ⟨d,hd,hdm⟩ := Option.map_eq_some_iff.mp hmeta
      simp only [decode, hd] at h
      obtain rfl := Option.some.inj h
      rw [hdm]
      refine ⟨rfl,?_⟩
      simp only [applyLibrawMetadata, librawCalibration, librawBlack, hblack,
        allZero_fill hcount, hfit, true_and]
      split <;> rfl
    · rename_i hfit
      rw [strip (Option.map_eq_none_iff.mp hmeta)]
      refine ⟨rfl,?_⟩
      simp only [librawBlack, ← and_assoc, hfit, false_and, if_false]
      exact hblack

/-! ### The level of a pixel -/

theorem cfaIndex_val (x y : Nat) : (cfaIndex x y).val = 2*(y%2) + x%2 := rfl

/-- A pixel takes the level of its place in the cell. -/
theorem blackAt_cell (params : BlacklevelParams) (x y : Nat) :
    blackAt params x y = blackAt params (x%2) (y%2) := by
  have hindex : cfaIndex x y = cfaIndex (x%2) (y%2) := by
    apply Fin.ext
    simp [cfaIndex_val]
  simp only [blackAt, channelAt, hindex]

theorem dngLevel_cell (levels : List Float32) (x y : Nat) :
    dngLevel levels x y = dngLevel levels (x%2) (y%2) := by
  simp [dngLevel]

theorem forall_pixels_iff {width height : Nat} {P : Nat → Nat → Prop}
    (hP : ∀ x y, P x y ↔ P (x%2) (y%2)) :
    (∀ x < width, ∀ y < height, P x y) ↔ ∀ x < min width 2, ∀ y < min height 2, P x y := by
  constructor
  · intro h x hx y hy
    exact h x (by omega) y (by omega)
  · intro h x hx y hy
    rw [hP]
    have hx2 := Nat.mod_le x 2
    have hy2 := Nat.mod_le y 2
    exact h _ (by omega) _ (by omega)

theorem blackAt_replicate {params : BlacklevelParams} {black : Float32} (x y : Nat)
    (h : params.blackLevel = Vector.replicate 4 black) : blackAt params x y = black := by
  simp [blackAt, h]

theorem blackAt_fill {params : BlacklevelParams} (x y : Nat)
    (h : params.blackLevel = fill levels (Vector.replicate 4 0)) :
    blackAt params x y = levels.getD (channelAt params x y) 0 := by
  simp [blackAt, h, fill]

/-- The level of a pixel is the file's exactly when its place agrees. -/
theorem blackAt_eq_dngLevel_iff {params : BlacklevelParams}
    (hcount : levels.length = 1 ∨ levels.length = 4) (x y : Nat)
    (h : params.blackLevel = fill levels (Vector.replicate 4 0)) :
    blackAt params x y = dngLevel levels x y ↔
      if levels.length = 1 then
        levels.getD 0 0 = 0 ∨ channelAt params x y = 0
      else
        levels.getD (channelAt params x y) 0 = levels.getD (2*(y%2) + x%2) 0 := by
  rw [blackAt_fill x y h, dngLevel]
  rcases hcount with hone | hfour
  · obtain ⟨b,rfl⟩ := List.length_eq_one_iff.mp hone
    simp only [hone, if_true]
    cases channelAt params x y using Fin.cases with
    | zero => simp
    | succ i => simp [eq_comm]
  · simp [hfour]

/-! ### The loop over the pixels -/

section Loop

variable {params : BlacklevelParams} {dims : List Dimension} {input output : List Float32}
  {ps : List (Nat × Nat)} {width height : UInt32}

/-- Where no level reaches the white and every index fits, the loop stores the scaled
sample of each pixel at its place. -/
theorem scalePixels_scatter (h : Indexable width height)
    (hps : ∀ p ∈ ps, p.1 < width.toNat ∧ p.2 < height.toNat)
    (hlevels : ∀ p ∈ ps, ¬ denominatorAt params p.1 p.2 ≤ 0) (output : List Float32) :
    scalePixels params (planeDims width height) input ps output =
      Except.ok <$> scatter (fun p => p.2*width.toNat + p.1)
        (fun p => scaleAt params p.1 p.2 <$> load input (p.2*width.toNat + p.1)) ps output := by
  induction ps generalizing output with
  | nil => rfl
  | cons p ps ih =>
    obtain ⟨hx,hy⟩ := hps p List.mem_cons_self
    have hrest := ih (fun q hq => hps q (List.mem_cons_of_mem p hq))
      (fun q hq => hlevels q (List.mem_cons_of_mem p hq))
    simp only [scalePixels, if_neg (hlevels p List.mem_cons_self), checkedIndex_plane h _ hx hy,
      scatter, List.foldlM_cons, bind, Except.bind, Functor.map, Except.map] at hrest ⊢
    cases hload : load input (p.2*width.toNat + p.1) with
    | error e => rfl
    | ok sample =>
      cases hstore : store output (p.2*width.toNat + p.1) (scaleAt params p.1 p.2 sample) with
      | error e => simp only [hstore]
      | ok output' => simpa only [hstore] using hrest output'

/-- A pixel whose index does not fit ends the loop in a fault, unless a level does before. -/
theorem scalePixels_fault {p : Nat × Nat} (hp : p ∈ ps)
    (hindex : ∃ e, checkedIndex input.length (offset dims p) = .error e)
    (hlevels : ∀ p ∈ ps, ¬ denominatorAt params p.1 p.2 ≤ 0) (output : List Float32) :
    ∃ e, scalePixels params dims input ps output = .error e := by
  induction ps generalizing output with
  | nil => cases hp
  | cons q ps ih =>
    simp only [scalePixels, if_neg (hlevels q List.mem_cons_self), bind, Except.bind]
    rcases List.mem_cons.mp hp with rfl | hmem
    · obtain ⟨e,he⟩ := hindex
      rw [he]
      exact ⟨e,rfl⟩
    · repeat'
        split
        · exact ⟨_,rfl⟩
      exact ih hmem (fun r hr => hlevels r (List.mem_cons_of_mem q hr)) _

end Loop

/-! ### The node -/

section Node

variable {calibration : CalibrationView} {levels : List Float32} {width height : UInt32}

/-- What the node asks for: an image, an RGGB-like pattern, a white level and no level of a
pixel that reaches it. -/
structure Accepts (calibration : CalibrationView) (width height : UInt32) : Prop where
  nonempty : width ≠ 0 ∧ height ≠ 0
  pattern : calibration.hasCfa = true ∧ calibration.cfaRepeat = (2,2)
  white : calibration.whiteLevel ≠ 0
  levels : ∀ x < width.toNat, ∀ y < height.toNat,
    ¬ denominatorAt (packParams calibration) x y ≤ 0

/-- A sample with the level DNG gives its pixel taken away, scaled up to white. -/
def dngScaled (calibration : CalibrationView) (levels : List Float32) (x y : Nat)
    (sample : Float32) : Float32 :=
  clamp ((sample - dngLevel levels x y)/(calibration.whiteLevel.toFloat32 - dngLevel levels x y))
    0 1

/-- The node takes away the level that DNG gives each pixel and, from whatever the memories
of an image it accepts hold, ends with the scaled samples. -/
structure Subtracts (calibration : CalibrationView) (levels : List Float32)
    (width height : UInt32) : Prop where
  level : ∀ x < width.toNat, ∀ y < height.toNat,
    blackAt (packParams calibration) x y = dngLevel levels x y
  scaled : Accepts calibration width height → ∀ input output : List Float32,
    input.length = width.toNat*height.toNat → output.length = width.toNat*height.toNat →
    ∃ out, process calibration width height input output = .ok (.ok out) ∧
      ∀ x < width.toNat, ∀ y < height.toNat, out[y*width.toNat + x]? =
        (input[y*width.toNat + x]?).map (dngScaled calibration levels x y)

theorem Accepts.process (h : Accepts calibration width height) (input output : List Float32) :
    BlacklevelDngLevels.process calibration width height input output =
      blacklevelDngLevelsParam (packParams calibration) (planeDims width height) input output := by
  obtain ⟨hcfa,hrepeat⟩ := h.pattern
  unfold BlacklevelDngLevels.process
  rw [if_neg (by simpa using h.nonempty), if_neg (by simp [hcfa, hrepeat, h.white])]

theorem Accepts.pixels (h : Accepts calibration width height) {p : Nat × Nat}
    (hp : p ∈ pixels width.toNat height.toNat) :
    ¬ denominatorAt (packParams calibration) p.1 p.2 ≤ 0 :=
  h.levels p.1 (mem_pixels.mp hp).1 p.2 (mem_pixels.mp hp).2

theorem clamp_ne_two (v : Float32) : clamp v 0 1 ≠ 2 := by
  have hzero : (0 : Float32) ≠ 2 := by decide +kernel
  have hone : (1 : Float32) ≠ 2 := by decide +kernel
  have hlt : (1 : Float32) < 2 := by decide +kernel
  unfold clamp
  split_ifs with _ hhigh
  · exact hzero
  · exact hone
  · rintro rfl
    exact hhigh hlt

/-- An image that is accepted and computed has indices that fit. -/
theorem Subtracts.indexable (h : Subtracts calibration levels width height)
    (haccept : Accepts calibration width height) : Indexable width height := by
  have hcount := h.scaled haccept (List.replicate (width.toNat*height.toNat) 2)
    (List.replicate (width.toNat*height.toNat) 2) List.length_replicate List.length_replicate
  obtain ⟨out,hrun,hcells⟩ := hcount
  have hw : 0 < width.toNat := Nat.pos_of_ne_zero fun h0 =>
    haccept.nonempty.1 (UInt32.toNat_inj.mp h0)
  have hh : 0 < height.toNat := Nat.pos_of_ne_zero fun h0 =>
    haccept.nonempty.2 (UInt32.toNat_inj.mp h0)
  rw [haccept.process, blacklevelDngLevelsParam, rounds_width, rounds_height, rounds_eq,
    rounds_eq] at hrun
  by_cases hextents : width.toNat < 2^31 ∧ height.toNat < 2^31
  · refine ⟨hextents.1,hextents.2,Nat.le_of_not_lt fun hlarge => ?_⟩
    rw [if_pos hextents.1, if_pos hextents.2] at hrun
    obtain ⟨p,hx,hy,hindex⟩ := checkedIndex_large hw hlarge
      (List.replicate (width.toNat*height.toNat) (2 : Float32)).length
    obtain ⟨e,he⟩ := scalePixels_fault (mem_pixels.mpr ⟨hx,hy⟩) hindex
      (fun q hq => haccept.pixels hq) (List.replicate (width.toNat*height.toNat) 2)
    rw [he] at hrun
    cases hrun
  · -- a negative extent: the loop does not run and the output stays as it was
    have hempty : pixels (if width.toNat < 2^31 then width.toNat else 0)
        (if height.toNat < 2^31 then height.toNat else 0) = [] := by
      rw [List.eq_nil_iff_forall_not_mem]
      intro p hp
      obtain ⟨hx,hy⟩ := mem_pixels.mp hp
      split_ifs at hx hy <;> omega
    rw [hempty] at hrun
    obtain rfl := Except.ok.inj (Except.ok.inj hrun)
    have hcell := hcells 0 hw 0 hh
    rw [Nat.zero_mul, Nat.zero_add, List.getElem?_replicate, if_pos (Nat.mul_pos hw hh)] at hcell
    exact absurd (Option.some.inj hcell).symm (clamp_ne_two _)

/-- Where the indices fit, an accepted image is scaled with the levels of its pixels. -/
theorem Accepts.scaled (haccept : Accepts calibration width height)
    (h : Indexable width height) (input output : List Float32)
    (hinput : input.length = width.toNat*height.toNat)
    (houtput : output.length = width.toNat*height.toNat) :
    ∃ out, BlacklevelDngLevels.process calibration width height input output = .ok (.ok out) ∧
      ∀ x < width.toNat, ∀ y < height.toNat, out[y*width.toNat + x]? =
        (input[y*width.toNat + x]?).map (scaleAt (packParams calibration) x y) := by
  let params := packParams calibration
  let place (p : Nat × Nat) := p.2*width.toNat + p.1
  have hplace (p) (hp : p ∈ Library.Raster.pixels width.toNat height.toNat) :
      place p < width.toNat*height.toNat :=
    place_lt (mem_pixels.mp hp).1 (mem_pixels.mp hp).2
  have hvalue (p) (hp : p ∈ Library.Raster.pixels width.toNat height.toNat) :
      scaleAt params p.1 p.2 <$> load input (place p) =
        .ok (scaleAt params p.1 p.2 (input.getD (place p) 0)) := by
    have hlt := hplace p hp
    rw [load_ok (List.getElem?_eq_getElem (hinput ▸ hlt)), List.getD_eq_getElem _ _ (hinput ▸ hlt)]
    rfl
  have hinside : ∀ p ∈ Library.Raster.pixels width.toNat height.toNat, place p < output.length :=
    fun p hp => houtput ▸ hplace p hp
  obtain ⟨out,hout,-,hstored,-⟩ := scatter_ok hvalue hinside
  refine ⟨out,?_,fun x hx y hy => ?_⟩
  · rw [haccept.process, blacklevelDngLevelsParam, rounds_width, rounds_height, rounds_eq,
      rounds_eq, if_pos h.width_lt, if_pos h.height_lt,
      scalePixels_scatter h (fun p hp => mem_pixels.mp hp) (fun p hp => haccept.pixels hp), hout]
    rfl
  · have hmem : (x,y) ∈ Library.Raster.pixels width.toNat height.toNat := mem_pixels.mpr ⟨hx,hy⟩
    have hcell := hstored (x,y) hmem fun q hq hsame => by
      obtain ⟨rfl,rfl⟩ := place_inj (mem_pixels.mp hq).1 hx hsame
      rfl
    have hlt : y*width.toNat + x < input.length := hinput ▸ place_lt hx hy
    simp only [place] at hcell
    rw [hcell, List.getElem?_eq_getElem hlt, List.getD_eq_getElem _ _ hlt]
    rfl

theorem subtracts_iff : Subtracts calibration levels width height ↔
    (∀ x < width.toNat, ∀ y < height.toNat,
      blackAt (packParams calibration) x y = dngLevel levels x y) ∧
    (Accepts calibration width height → Indexable width height) := by
  constructor
  · intro h
    exact ⟨h.level,h.indexable⟩
  · rintro ⟨hlevel,hindexable⟩
    refine ⟨hlevel,fun haccept input output hinput houtput => ?_⟩
    obtain ⟨out,hrun,hcells⟩ := haccept.scaled (hindexable haccept) input output hinput houtput
    refine ⟨out,hrun,fun x hx y hy => ?_⟩
    rw [hcells x hx y hy]
    congr 1
    funext sample
    rw [scaleAt, denominatorAt, hlevel x hx y hy]
    rfl

end Node

/-- The node follows the layout of the tag exactly when the places of the cell agree and,
unless it refuses the image, every index of the kernel is a value of `int`. -/
theorem black_level_layout_iff {image : Option LibRawImage} {bytes : List UInt8}
    {parsed : ParseResult} {result : DngReadResult} {buffer : RawBuffer}
    {levels : List Float32} {dims : UInt8 × UInt8} {pattern : Vector UInt8 16}
    (hparse : parse bytes = .ok parsed) (hread : DngReader.read image bytes = .ok result)
    (hbuffer : result.buffer = some buffer)
    (hlevels : tagged bytes kTagBlackLevel numericValues = .ok (some levels))
    (hcount : levels.length = 1 ∨ levels.length = 4)
    (hcfa : parsed.metadata.calibration.cfa = some { cfaRepeat := dims, pattern })
    (width height : UInt32) :
    let calibration := getCalibration buffer.metadata.calibration
    Subtracts calibration levels width height ↔
      LevelsAgree (librawBlack image parsed.metadata levels) levels pattern width.toNat
        height.toNat ∧
      (Accepts calibration width height → Indexable width height) := by
  intro calibration
  let level (x y : Nat) := blackAt (packParams calibration) x y
  refine subtracts_iff.trans (and_congr_left fun _ => ?_)
  obtain ⟨parsed',decoded,hparse',hstatus,hdecode,rfl⟩ := read_buffer hread hbuffer
  obtain rfl := Except.ok.inj (hparse.symm.trans hparse')
  obtain ⟨entries,htags⟩ := parse_tags hparse hstatus
  obtain ⟨entry,hentry,hvalues⟩ := tagged_some hlevels htags.table
  obtain ⟨levels',hvalues',hblack⟩ := htags.black entry hentry
  obtain rfl := Except.ok.inj (hvalues.symm.trans hvalues')
  obtain ⟨hcfa',hlevel⟩ := decoded_levels ⟨htags.nonzero.1,htags.nonzero.2.1⟩ hblack hcount hdecode
  have hpattern (x y : Nat) :
      (packParams calibration).cfaPattern[cfaIndex x y] = pattern[2*(y%2) + x%2] := by
    simp [packParams, calibration, getCalibration, rawBuffer, hcfa', hcfa, cfaIndex]
  have hchannel (x y : Nat) :
      (channelAt (packParams calibration) x y).val = min pattern[2*(y%2) + x%2].toNat 3 := by
    exact congrArg (fun level => min level.toNat 3) (hpattern x y)
  have hzero (x y : Nat) :
      channelAt (packParams calibration) x y = 0 ↔ pattern[2*(y%2) + x%2].toNat = 0 := by
    rw [Fin.ext_iff, hchannel]
    change min _ 3 = 0 ↔ _
    omega
  have hparams : (packParams calibration).blackLevel = decoded.metadata.calibration.blackLevel := rfl
  rw [forall_pixels_iff (P := fun x y => level x y = dngLevel levels x y)
    (fun x y => by rw [show level x y = level (x%2) (y%2) from blackAt_cell _ x y,
      dngLevel_cell levels x y])]
  refine forall₂_congr fun x _ => forall₂_congr fun y _ => ?_
  cases hoverride : librawBlack image parsed.metadata levels with
  | some black =>
    rw [hoverride] at hlevel
    rw [show level x y = black from blackAt_replicate x y (hparams.trans hlevel), eq_comm]
  | none =>
    rw [hoverride] at hlevel
    rw [blackAt_eq_dngLevel_iff hcount x y (hparams.trans hlevel), hzero, hchannel]

/-- An RGGB file of two by two pixels with one black level of 64. -/
def oneLevelFile : List UInt8 :=
  tiffFile (rawRows 122 ++ [⟨kTagBlackLevel,kTypeShort,1,64⟩,⟨kTagWhiteLevel,kTypeShort,1,1023⟩])
    [100,0,100,0,100,0,100,0]

theorem oneLevelFile_levels :
    tagged oneLevelFile kTagBlackLevel numericValues = .ok (some [64]) := by
  decide +kernel

/-- The calibration the node gets with the file. -/
theorem oneLevelFile_read : ∃ parsed result buffer,
    parse oneLevelFile = .ok parsed ∧ DngReader.read none oneLevelFile = .ok result ∧
      result.buffer = some buffer ∧ buffer.metadata = parsed.metadata ∧
      parsed.metadata.calibration.cfa =
        some { cfaRepeat := (2,2), pattern := #v[0,1,1,2,0,0,0,0,0,0,0,0,0,0,0,0] } ∧
      parsed.metadata.calibration.whiteLevel = 1023 ∧
      parsed.metadata.calibration.blackLevel = #v[64,0,0,0] := by
  have hcfa : (parse oneLevelFile).map (fun r =>
      r.metadata.calibration.cfa.map (fun c => (c.cfaRepeat,c.pattern))) =
      .ok (some ((2,2),#v[0,1,1,2,0,0,0,0,0,0,0,0,0,0,0,0])) := by
    decide +kernel
  have hlevels : (parse oneLevelFile).map (fun r =>
      (r.metadata.calibration.whiteLevel,r.metadata.calibration.blackLevel.toList)) =
      .ok (1023,[64,0,0,0]) := by
    decide +kernel
  have hread : (DngReader.read none oneLevelFile).map (fun r => r.buffer.isSome) = .ok true := by
    decide +kernel
  obtain ⟨result,hread,hsome⟩ := map_ok.mp hread
  obtain ⟨buffer,hbuffer⟩ := Option.isSome_iff_exists.mp hsome
  obtain ⟨parsed,decoded,hparse,-,hdecode,rfl⟩ := read_buffer hread hbuffer
  simp only [hparse, Except.map, Except.ok.injEq, Prod.mk.injEq] at hcfa hlevels
  obtain ⟨⟨_,_⟩,hcfa,hpattern⟩ := Option.map_eq_some_iff.mp hcfa
  obtain ⟨rfl,rfl⟩ := Prod.mk.inj hpattern
  simp only [decode, decodeWithLibraw] at hdecode
  obtain ⟨raw,-,rfl⟩ := Option.map_eq_some_iff.mp hdecode
  exact ⟨parsed,result,_,hparse,hread,hbuffer,rfl,hcfa,hlevels.1,Vector.toList_inj.mp hlevels.2⟩

theorem black_level_layout_one : ∃ parsed, ∃ buffer : RawBuffer,
    parse oneLevelFile = .ok parsed ∧
    (Subtracts (getCalibration buffer.metadata.calibration) [64] 2 2 ↔
      LevelsAgree (librawBlack none parsed.metadata [64]) [64]
        #v[0,1,1,2,0,0,0,0,0,0,0,0,0,0,0,0] 2 2 ∧
      (Accepts (getCalibration buffer.metadata.calibration) 2 2 → Indexable 2 2)) := by
  obtain ⟨parsed,result,buffer,hparse,hread,hbuffer,-,hcfa,-⟩ := oneLevelFile_read
  exact ⟨parsed,buffer,hparse,black_level_layout_iff hparse hread hbuffer oneLevelFile_levels
    (.inl rfl) hcfa 2 2⟩

/-- The only level of the file is not subtracted from a green pixel: 100 of 1023 stays
100/1023. -/
theorem one_level_misses_green : tagged oneLevelFile kTagBlackLevel numericValues = .ok (some [64]) ∧
    ∃ result buffer out, DngReader.read none oneLevelFile = .ok result ∧
      result.buffer = some buffer ∧
      process (getCalibration buffer.metadata.calibration) 2 2 [100,100,100,100] [0,0,0,0] =
        .ok (.ok out) ∧
      blackAt (packParams (getCalibration buffer.metadata.calibration)) 1 0 = 0 ∧
      out[1]? = some (100/1023) ∧ out[1]? ≠ some (clamp ((100 - 64)/(1023 - 64)) 0 1) := by
  refine ⟨oneLevelFile_levels,?_⟩
  obtain ⟨parsed,result,buffer,-,hread,hbuffer,hmeta,hcfa,hwhite,hblack⟩ := oneLevelFile_read
  have hview : getCalibration buffer.metadata.calibration =
      { hasCfa := true, cfaRepeat := (2,2), cfaPattern := #v[0,1,1,2,0,0,0,0,0,0,0,0,0,0,0,0],
        blackLevel := #v[64,0,0,0], whiteLevel := 1023 } := by
    simp [getCalibration, hmeta, hcfa, hwhite, hblack]
  have hpixel : (process (getCalibration buffer.metadata.calibration) 2 2 [100,100,100,100]
      [0,0,0,0]).map (fun r => r.map (fun out => out[1]?)) = .ok (.ok (some (100/1023))) := by
    rw [hview]
    decide +kernel
  obtain ⟨ended,hrun,hended⟩ := map_ok.mp hpixel
  obtain ⟨out,rfl,hout⟩ := map_ok.mp hended
  refine ⟨result,buffer,out,hread,hbuffer,hrun,?_,hout,?_⟩
  · rw [hview]
    decide +kernel
  · rw [hout]
    decide +kernel

end Cpipe.Nodes.BlacklevelDngLevels
