import Cpipe.Color.HeifWriter

namespace Cpipe.Color.HeifWriter
open Library.Bytes (Fault)
open Library.Checked (foldlM_progress)
open Library.Raster

variable {σ τ : Type} {e : Encoding σ τ} {image : ImageView σ}

/-- The memory behind the view holds its last pixel, as the callers promise. -/
def Readable (image : ImageView σ) : Prop :=
  ((image.height.toNat - 1)*image.stridePixels.toNat + image.width.toNat)*4 ≤
    (image.pixels.getD []).length

/-! ### Sizes -/

theorem validImage_iff : validImage image ↔ image.pixels.isSome ∧ 0 < image.width.toNat ∧
    0 < image.height.toNat ∧ image.width.toNat ≤ image.stridePixels.toNat ∧
      image.width.toNat ≤ 0x7fffffff ∧ image.height.toNat ≤ 0x7fffffff := by
  simp only [validImage, Bool.and_eq_true, decide_eq_true_eq, UInt32.lt_iff_toNat_lt,
    UInt32.le_iff_toNat_le, and_assoc]
  rfl

theorem toNat_half {n : UInt32} (h : n.toNat ≤ 0x7fffffff) :
    ((n + 1)/2).toNat = (n.toNat + 1)/2 := by
  rw [UInt32.toNat_div, UInt32.toNat_add]
  change (n.toNat + 1) % 2^32/2 = _
  omega

theorem chromaWidth_toNat (h : validImage image) :
    (chromaWidth image).toNat = (image.width.toNat + 1)/2 :=
  toNat_half (validImage_iff.mp h).2.2.2.2.1

theorem chromaHeight_toNat (h : validImage image) :
    (chromaHeight image).toNat = (image.height.toNat + 1)/2 :=
  toNat_half (validImage_iff.mp h).2.2.2.2.2

/-! ### Cells -/

/-- The pixels of an image that fall on one chroma sample. -/
def cell (width height i j : Nat) : Finset (Nat × Nat) :=
  (Finset.range width ×ˢ Finset.range height).filter fun p => p.1/2 = i ∧ p.2/2 = j

theorem mem_cell {width height i j : Nat} {p : Nat × Nat} :
    p ∈ cell width height i j ↔ (p.1 < width ∧ p.2 < height) ∧ p.1/2 = i ∧ p.2/2 = j := by
  simp [cell]

theorem cell_card_pos {width height i j : Nat} (hi : i < (width + 1)/2) (hj : j < (height + 1)/2) :
    1 ≤ (cell width height i j).card := by
  rw [Nat.one_le_iff_ne_zero, Finset.card_ne_zero]
  refine ⟨(2*i,2*j),mem_cell.mpr ?_⟩
  dsimp only
  omega

theorem cell_card_le (width height i j : Nat) : (cell width height i j).card ≤ 4 := by
  have hsub : cell width height i j ⊆ ({2*i,2*i + 1} : Finset Nat) ×ˢ {2*j,2*j + 1} := by
    intro p hp
    obtain ⟨-,hi,hj⟩ := mem_cell.mp hp
    simp only [Finset.mem_product, Finset.mem_insert, Finset.mem_singleton]
    omega
  calc (cell width height i j).card
      ≤ (({2*i,2*i + 1} : Finset Nat) ×ˢ {2*j,2*j + 1}).card := Finset.card_le_card hsub
    _ ≤ 4 := by
      rw [Finset.card_product]
      exact Nat.mul_le_mul Finset.card_le_two Finset.card_le_two

/-- Every pixel falls on one sample. -/
theorem exists_unique_cell {width height : Nat} {p : Nat × Nat} (hx : p.1 < width)
    (hy : p.2 < height) : ∃! ij : Nat × Nat, ij.1 < (width + 1)/2 ∧ ij.2 < (height + 1)/2 ∧
      p ∈ cell width height ij.1 ij.2 := by
  refine ⟨(p.1/2,p.2/2),⟨?_,?_,mem_cell.mpr ⟨⟨hx,hy⟩,rfl,rfl⟩⟩,?_⟩
  · dsimp only
    omega
  · dsimp only
    omega
  · rintro ij ⟨-,-,hmem⟩
    obtain ⟨-,hi,hj⟩ := mem_cell.mp hmem
    exact Prod.ext hi.symm hj.symm

/-- Where the chroma of a pixel goes in a plane of the given width. -/
def chromaIndex (width : Nat) (p : Nat × Nat) : Nat := p.2/2*width + p.1/2

theorem index_lt {width height i j : Nat} (hi : i < width) (hj : j < height) :
    j*width + i < width*height := by
  have hin : InImage 1 width height (i,j,0) := ⟨hi,hj,Nat.one_pos⟩
  simpa [offset] using offset_lt hin

theorem index_inj {width i i' j j' : Nat} (hi : i < width) (hi' : i' < width)
    (h : j*width + i = j'*width + i') : i = i' ∧ j = j' := by
  have hx : i = i' := by
    have := congrArg (· % width) h
    simpa [Nat.mul_comm _ width, Nat.mul_add_mod, Nat.mod_eq_of_lt hi, Nat.mod_eq_of_lt hi']
      using this
  subst hx
  exact ⟨rfl,Nat.eq_of_mul_eq_mul_right (by omega) (Nat.add_right_cancel h)⟩

/-- The pixels with one place in the plane are those of one cell. -/
theorem filter_index {width height i j : Nat} (hi : i < (width + 1)/2) :
    (pixels width height).toFinset.filter
        (fun p => chromaIndex ((width + 1)/2) p = j*((width + 1)/2) + i) =
      cell width height i j := by
  ext p
  rw [Finset.mem_filter, List.mem_toFinset, mem_pixels, mem_cell]
  refine and_congr_right fun hp => ⟨fun h => ?_,fun h => ?_⟩
  · exact index_inj (by omega) hi h
  · rw [chromaIndex, h.1, h.2]

theorem tally_counts {ι : Type} (place : ι → Nat) (is : List ι) (k : Nat) :
    tally place (fun _ => (1 : UInt8)) is k = UInt8.ofNat (tally place (fun _ => 1) is k) := by
  induction is using List.reverseRecOn with
  | nil => rfl
  | append_singleton is i ih =>
    rw [tally_append, tally_append, ih]
    split_ifs
    · rw [UInt8.ofNat_add]
      rfl
    · rfl

/-! ### The first pass -/

/-- The color the code reads for a pixel. -/
def pixelAt (e : Encoding σ τ) (image : ImageView σ) (p : Nat × Nat) : Rgb :=
  match readPixel e image p with
  | .ok c => c
  | .error _ => ⟨0,0,0⟩

theorem readPixel_ok {p : Nat × Nat} (h : Readable image) (hx : p.1 < image.width.toNat)
    (hy : p.2 < image.height.toNat) : readPixel e image p = .ok (pixelAt e image p) := by
  have hrow : p.2*image.stridePixels.toNat ≤
      (image.height.toNat - 1)*image.stridePixels.toNat := Nat.mul_le_mul_right _ (by omega)
  have hroom (c : Nat) (hc : c < 4) : ∃ v, load (image.pixels.getD [])
      (p.2*image.stridePixels.toNat*4 + (p.1*4 + c)) = .ok v := by
    have hlt : p.2*image.stridePixels.toNat*4 + (p.1*4 + c) < (image.pixels.getD []).length := by
      unfold Readable at h
      omega
    exact ⟨_,load_ok (List.getElem?_eq_getElem hlt)⟩
  obtain ⟨r,hr⟩ := hroom 0 (by decide)
  obtain ⟨g,hg⟩ := hroom 1 (by decide)
  obtain ⟨b,hb⟩ := hroom 2 (by decide)
  have hread : readPixel e image p =
      .ok { r := e.sample r, g := e.sample g, b := e.sample b } := by
    simp only [readPixel, hr, hg, hb, bind, Except.bind, pure, Except.pure]
  rw [pixelAt, hread]

/-- The planes after some of the pixels. -/
structure Summed (e : Encoding σ τ) (image : ImageView σ) (done : List (Nat × Nat)) (s : Sums τ) :
    Prop where
  length : s.y.length = image.width.toNat*image.height.toNat
  inImage : ∀ p ∈ done, p.1 < image.width.toNat
  luma : ∀ p ∈ done, s.y[p.2*image.width.toNat + p.1]? =
    some (e.quantize (e.luma (pixelAt e image p)))
  cb : Tallied (chromaSize image) (chromaIndex (chromaWidth image).toNat)
    (fun p => e.cb (pixelAt e image p)) done s.cbAccum
  cr : Tallied (chromaSize image) (chromaIndex (chromaWidth image).toNat)
    (fun p => e.cr (pixelAt e image p)) done s.crAccum
  counts : Tallied (chromaSize image) (chromaIndex (chromaWidth image).toNat)
    (fun _ => 1) done s.counts

theorem Summed.addPixel {done : List (Nat × Nat)} {s : Sums τ} {p : Nat × Nat}
    (hs : Summed e image done s) (hv : validImage image) (hr : Readable image)
    (hx : p.1 < image.width.toNat) (hy : p.2 < image.height.toNat) :
    ∃ s', HeifWriter.addPixel e image s p = .ok s' ∧ Summed e image (done ++ [p]) s' := by
  have hchroma : chromaIndex (chromaWidth image).toNat p < chromaSize image := by
    refine index_lt ?_ ?_
    · rw [chromaWidth_toNat hv]
      omega
    · rw [chromaHeight_toNat hv]
      omega
  have hplace : p.2*image.width.toNat + p.1 < s.y.length := hs.length ▸ index_lt hx hy
  obtain ⟨cb,hcb,hcb'⟩ := hs.cb.add hchroma
  obtain ⟨cr,hcr,hcr'⟩ := hs.cr.add hchroma
  obtain ⟨counts,hcounts,hcounts'⟩ := hs.counts.add hchroma
  have hdone : ∀ q ∈ done ++ [p], q.1 < image.width.toNat := by
    intro q hq
    rcases List.mem_append.mp hq with hq | hq
    · exact hs.inImage q hq
    · obtain rfl := List.mem_singleton.mp hq
      exact hx
  refine ⟨⟨s.y.set (p.2*image.width.toNat + p.1) (e.quantize (e.luma (pixelAt e image p))),cb,cr,
    counts⟩,?_,?_,hdone,?_,hcb',hcr',hcounts'⟩
  · unfold chromaIndex at hcb hcr hcounts
    simp only [HeifWriter.addPixel, readPixel_ok hr hx hy, store_ok hplace, hcb, hcr, hcounts,
      bind, Except.bind, pure, Except.pure]
  · rw [List.length_set, hs.length]
  · intro q hq
    rw [List.getElem?_set]
    by_cases hsame : p.2*image.width.toNat + p.1 = q.2*image.width.toNat + q.1
    · obtain ⟨h1,h2⟩ := index_inj hx (hdone q hq) hsame
      rw [if_pos hsame, if_pos hplace, Prod.ext h1 h2]
    · rw [if_neg hsame]
      refine hs.luma q ((List.mem_append.mp hq).resolve_right fun hq => ?_)
      obtain rfl := List.mem_singleton.mp hq
      exact hsame rfl

theorem addPixels_ok [OfNat τ 0] (hv : validImage image) (hr : Readable image) :
    ∃ s, addPixels e image = .ok s ∧
      Summed e image (pixels image.width.toNat image.height.toNat) s := by
  have hstep : ∀ done s p, p ∈ pixels image.width.toNat image.height.toNat →
      Summed e image done s →
      ∃ s', HeifWriter.addPixel e image s p = .ok s' ∧ Summed e image (done ++ [p]) s' := by
    intro done s p hp hs
    obtain ⟨hx,hy⟩ := mem_pixels.mp hp
    exact hs.addPixel hv hr hx hy
  refine foldlM_progress (Summed e image) hstep [] _
    ⟨List.length_replicate,by simp,by simp,?_,?_,?_⟩
  · exact Tallied.start _ _ _
  · exact Tallied.start _ _ _
  · exact Tallied.start _ _ _

/-! ### The second pass -/

/-- The planes after some of the samples. -/
structure Averaged (e : Encoding σ τ) (n : Nat) (cb cr : Nat → ℚ) (done : List Nat)
    (planes : List τ × List τ) : Prop where
  cbLength : planes.1.length = n
  crLength : planes.2.length = n
  cb : ∀ k ∈ done, planes.1[k]? = some (e.quantize (cb k))
  cr : ∀ k ∈ done, planes.2[k]? = some (e.quantize (cr k))

/-- A plane with one more sample stored. -/
theorem stored {α : Type} {cells : List α} {v : Nat → α} {done : List Nat} {k : Nat}
    (h : ∀ l ∈ done, cells[l]? = some (v l)) (hk : k < cells.length) :
    ∀ l ∈ done ++ [k], (cells.set k (v k))[l]? = some (v l) := by
  intro l hl
  rw [List.getElem?_set]
  by_cases hsame : k = l
  · subst hsame
    rw [if_pos rfl, if_pos hk]
  · rw [if_neg hsame]
    refine h l ((List.mem_append.mp hl).resolve_right fun hl => ?_)
    exact hsame (List.mem_singleton.mp hl).symm

theorem averages_ok [OfNat τ 0] {s : Sums τ} {n : Nat} {cb cr : Nat → ℚ} {counts : Nat → UInt8}
    (hcb : ∀ k < n, s.cbAccum[k]? = some (cb k)) (hcr : ∀ k < n, s.crAccum[k]? = some (cr k))
    (hcounts : ∀ k < n, s.counts[k]? = some (counts k)) :
    ∃ planes, (List.range n).foldlM (average e s) (List.replicate n 0,List.replicate n 0) =
        .ok planes ∧
      Averaged e n (fun k => cb k/(counts k).toNat) (fun k => cr k/(counts k).toNat) (List.range n)
        planes := by
  have hstep : ∀ done planes k, k ∈ List.range n →
      Averaged e n (fun k => cb k/(counts k).toNat) (fun k => cr k/(counts k).toNat) done planes →
      ∃ planes', average e s planes k = .ok planes' ∧
        Averaged e n (fun k => cb k/(counts k).toNat) (fun k => cr k/(counts k).toNat)
          (done ++ [k]) planes' := by
    intro done planes k hk h
    have hlt := List.mem_range.mp hk
    have hcbPlace : k < planes.1.length := h.cbLength ▸ hlt
    have hcrPlace : k < planes.2.length := h.crLength ▸ hlt
    refine ⟨(planes.1.set k (e.quantize (cb k/(counts k).toNat)),
      planes.2.set k (e.quantize (cr k/(counts k).toNat))),?_,?_,?_,?_,?_⟩
    · simp only [average, load_ok (hcounts k hlt), load_ok (hcb k hlt), load_ok (hcr k hlt),
        store_ok hcbPlace, store_ok hcrPlace, bind, Except.bind, pure, Except.pure]
    · rw [List.length_set, h.cbLength]
    · rw [List.length_set, h.crLength]
    · exact stored h.cb hcbPlace
    · exact stored h.cr hcrPlace
  exact foldlM_progress _ hstep [] _ ⟨List.length_replicate,List.length_replicate,by simp,by simp⟩

/-! ### Both passes -/

/-- One chroma sample: its divisor counts the pixels of its cell, and it is the quantised
mean of their chroma. -/
structure Sampled (e : Encoding σ τ) (image : ImageView σ) (s : Sums τ) (out : Ycbcr420 τ)
    (i j : Nat) (divisor : UInt8) : Prop where
  counted : s.counts[j*out.chromaWidth.toNat + i]? = some divisor
  card : divisor.toNat = (cell image.width.toNat image.height.toNat i j).card
  pos : 1 ≤ divisor.toNat
  le_four : divisor.toNat ≤ 4
  cb : out.cb[j*out.chromaWidth.toNat + i]? = some (e.quantize
    ((∑ p ∈ cell image.width.toNat image.height.toNat i j, e.cb (pixelAt e image p))/divisor.toNat))
  cr : out.cr[j*out.chromaWidth.toNat + i]? = some (e.quantize
    ((∑ p ∈ cell image.width.toNat image.height.toNat i j, e.cr (pixelAt e image p))/divisor.toNat))

/-- The conversion of an image never leaves a plane, and it samples the chroma. -/
structure Subsampled [OfNat τ 0] (e : Encoding σ τ) (image : ImageView σ) : Prop where
  read : ∀ p, p.1 < image.width.toNat → p.2 < image.height.toNat →
    readPixel e image p = .ok (pixelAt e image p)
  run : ∃ s out, addPixels e image = .ok s ∧ rgbToYcbcr420 e image = .ok out ∧
    out.chromaWidth.toNat = (image.width.toNat + 1)/2 ∧
    out.chromaHeight.toNat = (image.height.toNat + 1)/2 ∧
    out.cb.length = out.chromaWidth.toNat*out.chromaHeight.toNat ∧
    out.cr.length = out.chromaWidth.toNat*out.chromaHeight.toNat ∧
    (∀ p, p.1 < image.width.toNat → p.2 < image.height.toNat →
      out.y[p.2*image.width.toNat + p.1]? = some (e.quantize (e.luma (pixelAt e image p)))) ∧
    ∀ i < out.chromaWidth.toNat, ∀ j < out.chromaHeight.toNat,
      ∃ divisor, Sampled e image s out i j divisor
  once : ∀ p, p.1 < image.width.toNat → p.2 < image.height.toNat →
    ∃! ij : Nat × Nat, ij.1 < (image.width.toNat + 1)/2 ∧ ij.2 < (image.height.toNat + 1)/2 ∧
      p ∈ cell image.width.toNat image.height.toNat ij.1 ij.2

/-- What is added up at the place of a sample comes from the pixels of its cell. -/
theorem tally_cell {α : Type} [AddCommMonoid α] {i j : Nat} (hv : validImage image)
    (hi : i < (chromaWidth image).toNat) (v : Nat × Nat → α) :
    tally (chromaIndex (chromaWidth image).toNat) v
        (pixels image.width.toNat image.height.toNat) (j*(chromaWidth image).toNat + i) =
      ∑ p ∈ cell image.width.toNat image.height.toNat i j, v p := by
  rw [chromaWidth_toNat hv] at *
  rw [tally_eq_sum (nodup_pixels _ _), filter_index hi]

theorem count_cell {i j : Nat} (hv : validImage image) (hi : i < (chromaWidth image).toNat) :
    (tally (chromaIndex (chromaWidth image).toNat) (fun _ => (1 : UInt8))
        (pixels image.width.toNat image.height.toNat) (j*(chromaWidth image).toNat + i)).toNat =
      (cell image.width.toNat image.height.toNat i j).card := by
  have hle := cell_card_le image.width.toNat image.height.toNat i j
  rw [tally_counts, tally_cell hv hi, ← Finset.card_eq_sum_ones, UInt8.toNat_ofNat']
  omega

theorem subsampled [OfNat τ 0] (hv : validImage image) (hr : Readable image) :
    Subsampled e image := by
  refine ⟨fun p hx hy => readPixel_ok hr hx hy,?_,fun p hx hy => exists_unique_cell hx hy⟩
  obtain ⟨s,hs,hsum⟩ := addPixels_ok (e := e) hv hr
  obtain ⟨planes,hplanes,havg⟩ := averages_ok (e := e) hsum.cb.cell hsum.cr.cell hsum.counts.cell
  refine ⟨s,⟨s.y,planes.1,planes.2,chromaWidth image,chromaHeight image⟩,hs,?_,
    chromaWidth_toNat hv,chromaHeight_toNat hv,havg.cbLength,havg.crLength,?_,?_⟩
  · simp only [rgbToYcbcr420, hs, hplanes, bind, Except.bind, pure, Except.pure]
  · exact fun p hx hy => hsum.luma p (mem_pixels.mpr ⟨hx,hy⟩)
  · intro i hi j hj
    have hk := List.mem_range.mpr (index_lt hi hj)
    have hcard := count_cell (j := j) hv hi
    have hpos := cell_card_pos (chromaWidth_toNat hv ▸ hi) (chromaHeight_toNat hv ▸ hj)
    have hle := cell_card_le image.width.toNat image.height.toNat i j
    refine ⟨_,hsum.counts.cell _ (List.mem_range.mp hk),hcard,hcard ▸ hpos,hcard ▸ hle,?_,?_⟩
    · rw [← tally_cell hv hi]
      exact havg.cb _ hk
    · rw [← tally_cell hv hi]
      exact havg.cr _ hk

/-- Both writers sample the chroma, each with its own samples, weights and levels. -/
theorem chroma_subsampled :
    (∀ image : Rgba8ImageView, validImage image → Readable image → Subsampled sdr image) ∧
      ∀ image : Rgba16ImageView, validImage image → Readable image → Subsampled hdr image :=
  ⟨fun _ hv hr => subsampled hv hr,fun _ hv hr => subsampled hv hr⟩

/-- Three by three pixels in rows of four, in either format: one whole cell, two halves and a
corner. -/
theorem chroma_subsampled_odd :
    Subsampled sdr ⟨some ((List.range 48).map (fun i => .ofNat (5*i))),3,3,4⟩ ∧
      Subsampled hdr ⟨some ((List.range 48).map (fun i => .ofNat (1300*i))),3,3,4⟩ :=
  ⟨chroma_subsampled.1 _ (by decide) (by unfold Readable; decide),
    chroma_subsampled.2 _ (by decide) (by unfold Readable; decide)⟩

end Cpipe.Color.HeifWriter
