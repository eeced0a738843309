import Cpipe.Proofs.KernelChains
import Mathlib.Tactic.Linarith

namespace Cpipe.Proofs.WaveletShrink
open Cpipe.Nodes.Kernels Cpipe.Proofs.Kernels

variable {value : Int → Int → Nat → ℚ} {chroma : Int → Int → ℚ} {chromaStrength threshold v : ℚ}

/-! ### One block -/

theorem softThreshold_at_zero (v : ℚ) : softThreshold v 0 = v := by
  rw [softThreshold, sub_zero, neg_zero, add_zero]
  split
  · rfl
  split
  · rfl
  · linarith

/-- A detail is not made larger. -/
theorem softThreshold_sq (h : 0 ≤ threshold) :
    softThreshold v threshold*softThreshold v threshold ≤ v*v := by
  rw [← sq, ← sq, sq_le_sq, softThreshold]
  split
  · rename_i hv
    rw [abs_of_nonneg (by linarith), abs_of_nonneg (by linarith)]
    linarith
  split
  · rename_i hv
    rw [abs_of_nonpos (by linarith), abs_of_nonpos (by linarith)]
    linarith
  · rw [abs_zero]
    exact abs_nonneg v

/-- What the four places of a block hold. -/
def blockSum (f : Int → Int → ℚ) (i j : Int) : ℚ :=
  f (2*i) (2*j) + f (2*i + 1) (2*j) + f (2*i) (2*j + 1) + f (2*i + 1) (2*j + 1)

/-- How far the four places of a block lie from their mean. -/
def blockSpread (f : Int → Int → ℚ) (i j : Int) : ℚ :=
  blockSum (fun x y => (f x y - 1/4*blockSum f i j)^2) i j

/-- A plane whose blocks are shrunk. -/
def shrunk (chroma : Int → Int → ℚ) (threshold : ℚ) (x y : Int) : ℚ :=
  blockValue chroma x y (x % 2) (y % 2) threshold

/-- The details of a block in the order of the source. -/
def details (f : Int → Int → ℚ) (i j : Int) : ℚ × ℚ × ℚ :=
  let p00 := f (2*i) (2*j)
  let p10 := f (2*i + 1) (2*j)
  let p01 := f (2*i) (2*j + 1)
  let p11 := f (2*i + 1) (2*j + 1)
  (1/4*(p00 - p10 + p01 - p11),1/4*(p00 + p10 - p01 - p11),1/4*(p00 - p10 - p01 + p11))

theorem shrunk_block (chroma : Int → Int → ℚ) (threshold : ℚ) (i j : Int) :
    let ll := 1/4*blockSum chroma i j
    let hor := softThreshold (details chroma i j).1 threshold
    let ver := softThreshold (details chroma i j).2.1 threshold
    let dia := softThreshold (details chroma i j).2.2 threshold
    shrunk chroma threshold (2*i) (2*j) = ll + hor + ver + dia ∧
      shrunk chroma threshold (2*i + 1) (2*j) = ll - hor + ver - dia ∧
      shrunk chroma threshold (2*i) (2*j + 1) = ll + hor - ver - dia ∧
      shrunk chroma threshold (2*i + 1) (2*j + 1) = ll - hor - ver + dia := by
  have heven : ∀ k : Int, 2*k/2*2 = 2*k ∧ 2*k % 2 = 0 := fun k => by omega
  have hodd : ∀ k : Int, (2*k + 1)/2*2 = 2*k ∧ (2*k + 1) % 2 = 1 := fun k => by omega
  simp only [shrunk, blockValue, (heven i).1, (heven i).2, (heven j).1, (heven j).2, (hodd i).1,
    (hodd i).2, (hodd j).1, (hodd j).2]
  refine ⟨rfl,rfl,rfl,rfl⟩

/-- A block is its mean and its details. -/
theorem block_details (f : Int → Int → ℚ) (i j : Int) :
    f (2*i) (2*j) = 1/4*blockSum f i j + (details f i j).1 + (details f i j).2.1 +
        (details f i j).2.2 ∧
      f (2*i + 1) (2*j) = 1/4*blockSum f i j - (details f i j).1 + (details f i j).2.1 -
        (details f i j).2.2 ∧
      f (2*i) (2*j + 1) = 1/4*blockSum f i j + (details f i j).1 - (details f i j).2.1 -
        (details f i j).2.2 ∧
      f (2*i + 1) (2*j + 1) = 1/4*blockSum f i j - (details f i j).1 - (details f i j).2.1 +
        (details f i j).2.2 := by
  simp only [blockSum, details]
  refine ⟨?_,?_,?_,?_⟩ <;> ring

theorem shrunk_sum (chroma : Int → Int → ℚ) (threshold : ℚ) (i j : Int) :
    blockSum (shrunk chroma threshold) i j = blockSum chroma i j := by
  obtain ⟨h00,h10,h01,h11⟩ := shrunk_block chroma threshold i j
  rw [blockSum, h00, h10, h01, h11]
  ring

theorem spread_of_details {f : Int → Int → ℚ} {i j : Int} {mean a b c : ℚ}
    (hmean : 1/4*blockSum f i j = mean) (h00 : f (2*i) (2*j) = mean + a + b + c)
    (h10 : f (2*i + 1) (2*j) = mean - a + b - c) (h01 : f (2*i) (2*j + 1) = mean + a - b - c)
    (h11 : f (2*i + 1) (2*j + 1) = mean - a - b + c) :
    blockSpread f i j = 4*(a*a + b*b + c*c) := by
  rw [blockSpread, hmean, blockSum, h00, h10, h01, h11]
  ring

theorem shrunk_spread (h : 0 ≤ threshold) (chroma : Int → Int → ℚ) (i j : Int) :
    blockSpread (shrunk chroma threshold) i j ≤ blockSpread chroma i j := by
  obtain ⟨h00,h10,h01,h11⟩ := shrunk_block chroma threshold i j
  obtain ⟨g00,g10,g01,g11⟩ := block_details chroma i j
  have hmean : 1/4*blockSum (shrunk chroma threshold) i j = 1/4*blockSum chroma i j := by
    rw [shrunk_sum]
  rw [spread_of_details hmean h00 h10 h01 h11, spread_of_details rfl g00 g10 g01 g11]
  have hhor := softThreshold_sq (v := (details chroma i j).1) h
  have hver := softThreshold_sq (v := (details chroma i j).2.1) h
  have hdia := softThreshold_sq (v := (details chroma i j).2.2) h
  linarith

/-- Without a threshold a block is put together again. -/
theorem shrunk_zero (chroma : Int → Int → ℚ) (x y : Int) : shrunk chroma 0 x y = chroma x y := by
  obtain ⟨i,hi⟩ : ∃ i, x = 2*i ∨ x = 2*i + 1 := ⟨x/2,by omega⟩
  obtain ⟨j,hj⟩ : ∃ j, y = 2*j ∨ y = 2*j + 1 := ⟨y/2,by omega⟩
  obtain ⟨h00,h10,h01,h11⟩ := shrunk_block chroma 0 i j
  obtain ⟨g00,g10,g01,g11⟩ := block_details chroma i j
  simp only [softThreshold_at_zero] at h00 h10 h01 h11
  rcases hi with rfl | rfl <;> rcases hj with rfl | rfl
  · exact h00.trans g00.symm
  · exact h01.trans g01.symm
  · exact h10.trans g10.symm
  · exact h11.trans g11.symm

/-! ### The colours -/

/-- The chroma planes of an image. -/
def orange (value : Int → Int → Nat → ℚ) (x y : Int) : ℚ := value x y 0 - value x y 2

def green (value : Int → Int → Nat → ℚ) (x y : Int) : ℚ :=
  value x y 1 - (value x y 0 + value x y 2)*(1/2)

theorem orange_waveletRgb (chromaStrength : ℚ) (value : Int → Int → Nat → ℚ) :
    orange (waveletRgb chromaStrength value) =
      shrunk (orange value) (kChromaThreshold*chromaStrength) := by
  funext x y
  have hco : (fun u v => value u v 0 - value u v 2) = orange value := rfl
  rw [orange, shrunk]
  simp only [waveletRgb, hco, if_true]
  norm_num
  ring

theorem green_waveletRgb (chromaStrength : ℚ) (value : Int → Int → Nat → ℚ) :
    green (waveletRgb chromaStrength value) =
      shrunk (green value) (kChromaThreshold*chromaStrength) := by
  funext x y
  have hcg : (fun u v => value u v 1 - (value u v 0 + value u v 2)*(1/2)) = green value := rfl
  rw [green, shrunk]
  simp only [waveletRgb, hcg, if_true]
  norm_num
  ring

theorem luma_waveletRgb (chromaStrength : ℚ) (value : Int → Int → Nat → ℚ) (x y : Int) :
    waveletLuma (waveletRgb chromaStrength value x y 0) (waveletRgb chromaStrength value x y 1)
        (waveletRgb chromaStrength value x y 2) =
      waveletLuma (value x y 0) (value x y 1) (value x y 2) := by
  simp only [waveletRgb, if_true]
  norm_num
  simp only [waveletLuma]
  ring

/-- A pixel is its luma and its chroma. -/
theorem rgb_of_planes (value : Int → Int → Nat → ℚ) (x y : Int) :
    value x y 0 = waveletLuma (value x y 0) (value x y 1) (value x y 2) - 1/2*green value x y +
        1/2*orange value x y ∧
      value x y 1 = waveletLuma (value x y 0) (value x y 1) (value x y 2) + 1/2*green value x y ∧
      value x y 2 = waveletLuma (value x y 0) (value x y 1) (value x y 2) - 1/2*green value x y -
        1/2*orange value x y := by
  simp only [waveletLuma, green, orange]
  refine ⟨?_,?_,?_⟩ <;> ring

/-- Shrinking the details of the chroma keeps each pixel's luma, keeps the mean of both chroma
planes in each block of two by two, spreads neither further, and changes nothing at strength
zero. What is below zero is taken away behind it. -/
theorem wavelet_keeps (chromaStrength : ℚ) (hstrength : 0 ≤ chromaStrength)
    (value : Int → Int → Nat → ℚ) :
    (∀ x y, waveletLuma (waveletRgb chromaStrength value x y 0)
        (waveletRgb chromaStrength value x y 1) (waveletRgb chromaStrength value x y 2) =
      waveletLuma (value x y 0) (value x y 1) (value x y 2)) ∧
    (∀ i j, ∀ plane ∈ [orange,green],
      blockSum (plane (waveletRgb chromaStrength value)) i j = blockSum (plane value) i j ∧
      blockSpread (plane (waveletRgb chromaStrength value)) i j ≤ blockSpread (plane value) i j) ∧
    (chromaStrength = 0 → ∀ x y, ∀ c < 4, waveletRgb chromaStrength value x y c = value x y c) := by
  have hthreshold : 0 ≤ kChromaThreshold*chromaStrength :=
    mul_nonneg (by norm_num [kChromaThreshold]) hstrength
  refine ⟨luma_waveletRgb chromaStrength value,fun i j plane hplane => ?_,fun hzero x y c hc => ?_⟩
  · have hshrunk : plane (waveletRgb chromaStrength value) =
        shrunk (plane value) (kChromaThreshold*chromaStrength) := by
      rcases List.mem_pair.mp hplane with rfl | rfl
      · exact orange_waveletRgb chromaStrength value
      · exact green_waveletRgb chromaStrength value
    rw [hshrunk]
    exact ⟨shrunk_sum _ _ i j,shrunk_spread hthreshold _ i j⟩
  · subst hzero
    have ho : orange (waveletRgb 0 value) x y = orange value x y := by
      rw [orange_waveletRgb, mul_zero, shrunk_zero]
    have hg : green (waveletRgb 0 value) x y = green value x y := by
      rw [green_waveletRgb, mul_zero, shrunk_zero]
    have hl := luma_waveletRgb 0 value x y
    obtain ⟨r,g,b⟩ := rgb_of_planes (waveletRgb 0 value) x y
    obtain ⟨r',g',b'⟩ := rgb_of_planes value x y
    rw [ho, hg, hl] at r b
    rw [hg, hl] at g
    obtain rfl | rfl | rfl | rfl : c = 0 ∨ c = 1 ∨ c = 2 ∨ c = 3 := by omega
    · exact r.trans r'.symm
    · exact g.trans g'.symm
    · exact b.trans b'.symm
    · rfl

theorem wavelet_keeps_step : waveletLuma
    (waveletRgb 1 (fun x _ c => x + c) 1 0 0) (waveletRgb 1 (fun x _ c => x + c) 1 0 1)
      (waveletRgb 1 (fun x _ c => x + c) 1 0 2) = waveletLuma 1 2 3 := by
  have hkeeps := (wavelet_keeps 1 zero_le_one (fun x _ c => x + c)).1 1 0
  rw [hkeeps]
  norm_num

end Cpipe.Proofs.WaveletShrink
