import Cpipe.Nodes.Demosaic
import Mathlib.Tactic.FieldSimp
import Mathlib.Tactic.Linarith
import Mathlib.Tactic.Ring

namespace Cpipe.Nodes.Demosaic
open Library.Stencil

variable {K : Type}

/-! ### The pattern -/

namespace Input

variable {input : Input K} {x y : Int}

/-- The colours of a pixel, its horizontal, its vertical and its diagonal neighbours. -/
structure Site (input : Input K) (x y : Int) (own horizontal vertical diagonal : Nat) : Prop where
  own : input.cfaAt x y = own
  left : input.cfaAt (x - 1) y = horizontal
  right : input.cfaAt (x + 1) y = horizontal
  up : input.cfaAt x (y - 1) = vertical
  down : input.cfaAt x (y + 1) = vertical
  upLeft : input.cfaAt (x - 1) (y - 1) = diagonal
  upRight : input.cfaAt (x + 1) (y - 1) = diagonal
  downLeft : input.cfaAt (x - 1) (y + 1) = diagonal
  downRight : input.cfaAt (x + 1) (y + 1) = diagonal

theorem cfaAt_congr {u v : Int} (hx : x % 2 = u % 2) (hy : y % 2 = v % 2) :
    input.cfaAt x y = input.cfaAt u v := by
  rw [cfaAt, cfaAt, hx, hy]

/-- Around each pixel a supported pattern shows one of the supported patterns. -/
theorem around_mem (h : input.cfaPattern ∈ kSupported) (x y : Int) :
    [input.cfaAt x y,input.cfaAt (x + 1) y,input.cfaAt x (y + 1),input.cfaAt (x + 1) (y + 1)] ∈
      kSupported := by
  have hflip (v : Int) : (v + 1) % 2 = 1 - v % 2 := by omega
  have hx : x % 2 = 0 ∨ x % 2 = 1 := by omega
  have hy : y % 2 = 0 ∨ y % 2 = 1 := by omega
  simp only [kSupported, List.mem_cons, List.not_mem_nil, or_false] at h
  rcases h with h | h | h | h <;> rcases hx with hx | hx <;> rcases hy with hy | hy <;>
    simp [cfaAt, kSupported, h, hx, hy, hflip]

theorem site (h : input.cfaPattern ∈ kSupported) (x y : Int) :
    input.Site x y 0 1 1 2 ∨ input.Site x y 2 1 1 0 ∨ input.Site x y 1 0 2 1 ∨
      input.Site x y 1 2 0 1 := by
  have hs : input.Site x y (input.cfaAt x y) (input.cfaAt (x + 1) y) (input.cfaAt x (y + 1))
      (input.cfaAt (x + 1) (y + 1)) := by
    constructor <;> exact cfaAt_congr (by omega) (by omega)
  have hmem := around_mem h x y
  simp only [kSupported, List.mem_cons, List.cons.injEq, List.not_mem_nil, or_false,
    and_true] at hmem
  rcases hmem with ⟨h1,h2,h3,h4⟩ | ⟨h1,h2,h3,h4⟩ | ⟨h1,h2,h3,h4⟩ | ⟨h1,h2,h3,h4⟩ <;>
    rw [h1, h2, h3, h4] at hs <;> simp only [hs, true_or, or_true]

/-! ### Reads that show the colour -/

variable [Field K] [LinearOrder K] {rgb : Rgb K}

/-- The image, continued by its border, has the value of the colour here. -/
def Shows (input : Input K) (rgb : Rgb K) (x y : Int) : Prop :=
  input.clamped x y = rgb.channel (input.cfaAt x y)

omit [LinearOrder K] in
theorem Site.reads {own horizontal vertical diagonal : Nat}
    (hs : input.Site x y own horizontal vertical diagonal)
    (h : Around (input.Shows rgb) x y) :
    input.clamped x y = rgb.channel own ∧
      (input.clamped (x - 1) y = rgb.channel horizontal ∧
        input.clamped (x + 1) y = rgb.channel horizontal) ∧
      (input.clamped x (y - 1) = rgb.channel vertical ∧
        input.clamped x (y + 1) = rgb.channel vertical) ∧
      input.clamped (x - 1) (y - 1) = rgb.channel diagonal ∧
      input.clamped (x + 1) (y - 1) = rgb.channel diagonal ∧
      input.clamped (x - 1) (y + 1) = rgb.channel diagonal ∧
      input.clamped (x + 1) (y + 1) = rgb.channel diagonal := by
  have hread {u v : Int} {colour : Nat} (hc : input.cfaAt u v = colour)
      (hu : x - 1 ≤ u ∧ u ≤ x + 1) (hv : y - 1 ≤ v ∧ v ≤ y + 1) :
      input.clamped u v = rgb.channel colour :=
    hc ▸ h u v hu hv
  exact ⟨hread hs.own (by omega) (by omega),
    ⟨hread hs.left (by omega) (by omega),hread hs.right (by omega) (by omega)⟩,
    ⟨hread hs.up (by omega) (by omega),hread hs.down (by omega) (by omega)⟩,
    hread hs.upLeft (by omega) (by omega),hread hs.upRight (by omega) (by omega),
    hread hs.downLeft (by omega) (by omega),hread hs.downRight (by omega) (by omega)⟩

variable [IsStrictOrderedRing K]

theorem mean_two (v : K) : 2⁻¹*(v + v) = v := by ring

theorem mean_four (v : K) : 4⁻¹*(v + v + v + v) = v := by ring

theorem bilinear_keeps (hp : input.cfaPattern ∈ kSupported) (h : Around (input.Shows rgb) x y) :
    input.bilinear x y = rgb := by
  rcases input.site hp x y with hs | hs | hs | hs <;>
    simp [bilinear, hs.reads h, hs.own, hs.left, Rgb.channel, mean_two, mean_four]

/-! ### Greens that are the colour's -/

/-- Between green neighbours the green is the colour's, whichever direction is chosen. -/
theorem rcdGreen_keeps (hp : input.cfaPattern ∈ kSupported) (h : Around (input.Shows rgb) x y) :
    input.rcdGreen x y = rgb.g := by
  rcases input.site hp x y with hs | hs | hs | hs <;>
    simp [rcdGreen, hs.reads h, hs.own, Rgb.channel, mean_two]

theorem mul_ratios (green value : K) (hg : green ≠ 0) :
    green*2⁻¹*(value/green + value/green) = value ∧
      green*4⁻¹*(value/green + value/green + value/green + value/green) = value := by
  constructor <;> field_simp <;> ring

theorem rcd_keeps (hp : input.cfaPattern ∈ kSupported) (h : Around (input.Shows rgb) x y)
    (hgreen : Around (fun u v => input.rcdGreen u v = rgb.g) x y)
    (hr : 0 ≤ rgb.r) (hg : kRatioEpsilon < rgb.g) (hb : 0 ≤ rgb.b) :
    input.rcd x y = rgb := by
  have hpos : 0 < rgb.g := lt_trans (by norm_num [kRatioEpsilon]) hg
  have hgreen' u v (hu : x - 1 ≤ u ∧ u ≤ x + 1) (hv : y - 1 ≤ v ∧ v ≤ y + 1) :
      input.rcdGreen u v = rgb.g := hgreen u v hu hv
  rcases input.site hp x y with hs | hs | hs | hs
  all_goals
    simp (disch := omega) only [rcd, safeRatio, hs.reads h, hs.own, hs.left, hgreen',
      max_eq_left hg.le]
    simp [Rgb.channel, mul_ratios _ _ hpos.ne', hr, hpos.le, hb]

/-! ### Greens of the lesser gradient -/

theorem lesser_gradient {green gh gv gradH gradV : K}
    (hh : gradH ≤ gradV → gh = green) (hv : gradV ≤ gradH → gv = green) :
    (if gradH < gradV then gh else if gradV < gradH then gv else 1/2*(gh + gv)) = green := by
  split_ifs with h1 h2
  · exact hh h1.le
  · exact hv h2.le
  · rw [hh (not_lt.mp h2), hv (not_lt.mp h1)]
    ring

/-- The estimate along a line on which the colour is constant. -/
theorem estimate_flat (green center : K) :
    1/2*(green + green) + 1/4*(2*center - center - center) = green := by
  ring

/-- A line without gradient that has one green neighbour. -/
theorem estimate_level {green center a b far far' : K}
    (hgrad : |a - b| + |far - center| + |far' - center| ≤ 0) (h : a = green ∨ b = green) :
    1/2*(a + b) + 1/4*(2*center - far - far') = green := by
  have h1 := abs_nonneg (a - b)
  have h2 := abs_nonneg (far - center)
  have h3 := abs_nonneg (far' - center)
  have hab : a = b := sub_eq_zero.mp (abs_nonpos_iff.mp (by linarith))
  have hfar : far = center := sub_eq_zero.mp (abs_nonpos_iff.mp (by linarith))
  have hfar' : far' = center := sub_eq_zero.mp (abs_nonpos_iff.mp (by linarith))
  have hg : b = green := h.elim (fun h => hab ▸ h) id
  rw [hab, hfar, hfar', hg]
  ring

omit [LinearOrder K] [IsStrictOrderedRing K] in
theorem Shows.same {u v : Int} (h : input.Shows rgb u v) (hown : input.Shows rgb x y)
    (hu : u % 2 = x % 2) (hv : v % 2 = y % 2) : input.clamped u v = input.clamped x y := by
  rw [h, hown, cfaAt_congr hu hv]

/-- Along a row or a column that shows the colour, with one more neighbour across. -/
def Line (input : Input K) (rgb : Rgb K) (x y : Int) : Prop :=
  (∀ u, x - 2 ≤ u ∧ u ≤ x + 2 → input.Shows rgb u y) ∧
      (input.Shows rgb x (y - 1) ∨ input.Shows rgb x (y + 1)) ∨
    (∀ v, y - 2 ≤ v ∧ v ≤ y + 2 → input.Shows rgb x v) ∧
      (input.Shows rgb (x - 1) y ∨ input.Shows rgb (x + 1) y)

theorem amazeGreen_keeps (hp : input.cfaPattern ∈ kSupported) (hown : input.Shows rgb x y)
    (h : input.cfaAt x y ≠ 1 → input.Line rgb x y) : input.amazeGreen x y = rgb.g := by
  by_cases hgreen : input.cfaAt x y = 1
  · rw [amazeGreen, if_pos hgreen, hown, hgreen]
    rfl
  have hone : input.cfaAt (x - 1) y = 1 ∧ input.cfaAt (x + 1) y = 1 ∧
      input.cfaAt x (y - 1) = 1 ∧ input.cfaAt x (y + 1) = 1 := by
    rcases input.site hp x y with hs | hs | hs | hs
    · exact ⟨hs.left,hs.right,hs.up,hs.down⟩
    · exact ⟨hs.left,hs.right,hs.up,hs.down⟩
    · exact absurd hs.own hgreen
    · exact absurd hs.own hgreen
  have near {u v : Int} (hs : input.Shows rgb u v) (hc : input.cfaAt u v = 1) :
      input.clamped u v = rgb.g := by
    rw [hs, hc]
    rfl
  obtain ⟨hleft,hright,hup,hdown⟩ := hone
  rw [amazeGreen, if_neg hgreen]
  rcases h hgreen with ⟨hrow,hcol⟩ | ⟨hcol,hrow⟩
  · have h1 := near (hrow (x - 1) (by omega)) hleft
    have h2 := near (hrow (x + 1) (by omega)) hright
    have h3 := (hrow (x - 2) (by omega)).same hown (by omega) rfl
    have h4 := (hrow (x + 2) (by omega)).same hown (by omega) rfl
    have hn : input.clamped x (y - 1) = rgb.g ∨ input.clamped x (y + 1) = rgb.g :=
      hcol.imp (near · hup) (near · hdown)
    simp only [h1, h2, h3, h4, sub_self, abs_zero, add_zero]
    exact lesser_gradient (fun _ => estimate_flat _ _) (fun hle => estimate_level hle hn)
  · have h1 := near (hcol (y - 1) (by omega)) hup
    have h2 := near (hcol (y + 1) (by omega)) hdown
    have h3 := (hcol (y - 2) (by omega)).same hown rfl (by omega)
    have h4 := (hcol (y + 2) (by omega)).same hown rfl (by omega)
    have hn : input.clamped (x - 1) y = rgb.g ∨ input.clamped (x + 1) y = rgb.g :=
      hrow.imp (near · hleft) (near · hright)
    simp only [h1, h2, h3, h4, sub_self, abs_zero, add_zero]
    exact lesser_gradient (fun hle => estimate_level hle hn) (fun _ => estimate_flat _ _)

theorem amaze_keeps (hp : input.cfaPattern ∈ kSupported) (h : Around (input.Shows rgb) x y)
    (hgreen : Around (fun u v => input.amazeGreen u v = rgb.g) x y)
    (hr : 0 ≤ rgb.r) (hg : 0 ≤ rgb.g) (hb : 0 ≤ rgb.b) : input.amaze x y = rgb := by
  have hgreen' u v (hu : x - 1 ≤ u ∧ u ≤ x + 1) (hv : y - 1 ≤ v ∧ v ≤ y + 1) :
      input.amazeGreen u v = rgb.g := hgreen u v hu hv
  rcases input.site hp x y with hs | hs | hs | hs
  all_goals
    simp (disch := omega) only [amaze, chroma, hs.reads h, hs.own, hs.left, hgreen']
    simp [Rgb.channel, mean_two, mean_four, hr, hg, hb]

end Input

/-! ### Constant colours -/

variable [Field K] {pattern : List Nat} {rgb : Rgb K} {width height : Nat} {x y : Int}

/-- The mosaic of a constant colour. -/
def mosaic (pattern : List Nat) (rgb : Rgb K) (width height : Nat) : Input K where
  width := width
  height := height
  samples x y := rgb.channel (pattern.getD ((y % 2)*2 + x % 2).toNat 0)
  cfaPattern := pattern

/-- The pixels of the image. -/
def InImage (width height : Nat) (x y : Int) : Prop := (0 ≤ x ∧ x < width) ∧ 0 ≤ y ∧ y < height
deriving Decidable

/-- The pixels around which a generator reads enough of the image itself. -/
def Generator.Interior (input : Input K) (x y : Int) : Generator → Prop
  | .bilinear => 1 ≤ x ∧ x < input.width - 1 ∧ 1 ≤ y ∧ y < input.height - 1
  | .rcd => 2 ≤ x ∧ x < input.width - 2 ∧ 2 ≤ y ∧ y < input.height - 2
  | .amaze => (1 ≤ x ∧ x < input.width - 1 ∧ 1 ≤ y ∧ y < input.height - 1) ∧
      (3 ≤ x ∧ x < input.width - 3 ∨ 3 ≤ y ∧ y < input.height - 3 ∨
        (2 ≤ x ∧ x < input.width - 2 ∧ 2 ≤ y ∧ y < input.height - 2) ∧ input.cfaAt x y = 1)

theorem shows_of_mem (h : InImage width height x y) :
    (mosaic pattern rgb width height).Shows rgb x y :=
  repeatEdge_of_mem _ h.1 h.2

/-- A grey image is grey beyond its border. -/
theorem shows_of_grey (hp : pattern ∈ kSupported) (hrg : rgb.r = rgb.g) (hgb : rgb.g = rgb.b) :
    (mosaic pattern rgb width height).Shows rgb x y := by
  have hgrey (u v : Int) : rgb.channel ((mosaic pattern rgb width height).cfaAt u v) = rgb.g := by
    rcases (mosaic pattern rgb width height).site hp u v with hs | hs | hs | hs <;>
      simp [hs.own, Rgb.channel, hrg, hgb]
  rw [Input.Shows, hgrey]
  exact hgrey _ _

theorem shows_around (h : 1 ≤ x ∧ x < width - 1 ∧ 1 ≤ y ∧ y < height - 1) :
    Around ((mosaic pattern rgb width height).Shows rgb) x y :=
  fun u v hu hv => shows_of_mem ⟨by omega,by omega⟩

omit [Field K] in
/-- The neighbours of a green pixel that are not green lie in its row or its column. -/
theorem cross_of_green {input : Input K} {u v : Int} (hp : input.cfaPattern ∈ kSupported)
    (hown : input.cfaAt x y = 1) (hu : x - 1 ≤ u ∧ u ≤ x + 1) (hv : y - 1 ≤ v ∧ v ≤ y + 1)
    (h : input.cfaAt u v ≠ 1) : u = x ∨ v = y := by
  by_contra hne
  have hflip : input.cfaAt u v = input.cfaAt (x + 1) (y + 1) :=
    Input.cfaAt_congr (by omega) (by omega)
  rcases input.site hp x y with hs | hs | hs | hs
  · cases hs.own.symm.trans hown
  · cases hs.own.symm.trans hown
  · exact h (hflip.trans hs.downRight)
  · exact h (hflip.trans hs.downRight)

theorem line_of_mem (h : InImage width height x y) (hx : 2 ≤ x ∧ x < width - 2 ∧ 2 ≤ height ∨
    2 ≤ y ∧ y < height - 2 ∧ 2 ≤ width) : (mosaic pattern rgb width height).Line rgb x y := by
  obtain ⟨h1,h2⟩ := h
  rcases hx with hx | hy
  · refine .inl ⟨fun u hu => shows_of_mem ⟨by omega,h2⟩,?_⟩
    by_cases hy : 1 ≤ y
    · exact .inl (shows_of_mem ⟨h1,by omega⟩)
    · exact .inr (shows_of_mem ⟨h1,by omega⟩)
  · refine .inr ⟨fun v hv => shows_of_mem ⟨h1,by omega⟩,?_⟩
    by_cases hx : 1 ≤ x
    · exact .inl (shows_of_mem ⟨by omega,h2⟩)
    · exact .inr (shows_of_mem ⟨by omega,h2⟩)

variable [LinearOrder K] [IsStrictOrderedRing K]

theorem amazeGreen_interior {u v : Int} (hp : pattern ∈ kSupported)
    (h1 : 1 ≤ x ∧ x < width - 1 ∧ 1 ≤ y ∧ y < height - 1)
    (h2 : 3 ≤ x ∧ x < width - 3 ∨ 3 ≤ y ∧ y < height - 3 ∨
      (2 ≤ x ∧ x < width - 2 ∧ 2 ≤ y ∧ y < height - 2) ∧
        (mosaic pattern rgb width height).cfaAt x y = 1)
    (hu : x - 1 ≤ u ∧ u ≤ x + 1) (hv : y - 1 ≤ v ∧ v ≤ y + 1) :
    (mosaic pattern rgb width height).amazeGreen u v = rgb.g := by
  have hin : InImage width height u v := ⟨by omega,by omega⟩
  refine Input.amazeGreen_keeps hp (shows_of_mem hin) fun hgreen => line_of_mem hin ?_
  rcases h2 with h2 | h2 | ⟨h2,hown⟩
  · omega
  · omega
  · have := cross_of_green hp hown hu hv hgreen
    omega

theorem nonneg_of_epsilon_lt {v : K} (h : kRatioEpsilon < v) : 0 ≤ v :=
  le_trans (by norm_num [kRatioEpsilon]) h.le

theorem interior_keeps (generator : Generator) (hp : pattern ∈ kSupported)
    (hr : 0 ≤ rgb.r) (hg : kRatioEpsilon < rgb.g) (hb : 0 ≤ rgb.b)
    (h : generator.Interior (mosaic pattern rgb width height) x y) :
    generator.generate (mosaic pattern rgb width height) x y = rgb := by
  have hpos := nonneg_of_epsilon_lt hg
  cases generator with
  | bilinear => exact Input.bilinear_keeps hp (shows_around h)
  | rcd =>
    obtain ⟨h1,h2,h3,h4⟩ : 2 ≤ x ∧ x < width - 2 ∧ 2 ≤ y ∧ y < height - 2 := h
    refine Input.rcd_keeps hp (shows_around (by omega)) (fun u v hu hv => ?_) hr hg hb
    exact Input.rcdGreen_keeps hp (shows_around (by omega))
  | amaze =>
    obtain ⟨h1,h2⟩ := h
    refine Input.amaze_keeps hp (shows_around h1) (fun u v hu hv => ?_) hr hpos hb
    exact amazeGreen_interior hp h1 h2 hu hv

theorem grey_keeps (generator : Generator) (hp : pattern ∈ kSupported)
    (hg : kRatioEpsilon < rgb.g) (hrg : rgb.r = rgb.g) (hgb : rgb.g = rgb.b) :
    generator.generate (mosaic pattern rgb width height) x y = rgb := by
  have hpos := nonneg_of_epsilon_lt hg
  have hshows u v : (mosaic pattern rgb width height).Shows rgb u v := shows_of_grey hp hrg hgb
  have haround u v : Around ((mosaic pattern rgb width height).Shows rgb) u v :=
    fun u v _ _ => hshows u v
  cases generator with
  | bilinear => exact Input.bilinear_keeps hp (haround x y)
  | rcd =>
    refine Input.rcd_keeps hp (haround x y) (fun u v _ _ => ?_) (hrg ▸ hpos) hg (hgb ▸ hpos)
    exact Input.rcdGreen_keeps hp (haround u v)
  | amaze =>
    refine Input.amaze_keeps hp (haround x y) (fun u v _ _ => ?_) (hrg ▸ hpos) hpos (hgb ▸ hpos)
    exact Input.amazeGreen_keeps hp (hshows u v)
      fun _ => .inl ⟨fun u _ => hshows u v,.inl (hshows u (v - 1))⟩

/-- Demosaicing keeps each constant colour inside the image, and each grey up to its border. -/
theorem demosaic_keeps (generator : Generator) (pattern : List Nat) (hp : pattern ∈ kSupported)
    (width height : Nat) (rgb : Rgb K) (hr : kRatioEpsilon < rgb.r) (hg : kRatioEpsilon < rgb.g)
    (hb : kRatioEpsilon < rgb.b) (x y : Int)
    (h : generator.Interior (mosaic pattern rgb width height) x y ∨
      rgb.r = rgb.g ∧ rgb.g = rgb.b) (c : Nat) :
    generator.output (mosaic pattern rgb width height) x y c = rgb.channel c := by
  rw [Generator.output]
  rcases h with h | ⟨hrg,hgb⟩
  · rw [interior_keeps generator hp (nonneg_of_epsilon_lt hr) hg (nonneg_of_epsilon_lt hb) h]
  · rw [grey_keeps generator hp hg hrg hgb]

/-- A colour in the middle of five by five pixels. -/
theorem demosaic_middle :
    Generator.Interior (mosaic [2,1,1,0] (⟨1,2,3⟩ : Rgb ℚ) 5 5) 2 2 .rcd ∧
      Generator.output .rcd (mosaic [2,1,1,0] (⟨1,2,3⟩ : Rgb ℚ) 5 5) 2 2 0 = 1 :=
  ⟨⟨by decide,by decide,by decide,by decide⟩,
    demosaic_keeps .rcd [2,1,1,0] (by decide) 5 5 (⟨1,2,3⟩ : Rgb ℚ)
      (by norm_num [kRatioEpsilon]) (by norm_num [kRatioEpsilon]) (by norm_num [kRatioEpsilon]) 2 2
      (.inl ⟨by decide,by decide,by decide,by decide⟩) 0⟩

/-- At the corner the border repeats a red sample where a green one would be. -/
theorem corner_changes :
    [0,1,1,2] ∈ kSupported ∧ kRatioEpsilon < (1 : ℚ) ∧ InImage 4 4 0 0 ∧
      ∀ generator : Generator,
        generator.output (mosaic [0,1,1,2] (⟨1,2,3⟩ : Rgb ℚ) 4 4) 0 0 1 ≠ 2 := by
  refine ⟨by decide,by norm_num [kRatioEpsilon],by decide,fun generator => ?_⟩
  cases generator <;> decide +kernel

end Cpipe.Nodes.Demosaic
