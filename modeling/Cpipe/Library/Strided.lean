import Mathlib.Data.List.Forall2
import Mathlib.Tactic.Ring
import Mathlib.Tactic.Linarith

namespace Library.Strided

/-! Arrays whose axes have an extent and a stride each. -/

/-- The extents and strides of the axes. -/
abbrev Axes := List (Int × Int)

/-- Coordinates inside the extents. -/
def InExtents (c : List Int) (axes : Axes) : Prop :=
  List.Forall₂ (fun i a => 0 ≤ i ∧ i < a.1) c axes

/-- Differences of coordinates inside the extents. -/
def Between (e : List Int) (axes : Axes) : Prop :=
  List.Forall₂ (fun i a => -a.1 < i ∧ i < a.1) e axes

def offset (c : List Int) (axes : Axes) : Int := (List.zipWith (fun i a => i*a.2) c axes).sum

/-- The largest offset. -/
def far (axes : Axes) : Int := (axes.map (fun a => (a.1 - 1)*a.2)).sum

theorem offset_cons (i : Int) (c : List Int) (a : Int × Int) (axes : Axes) :
    offset (i :: c) (a :: axes) = i*a.2 + offset c axes := by
  rw [offset, List.zipWith_cons_cons, List.sum_cons]
  rfl

theorem far_cons (a : Int × Int) (axes : Axes) : far (a :: axes) = (a.1 - 1)*a.2 + far axes := by
  rw [far, List.map_cons, List.sum_cons]
  rfl

variable {axes : Axes} {c c' e : List Int}

/-! ### Bounds -/

theorem offset_between (hstrides : ∀ a ∈ axes, 0 ≤ a.2) (h : InExtents c axes) :
    0 ≤ offset c axes ∧ offset c axes ≤ far axes := by
  induction h with
  | nil => exact ⟨le_rfl,le_rfl⟩
  | @cons i a c axes hi _ ih =>
    obtain ⟨hlow,hhigh⟩ := ih fun b hb => hstrides b (List.mem_cons_of_mem a hb)
    have hstride := hstrides a List.mem_cons_self
    have hterm := mul_nonneg hi.1 hstride
    have hlast : i*a.2 ≤ (a.1 - 1)*a.2 := mul_le_mul_of_nonneg_right (by omega) hstride
    rw [offset_cons, far_cons]
    exact ⟨by linarith,by linarith⟩

/-- The corner furthest away. -/
theorem far_attained (hextents : ∀ a ∈ axes, 0 < a.1) :
    InExtents (axes.map (fun a => a.1 - 1)) axes ∧
      offset (axes.map (fun a => a.1 - 1)) axes = far axes := by
  induction axes with
  | nil => exact ⟨.nil,rfl⟩
  | cons a axes ih =>
    obtain ⟨hin,hoffset⟩ := ih fun b hb => hextents b (List.mem_cons_of_mem a hb)
    have ha := hextents a List.mem_cons_self
    have hlast : 0 ≤ a.1 - 1 ∧ a.1 - 1 < a.1 := by omega
    refine ⟨.cons hlast hin,?_⟩
    rw [List.map_cons, offset_cons, far_cons, hoffset]

theorem extents_pos (h : InExtents c axes) : ∀ a ∈ axes, 0 < a.1 := by
  induction h with
  | nil =>
    intro a ha
    cases ha
  | cons hi _ ih =>
    intro b hb
    rcases List.mem_cons.mp hb with rfl | hb
    · omega
    · exact ih b hb

/-- All offsets stay below a bound where the furthest one does, or there are none. -/
theorem offset_lt_iff (hstrides : ∀ a ∈ axes, 0 ≤ a.2) (n : Int) :
    (∀ c, InExtents c axes → offset c axes < n) ↔ ((∀ a ∈ axes, 0 < a.1) → far axes < n) := by
  constructor
  · intro h hextents
    obtain ⟨hin,hoffset⟩ := far_attained hextents
    exact hoffset ▸ h _ hin
  · intro h c hc
    exact lt_of_le_of_lt (offset_between hstrides hc).2 (h (extents_pos hc))

/-! ### Distinct places -/

theorem sub_between (h : InExtents c axes) (h' : InExtents c' axes) :
    Between (List.zipWith (· - ·) c c') axes ∧
      offset (List.zipWith (· - ·) c c') axes = offset c axes - offset c' axes := by
  induction h generalizing c' with
  | nil =>
    cases h'
    exact ⟨.nil,rfl⟩
  | @cons i a c axes hi _ ih =>
    cases h' with
    | @cons i' _ c' _ hi' hrest =>
      obtain ⟨hbetween,hoffset⟩ := ih hrest
      have hsub : -a.1 < i - i' ∧ i - i' < a.1 := by omega
      refine ⟨.cons hsub hbetween,?_⟩
      rw [List.zipWith_cons_cons, offset_cons, offset_cons, offset_cons, hoffset]
      ring

theorem eq_of_sub_zero (h : InExtents c axes) (h' : InExtents c' axes)
    (hzero : ∀ x ∈ List.zipWith (· - ·) c c', x = 0) : c = c' := by
  induction h generalizing c' with
  | nil =>
    cases h'
    rfl
  | @cons i a c axes hi _ ih =>
    cases h' with
    | @cons i' _ c' _ hi' hrest =>
      rw [List.zipWith_cons_cons] at hzero
      have hhead := hzero _ List.mem_cons_self
      rw [ih hrest fun x hx => hzero x (List.mem_cons_of_mem _ hx), sub_eq_zero.mp hhead]

/-- A difference is one of its positive and its negative part. -/
theorem parts_inExtents (h : Between e axes) :
    InExtents (e.map (fun x => max x 0)) axes ∧ InExtents (e.map (fun x => max (-x) 0)) axes ∧
      offset e axes = offset (e.map (fun x => max x 0)) axes -
        offset (e.map (fun x => max (-x) 0)) axes := by
  induction h with
  | nil => exact ⟨.nil,.nil,rfl⟩
  | @cons i a e axes hi _ ih =>
    obtain ⟨hpos,hneg,hoffset⟩ := ih
    have hi1 : 0 ≤ max i 0 ∧ max i 0 < a.1 := by omega
    have hi2 : 0 ≤ max (-i) 0 ∧ max (-i) 0 < a.1 := by omega
    refine ⟨.cons hi1 hpos,.cons hi2 hneg,?_⟩
    have hparts : i = max i 0 - max (-i) 0 := by omega
    rw [List.map_cons, List.map_cons, offset_cons, offset_cons, offset_cons, hoffset]
    calc i*a.2 + (offset (e.map (fun x => max x 0)) axes -
          offset (e.map (fun x => max (-x) 0)) axes)
        = (max i 0 - max (-i) 0)*a.2 + (offset (e.map (fun x => max x 0)) axes -
          offset (e.map (fun x => max (-x) 0)) axes) := by rw [← hparts]
      _ = _ := by ring

/-- Different coordinates have different offsets where no difference but zero has the offset
zero. -/
theorem offset_injective_iff :
    (∀ c c', InExtents c axes → InExtents c' axes → offset c axes = offset c' axes → c = c') ↔
      ∀ e, Between e axes → offset e axes = 0 → ∀ x ∈ e, x = 0 := by
  constructor
  · intro h e he hzero x hx
    obtain ⟨hpos,hneg,hoffset⟩ := parts_inExtents he
    have hsame := h _ _ hpos hneg (by linarith)
    have hx' : max x 0 = max (-x) 0 := List.map_inj_left.mp hsame x hx
    omega
  · intro h c c' hc hc' hsame
    obtain ⟨hbetween,hoffset⟩ := sub_between hc hc'
    exact eq_of_sub_zero hc hc' (h _ hbetween (by linarith))

end Library.Strided
