import Cpipe.Library.Bytes
import Cpipe.Library.Checked
import Mathlib.Algebra.BigOperators.Group.Finset.Basic
import Mathlib.Tactic.Ring

/-! Images in one row-major array: checked loads and stores, and loops of stores. -/

namespace Library.Raster
open Bytes (Fault)

variable {α ι κ : Type} {cells : List α} {k : Nat}

def load (cells : List α) (index : Nat) : Except Fault α :=
  match cells[index]? with
  | some v => .ok v
  | none => .error ⟨index,cells.length⟩

def store (cells : List α) (index : Nat) (v : α) : Except Fault (List α) :=
  if index < cells.length then .ok (cells.set index v) else .error ⟨index,cells.length⟩

theorem load_ok {v : α} (h : cells[k]? = some v) : load cells k = .ok v := by
  rw [load, h]

theorem store_ok {v : α} (h : k < cells.length) : store cells k v = .ok (cells.set k v) :=
  if_pos h

/-! ### Loops of stores -/

/-- A loop that computes a value and stores it in each round. -/
def scatter (place : ι → Nat) (value : ι → Except Fault α) (is : List ι) (cells : List α) :
    Except Fault (List α) :=
  is.foldlM (fun cells i => do store cells (place i) (← value i)) cells

variable {place : ι → Nat} {value : ι → Except Fault α} {v : ι → α} {is : List ι}

theorem scatter_append (js : List ι) :
    scatter place value (is ++ js) cells = scatter place value is cells >>=
      scatter place value js := by
  simp only [scatter, List.foldlM_append]
  rfl

/-- A loop whose rounds are such loops is one of them. -/
theorem foldlM_scatter (f : κ → List ι) (ks : List κ) :
    ∀ cells : List α, ks.foldlM (fun cells k => scatter place value (f k) cells) cells =
      scatter place value (ks.flatMap f) cells := by
  induction ks with
  | nil =>
    intro cells
    rfl
  | cons k ks ih =>
    intro cells
    rw [List.foldlM_cons, List.flatMap_cons, scatter_append]
    congr 1
    funext cells'
    exact ih cells'

/-- Inside the array no round fails. A cell holds what was stored in it, where all stores
to it agree, and any other cell what it held before. -/
theorem scatter_ok (hvalue : ∀ i ∈ is, value i = .ok (v i))
    (hplace : ∀ i ∈ is, place i < cells.length) :
    ∃ out, scatter place value is cells = .ok out ∧ out.length = cells.length ∧
      (∀ i ∈ is, (∀ j ∈ is, place j = place i → v j = v i) → out[place i]? = some (v i)) ∧
      ∀ k, (∀ i ∈ is, place i ≠ k) → out[k]? = cells[k]? := by
  induction is generalizing cells with
  | nil => exact ⟨cells,rfl,rfl,by simp,fun _ _ => rfl⟩
  | cons i is ih =>
    have hi := hplace i List.mem_cons_self
    have hrest : ∀ j ∈ is, place j < (cells.set (place i) (v i)).length := by
      intro j hj
      simpa using hplace j (List.mem_cons_of_mem i hj)
    obtain ⟨out,hout,hlen,hstored,hkept⟩ :=
      ih (fun j hj => hvalue j (List.mem_cons_of_mem i hj)) hrest
    refine ⟨out,?_,by simpa using hlen,?_,?_⟩
    · rw [scatter, List.foldlM_cons, hvalue i List.mem_cons_self]
      change (store cells (place i) (v i) >>= fun cells => scatter place value is cells) = _
      rw [store_ok hi]
      exact hout
    · intro j hj hagree
      by_cases hlater : ∃ j' ∈ is, place j' = place j
      · obtain ⟨j',hj',hsame⟩ := hlater
        have hv := hagree j' (List.mem_cons_of_mem i hj') hsame
        rw [← hsame, ← hv]
        refine hstored j' hj' fun l hl hpl => ?_
        rw [hv]
        exact hagree l (List.mem_cons_of_mem i hl) (hpl.trans hsame)
      · have hne : ∀ l ∈ is, place l ≠ place j := fun l hl hpl => hlater ⟨l,hl,hpl⟩
        rcases List.mem_cons.mp hj with rfl | hmem
        · rw [hkept _ hne, List.getElem?_set_self hi]
        · exact absurd rfl (hne j hmem)
    · intro k hk
      rw [hkept k (fun j hj => hk j (List.mem_cons_of_mem i hj)),
        List.getElem?_set_ne (hk i List.mem_cons_self)]

variable (place) in
/-- A loop with a round that fails does not end. -/
theorem scatter_fault {i : ι} {e : Fault} (hi : i ∈ is) (hvalue : value i = .error e) :
    ∀ cells : List α, ∃ e', scatter place value is cells = .error e' := by
  induction is with
  | nil => cases hi
  | cons j is ih =>
    intro cells
    rw [scatter, List.foldlM_cons]
    rcases List.mem_cons.mp hi with rfl | hmem
    · rw [hvalue]
      exact ⟨e,rfl⟩
    · cases hj : value j with
      | error e' => exact ⟨e',rfl⟩
      | ok v =>
        cases hstore : store cells (place j) v with
        | error e' =>
          refine ⟨e',?_⟩
          simp only [bind, Except.bind, hstore]
        | ok cells' =>
          obtain ⟨e',he⟩ := ih hmem cells'
          refine ⟨e',?_⟩
          simp only [bind, Except.bind, hstore]
          exact he

/-! ### Loops that add -/

def addAt [Add α] (cells : List α) (index : Nat) (v : α) : Except Fault (List α) := do
  store cells index ((← load cells index) + v)

/-- What a loop adds up for one cell. -/
def tally [Add α] [OfNat α 0] (place : ι → Nat) (v : ι → α) (is : List ι) (k : Nat) : α :=
  is.foldl (fun sum i => if place i = k then sum + v i else sum) 0

/-- Each of `n` cells holds what the rounds so far added up for it. -/
structure Tallied [Add α] [OfNat α 0] (n : Nat) (place : ι → Nat) (v : ι → α) (is : List ι)
    (cells : List α) : Prop where
  length : cells.length = n
  cell : ∀ k < n, cells[k]? = some (tally place v is k)

section Tally

variable [Add α] [OfNat α 0] {n : Nat} {i : ι}

theorem tally_append (k : Nat) : tally place v (is ++ [i]) k =
    if place i = k then tally place v is k + v i else tally place v is k := by
  simp [tally, List.foldl_append]

theorem Tallied.start (n : Nat) (place : ι → Nat) (v : ι → α) :
    Tallied n place v [] (List.replicate n 0) := by
  refine ⟨List.length_replicate,fun k hk => ?_⟩
  rw [List.getElem?_replicate, if_pos hk]
  rfl

theorem Tallied.add (h : Tallied n place v is cells) (hi : place i < n) :
    ∃ out, addAt cells (place i) (v i) = .ok out ∧ Tallied n place v (is ++ [i]) out := by
  have hcell := h.cell _ hi
  refine ⟨cells.set (place i) (tally place v is (place i) + v i),?_,?_,fun k hk => ?_⟩
  · simp only [addAt, load_ok hcell, bind, Except.bind]
    exact store_ok (h.length ▸ hi)
  · rw [List.length_set, h.length]
  · rw [List.getElem?_set, h.cell k hk, tally_append, h.length, if_pos hi]
    split_ifs with hsame
    · rw [hsame]
    · rfl

end Tally

/-- In any order a tally is a sum. -/
theorem tally_eq_sum [AddCommMonoid α] [DecidableEq ι] (h : is.Nodup) (k : Nat) :
    tally place v is k = ∑ i ∈ is.toFinset with place i = k, v i := by
  induction is using List.reverseRecOn with
  | nil => rfl
  | append_singleton is i ih =>
    have hnew : i ∉ is.toFinset := by
      rw [List.mem_toFinset]
      exact List.disjoint_singleton.mp (List.disjoint_of_nodup_append h)
    have hset : (is ++ [i]).toFinset = insert i is.toFinset := by
      ext j
      simp
    rw [tally_append, ih (List.Nodup.of_append_left h), hset, Finset.sum_filter, Finset.sum_filter,
      Finset.sum_insert hnew]
    split_ifs
    · exact add_comm _ _
    · exact (zero_add _).symm

/-! ### Interleaved images -/

/-- Where a channel of a pixel stands. -/
def offset (channels width : Nat) (p : Nat × Nat × Nat) : Nat :=
  (p.2.1*width + p.1)*channels + p.2.2

/-- Pixels of an image, row by row. -/
def pixels (width height : Nat) : List (Nat × Nat) :=
  (List.range height).flatMap (fun y => (List.range width).map (fun x => (x,y)))

/-- The first `n` channels of a pixel. -/
def channelsOf (n : Nat) (p : Nat × Nat) : List (Nat × Nat × Nat) :=
  (List.range n).map (fun c => (p.1,p.2,c))

theorem mem_pixels {width height : Nat} {p : Nat × Nat} :
    p ∈ pixels width height ↔ p.1 < width ∧ p.2 < height := by
  obtain ⟨x,y⟩ := p
  simp [pixels]
  tauto

theorem nodup_pixels (width height : Nat) : (pixels width height).Nodup := by
  rw [pixels, List.nodup_flatMap]
  refine ⟨fun y _ => ?_,?_⟩
  · exact List.nodup_range.map fun x x' h => congrArg Prod.fst h
  · refine List.nodup_range.imp fun {y y'} hne => ?_
    rw [Function.onFun, List.disjoint_left]
    intro p hp hp'
    obtain ⟨x,-,rfl⟩ := List.mem_map.mp hp
    obtain ⟨x',-,he⟩ := List.mem_map.mp hp'
    exact hne (congrArg Prod.snd he).symm

theorem mem_channelsOf {n : Nat} {p : Nat × Nat} {q : Nat × Nat × Nat} :
    q ∈ channelsOf n p ↔ q.1 = p.1 ∧ q.2.1 = p.2 ∧ q.2.2 < n := by
  obtain ⟨x,y,c⟩ := q
  simp only [channelsOf, List.mem_map, List.mem_range, Prod.mk.injEq]
  constructor
  · rintro ⟨d,hd,rfl,rfl,rfl⟩
    exact ⟨rfl,rfl,hd⟩
  · rintro ⟨rfl,rfl,hc⟩
    exact ⟨c,hc,rfl,rfl,rfl⟩

def InImage (channels width height : Nat) (p : Nat × Nat × Nat) : Prop :=
  p.1 < width ∧ p.2.1 < height ∧ p.2.2 < channels

section Image

variable {channels width height x y x' y' : Nat} {p q : Nat × Nat × Nat}

/-- A pixel has its place in the row-major memory of a plane. -/
theorem place_lt (hx : x < width) (hy : y < height) : y*width + x < width*height := by
  have hrow : (y + 1)*width ≤ height*width := Nat.mul_le_mul_right width hy
  rw [Nat.add_mul, Nat.one_mul, Nat.mul_comm height] at hrow
  omega

theorem place_inj (hx : x < width) (hx' : x' < width) (h : y*width + x = y'*width + x') :
    x = x' ∧ y = y' := by
  have hcolumn : x = x' := by
    have := congrArg (· % width) h
    simpa [Nat.mul_comm _ width, Nat.mul_add_mod, Nat.mod_eq_of_lt hx,
      Nat.mod_eq_of_lt hx'] using this
  subst hcolumn
  exact ⟨rfl,Nat.eq_of_mul_eq_mul_right (by omega) (Nat.add_right_cancel h)⟩

theorem offset_lt (h : InImage channels width height p) :
    offset channels width p < width*height*channels := by
  obtain ⟨hx,hy,hc⟩ := h
  have hpixel : (p.2.1*width + p.1 + 1)*channels ≤ width*height*channels :=
    Nat.mul_le_mul_right channels (place_lt hx hy)
  calc offset channels width p
      < (p.2.1*width + p.1)*channels + channels := by
        unfold offset
        omega
    _ = (p.2.1*width + p.1 + 1)*channels := by ring
    _ ≤ width*height*channels := hpixel

theorem offset_inj (hp : InImage channels width height p) (hq : InImage channels width height q)
    (h : offset channels width p = offset channels width q) : p = q := by
  obtain ⟨x,y,c⟩ := p
  obtain ⟨x',y',c'⟩ := q
  obtain ⟨hx,-,hc⟩ := hp
  obtain ⟨hx',-,hc'⟩ := hq
  simp only [offset] at h hx hx' hc hc'
  have hpos : 0 < channels := by omega
  have hchannel : c = c' := by
    have := congrArg (· % channels) h
    simpa [Nat.mul_comm _ channels, Nat.mul_add_mod, Nat.mod_eq_of_lt hc,
      Nat.mod_eq_of_lt hc'] using this
  subst hchannel
  have hpixel : y*width + x = y'*width + x' :=
    Nat.eq_of_mul_eq_mul_right hpos (Nat.add_right_cancel h)
  obtain ⟨rfl,rfl⟩ := place_inj hx hx' hpixel
  rfl

/-- The array holds the image. -/
structure Holds (channels width height : Nat) (cells : List α) (image : Nat × Nat × Nat → α) :
    Prop where
  length : cells.length = width*height*channels
  cell : ∀ p, InImage channels width height p → cells[offset channels width p]? = some (image p)

variable {image : Nat × Nat × Nat → α}

theorem Holds.congr {image' : Nat × Nat × Nat → α} (h : Holds channels width height cells image)
    (heq : ∀ p, InImage channels width height p → image p = image' p) :
    Holds channels width height cells image' :=
  ⟨h.length,fun p hp => (h.cell p hp).trans (congrArg some (heq p hp))⟩

theorem Holds.replicate (channels width height : Nat) (v : α) :
    Holds channels width height (List.replicate (width*height*channels) v) (fun _ => v) := by
  refine ⟨List.length_replicate,fun p hp => ?_⟩
  rw [List.getElem?_replicate, if_pos (offset_lt hp)]

theorem Holds.load (h : Holds channels width height cells image)
    (hp : InImage channels width height p) :
    Raster.load cells (offset channels width p) = .ok (image p) :=
  load_ok (h.cell p hp)

/-- A loop of stores to an image, with the value of each cell a function of its place. -/
theorem Holds.scatter (h : Holds channels width height cells image)
    (is : List (Nat × Nat × Nat)) (value : Nat × Nat × Nat → Except Fault α)
    (v : Nat × Nat × Nat → α)
    (his : ∀ p ∈ is, InImage channels width height p) (hvalue : ∀ p ∈ is, value p = .ok (v p)) :
    ∃ out, Raster.scatter (offset channels width) value is cells = .ok out ∧
      Holds channels width height out (fun p => if p ∈ is then v p else image p) := by
  have hplace : ∀ p ∈ is, offset channels width p < cells.length :=
    fun p hp => h.length ▸ offset_lt (his p hp)
  obtain ⟨out,hout,hlen,hstored,hkept⟩ := scatter_ok hvalue hplace
  refine ⟨out,hout,⟨hlen.trans h.length,fun p hp => ?_⟩⟩
  by_cases hmem : p ∈ is
  · rw [if_pos hmem]
    refine hstored p hmem fun q hq hsame => ?_
    rw [offset_inj (his q hq) hp hsame]
  · rw [if_neg hmem, hkept _ fun q hq hsame => ?_]
    · exact h.cell p hp
    · exact hmem (offset_inj (his q hq) hp hsame ▸ hq)

end Image
end Library.Raster
