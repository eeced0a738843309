import Mathlib.Data.List.Basic
import Mathlib.Data.List.Range
import Mathlib.Data.Finset.Card

namespace Library.FirstFit

/-- Items in the order they were placed, each with its slot, and the number of
slots opened so far. -/
structure Table (α : Type) where
  placed : List (α × Nat)
  slots : Nat

/-- No item of this slot conflicts with `x`. -/
def free (conflict : α → α → Bool) (placed : List (α × Nat)) (x : α) (slot : Nat) : Bool :=
  placed.all (fun p => !(p.2 == slot && conflict x p.1))

/-- The lowest free slot; the one past the end stands for a new slot. -/
def choose (conflict : α → α → Bool) (t : Table α) (x : α) : Option Nat :=
  (List.range (t.slots+1)).find? (free conflict t.placed x)

def place (conflict : α → α → Bool) (t : Table α) (x : α) : Table α :=
  match choose conflict t x with
  | none => t
  | some slot => ⟨t.placed ++ [(x,slot)], if slot = t.slots then t.slots+1 else t.slots⟩

def fill (conflict : α → α → Bool) (xs : List α) : Table α :=
  xs.foldl (place conflict) ⟨[],0⟩

variable {α : Type} {conflict : α → α → Bool} {t : Table α}

/-- Slots in use are numbered below the count, none is empty, and a later item
never shares the slot of an item it conflicts with. -/
structure Proper (conflict : α → α → Bool) (t : Table α) : Prop where
  bound : ∀ p ∈ t.placed, p.2 < t.slots
  used : ∀ slot < t.slots, ∃ p ∈ t.placed, p.2 = slot
  apart : t.placed.Pairwise (fun p q => p.2 = q.2 → conflict q.1 p.1 = false)

/-- A fresh slot is always free, so the search cannot fail. -/
theorem choose_total (h : Proper conflict t) (x : α) :
    ∃ slot, choose conflict t x = some slot ∧ slot ≤ t.slots ∧
      free conflict t.placed x slot = true := by
  have hnew : free conflict t.placed x t.slots = true := by
    refine List.all_eq_true.mpr ?_
    intro p hp
    have := h.bound p hp
    simp only [Bool.not_eq_true', Bool.and_eq_false_iff]
    exact .inl (by simp; omega)
  cases hc : choose conflict t x with
  | none =>
    have := List.find?_eq_none.mp hc t.slots (by simp)
    exact absurd hnew this
  | some slot =>
    have hm := List.mem_of_find?_eq_some hc
    exact ⟨slot, rfl, by simpa [Nat.lt_succ_iff] using hm, List.find?_some hc⟩

theorem place_spec (h : Proper conflict t) (x : α) :
    ∃ slot ≤ t.slots, choose conflict t x = some slot ∧ place conflict t x =
        ⟨t.placed ++ [(x,slot)], if slot = t.slots then t.slots+1 else t.slots⟩ ∧
      ∀ p ∈ t.placed, p.2 = slot → conflict x p.1 = false := by
  obtain ⟨slot, hc, hle, hf⟩ := choose_total h x
  refine ⟨slot, hle, hc, by simp [place, hc], ?_⟩
  intro p hp hs
  have := List.all_eq_true.mp hf p hp
  simpa [hs] using this

theorem place_proper (h : Proper conflict t) (x : α) : Proper conflict (place conflict t x) := by
  obtain ⟨slot, hle, _, he, hapart⟩ := place_spec h x
  rw [he]
  refine ⟨?_, ?_, ?_⟩
  · intro p hp
    dsimp only at hp ⊢
    rcases List.mem_append.mp hp with hp | hp
    · have := h.bound p hp
      split <;> omega
    · obtain rfl : p = (x,slot) := by simpa using hp
      dsimp only
      split <;> omega
  · intro k hk
    dsimp only at hk ⊢
    by_cases hks : k = slot
    · exact ⟨(x,slot), by simp, hks.symm⟩
    · have hlt : k < t.slots := by split at hk <;> omega
      obtain ⟨p, hp, hs⟩ := h.used k hlt
      exact ⟨p, List.mem_append_left _ hp, hs⟩
  · refine List.pairwise_append.mpr ⟨h.apart, List.pairwise_singleton _ _, ?_⟩
    intro p hp q hq hs
    obtain rfl : q = (x,slot) := by simpa using hq
    exact hapart p hp hs

theorem empty_proper (conflict : α → α → Bool) : Proper conflict ⟨[],0⟩ :=
  ⟨by simp, by simp, List.Pairwise.nil⟩

theorem foldl_proper (h : Proper conflict t) (xs : List α) :
    Proper conflict (xs.foldl (place conflict) t) ∧
    (xs.foldl (place conflict) t).placed.map Prod.fst = t.placed.map Prod.fst ++ xs := by
  induction xs generalizing t with
  | nil => exact ⟨h, by simp⟩
  | cons x xs ih =>
    obtain ⟨slot, _, _, he, _⟩ := place_spec h x
    obtain ⟨hp, hm⟩ := ih (place_proper h x)
    exact ⟨hp, by rw [List.foldl_cons, hm, he]; simp⟩

theorem fill_proper (conflict : α → α → Bool) (xs : List α) : Proper conflict (fill conflict xs) :=
  (foldl_proper (empty_proper conflict) xs).1

theorem fill_snoc (conflict : α → α → Bool) (xs : List α) (x : α) :
    fill conflict (xs ++ [x]) = place conflict (fill conflict xs) x := by
  simp [fill]

/-- Every item is placed, once, in the order of the input. -/
theorem fill_items (conflict : α → α → Bool) (xs : List α) :
    (fill conflict xs).placed.map Prod.fst = xs := by
  simpa [fill] using (foldl_proper (empty_proper conflict) xs).2

end Library.FirstFit
