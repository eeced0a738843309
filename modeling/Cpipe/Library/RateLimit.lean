import Mathlib.Data.List.Range
import Mathlib.Data.List.Basic
import Mathlib.Algebra.Order.Ring.Nat

namespace Library.RateLimit

/-- Any two times are an interval apart, the earlier one first. -/
def Spaced (interval : Nat) (times : List Nat) : Prop :=
  times.Pairwise (fun a b => a + interval ≤ b)

/-- The times in the half-open window from `start` on. -/
def window (start width : Nat) (times : List Nat) : List Nat :=
  times.filter (fun t => decide (start ≤ t ∧ t < start + width))

theorem Spaced.last {interval a : Nat} {times : List Nat} (h : Spaced interval (a :: times)) :
    ∃ b ∈ a :: times, a + times.length * interval ≤ b := by
  induction times generalizing a with
  | nil => exact ⟨a,List.mem_cons_self,by simp⟩
  | cons c times ih =>
    obtain ⟨hfirst,hrest⟩ := List.pairwise_cons.mp h
    obtain ⟨b,hb,hle⟩ := ih hrest
    have hc := hfirst c List.mem_cons_self
    refine ⟨b,List.mem_cons_of_mem a hb,?_⟩
    rw [List.length_cons, Nat.succ_mul]
    omega

/-- A window that `n` intervals cover holds at most `n` times. -/
theorem Spaced.window_length_le {interval start width n : Nat} {times : List Nat}
    (h : Spaced interval times) (hwidth : width ≤ n * interval) :
    (window start width times).length ≤ n := by
  have hspaced : Spaced interval (window start width times) := h.filter _
  have hin : ∀ t ∈ window start width times, start ≤ t ∧ t < start + width :=
    fun t ht => of_decide_eq_true (List.mem_filter.mp ht).2
  cases hw : window start width times with
  | nil => simp
  | cons a rest =>
    rw [hw] at hspaced hin
    obtain ⟨b,hb,hle⟩ := hspaced.last
    have ha := hin a List.mem_cons_self
    have hlast := hin b hb
    have hlt : rest.length * interval < n * interval := by omega
    exact Nat.lt_of_mul_lt_mul_right hlt

def ticks (first interval n : Nat) : List Nat :=
  (List.range n).map (fun k => first + k * interval)

theorem ticks_succ (first interval n : Nat) :
    ticks first interval (n+1) = first :: ticks (first + interval) interval n := by
  simp only [ticks, List.range_succ_eq_map, List.map_cons, List.map_map, Nat.zero_mul,
    Nat.add_zero, List.cons.injEq, true_and]
  refine List.map_congr_left (fun k _ => ?_)
  simp only [Function.comp, Nat.succ_mul]
  omega

/-- A window wider than `n` intervals holds `n + 1` of them. -/
theorem window_ticks {first interval width n : Nat} (h : n * interval < width) :
    window first width (ticks first interval (n+1)) = ticks first interval (n+1) := by
  refine List.filter_eq_self.mpr (fun t ht => decide_eq_true ?_)
  obtain ⟨k,hk,rfl⟩ := List.mem_map.mp ht
  have hle : k * interval ≤ n * interval :=
    Nat.mul_le_mul_right interval (Nat.le_of_lt_succ (List.mem_range.mp hk))
  omega

end Library.RateLimit
