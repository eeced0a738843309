import Cpipe.Library.Trace
import Mathlib.Data.List.Count
import Mathlib.Data.List.Nodup

namespace Library.Ledger
open Trace (run run_append)

/-- What can happen to an instance: it is opened or the opening is refused, it is used,
it is closed. -/
inductive Act
  | opened
  | refused
  | used
  | closed
  deriving DecidableEq, Repr

/-- The acts allowed on an instance, by whether it is open. -/
def allow : Bool → Act → Option Bool
  | false, .opened => some true
  | false, .refused => some false
  | true, .used => some true
  | true, .closed => some false
  | _, _ => none

variable {κ : Type} [DecidableEq κ]

/-- The acts on one instance. -/
def about (k : κ) (log : List (κ × Act)) : List Act :=
  (log.filter (fun entry => entry.1 = k)).map Prod.snd

/-- Every instance is closed exactly once after each opening that was not refused, used
only in between, and left closed. -/
def Balanced (log : List (κ × Act)) : Prop :=
  ∀ k, run allow false (about k log) = some false

variable {k : κ} {log log' : List (κ × Act)}

theorem about_append : about k (log ++ log') = about k log ++ about k log' := by
  simp [about]

theorem about_eq_nil (h : ∀ entry ∈ log, entry.1 ≠ k) : about k log = [] := by
  rw [about, List.filter_eq_nil_iff.mpr]
  · rfl
  · intro entry hentry
    simpa using h entry hentry

theorem Balanced.nil : Balanced ([] : List (κ × Act)) := fun _ => rfl

/-- Behind a balanced log only the rest matters. -/
theorem balanced_append_iff (h : Balanced log) : Balanced (log ++ log') ↔ Balanced log' := by
  constructor
  · intro hall k
    have hk := hall k
    rw [about_append] at hk
    obtain ⟨m,hm,hrest⟩ := run_append.mp hk
    rw [h k] at hm
    cases hm
    exact hrest
  · intro h' k
    rw [about_append]
    exact run_append.mpr ⟨false,h k,h' k⟩

theorem balanced_refused (k : κ) : Balanced [(k,Act.refused)] := by
  intro j
  by_cases hj : k = j
  · simp [about, hj, run, allow]
  · simp [about, hj, run]

theorem balanced_full (k : κ) : Balanced [(k,Act.opened),(k,Act.used),(k,Act.closed)] := by
  intro j
  by_cases hj : k = j
  · simp [about, hj, run, allow]
  · simp [about, hj, run]

theorem balanced_pair (k : κ) : Balanced [(k,Act.opened),(k,Act.closed)] := by
  intro i
  by_cases hi : k = i
  · simp [about, hi, run, allow]
  · simp [about, hi, run]

/-- Two instances that are open at once, closed in either order. -/
theorem balanced_two {j k : κ} (h : k ≠ j) (hlast : last = [(k,Act.closed),(j,Act.closed)] ∨
    last = [(j,Act.closed),(k,Act.closed)]) :
    Balanced ((j,Act.opened) :: (k,Act.opened) :: last) := by
  intro i
  by_cases hj : j = i
  · subst hj
    rcases hlast with rfl | rfl <;> simp [about, h, run, allow]
  · by_cases hk : k = i
    · rcases hlast with rfl | rfl <;> simp [about, hj, hk, run, allow]
    · rcases hlast with rfl | rfl <;> simp [about, hj, hk, run]

theorem not_balanced_opened (k : κ) : ¬ Balanced [(k,Act.opened)] := by
  intro h
  have hk := h k
  simp [about, run, allow] at hk

/-! ### Logs that may leave something open -/

/-- No instance is opened while it is open, or used or closed while it is not. -/
def Lawful (log : List (κ × Act)) : Prop := ∀ k, ∃ state, run allow false (about k log) = some state

theorem Balanced.lawful (h : Balanced log) : Lawful log := fun k => ⟨false,h k⟩

/-- What comes later may act on the instances that were left closed. -/
theorem Lawful.append (h : Lawful log) (h' : Lawful log')
    (hclosed : ∀ k, about k log' ≠ [] → run allow false (about k log) = some false) :
    Lawful (log ++ log') := by
  intro k
  rw [about_append]
  by_cases hnone : about k log' = []
  · rw [hnone, List.append_nil]
    exact h k
  · obtain ⟨state,hstate⟩ := h' k
    exact ⟨state,run_append.mpr ⟨false,hclosed k hnone,hstate⟩⟩

theorem not_lawful_opened_twice (k : κ) :
    ¬ Lawful (log ++ (k,Act.opened) :: (k,Act.opened) :: log') := by
  intro h
  obtain ⟨state,hstate⟩ := h k
  have hk : about k ((k,Act.opened) :: (k,Act.opened) :: log') =
      .opened :: .opened :: about k log' := by simp [about]
  rw [about_append, hk] at hstate
  obtain ⟨middle,_,hrest⟩ := run_append.mp hstate
  cases middle <;> simp [run, allow] at hrest

/-! ### What is still to be closed -/

/-- A list of instances, closed one after the other. -/
def closes (ks : List κ) : List (κ × Act) := ks.map (fun k => (k,Act.closed))

variable {ks ks' : List κ}

theorem about_closes : about k (closes ks) = List.replicate (ks.count k) .closed := by
  induction ks with
  | nil => rfl
  | cons j ks ih =>
    by_cases hj : j = k
    · subst hj
      rw [List.count_cons_self, List.replicate_succ, ← ih]
      simp [about, closes]
    · rw [List.count_cons_of_ne hj, ← ih]
      simp [about, closes, hj]

omit [DecidableEq κ] in
theorem closes_append : closes (ks ++ ks') = closes ks ++ closes ks' := List.map_append

theorem balanced_closes_perm (h : ks.Perm ks') (hb : Balanced (log ++ closes ks)) :
    Balanced (log ++ closes ks') := by
  intro k
  rw [about_append, about_closes, ← h.count_eq k, ← about_closes, ← about_append]
  exact hb k

/-- One that is to be closed is open. -/
theorem open_of_mem_closes (hb : Balanced (log ++ closes ks)) (hk : k ∈ ks) :
    run allow false (about k log) = some true := by
  have hlog := hb k
  rw [about_append, about_closes] at hlog
  obtain ⟨state,hstate,hrest⟩ := run_append.mp hlog
  obtain ⟨n,hn⟩ := Nat.exists_eq_succ_of_ne_zero (Nat.ne_of_gt (List.count_pos_iff.mpr hk))
  cases state with
  | true => exact hstate
  | false =>
    rw [hn, List.replicate_succ] at hrest
    simp [run, allow] at hrest

theorem mem_log_of_mem_closes (hb : Balanced (log ++ closes ks)) (hk : k ∈ ks) :
    ∃ entry ∈ log, entry.1 = k := by
  by_contra hnone
  have hempty : about k log = [] :=
    about_eq_nil (fun entry hentry heq => hnone ⟨entry,hentry,heq⟩)
  have hopen := open_of_mem_closes hb hk
  rw [hempty] at hopen
  cases hopen

theorem nodup_of_balanced_closes (hb : Balanced (log ++ closes ks)) : ks.Nodup := by
  refine List.nodup_iff_count_le_one.mpr (fun k => ?_)
  by_contra hmany
  have hk : k ∈ ks := List.count_pos_iff.mp (by omega)
  have hlog := hb k
  rw [about_append, about_closes] at hlog
  obtain ⟨state,hstate,hrest⟩ := run_append.mp hlog
  rw [open_of_mem_closes hb hk] at hstate
  cases hstate
  obtain ⟨n,hn⟩ : ∃ n, ks.count k = n + 2 := ⟨ks.count k - 2,by omega⟩
  rw [hn, List.replicate_succ, List.replicate_succ] at hrest
  simp [run, allow] at hrest

/-- A new instance is opened and is to be closed. -/
theorem balanced_open (hnew : ∀ entry ∈ log, entry.1 ≠ k) (hb : Balanced (log ++ closes ks)) :
    Balanced (log ++ [(k,Act.opened)] ++ closes (k :: ks)) := by
  have hk : k ∉ ks := by
    intro hk
    obtain ⟨entry,hentry,rfl⟩ := mem_log_of_mem_closes hb hk
    exact hnew entry hentry rfl
  intro j
  by_cases hj : k = j
  · subst hj
    have hcount : (k :: ks).count k = 1 := by
      rw [List.count_cons_self, List.count_eq_zero_of_not_mem hk]
    rw [about_append, about_append, about_closes, about_eq_nil hnew, hcount]
    simp [about, run, allow]
  · have hlog := hb j
    rw [about_append, about_closes] at hlog
    rw [about_append, about_append, about_closes, List.count_cons_of_ne hj]
    have hnone : about j [(k,Act.opened)] = [] := by simp [about, hj]
    rwa [hnone, List.append_nil]

/-- An open instance that nobody is going to close is lost. -/
theorem not_balanced_lost (hb : Balanced (log ++ closes ks)) (hk : k ∈ ks)
    (hmore : ∀ entry ∈ log', entry.1 ≠ k) (hk' : k ∉ ks') :
    ¬ Balanced (log ++ log' ++ closes ks') := by
  intro h
  have hlog := h k
  rw [about_append, about_append, about_closes, List.count_eq_zero_of_not_mem hk',
    about_eq_nil hmore] at hlog
  simp only [List.replicate_zero, List.append_nil] at hlog
  rw [open_of_mem_closes hb hk] at hlog
  cases hlog

theorem stays_open {acts : List Act} {state : Bool} (h : run allow true acts = some state)
    (hnot : .closed ∉ acts) : state = true := by
  induction acts with
  | nil => exact (Option.some.inj h).symm
  | cons a acts ih =>
    simp only [List.mem_cons, not_or] at hnot
    cases a with
    | used => exact ih h hnot.2
    | closed => exact absurd rfl hnot.1
    | opened | refused => cases h

/-- One that was opened and not closed is to be closed. -/
theorem mem_closes_of_opened (hb : Balanced (log ++ closes ks)) (ho : (k,Act.opened) ∈ log)
    (hc : (k,Act.closed) ∉ log) : k ∈ ks := by
  by_contra hk
  have hlog := hb k
  rw [about_append, about_closes, List.count_eq_zero_of_not_mem hk, List.replicate_zero,
    List.append_nil] at hlog
  have hmem : Act.opened ∈ about k log :=
    List.mem_map.mpr ⟨(k,.opened),List.mem_filter.mpr ⟨ho,by simp⟩,rfl⟩
  have hnot : Act.closed ∉ about k log := by
    intro hclosed
    obtain ⟨⟨j,a⟩,hentry,rfl⟩ := List.mem_map.mp hclosed
    obtain ⟨hin,hj⟩ := List.mem_filter.mp hentry
    obtain rfl : j = k := by simpa using hj
    exact hc hin
  obtain ⟨before,after,hsplit⟩ := List.append_of_mem hmem
  rw [hsplit] at hlog hnot
  obtain ⟨state,_,hrest⟩ := run_append.mp hlog
  simp only [List.mem_append, List.mem_cons, not_or] at hnot
  cases state with
  | true => cases hrest
  | false => cases stays_open hrest hnot.2.2

end Library.Ledger
