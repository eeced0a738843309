import Mathlib.Data.Fintype.Card
import Mathlib.Data.Fintype.EquivFin
import Mathlib.Data.List.Basic
import Mathlib.Data.List.Count
import Mathlib.Data.List.Range
import Mathlib.Logic.Relation
import Mathlib.Order.WellFounded

namespace Library.Kahn
open Relation

/-- Directed multigraph on `0 … n-1`, kept as the list of its edges. Parallel
edges stay apart: they count separately in every in-degree. -/
abbrev Edges := List (Nat × Nat)

def Edge (es : Edges) (a b : Nat) : Prop := (a,b) ∈ es

def Acyclic (es : Edges) : Prop := ∀ v, ¬ TransGen (Edge es) v v

def InRange (n : Nat) (es : Edges) : Prop := ∀ e ∈ es, e.1 < n ∧ e.2 < n

def adjacency (es : Edges) (v : Nat) : List Nat :=
  (es.filter (fun e => e.1 == v)).map Prod.snd

def indegree (es : Edges) (v : Nat) : Nat := es.countP (fun e => e.2 == v)

structure State where
  indegree : Nat → Nat
  ready : List Nat
  order : List Nat

/-- One round of the inner loop: drop one incoming edge of `next` and queue the
vertex when that was the last one. -/
def release (s : (Nat → Nat) × List Nat) (next : Nat) : (Nat → Nat) × List Nat :=
  let indeg := fun v => if v = next then s.1 v - 1 else s.1 v
  (indeg, if indeg next = 0 then s.2 ++ [next] else s.2)

/-- One round of the outer loop: the front of the queue is placed. -/
def step (es : Edges) (s : State) : State :=
  match s.ready with
  | [] => s
  | node :: rest =>
    let r := (adjacency es node).foldl release (s.indegree, rest)
    ⟨r.1, r.2, s.order ++ [node]⟩

def start (n : Nat) (es : Edges) : State :=
  ⟨indegree es, (List.range n).filter (fun v => indegree es v == 0), []⟩

def loop (es : Edges) : Nat → State → State
  | 0, s => s
  | k+1, s =>
    match s.ready with
    | [] => s
    | _ :: _ => loop es k (step es s)

/-- The order in which the queue releases the vertices. A vertex on or behind a
cycle is never released, so the list is then shorter than `n`. -/
def sort (n : Nat) (es : Edges) : List Nat := (loop es n (start n es)).order

theorem count_adjacency (es : Edges) (u v : Nat) :
    (adjacency es u).count v = es.countP (fun e => e.2 == v && e.1 == u) := by
  simp only [adjacency, List.count, List.countP_map, List.countP_filter]
  congr 1

theorem release_fold_indegree (ts : List Nat) (indeg : Nat → Nat) (ready : List Nat) (v : Nat) :
    (ts.foldl release (indeg, ready)).1 v = indeg v - ts.count v := by
  induction ts generalizing indeg ready with
  | nil => rfl
  | cons next ts ih =>
    rw [List.foldl_cons, release, ih]
    by_cases hv : v = next
    · simp only [hv, if_pos, List.count_cons_self]
      omega
    · simp [hv, Ne.symm hv]

/-- The vertices queued are those whose last incoming edges are dropped. -/
theorem release_fold_ready (ts : List Nat) (indeg : Nat → Nat) (ready : List Nat)
    (hc : ∀ v, ts.count v ≤ indeg v) :
    ∃ pushed, (ts.foldl release (indeg, ready)).2 = ready ++ pushed ∧ pushed.Nodup ∧
      ∀ v, v ∈ pushed ↔ v ∈ ts ∧ indeg v = ts.count v := by
  induction ts generalizing indeg ready with
  | nil => exact ⟨[], by simp, by simp, by simp⟩
  | cons next ts ih =>
    have hself : ts.count next + 1 ≤ indeg next := by simpa using hc next
    have hother : ∀ v, v ≠ next → ts.count v ≤ indeg v := by
      intro v hv
      simpa [Ne.symm hv] using hc v
    obtain ⟨pushed, hr, hn, hm⟩ := ih (fun v => if v = next then indeg v - 1 else indeg v)
      (if indeg next - 1 = 0 then ready ++ [next] else ready) (by
        intro v
        by_cases hv : v = next
        · subst hv
          simp only [if_pos]
          omega
        · simpa [hv] using hother v hv)
    have hrun : ((next :: ts).foldl release (indeg, ready)).2 =
        (if indeg next - 1 = 0 then ready ++ [next] else ready) ++ pushed := by
      rw [← hr]
      simp [release]
    have hrest : ∀ v, v ≠ next →
        (v ∈ pushed ↔ v ∈ next :: ts ∧ indeg v = (next :: ts).count v) := by
      intro v hv
      simp [hm, hv, Ne.symm hv]
    have hnext : next ∈ pushed ↔ next ∈ ts ∧ indeg next - 1 = ts.count next := by simp [hm]
    by_cases hz : indeg next - 1 = 0
    · -- Nothing else leads to `next`, so it is queued here and not again.
      have hnot : next ∉ ts := List.count_eq_zero.mp (by omega)
      refine ⟨next :: pushed, by rw [hrun, if_pos hz]; simp, ?_, ?_⟩
      · exact List.nodup_cons.mpr ⟨fun hp => hnot (hnext.mp hp).1, hn⟩
      · intro v
        by_cases hv : v = next
        · subst hv
          have h0 := List.count_eq_zero.mpr hnot
          simp only [List.mem_cons, true_or, List.count_cons_self, true_and, true_iff]
          omega
        · rw [List.mem_cons, hrest v hv]
          simp [hv]
    · refine ⟨pushed, by rw [hrun, if_neg hz], hn, ?_⟩
      intro v
      by_cases hv : v = next
      · subst hv
        rw [hnext, List.count_cons_self]
        simp only [List.mem_cons, true_or, true_and]
        constructor
        · intro h
          omega
        · intro h
          have hpos : 0 < ts.count v := by omega
          exact ⟨List.count_pos_iff.mp hpos, by omega⟩
      · exact hrest v hv

/-- What every state of the loop satisfies. The in-degrees count exactly the
edges whose source is still waiting, and reaching zero is the same as having
been queued. -/
structure Inv (n : Nat) (es : Edges) (s : State) : Prop where
  nodup : (s.order ++ s.ready).Nodup
  bound : ∀ v ∈ s.order ++ s.ready, v < n
  count : ∀ v, s.indegree v = es.countP (fun e => e.2 == v && decide (e.1 ∉ s.order))
  zero : ∀ v < n, v ∈ s.order ++ s.ready ↔ s.indegree v = 0
  forward : s.order.Pairwise (fun x y => ¬ Edge es y x)
  loopless : ∀ v ∈ s.order, ¬ Edge es v v

theorem start_inv (n : Nat) (es : Edges) : Inv n es (start n es) where
  nodup := by simpa [start] using List.nodup_range.filter _
  bound := by
    intro v hv
    have hv : v < n ∧ indegree es v = 0 := by simpa [start] using hv
    exact hv.1
  count := by intro v; simp [start, indegree]
  zero := by
    intro v hv
    simp [start, hv]
  forward := List.Pairwise.nil
  loopless := by simp [start]

/-- An edge into a queued vertex has its source placed already. -/
theorem Inv.source_placed (h : Inv n es s) (hr : InRange n es)
    (hv : v ∈ s.order ++ s.ready) (he : Edge es a v) : a ∈ s.order := by
  have hz := (h.zero v (hr _ he).2).mp hv
  rw [h.count v] at hz
  by_contra hn
  have := List.countP_eq_zero.mp hz _ he
  simp [hn] at this

/-- Placing `u` moves its outgoing edges out of the waiting count. -/
theorem waiting_split (es : Edges) (order : List Nat) (u v : Nat) (hu : u ∉ order) :
    es.countP (fun e => e.2 == v && decide (e.1 ∉ order)) =
      es.countP (fun e => e.2 == v && decide (e.1 ∉ order ++ [u])) +
        (adjacency es u).count v := by
  rw [count_adjacency]
  induction es with
  | nil => rfl
  | cons e es ih =>
    simp only [List.countP_cons, ih]
    by_cases hv : e.2 = v <;> by_cases he : e.1 = u <;> by_cases ho : e.1 ∈ order <;>
      simp_all <;> omega

theorem mem_adjacency : v ∈ adjacency es u ↔ Edge es u v := by
  simp [adjacency, Edge]

/-- What placing the front of the queue does: its edges stop waiting, and the
vertices queued are those with no waiting edge left. -/
structure Placed (es : Edges) (s : State) (node : Nat) (pushed : List Nat) : Prop where
  order : (step es s).order = s.order ++ [node]
  queue : (step es s).order ++ (step es s).ready = (s.order ++ s.ready) ++ pushed
  count : ∀ v, (step es s).indegree v =
    es.countP (fun e => e.2 == v && decide (e.1 ∉ (step es s).order))
  nodup : pushed.Nodup
  edge : ∀ v ∈ pushed, Edge es node v
  emptied : ∀ v, v ∈ pushed ↔ s.indegree v ≠ 0 ∧ (step es s).indegree v = 0
  le : ∀ v, (step es s).indegree v ≤ s.indegree v

theorem Inv.front_unplaced (h : Inv n es s) (hready : s.ready = node :: rest) :
    node ∉ s.order := by
  intro hm
  have hnd := List.nodup_append.mp h.nodup
  exact hnd.2.2 node hm node (by simp [hready]) rfl

theorem step_placed (h : Inv n es s) (hready : s.ready = node :: rest) :
    ∃ pushed, Placed es s node pushed := by
  have hwait : ∀ v, s.indegree v = es.countP
      (fun e => e.2 == v && decide (e.1 ∉ s.order ++ [node])) + (adjacency es node).count v :=
    fun v => (h.count v).trans (waiting_split es s.order node v (h.front_unplaced hready))
  obtain ⟨pushed, hq, hn, hm⟩ := release_fold_ready (adjacency es node) s.indegree rest
    (fun v => by rw [hwait v]; omega)
  have hstep : step es s = ⟨((adjacency es node).foldl release (s.indegree, rest)).1,
      rest ++ pushed, s.order ++ [node]⟩ := by
    simp [step, hready, hq]
  have hcount : ∀ v, (step es s).indegree v = s.indegree v - (adjacency es node).count v := by
    intro v
    rw [hstep]
    exact release_fold_indegree _ _ _ v
  refine ⟨pushed, by rw [hstep], by simp [hstep, hready], ?_, hn, ?_, ?_, ?_⟩
  · intro v
    rw [hcount v, hwait v, hstep]
    exact Nat.add_sub_cancel _ _
  · intro v hv
    exact mem_adjacency.mp ((hm v).mp hv).1
  · intro v
    rw [hm, hcount v]
    constructor
    · intro hv
      have hpos := List.count_pos_iff.mpr hv.1
      omega
    · intro hv
      have hle := hwait v
      have hpos : 0 < (adjacency es node).count v := by omega
      exact ⟨List.count_pos_iff.mp hpos, by omega⟩
  · intro v
    rw [hcount v]
    exact Nat.sub_le _ _

theorem Placed.inv (hr : InRange n es) (h : Inv n es s) (hready : s.ready = node :: rest)
    (hp : Placed es s node pushed) : Inv n es (step es s) where
  nodup := by
    rw [hp.queue]
    refine List.nodup_append.mpr ⟨h.nodup, hp.nodup, ?_⟩
    intro a ha b hb hab
    subst hab
    exact ((hp.emptied a).mp hb).1 ((h.zero a (h.bound a ha)).mp ha)
  bound := by
    rw [hp.queue]
    intro v hv
    rcases List.mem_append.mp hv with hv | hv
    · exact h.bound v hv
    · exact (hr _ (hp.edge v hv)).2
  count := hp.count
  zero := by
    intro v hv
    have hle := hp.le v
    rw [hp.queue, List.mem_append, h.zero v hv, hp.emptied]
    omega
  forward := by
    rw [hp.order]
    refine List.pairwise_append.mpr ⟨h.forward, List.pairwise_singleton _ _, ?_⟩
    intro x hx y hy he
    obtain rfl := List.mem_singleton.mp hy
    exact h.front_unplaced hready (h.source_placed hr (List.mem_append_left _ hx) he)
  loopless := by
    rw [hp.order]
    intro v hv he
    rcases List.mem_append.mp hv with hv | hv
    · exact h.loopless v hv he
    · obtain rfl := List.mem_singleton.mp hv
      exact h.front_unplaced hready (h.source_placed hr (by simp [hready]) he)

theorem step_inv (hr : InRange n es) (h : Inv n es s) : Inv n es (step es s) := by
  cases hready : s.ready with
  | nil => simpa [step, hready] using h
  | cons node rest =>
    obtain ⟨pushed, hp⟩ := step_placed h hready
    exact hp.inv hr h hready

theorem loop_inv (hr : InRange n es) (k : Nat) (h : Inv n es s) : Inv n es (loop es k s) := by
  induction k generalizing s with
  | zero => exact h
  | succ k ih =>
    unfold loop
    split
    · exact h
    · exact ih (step_inv hr h)

theorem step_order_length (h : s.ready = node :: rest) :
    (step es s).order.length = s.order.length + 1 := by
  simp [step, h]

theorem Inv.length_le (h : Inv n es s) : (s.order ++ s.ready).length ≤ n := by
  have hs : s.order ++ s.ready ⊆ List.range n := fun v hv => List.mem_range.mpr (h.bound v hv)
  simpa using (h.nodup.subperm hs).length_le

/-- Every round places one vertex, so `n` rounds empty the queue. -/
theorem loop_ready (hr : InRange n es) (h : Inv n es s) (hk : n ≤ s.order.length + k) :
    (loop es k s).ready = [] := by
  induction k generalizing s with
  | zero =>
    have := h.length_le
    simp only [List.length_append] at this
    exact List.length_eq_zero_iff.mp (by simp only [loop]; omega)
  | succ k ih =>
    unfold loop
    split
    · assumption
    · rename_i node rest hready
      exact ih (step_inv hr h) (by rw [step_order_length hready]; omega)

theorem sort_inv (hr : InRange n es) : Inv n es (loop es n (start n es)) :=
  loop_inv hr n (start_inv n es)

theorem sort_nodup (hr : InRange n es) : (sort n es).Nodup :=
  (List.nodup_append.mp (sort_inv hr).nodup).1

theorem sort_bound (hr : InRange n es) (hv : v ∈ sort n es) : v < n :=
  (sort_inv hr).bound v (List.mem_append_left _ hv)

theorem source_mem_sort (hr : InRange n es) (hv : v ∈ sort n es) (he : Edge es a v) :
    a ∈ sort n es :=
  (sort_inv hr).source_placed hr (List.mem_append_left _ hv) he

/-- A placed vertex comes after the source of each of its incoming edges. -/
theorem sort_before (hr : InRange n es) (hb : b ∈ sort n es) (he : Edge es a b) :
    (sort n es).idxOf a < (sort n es).idxOf b := by
  have ha := source_mem_sort hr hb he
  have hne : a ≠ b := by
    rintro rfl
    exact (sort_inv hr).loopless a hb he
  by_contra hlt
  have hib := List.idxOf_lt_length_iff.mpr hb
  have hia := List.idxOf_lt_length_iff.mpr ha
  have hneq : (sort n es).idxOf b ≠ (sort n es).idxOf a := by
    intro heq
    exact hne ((List.idxOf_inj hb).mp heq).symm
  have hp := List.pairwise_iff_getElem.mp (sort_inv hr).forward _ _ hib hia (by omega)
  simp only [sort, List.getElem_idxOf] at hp
  exact hp he

/-- A vertex left out still waits for a vertex left out. -/
theorem unplaced_source (hr : InRange n es) (hv : v < n) (hn : v ∉ sort n es) :
    ∃ a, Edge es a v ∧ a ∉ sort n es := by
  have hi := sort_inv hr
  have hready := loop_ready hr (start_inv n es) (k := n) (by simp [start])
  have hpos : (loop es n (start n es)).indegree v ≠ 0 := by
    intro hz
    have hm := (hi.zero v hv).mpr hz
    rw [hready, List.append_nil] at hm
    exact hn hm
  rw [hi.count v] at hpos
  obtain ⟨e, he, hp⟩ := List.countP_pos_iff.mp (Nat.pos_of_ne_zero hpos)
  simp only [Bool.and_eq_true, beq_iff_eq, decide_eq_true_eq] at hp
  obtain ⟨rfl, ho⟩ := hp
  exact ⟨e.1, he, ho⟩

theorem acyclic_wf (ha : Acyclic es) :
    WellFounded (TransGen (fun a b : Fin n => Edge es a b)) := by
  have : IsTrans (Fin n) (TransGen (fun a b : Fin n => Edge es a b)) := ⟨fun _ _ _ => .trans⟩
  have : Std.Irrefl (TransGen (fun a b : Fin n => Edge es a b)) :=
    ⟨fun a h => ha a (TransGen.lift Fin.val (fun _ _ he => he) _ _ h)⟩
  exact Finite.wellFounded_of_trans_of_irrefl _

/-- The queue releases every vertex exactly when the edges close no cycle. -/
theorem sort_length_iff (hr : InRange n es) : (sort n es).length = n ↔ Acyclic es := by
  constructor
  · intro hl v hc
    have hall : ∀ w < n, w ∈ sort n es := by
      intro w hw
      have hs : sort n es ⊆ List.range n := fun x hx => List.mem_range.mpr (sort_bound hr hx)
      have hp := ((sort_nodup hr).subperm hs).perm_of_length_le (by simp [hl])
      exact hp.mem_iff.mpr (List.mem_range.mpr hw)
    have hlt : ∀ a b, TransGen (Edge es) a b → (sort n es).idxOf a < (sort n es).idxOf b := by
      intro a b h
      induction h with
      | single he => exact sort_before hr (hall _ (hr _ he).2) he
      | tail _ he ih => exact Nat.lt_trans ih (sort_before hr (hall _ (hr _ he).2) he)
    exact Nat.lt_irrefl _ (hlt v v hc)
  · intro ha
    have hall : ∀ v : Fin n, v.val ∈ sort n es := by
      intro v
      induction v using (acyclic_wf ha).induction with
      | _ v ih =>
        by_contra hn
        obtain ⟨a, he, hna⟩ := unplaced_source hr v.isLt hn
        exact hna (ih ⟨a, (hr _ he).1⟩ (.single he))
    have hsub : List.range n ⊆ sort n es := fun v hv => hall ⟨v, List.mem_range.mp hv⟩
    have h1 := (List.nodup_range.subperm hsub).length_le
    have h2 := (sort_inv hr).length_le
    simp only [List.length_range, List.length_append] at h1 h2
    exact Nat.le_antisymm (Nat.le_trans (Nat.le_add_right _ _) h2) h1

theorem sort_perm (hr : InRange n es) (hl : (sort n es).length = n) :
    (sort n es).Perm (List.range n) := by
  have hs : sort n es ⊆ List.range n := fun x hx => List.mem_range.mpr (sort_bound hr hx)
  exact ((sort_nodup hr).subperm hs).perm_of_length_le (by simp [hl])

end Library.Kahn
