import Cpipe.Runtime.Scheduler
import Mathlib.Algebra.Order.BigOperators.Group.List
import Mathlib.Algebra.Order.Ring.Nat

namespace Cpipe.Proofs.Scheduler
open Cpipe.Runtime Cpipe.Runtime.Scheduler Library

variable {nodes : List ScheduledNode} {phase : Nat → Phase} {first status : Status}
  {log : List Event} {s t : State}

/-- Direct dependency, as declared: `d` has to be done before `i`. -/
def Dependency (nodes : List ScheduledNode) (d i : Nat) : Prop :=
  ∃ node, nodes[i]? = some node ∧ d ∈ node.dependencies

theorem edge_precedence {d i : Nat} :
    Kahn.Edge (precedence nodes) d i ↔ Dependency nodes d i := by
  simp only [Kahn.Edge, precedence, List.mem_flatMap, List.mem_map, Prod.exists, Prod.mk.injEq,
    Dependency, List.mem_zipIdx_iff_getElem?]
  constructor
  · intro hx
    obtain ⟨node, j, hj, d', hd, rfl, rfl⟩ := hx
    exact ⟨node, hj, hd⟩
  · intro hx
    obtain ⟨node, hi, hd⟩ := hx
    exact ⟨node, i, hi, d, hd, rfl, rfl⟩

/-- What a log may look like at any moment: no callback is called twice, and a
call stands behind the successful returns of everything it depends on. -/
structure Safe (nodes : List ScheduledNode) (log : List Event) : Prop where
  once : ∀ i, log.count (.called i) ≤ 1
  ordered : ∀ before after i, log = before ++ .called i :: after →
    ∀ d, Relation.TransGen (Dependency nodes) d i →
      .called d ∈ before ∧ .returned d .ok ∈ before

theorem snoc_cut {before after : List Event} {e x : Event} (h : log ++ [e] = before ++ x :: after) :
    (log = before ∧ e = x) ∨ ∃ init, log = before ++ x :: init := by
  rcases List.eq_nil_or_concat after with rfl | ⟨init, last, rfl⟩
  · obtain ⟨rfl, hlast⟩ := List.append_inj' h rfl
    exact .inl ⟨rfl, by simpa using hlast⟩
  · have hcut : log ++ [e] = (before ++ x :: init) ++ [last] := by simpa using h
    exact .inr ⟨init, (List.append_inj' hcut rfl).1⟩

theorem Safe.nil (nodes : List ScheduledNode) : Safe nodes [] :=
  ⟨by simp, by simp⟩

theorem Safe.snoc_returned (h : Safe nodes log) (i : Nat) (status : Status) :
    Safe nodes (log ++ [.returned i status]) := by
  constructor
  · intro j
    simpa using h.once j
  · intro before after j he d hd
    rcases snoc_cut he with ⟨_, hlast⟩ | ⟨init, hcut⟩
    · cases hlast
    · exact h.ordered before init j hcut d hd

theorem Safe.snoc_called (h : Safe nodes log) {i : Nat} (hnew : .called i ∉ log)
    (hdeps : ∀ d, Relation.TransGen (Dependency nodes) d i →
      .called d ∈ log ∧ .returned d .ok ∈ log) : Safe nodes (log ++ [.called i]) := by
  constructor
  · intro j
    rw [List.count_append, List.count_singleton]
    have := h.once j
    split
    · rename_i hij
      obtain rfl : i = j := by simpa using hij
      simp [List.count_eq_zero_of_not_mem hnew]
    · omega
  · intro before after j he d hd
    rcases snoc_cut he with ⟨rfl, hlast⟩ | ⟨init, hcut⟩
    · cases hlast
      exact hdeps d hd
    · exact h.ordered before init j hcut d hd

/-- What the returned status says about the log. -/
structure Outcome (nodes : List ScheduledNode) (status : Status) (log : List Event) : Prop where
  ok_iff : status = .ok ↔
    ∀ i < nodes.length, .called i ∈ log ∧ .returned i .ok ∈ log
  blame : status ≠ .ok → ∃ i < nodes.length, .called i ∈ log ∧ .returned i status ∈ log

/-- The log of the loop once the nodes before `n` went well. -/
def passed (n : Nat) : List Event :=
  (List.range n).flatMap (fun i => [.called i, .returned i .ok])

theorem passed_succ (n : Nat) : passed (n+1) = passed n ++ [.called n, .returned n .ok] := by
  simp [passed, List.range_succ]

theorem called_mem_passed {i n : Nat} : .called i ∈ passed n ↔ i < n := by
  simp [passed]

theorem returned_mem_passed {i n : Nat} : .returned i status ∈ passed n ↔ i < n ∧ status = .ok := by
  simp [passed]

/-- A task whose callback was called. -/
def Called : Phase → Prop
  | .waiting | .admitted | .finished none => False
  | .calling | .returned _ | .finished (some _) => True

def Returned (p : Phase) (status : Status) : Prop :=
  p = .returned status ∨ p = .finished (some status)

/-- The tasks, the flag and the log agree. A task that saw the flag clear has
all its predecessors finished with `CPIPE_OK`. -/
structure Tasks (nodes : List ScheduledNode) (phase : Nat → Phase) (first : Status)
    (log : List Event) : Prop where
  safe : Safe nodes log
  called : ∀ i, .called i ∈ log ↔ Called (phase i)
  returned : ∀ i status, .returned i status ∈ log ↔ Returned (phase i) status
  clear : first = .ok → ∀ i result, phase i = .finished result → result = some .ok
  blame : first ≠ .ok → ∃ i, .returned i first ∈ log
  behind : ∀ i, phase i ≠ .waiting → phase i ≠ .finished none →
    ∀ d, Dependency nodes d i → phase d = .finished (some .ok)
  bound : ∀ i, phase i ≠ .waiting → i < nodes.length

theorem Tasks.ancestors (h : Tasks nodes phase first log) {i : Nat}
    (hw : phase i ≠ .waiting) (hn : phase i ≠ .finished none)
    (hd : Relation.TransGen (Dependency nodes) d i) : phase d = .finished (some .ok) := by
  induction hd using Relation.TransGen.head_induction_on with
  | single hd => exact h.behind i hw hn _ hd
  | head hd _ ih => exact h.behind _ (by simp [ih]) (by simp [ih]) _ hd

/-- A task may move from phase to phase when nothing else depends on the move:
it was not finished before, and what it leaves behind stays true. -/
theorem Tasks.move (h : Tasks nodes phase first log) {i : Nat} {p : Phase}
    (hi : i < nodes.length) (hunfinished : (phase i).isFinished = false)
    (hbehind : p ≠ .waiting → p ≠ .finished none →
      ∀ d, Dependency nodes d i → phase d = .finished (some .ok))
    (hclear : first' = .ok → first = .ok ∧ ∀ result, p = .finished result → result = some .ok)
    (hblame : first' ≠ .ok → ∃ j, .returned j first' ∈ log')
    (hsafe : Safe nodes log')
    (hcalled : ∀ j, .called j ∈ log' ↔ Called (Function.update phase i p j))
    (hreturned : ∀ j status, .returned j status ∈ log' ↔
      Returned (Function.update phase i p j) status) :
    Tasks nodes (Function.update phase i p) first' log' where
  safe := hsafe
  called := hcalled
  returned := hreturned
  clear := by
    intro hf j result hj
    obtain ⟨hf, hp⟩ := hclear hf
    by_cases hji : j = i
    · subst hji
      exact hp result (by simpa using hj)
    · exact h.clear hf j result (by simpa [hji] using hj)
  blame := hblame
  behind := by
    intro j hw hn d hd
    have hdi : phase d = .finished (some .ok) := by
      by_cases hji : j = i
      · subst hji
        exact hbehind (by simpa using hw) (by simpa using hn) d hd
      · exact h.behind j (by simpa [hji] using hw) (by simpa [hji] using hn) d hd
    have hne : d ≠ i := by
      rintro rfl
      simp [hdi, Phase.isFinished] at hunfinished
    simpa [hne] using hdi
  bound := by
    intro j hw
    by_cases hji : j = i
    · exact hji ▸ hi
    · exact h.bound j (by simpa [hji] using hw)

/-- A silent move keeps the log and what it says about the task. -/
theorem Tasks.silent (h : Tasks nodes phase first log) {i : Nat} {p : Phase}
    (hcalled : Called p ↔ Called (phase i))
    (hreturned : ∀ status, Returned p status ↔ Returned (phase i) status) :
    (∀ j, .called j ∈ log ↔ Called (Function.update phase i p j)) ∧
    (∀ j status, .returned j status ∈ log ↔ Returned (Function.update phase i p j) status) := by
  constructor
  · intro j
    rw [h.called]
    by_cases hji : j = i
    · subst hji
      simp [hcalled]
    · simp [hji]
  · intro j status
    rw [h.returned]
    by_cases hji : j = i
    · subst hji
      simp [hreturned]
    · simp [hji]

theorem Tasks.start (nodes : List ScheduledNode) :
    Tasks nodes (fun _ => .waiting) .ok [] where
  safe := .nil nodes
  called := by simp [Called]
  returned := by simp [Returned]
  clear := by simp
  blame := by simp
  behind := by simp
  bound := by simp

theorem Tasks.skip (h : Tasks nodes phase first log) (hr : ready nodes phase i)
    (hf : first ≠ .ok) :
    Tasks nodes (Function.update phase i (.finished none)) first log := by
  obtain ⟨hi, hw, _⟩ := hr
  obtain ⟨hcalled, hreturned⟩ := h.silent (i := i) (p := .finished none)
    (by simp [hw, Called]) (by simp [hw, Returned])
  exact h.move hi (by simp [hw, Phase.isFinished]) (by simp) (by simp [hf]) h.blame h.safe
    hcalled hreturned

/-- The flag is clear, so every predecessor finished with `CPIPE_OK`. -/
theorem Tasks.enter (h : Tasks nodes phase .ok log) (hr : ready nodes phase i) :
    Tasks nodes (Function.update phase i .admitted) .ok log := by
  obtain ⟨hi, hw, hdone⟩ := hr
  obtain ⟨hcalled, hreturned⟩ := h.silent (i := i) (p := .admitted)
    (by simp [hw, Called]) (by simp [hw, Returned])
  refine h.move hi (by simp [hw, Phase.isFinished]) ?_ (by simp) h.blame h.safe hcalled hreturned
  intro _ _ d hd
  have hfin := hdone d (edge_precedence.mpr hd)
  cases hp : phase d with
  | finished result => rw [h.clear rfl d result hp]
  | _ => simp [hp, Phase.isFinished] at hfin

theorem Tasks.call (h : Tasks nodes phase first log) (hp : phase i = .admitted) :
    Tasks nodes (Function.update phase i .calling) first (log ++ [.called i]) := by
  have hw : phase i ≠ .waiting := by simp [hp]
  have hn : phase i ≠ .finished none := by simp [hp]
  refine h.move (h.bound i hw) (by simp [hp, Phase.isFinished]) (fun _ _ => h.behind i hw hn)
    ?_ ?_ ?_ ?_ ?_
  · intro hf
    exact ⟨hf, by simp⟩
  · intro hf
    obtain ⟨j, hj⟩ := h.blame hf
    exact ⟨j, by simp [hj]⟩
  · apply h.safe.snoc_called
    · simp [h.called, hp, Called]
    · intro d hd
      have hpd := h.ancestors hw hn hd
      simp [h.called, h.returned, hpd, Called, Returned]
  · intro j
    by_cases hji : j = i
    · subst hji
      simp [Called]
    · simp [hji, h.called]
  · intro j status
    by_cases hji : j = i
    · subst hji
      simp [h.returned, hp, Returned]
    · simp [hji, h.returned]

theorem Tasks.reply (h : Tasks nodes phase first log) (hp : phase i = .calling)
    (status : Status) :
    Tasks nodes (Function.update phase i (.returned status)) first
      (log ++ [.returned i status]) := by
  have hw : phase i ≠ .waiting := by simp [hp]
  have hn : phase i ≠ .finished none := by simp [hp]
  refine h.move (h.bound i hw) (by simp [hp, Phase.isFinished]) (fun _ _ => h.behind i hw hn)
    ?_ ?_ (h.safe.snoc_returned i status) ?_ ?_
  · intro hf
    exact ⟨hf, by simp⟩
  · intro hf
    obtain ⟨j, hj⟩ := h.blame hf
    exact ⟨j, by simp [hj]⟩
  · intro j
    by_cases hji : j = i
    · subst hji
      simp [h.called, hp, Called]
    · simp [hji, h.called]
  · intro j other
    by_cases hji : j = i
    · subst hji
      simp [h.returned, hp, Returned, eq_comm]
    · simp [hji, h.returned]

theorem Tasks.settle (h : Tasks nodes phase first log) (hp : phase i = .returned status)
    (hfirst : first' = if first = .ok then status else first) :
    Tasks nodes (Function.update phase i (.finished (some status))) first' log := by
  have hw : phase i ≠ .waiting := by simp [hp]
  have hn : phase i ≠ .finished none := by simp [hp]
  obtain ⟨hcalled, hreturned⟩ := h.silent (i := i) (p := .finished (some status))
    (by simp [hp, Called]) (by simp [hp, Returned])
  refine h.move (h.bound i hw) (by simp [hp, Phase.isFinished]) (fun _ _ => h.behind i hw hn)
    ?_ ?_ h.safe hcalled hreturned
  · intro hf
    split at hfirst
    · rename_i hok
      exact ⟨hok, by simp [← hfirst, hf]⟩
    · rename_i hok
      exact absurd (hfirst ▸ hf) hok
  · intro hf
    split at hfirst
    · exact ⟨i, by simp [h.returned, hp, hfirst, Returned]⟩
    · rename_i hok
      exact hfirst ▸ h.blame hok

theorem Tasks.outcome (h : Tasks nodes phase first log)
    (hall : ∀ i < nodes.length, (phase i).isFinished = true) : Outcome nodes first log := by
  have hblame : first ≠ .ok → ∃ i < nodes.length, .called i ∈ log ∧ .returned i first ∈ log := by
    intro hf
    obtain ⟨i, hi⟩ := h.blame hf
    have hp := (h.returned i first).mp hi
    refine ⟨i, h.bound i ?_, (h.called i).mpr ?_, hi⟩
    · rcases hp with hp | hp <;> simp [hp]
    · rcases hp with hp | hp <;> simp [hp, Called]
  refine ⟨?_, hblame⟩
  constructor
  · intro hf i hi
    have hfin := hall i hi
    cases hp : phase i with
    | finished result =>
      have hresult := h.clear hf i result hp
      simp [h.called, h.returned, hp, hresult, Called, Returned]
    | _ => simp [hp, Phase.isFinished] at hfin
  · intro hok
    by_contra hf
    obtain ⟨i, hi, _, hret⟩ := hblame hf
    -- A task has one result, so it cannot have returned both.
    have h1 := (h.returned i first).mp hret
    have h2 := (h.returned i .ok).mp (hok i hi).2
    rcases h1 with h1 | h1 <;> rcases h2 with h2 | h2 <;> simp_all

/-- The invariant of `Scheduler::run`. -/
def Inv (nodes : List ScheduledNode) (s : State) : Prop :=
  match s.control with
  | .loop i => hasDependencies nodes = false ∧ i ≤ nodes.length ∧ s.log = passed i
  | .calling i => hasDependencies nodes = false ∧ i < nodes.length ∧
      s.log = passed i ++ [.called i]
  | .tasks phase => Tasks nodes phase s.firstStatus s.log
  | .done status => Safe nodes s.log ∧ Outcome nodes status s.log

theorem independent (h : hasDependencies nodes = false) (d i : Nat) :
    ¬ Dependency nodes d i := by
  intro hx
  obtain ⟨node, hi, hd⟩ := hx
  have hm := List.mem_of_getElem? hi
  have := List.any_eq_false.mp h node hm
  simp_all

theorem Safe.passed (h : hasDependencies nodes = false) (n : Nat) :
    Safe nodes (passed n) ∧ Safe nodes (passed n ++ [.called n]) := by
  have hstep : ∀ n, Safe nodes (Scheduler.passed n) →
      Safe nodes (Scheduler.passed n ++ [.called n]) := by
    intro n hs
    apply hs.snoc_called
    · simp [called_mem_passed]
    · intro d hd
      obtain ⟨b, _, hb⟩ := Relation.TransGen.tail'_iff.mp hd
      exact absurd hb (independent h b n)
  have hall : Safe nodes (Scheduler.passed n) := by
    induction n with
    | zero => exact .nil nodes
    | succ n ih =>
      have := (hstep n ih).snoc_returned n .ok
      simpa [passed_succ] using this
  exact ⟨hall, hstep n hall⟩

theorem start_inv (hr : ∀ d i, Dependency nodes d i → d < nodes.length) :
    Inv nodes (start nodes) := by
  unfold start
  split
  · have hin : (precedence nodes).any (fun e => decide (nodes.length ≤ e.1)) = false := by
      apply List.any_eq_false.mpr
      rintro ⟨d, i⟩ he
      have := hr d i (edge_precedence.mp he)
      simpa using this
    rw [if_neg (by simp [hin])]
    exact .start nodes
  · rename_i hd
    exact ⟨by simpa using hd, Nat.zero_le _, rfl⟩

theorem step_inv (h : Inv nodes s) (hs : Step nodes s t) : Inv nodes t := by
  cases hs with
  | exit =>
    obtain ⟨hd, _, rfl⟩ := h
    refine ⟨(Safe.passed hd _).1, ⟨?_, by simp⟩⟩
    simp [called_mem_passed, returned_mem_passed]
  | dispatch hi =>
    obtain ⟨hd, _, rfl⟩ := h
    exact ⟨hd, hi, rfl⟩
  | pass =>
    obtain ⟨hd, hi, rfl⟩ := h
    exact ⟨hd, hi, by simp [passed_succ]⟩
  | @abort status i _ _ hs =>
    obtain ⟨hd, hi, rfl⟩ := h
    refine ⟨(Safe.passed hd i).2.snoc_returned i status, ⟨?_, ?_⟩⟩
    · simp only [hs, false_iff, not_forall]
      refine ⟨i, hi, ?_⟩
      simp [returned_mem_passed, Ne.symm hs]
    · intro _
      exact ⟨i, hi, by simp, by simp⟩
  | skip hr hf => exact Tasks.skip h hr hf
  | enter hr => exact Tasks.enter h hr
  | call hp => exact Tasks.call h hp
  | reply hp => exact Tasks.reply h hp _
  | @finish _ _ first _ hp =>
    refine Tasks.settle h hp ?_
    split <;> simp_all
  | record hp hs => exact Tasks.settle h hp rfl
  | join hall => exact ⟨h.safe, Tasks.outcome h hall⟩

theorem reachable_inv (hr : ∀ d i, Dependency nodes d i → d < nodes.length)
    (h : Reachable nodes s) : Inv nodes s := by
  induction h with
  | refl => exact start_inv hr
  | tail _ hs ih => exact step_inv ih hs

theorem Inv.safe (h : Inv nodes s) : Safe nodes s.log := by
  unfold Inv at h
  split at h
  · rw [h.2.2]
    exact (Safe.passed h.1 _).1
  · rw [h.2.2]
    exact (Safe.passed h.1 _).2
  · exact h.safe
  · exact h.1

/-- Steps left for one task. -/
def Phase.rank : Phase → Nat
  | .waiting => 4
  | .admitted => 3
  | .calling => 2
  | .returned _ => 1
  | .finished _ => 0

/-- Steps left for the run, at most. -/
def rank (nodes : List ScheduledNode) (s : State) : Nat :=
  match s.control with
  | .loop i => 2 * (nodes.length - i) + 1
  | .calling i => 2 * (nodes.length - i)
  | .tasks phase => ((List.range nodes.length).map (fun i => Phase.rank (phase i))).sum + 1
  | .done _ => 0

theorem sum_update_lt (hi : i < n) (hp : Phase.rank p < Phase.rank (phase i)) :
    ((List.range n).map (fun j => Phase.rank (Function.update phase i p j))).sum <
      ((List.range n).map (fun j => Phase.rank (phase j))).sum := by
  apply List.sum_lt_sum
  · intro j _
    by_cases hji : j = i
    · subst hji
      simpa using Nat.le_of_lt hp
    · simp [hji]
  · exact ⟨i, List.mem_range.mpr hi, by simpa using hp⟩

/-- Every step uses up one of the steps left, so no run goes on for ever. -/
theorem step_rank (h : Inv nodes s) (hs : Step nodes s t) : rank nodes t < rank nodes s := by
  cases hs with
  | exit => simp [rank]
  | dispatch hi => simp only [rank]; omega
  | pass =>
    obtain ⟨_, hi, _⟩ := h
    simp only [rank]
    omega
  | abort _ =>
    obtain ⟨_, hi, _⟩ := h
    simp only [rank]
    omega
  | skip hr _ =>
    exact Nat.succ_lt_succ (sum_update_lt hr.1 (by simp [hr.2.1, Phase.rank]))
  | enter hr =>
    exact Nat.succ_lt_succ (sum_update_lt hr.1 (by simp [hr.2.1, Phase.rank]))
  | call hp =>
    exact Nat.succ_lt_succ (sum_update_lt (Tasks.bound h _ (by simp [hp]))
      (by simp [hp, Phase.rank]))
  | reply hp =>
    exact Nat.succ_lt_succ (sum_update_lt (Tasks.bound h _ (by simp [hp]))
      (by simp [hp, Phase.rank]))
  | finish hp =>
    exact Nat.succ_lt_succ (sum_update_lt (Tasks.bound h _ (by simp [hp]))
      (by simp [hp, Phase.rank]))
  | record hp _ =>
    exact Nat.succ_lt_succ (sum_update_lt (Tasks.bound h _ (by simp [hp]))
      (by simp [hp, Phase.rank]))
  | join _ => simp [rank]

theorem acyclic_precedence (ha : ∀ i, ¬ Relation.TransGen (Dependency nodes) i i) :
    Kahn.Acyclic (precedence nodes) := by
  intro i hc
  exact ha i (Relation.TransGen.mono (fun _ _ he => edge_precedence.mp he) _ _ hc)

/-- Among unfinished tasks one has all its predecessors behind it. -/
theorem unfinished_ready (hr : ∀ d i, Dependency nodes d i → d < nodes.length)
    (ha : ∀ i, ¬ Relation.TransGen (Dependency nodes) i i)
    (hi : i < nodes.length) (hu : (phase i).isFinished = false) :
    ∃ j < nodes.length, (phase j).isFinished = false ∧
      ∀ d, Kahn.Edge (precedence nodes) d j → (phase d).isFinished = true := by
  obtain ⟨j, hj, hmin⟩ := (Kahn.acyclic_wf (n := nodes.length) (acyclic_precedence ha)).has_min
    {v | (phase v).isFinished = false} ⟨⟨i, hi⟩, hu⟩
  refine ⟨j, j.isLt, hj, ?_⟩
  intro d hd
  by_contra hn
  exact hmin ⟨d, hr d j (edge_precedence.mp hd)⟩ (by simpa using hn) (.single hd)

theorem progress (hr : ∀ d i, Dependency nodes d i → d < nodes.length)
    (ha : ∀ i, ¬ Relation.TransGen (Dependency nodes) i i) (h : Inv nodes s) :
    (∃ status, s.control = .done status) ∨ ∃ t, Step nodes s t := by
  obtain ⟨control, first, log⟩ := s
  cases control with
  | done status => exact .inl ⟨status, rfl⟩
  | loop i =>
    refine .inr ?_
    rcases Nat.lt_or_eq_of_le h.2.1 with hi | rfl
    · exact ⟨_, .dispatch hi⟩
    · exact ⟨_, .exit⟩
  | calling i => exact .inr ⟨_, .pass⟩
  | tasks phase =>
    refine .inr ?_
    by_cases hall : ∀ i < nodes.length, (phase i).isFinished = true
    · exact ⟨_, .join hall⟩
    · simp only [not_forall, Bool.not_eq_true] at hall
      obtain ⟨i, hi, hu⟩ := hall
      obtain ⟨j, hj, hu, hdeps⟩ := unfinished_ready hr ha hi hu
      cases hp : phase j with
      | waiting =>
        by_cases hf : first = .ok
        · subst hf
          exact ⟨_, .enter ⟨hj, hp, hdeps⟩⟩
        · exact ⟨_, .skip ⟨hj, hp, hdeps⟩ hf⟩
      | admitted => exact ⟨_, .call hp⟩
      | calling => exact ⟨⟨.tasks (Function.update phase j (.returned .ok)), _, _⟩, .reply hp⟩
      | returned status =>
        by_cases hs : status = .ok
        · subst hs
          exact ⟨_, .finish hp⟩
        · exact ⟨_, .record hp hs⟩
      | finished result => simp [hp, Phase.isFinished] at hu

theorem returns (hr : ∀ d i, Dependency nodes d i → d < nodes.length)
    (ha : ∀ i, ¬ Relation.TransGen (Dependency nodes) i i) (h : Inv nodes s) :
    ∃ t status, Relation.ReflTransGen (Step nodes) s t ∧ t.control = .done status := by
  generalize he : rank nodes s = k
  induction k using Nat.strongRecOn generalizing s with
  | ind k ih =>
    rcases progress hr ha h with ⟨status, hs⟩ | ⟨t, hs⟩
    · exact ⟨s, status, .refl, hs⟩
    · have hlt := step_rank h hs
      obtain ⟨u, status, hu, hdone⟩ := ih (rank nodes t) (by omega) (step_inv h hs) rfl
      exact ⟨u, status, .head hs hu, hdone⟩

/-- Whatever the callbacks return and however the executor interleaves the
tasks, a callback is called at most once and only behind everything it depends
on, the status returned is a faithful summary of the calls, and a run whose
callbacks return comes to its end. -/
theorem run_safe (nodes : List ScheduledNode)
    (inRange : ∀ node ∈ nodes, ∀ d ∈ node.dependencies, d < nodes.length)
    (acyclic : ∀ i, ¬ Relation.TransGen (Dependency nodes) i i)
    (s : State) (reached : Reachable nodes s) :
    (∀ i, s.log.count (.called i) ≤ 1) ∧
    (∀ before after i, s.log = before ++ .called i :: after →
      ∀ d, Relation.TransGen (Dependency nodes) d i →
        .called d ∈ before ∧ .returned d .ok ∈ before) ∧
    (∀ status, s.control = .done status →
      (status = .ok ↔ ∀ i < nodes.length, .called i ∈ s.log ∧ .returned i .ok ∈ s.log) ∧
      (status ≠ .ok → ∃ i < nodes.length, .called i ∈ s.log ∧ .returned i status ∈ s.log)) ∧
    (∀ t, Step nodes s t → rank nodes t < rank nodes s) ∧
    ∃ t status, Relation.ReflTransGen (Step nodes) s t ∧ t.control = .done status := by
  have hr : ∀ d i, Dependency nodes d i → d < nodes.length := by
    intro d i hx
    obtain ⟨node, hi, hd⟩ := hx
    exact inRange node (List.mem_of_getElem? hi) d hd
  have hinv := reachable_inv hr reached
  refine ⟨hinv.safe.once, hinv.safe.ordered, ?_, fun t ht => step_rank hinv ht,
    returns hr acyclic hinv⟩
  intro status hs
  unfold Inv at hinv
  rw [hs] at hinv
  exact ⟨hinv.2.ok_iff, hinv.2.blame⟩

theorem acyclic_of_lt (hlt : ∀ d i, Dependency nodes d i → d < i) (i : Nat) :
    ¬ Relation.TransGen (Dependency nodes) i i := by
  have hall : ∀ d i, Relation.TransGen (Dependency nodes) d i → d < i := by
    intro d i h
    induction h with
    | single h => exact hlt _ _ h
    | tail _ h ih => exact Nat.lt_trans ih (hlt _ _ h)
  exact fun h => Nat.lt_irrefl i (hall i i h)

/-- Two nodes in a row whose first one fails: the second is never called. -/
theorem run_safe_failing_pair :
    Reachable [⟨"a", []⟩, ⟨"b", [0]⟩] ⟨.done .failed, .failed, [.called 0, .returned 0 .failed]⟩ ∧
    ∃ i < 2, Event.called i ∈ [.called 0, .returned 0 .failed] ∧
      Event.returned i .failed ∈ [.called 0, .returned 0 .failed] := by
  have hdep : ∀ d i, Dependency [⟨"a", []⟩, ⟨"b", [0]⟩] d i → d < i := by
    intro d i hx
    obtain ⟨node, hi, hd⟩ := hx
    match i with
    | 0 => obtain rfl := Option.some.inj hi; simp at hd
    | 1 => obtain rfl := Option.some.inj hi; simp at hd; omega
    | i + 2 => simp at hi
  have hreach : Reachable [⟨"a", []⟩, ⟨"b", [0]⟩]
      ⟨.done .failed, .failed, [.called 0, .returned 0 .failed]⟩ := by
    refine .head (.enter (i := 0) ⟨by decide, rfl, ?_⟩) ?_
    · intro d hd
      exact absurd (hdep d 0 (edge_precedence.mp hd)) (by omega)
    refine .head (.call (i := 0) rfl) (.head (@Step.reply _ _ _ _ 0 .failed rfl) ?_)
    refine .head (.record (i := 0) rfl (by decide)) ?_
    refine .head (.skip (i := 1) ⟨by decide, rfl, ?_⟩ (by decide)) ?_
    · intro d hd
      obtain rfl : d = 0 := by have := hdep d 1 (edge_precedence.mp hd); omega
      rfl
    refine .single (.join ?_)
    decide
  exact ⟨hreach, ((run_safe [⟨"a", []⟩, ⟨"b", [0]⟩] (by decide) (acyclic_of_lt hdep) _
    hreach).2.2.1 .failed rfl).2 (by decide)⟩

/-- The logs of a loop that calls one node after the other and stops at the
first failure. -/
def Sequential (log : List Event) : Prop :=
  ∃ k, log = passed k ∨ log = passed k ++ [.called k] ∨
    ∃ status, status ≠ .ok ∧ log = passed k ++ [.called k, .returned k status]

section Chain
variable (chain : ∀ d i, i < nodes.length → (Dependency nodes d i ↔ d + 1 = i))
include chain

theorem chain_ancestors (hi : i < nodes.length) (hj : j < i) :
    Relation.TransGen (Dependency nodes) j i := by
  induction i with
  | zero => omega
  | succ i ih =>
    have hlast : Dependency nodes i (i+1) := (chain i (i+1) hi).mpr rfl
    rcases Nat.lt_or_eq_of_le (Nat.le_of_lt_succ hj) with hlt | rfl
    · exact (ih (by omega) hlt).tail hlast
    · exact .single hlast

theorem sequential_called (h : Tasks nodes phase first log) (hq : Sequential log)
    (hp : phase i = .admitted) : Sequential (log ++ [.called i]) := by
  have hi := h.bound i (by simp [hp])
  have hnew : .called i ∉ log := by simp [h.called, hp, Called]
  have hback : ∀ j < i, .returned j .ok ∈ log := by
    intro j hj
    have := h.ancestors (by simp [hp]) (by simp [hp]) (chain_ancestors chain hi hj)
    simp [h.returned, this, Returned]
  obtain ⟨k, rfl | rfl | ⟨status, hs, rfl⟩⟩ := hq
  · have hk : k = i := by
      apply Nat.le_antisymm
      · simpa [called_mem_passed] using hnew
      · by_contra hlt
        simpa [returned_mem_passed] using hback k (by omega)
    exact ⟨k, .inr (.inl (by rw [hk]))⟩
  · have hk : k < i := by
      simp only [List.mem_append, called_mem_passed, List.mem_singleton, Event.called.injEq] at hnew
      omega
    simpa [returned_mem_passed] using hback k hk
  · have hk : k < i := by
      simp [called_mem_passed] at hnew
      omega
    have := hback k hk
    simp [returned_mem_passed] at this
    exact absurd this.symm hs

end Chain

theorem sequential_returned (h : Tasks nodes phase first log) (hq : Sequential log)
    (hp : phase i = .calling) (status : Status) :
    Sequential (log ++ [.returned i status]) := by
  have hcalled : .called i ∈ log := by simp [h.called, hp, Called]
  have hnone : ∀ other, .returned i other ∉ log := by
    simp [h.returned, hp, Returned]
  obtain ⟨k, rfl | rfl | ⟨other, hs, rfl⟩⟩ := hq
  · have := hnone .ok
    simp_all [called_mem_passed, returned_mem_passed]
  · have hk : i = k := by
      have := hnone .ok
      simp only [List.mem_append, called_mem_passed, returned_mem_passed, List.mem_singleton,
        Event.called.injEq, reduceCtorEq, or_false, and_true] at hcalled this
      omega
    subst hk
    by_cases hs : status = .ok
    · exact ⟨i+1, .inl (by simp [passed_succ, hs])⟩
    · exact ⟨i, .inr (.inr ⟨status, hs, by simp⟩)⟩
  · have h1 := hnone .ok
    have h2 := hnone other
    simp_all [called_mem_passed, returned_mem_passed]

/-- Nodes chained one to the next run like a loop, whatever the executor does:
no two callbacks overlap, they come in order, and the first failure is the last
call. -/
theorem chain_sequential (chain : ∀ d i, i < nodes.length → (Dependency nodes d i ↔ d + 1 = i))
    (reached : Reachable nodes s) : Sequential s.log := by
  have hr : ∀ d i, Dependency nodes d i → d < nodes.length := by
    intro d i hd
    have hi : i < nodes.length := by
      obtain ⟨_, hi, _⟩ := hd
      exact (List.getElem?_eq_some_iff.mp hi).1
    have := (chain d i hi).mp hd
    omega
  induction reached with
  | refl =>
    refine ⟨0, .inl ?_⟩
    unfold start
    repeat' split
    all_goals rfl
  | @tail s t hreach hstep ih =>
    have hinv := reachable_inv hr hreach
    cases hstep with
    | exit | skip | enter | finish | record | join => exact ih
    | dispatch hi =>
      obtain ⟨_, _, rfl⟩ := hinv
      exact ⟨_, .inr (.inl rfl)⟩
    | @pass i =>
      obtain ⟨_, _, rfl⟩ := hinv
      exact ⟨i+1, .inl (by simp [passed_succ])⟩
    | @abort status i _ _ hs =>
      obtain ⟨_, _, rfl⟩ := hinv
      exact ⟨i, .inr (.inr ⟨status, hs, by simp⟩)⟩
    | call hp => exact sequential_called chain hinv ih hp
    | reply hp => exact sequential_returned hinv ih hp _

end Cpipe.Proofs.Scheduler
