import Cpipe.Proofs.Executor
import Mathlib.Algebra.Order.BigOperators.Group.Finset

namespace Cpipe.Proofs.ExecutorWaits
open Cpipe.Runtime Cpipe.Runtime.Executor Cpipe.Proofs.Executor Library

/-! ### How many workers can wait at one time -/

mutual
/-- The most workers a callback can have blocked in `wait` at one time. -/
def waits : Body → Nat
  | .done => 0
  | .parFor tasks rest => max ((if 2 ≤ tasks.length then 1 else 0) + waitsAll tasks) (waits rest)

def waitsAll : List Body → Nat
  | [] => 0
  | body :: bodies => waits body + waitsAll bodies
end

/-- The same for the node at an index. -/
def waitsAt (bodies : List Body) (i : Nat) : Nat := waits (bodies[i]?.getD .done)

/-- Nodes that can run at one time: none depends on another. -/
def Independent (nodes : List ScheduledNode) (group : Finset Nat) : Prop :=
  ∀ i ∈ group, ∀ j ∈ group, ¬ Relation.TransGen (Scheduler.Dependency nodes) i j

/-- A dependency on a node that is not there, which `run` refuses. -/
def OutOfRange (nodes : List ScheduledNode) : Prop :=
  ∃ d i, Scheduler.Dependency nodes d i ∧ nodes.length ≤ d

/-- The workers suffice for all that can wait at one time, with one left. A loop without
dependencies has the calling thread as one more. -/
def Enough (nodes : List ScheduledNode) (bodies : List Body) (workers : Nat) : Prop :=
  if Scheduler.hasDependencies nodes then
    OutOfRange nodes ∨ ((∀ i, ¬ Relation.TransGen (Scheduler.Dependency nodes) i i) ∧
      ∀ group, Independent nodes group → ∑ i ∈ group, waitsAt bodies i < workers)
  else ∀ body ∈ bodies, waits body ≤ workers

theorem waits_andThen : (body next : Body) →
    waits (body.andThen next) = max (waits body) (waits next)
  | .done, next => by simp only [Body.andThen, waits, Nat.zero_max]
  | .parFor tasks rest, next => by
    rw [Body.andThen, waits, waits, waits_andThen rest next, Nat.max_assoc]

/-! ### No more are blocked -/

mutual
/-- The most workers a task can have blocked from now on. -/
def most : Job → Nat
  | .ready body => waits body
  | .running body => waits body
  | .waiting tasks rest => max (1 + mostAll tasks) (waits rest)
  | .finished => 0

def mostAll : List Job → Nat
  | [] => 0
  | job :: jobs => most job + mostAll jobs
end

theorem mostAll_append (xs ys : List Job) : mostAll (xs ++ ys) = mostAll xs + mostAll ys := by
  induction xs with
  | nil => simp [mostAll]
  | cons x xs ih => simp only [List.cons_append, mostAll, ih, Nat.add_assoc]

theorem mostAll_ready (bodies : List Body) : mostAll (bodies.map .ready) = waitsAll bodies := by
  induction bodies with
  | nil => rfl
  | cons b bodies ih => simp only [List.map_cons, mostAll, most, waitsAll, ih]

mutual
theorem blocked_le_most : (job : Job) → job.blocked ≤ most job
  | .ready body => Nat.zero_le _
  | .running body => Nat.zero_le _
  | .finished => Nat.zero_le _
  | .waiting tasks rest => by
    have := blockedAll_le_mostAll tasks
    rw [Job.blocked, most]
    omega

theorem blockedAll_le_mostAll : (jobs : List Job) → blockedAll jobs ≤ mostAll jobs
  | [] => Nat.le_refl _
  | job :: jobs => by
    have := blocked_le_most job
    have := blockedAll_le_mostAll jobs
    rw [blockedAll, mostAll]
    omega
end

theorem step_most {kind : Kind} {job job' : Job} (h : JobStep kind job job') :
    most job' ≤ most job := by
  induction h with
  | take => exact Nat.le_refl _
  | none => exact Nat.le_max_right _ _
  | single =>
    simp only [most, waits_andThen, waits, waitsAll]
    omega
  | submit h =>
    simp only [most, waits, mostAll_ready, if_pos h]
    exact Nat.le_refl _
  | resume _ => exact Nat.le_max_right _ _
  | finish => exact Nat.zero_le _
  | inside _ ih =>
    simp only [most, mostAll_append, mostAll]
    omega

variable {nodes : List ScheduledNode} {bodies : List Body} {workers : Nat} {s t : State}
  {jobs : List Job}

/-- Where the tasks of the nodes stand: none has more to wait for than its callback, and
what has begun has all before it finished. -/
structure Placed (nodes : List ScheduledNode) (bodies : List Body) (jobs : List Job) : Prop where
  length : jobs.length = nodes.length
  most : ∀ (i : Nat) job, jobs[i]? = some job → most job ≤ waitsAt bodies i
  behind : ∀ (i : Nat) job, jobs[i]? = some job → (∀ body, job ≠ .ready body) →
    Behind nodes jobs i

theorem behind_set {i j : Nat} {job job' : Job} (h : Behind nodes jobs j)
    (hi : jobs[i]? = some job) (hne : job ≠ .finished) : Behind nodes (jobs.set i job') j := by
  intro d hd
  have hfinished := h d hd
  have hid : i ≠ d := by
    rintro rfl
    rw [hi] at hfinished
    exact hne (Option.some.inj hfinished)
  rw [List.getElem?_set_ne hid]
  exact hfinished

theorem Placed.set {i : Nat} {job job' : Job} (h : Placed nodes bodies jobs)
    (hi : jobs[i]? = some job) (hne : job ≠ .finished) (hmost : ExecutorWaits.most job' ≤
      ExecutorWaits.most job) (hbehind : Behind nodes jobs i) :
    Placed nodes bodies (jobs.set i job') := by
  refine ⟨by simpa using h.length,?_,?_⟩
  · intro j next hj
    by_cases hij : i = j
    · subst hij
      rw [List.getElem?_set_self (List.getElem?_eq_some_iff.mp hi).1] at hj
      obtain rfl := Option.some.inj hj
      exact hmost.trans (h.most i job hi)
    · rw [List.getElem?_set_ne hij] at hj
      exact h.most j next hj
  · intro j next hj hnext
    apply behind_set _ hi hne
    by_cases hij : i = j
    · subst hij
      exact hbehind
    · rw [List.getElem?_set_ne hij] at hj
      exact h.behind j next hj hnext

/-- All that a node that has begun depends on is finished. -/
theorem Placed.before_finished {i j : Nat} (h : Placed nodes bodies jobs)
    (hij : Relation.TransGen (Scheduler.Dependency nodes) i j) {job : Job}
    (hj : jobs[j]? = some job) (hjob : ∀ body, job ≠ .ready body) :
    jobs[i]? = some .finished := by
  induction hij generalizing job with
  | single hd => exact h.behind _ job hj hjob i (Scheduler.edge_precedence.mpr hd)
  | tail _ hd ih =>
    have hfinished := h.behind _ job hj hjob _ (Scheduler.edge_precedence.mpr hd)
    exact ih hfinished (by simp)

def blockedAt (jobs : List Job) (i : Nat) : Nat := (jobs[i]?.getD .finished).blocked

theorem blockedAll_eq_sum (jobs : List Job) :
    blockedAll jobs = ∑ i ∈ Finset.range jobs.length, blockedAt jobs i := by
  induction jobs with
  | nil => rfl
  | cons job jobs ih =>
    rw [List.length_cons, Finset.sum_range_succ', blockedAll, ih, Nat.add_comm]
    rfl

/-- A blocked worker's task has begun and is not finished. -/
theorem blockedAt_waiting {i : Nat} (h : blockedAt jobs i ≠ 0) :
    ∃ tasks rest, jobs[i]? = some (.waiting tasks rest) := by
  unfold blockedAt at h
  cases hi : jobs[i]? with
  | none =>
    rw [hi] at h
    exact absurd rfl h
  | some job =>
    rw [hi] at h
    cases job with
    | waiting tasks rest => exact ⟨tasks,rest,rfl⟩
    | ready body => exact absurd rfl h
    | running body => exact absurd rfl h
    | finished => exact absurd rfl h

/-- Nodes with blocked workers are independent, so no more are blocked than they can. -/
theorem Placed.blocked_lt (h : Placed nodes bodies jobs)
    (hgroups : ∀ group, Independent nodes group → ∑ i ∈ group, waitsAt bodies i < workers) :
    blockedAll jobs < workers := by
  let group := (Finset.range jobs.length).filter (fun i => blockedAt jobs i ≠ 0)
  have hgroup : Independent nodes group := by
    intro i hi j hj hij
    obtain ⟨tasks,rest,hwait⟩ := blockedAt_waiting (Finset.mem_filter.mp hi).2
    obtain ⟨tasks',rest',hwait'⟩ := blockedAt_waiting (Finset.mem_filter.mp hj).2
    have hfinished := h.before_finished hij hwait' (by simp)
    rw [hwait] at hfinished
    simp at hfinished
  calc blockedAll jobs = ∑ i ∈ group, blockedAt jobs i := by
        rw [blockedAll_eq_sum, Finset.sum_filter_ne_zero]
    _ ≤ ∑ i ∈ group, waitsAt bodies i := by
        apply Finset.sum_le_sum
        intro i hi
        obtain ⟨tasks,rest,hwait⟩ := blockedAt_waiting (Finset.mem_filter.mp hi).2
        have hmost := h.most i _ hwait
        have hblocked := blocked_le_most (.waiting tasks rest)
        rw [blockedAt, hwait, Option.getD_some]
        omega
    _ < workers := hgroups group hgroup

/-- What bounds the workers that can be blocked from a state on. -/
def Bounded (nodes : List ScheduledNode) (bodies : List Body) (workers : Nat) : State → Prop
  | .tasks jobs _ => (∀ d i, Scheduler.Dependency nodes d i → d < nodes.length) ∧
      Placed nodes bodies jobs ∧
      (∀ i, ¬ Relation.TransGen (Scheduler.Dependency nodes) i i) ∧
      ∀ group, Independent nodes group → ∑ i ∈ group, waitsAt bodies i < workers
  | .loop job later => (∀ body, job ≠ .ready body) ∧ most job ≤ workers ∧
      ∀ body ∈ later, waits body ≤ workers
  | .done => True

theorem placed_start (hlen : bodies.length = nodes.length) :
    Placed nodes bodies (bodies.map .ready) := by
  refine ⟨by simpa using hlen,?_,?_⟩
  · intro i job hi
    obtain ⟨body,hbody,rfl⟩ := Option.map_eq_some_iff.mp (List.getElem?_map .. ▸ hi)
    rw [waitsAt, hbody]
    exact Nat.le_refl _
  · intro i job hi hjob
    obtain ⟨body,_,rfl⟩ := Option.map_eq_some_iff.mp (List.getElem?_map .. ▸ hi)
    exact absurd rfl (hjob body)

/-- `run` refuses exactly the dependencies out of range. -/
theorem outOfRange_iff : (Scheduler.precedence nodes).any
    (fun e => decide (nodes.length ≤ e.1)) = true ↔ OutOfRange nodes := by
  rw [List.any_eq_true]
  constructor
  · rintro ⟨⟨d,i⟩,he,hd⟩
    exact ⟨d,i,Scheduler.edge_precedence.mp he,of_decide_eq_true hd⟩
  · rintro ⟨d,i,he,hd⟩
    exact ⟨(d,i),Scheduler.edge_precedence.mpr he,decide_eq_true hd⟩

theorem not_outOfRange (h : ¬ OutOfRange nodes) (d i : Nat)
    (hd : Scheduler.Dependency nodes d i) : d < nodes.length := by
  by_contra hge
  exact h ⟨d,i,hd,Nat.le_of_not_lt hge⟩

theorem start_bounded (hlen : bodies.length = nodes.length) (h : Enough nodes bodies workers) :
    Bounded nodes bodies workers (start nodes bodies) := by
  unfold Enough at h
  unfold start
  by_cases hdeps : Scheduler.hasDependencies nodes = true
  · rw [if_pos hdeps] at h ⊢
    by_cases hrange : OutOfRange nodes
    · rw [if_pos (outOfRange_iff.mpr hrange)]
      trivial
    · rw [if_neg (fun hany => hrange (outOfRange_iff.mp hany))]
      obtain ⟨hacyclic,hgroups⟩ := h.resolve_left hrange
      exact ⟨not_outOfRange hrange,placed_start hlen,hacyclic,hgroups⟩
  · rw [if_neg hdeps] at h ⊢
    cases bodies with
    | nil => trivial
    | cons body later => exact ⟨by simp,h body (by simp),fun next hn => h next (by simp [hn])⟩

theorem step_bounded {kind : Kind} (h : Bounded nodes bodies workers s)
    (hs : Step nodes workers kind s t) : Bounded nodes bodies workers t := by
  cases hs with
  | start hi hbehind _ =>
    obtain ⟨hr,hp,hrest⟩ := h
    exact ⟨hr,hp.set hi (by simp) (Nat.le_refl _) hbehind,hrest⟩
  | skip hi hbehind _ =>
    obtain ⟨hr,hp,hrest⟩ := h
    exact ⟨hr,hp.set hi (by simp) (Nat.zero_le _) hbehind,hrest⟩
  | work hi hroot hs _ _ =>
    obtain ⟨hr,hp,hrest⟩ := h
    exact ⟨hr,hp.set hi (step_not_finished hs) (step_most hs) (hp.behind _ _ hi hroot),hrest⟩
  | join _ => trivial
  | call hs => exact ⟨step_not_ready hs,(step_most hs).trans h.2.1,h.2.2⟩
  | loopWork hs _ _ => exact ⟨step_not_ready hs,(step_most hs).trans h.2.1,h.2.2⟩
  | next =>
    obtain ⟨_,_,hlater⟩ := h
    exact ⟨by simp,hlater _ (by simp),fun next hn => hlater next (by simp [hn])⟩
  | exit => trivial

theorem beneath_lt {job : Job} (hW : 0 < workers) (hmost : most job ≤ workers) :
    job.beneath blockedAll < workers := by
  cases job with
  | waiting tasks rest =>
    have hblocked := blocked_le_most (.waiting tasks rest)
    rw [Job.blocked] at hblocked
    rw [Job.beneath]
    omega
  | ready body => exact hW
  | running body => exact hW
  | finished => exact hW

/-- One worker is never blocked. -/
theorem bounded_not_stuck (hW : 0 < workers) (h : Bounded nodes bodies workers s) :
    ¬ Stuck nodes workers s := by
  intro ⟨hdone,hstuck⟩
  apply hstuck
  cases s with
  | done => exact absurd rfl hdone
  | tasks jobs failed =>
    obtain ⟨hr,hplaced,hacyclic,hgroups⟩ := h
    exact tasks_progress hacyclic hr hplaced.length (hplaced.blocked_lt hgroups)
  | loop job later =>
    obtain ⟨hroot,hmost,_⟩ := h
    exact loop_progress hroot (beneath_lt hW hmost)

theorem reachable_bounded (hlen : bodies.length = nodes.length) (h : Enough nodes bodies workers)
    (hs : Reachable nodes bodies workers s) : Bounded nodes bodies workers s := by
  induction hs with
  | refl => exact start_bounded hlen h
  | tail _ hstep ih =>
    obtain ⟨kind,hstep⟩ := hstep
    exact step_bounded ih hstep

end Cpipe.Proofs.ExecutorWaits
