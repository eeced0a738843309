import Cpipe.Proofs.ExecutorShares
import Mathlib.Algebra.BigOperators.Group.Finset.Piecewise

namespace Cpipe.Proofs.Deadlock
open Cpipe.Runtime Cpipe.Runtime.Executor Cpipe.Proofs.Executor Cpipe.Proofs.ExecutorWaits
open Cpipe.Proofs.ExecutorShares Library

variable {nodes : List ScheduledNode} {bodies : List Body} {workers : Nat} {s t : State}
  {jobs : List Job}

/-! ### States in which all workers wait -/

theorem stuck_tasks {failed : Bool} (hW : 0 < workers) (h : JammedAll workers jobs) :
    Stuck nodes workers (.tasks jobs failed) := by
  have hbusy : ¬ busyAll jobs < workers := by
    rw [h.busy]
    exact Nat.lt_irrefl _
  refine ⟨by simp,?_⟩
  rintro ⟨kind,t,hs⟩
  cases hs with
  | start _ _ hidle => exact hbusy hidle
  | skip _ _ hidle => exact hbusy hidle
  | work hi _ hs hidle _ =>
    exact hbusy (hidle (h.takes _ (List.mem_of_getElem? hi) _ _ hs))
  | join hall =>
    rw [busyAll_finished hall] at hbusy
    exact hbusy hW

/-- The calling thread waits too, and holds no worker. -/
theorem stuck_loop {job : Job} {later : List Body} (hW : 0 < workers)
    (h : Jammed (workers+1) job) : Stuck nodes workers (.loop job later) := by
  obtain ⟨tasks,rest,rfl,hbelow⟩ : ∃ tasks rest, job = .waiting tasks rest ∧
      busyAll tasks = workers := by
    have hbusy := h.busy
    cases job with
    | waiting tasks rest =>
      rw [Job.busy] at hbusy
      exact ⟨tasks,rest,rfl,by omega⟩
    | ready body => cases hbusy
    | running body =>
      rw [Job.busy] at hbusy
      omega
    | finished => cases hbusy
  refine ⟨by simp,?_⟩
  rintro ⟨kind,t,hs⟩
  cases hs with
  | loopWork hs _ hidle =>
    have hlt := hidle (h.takes _ _ hs)
    rw [Job.beneath, hbelow] at hlt
    exact Nat.lt_irrefl _ hlt

/-! ### Runs to such a state -/

theorem tasks_run {share i : Nat} {job job' : Job}
    (hr : Reachable nodes bodies workers (.tasks jobs false)) (hi : jobs[i]? = some job)
    (hle : busyAll jobs + share ≤ workers + job.busy)
    (h : Relation.ReflTransGen (ShareStep share) job job') :
    Reachable nodes bodies workers (.tasks (jobs.set i job') false) := by
  obtain ⟨hlt,hget⟩ := List.getElem?_eq_some_iff.mp hi
  induction h with
  | refl =>
    rw [← hget, List.set_getElem_self]
    exact hr
  | @tail middle next _ hstep ih =>
    obtain ⟨kind,hs,hroot,htake⟩ := hstep
    have hmiddle : (jobs.set i middle)[i]? = some middle := List.getElem?_set_self hlt
    have hbusy := busyAll_set middle hi
    have hwork : Step nodes workers kind (.tasks (jobs.set i middle) false)
        (.tasks ((jobs.set i middle).set i next) false) := by
      refine .work hmiddle hroot hs (fun hk => ?_) (.inl rfl)
      have := htake hk
      omega
    rw [List.set_set] at hwork
    exact ih.tail ⟨kind,hwork⟩

/-- A node that can start runs with its share, beside others that wait. -/
theorem run_node {others share i : Nat} {body : Body} {job : Job}
    (hr : Reachable nodes bodies workers (.tasks jobs false)) (h : JammedAll others jobs)
    (hi : jobs[i]? = some (.ready body)) (hbehind : Behind nodes jobs i) (hpos : 0 < share)
    (hle : others + share ≤ workers)
    (hrun : Relation.ReflTransGen (ShareStep share) (.running body) job) :
    Reachable nodes bodies workers (.tasks (jobs.set i job) false) := by
  have hlt := (List.getElem?_eq_some_iff.mp hi).1
  have hstart : Step nodes workers .take (.tasks jobs false)
      (.tasks (jobs.set i (.running body)) false) := by
    refine .start hi hbehind ?_
    rw [h.busy]
    omega
  have hbusy := busyAll_set (.running body) hi
  rw [h.busy] at hbusy
  have hsteps := tasks_run (hr.tail ⟨_,hstart⟩) (List.getElem?_set_self hlt)
    (by rw [Job.busy] at hbusy ⊢; omega) hrun
  rwa [List.set_set] at hsteps

theorem loop_run {job job' : Job} {later : List Body} (hW : 0 < workers)
    (hr : Reachable nodes bodies workers (.loop job later))
    (h : Relation.ReflTransGen (ShareStep (workers+1)) job job') :
    Reachable nodes bodies workers (.loop job' later) := by
  induction h with
  | refl => exact hr
  | @tail middle next _ hstep ih =>
    obtain ⟨kind,hs,_,htake⟩ := hstep
    by_cases hcall : kind = .block ∧ ∃ body, middle = .running body
    · obtain ⟨rfl,body,rfl⟩ := hcall
      exact ih.tail ⟨_,.call hs⟩
    · refine ih.tail ⟨kind,.loopWork hs (fun hk body hb => hcall ⟨hk,body,hb⟩) (fun hk => ?_)⟩
      have hbusy := htake hk
      cases middle with
      | waiting tasks rest =>
        rw [Job.busy] at hbusy
        rw [Job.beneath]
        omega
      | ready body => exact hW
      | running body => exact hW
      | finished => exact hW

section Never
variable (hW : 0 < workers)
  (hnever : ∀ s, Reachable nodes bodies workers s → ¬ Stuck nodes workers s)
include hW hnever

theorem loop_waits {body : Body} {later : List Body}
    (hr : Reachable nodes bodies workers (.loop (.running body) later)) :
    waits body ≤ workers := by
  by_contra hgt
  obtain ⟨job,hrun,hjam⟩ := jams body (workers+1) (Nat.succ_pos _) (by omega)
  exact hnever _ (loop_run hW hr hrun) (stuck_loop hW hjam)

/-- The loop comes to each callback, and none can have all workers and the calling thread
wait. -/
theorem loop_enough {body : Body} {later : List Body}
    (hr : Reachable nodes bodies workers (.loop (.running body) later)) :
    ∀ next ∈ body :: later, waits next ≤ workers := by
  induction later generalizing body with
  | nil =>
    intro next hnext
    obtain rfl := List.mem_singleton.mp hnext
    exact loop_waits hW hnever hr
  | cons second later ih =>
    intro next hnext
    rcases List.mem_cons.mp hnext with rfl | hnext
    · exact loop_waits hW hnever hr
    · obtain ⟨job,hrun,rfl | hjam⟩ := settle (workers+1) (.running body) (by simp)
        (by rw [Job.busy]; omega)
      · exact ih ((loop_run hW hr hrun).tail ⟨_,.next⟩) next hnext
      · exact absurd (stuck_loop hW hjam) (hnever _ (loop_run hW hr hrun))

/-- With all other nodes in the queue or finished, a node that can start finishes. -/
theorem finish_node {i : Nat} {body : Body}
    (hr : Reachable nodes bodies workers (.tasks jobs false)) (h : JammedAll 0 jobs)
    (hi : jobs[i]? = some (.ready body)) (hbehind : Behind nodes jobs i) :
    Reachable nodes bodies workers (.tasks (jobs.set i .finished) false) := by
  obtain ⟨job,hrun,hend⟩ := settle workers (.running body) (by simp) hW
  have hreach := run_node hr h hi hbehind hW (Nat.zero_add workers).le hrun
  rcases hend with rfl | hjam
  · exact hreach
  · have hall := h.set hi hjam
    rw [Nat.zero_add] at hall
    exact absurd (stuck_tasks hW hall) (hnever _ hreach)

/-- The nodes with blocked workers can be chosen one after the other, so there is always
a worker left over. -/
theorem group_lt (group : Finset Nat) {others : Nat}
    (hr : Reachable nodes bodies workers (.tasks jobs false)) (h : JammedAll others jobs)
    (hle : others ≤ workers)
    (hqueue : ∀ i ∈ group, ∀ body, bodies[i]? = some body →
      jobs[i]? = some (.ready body) ∧ Behind nodes jobs i) :
    others + ∑ i ∈ group, waitsAt bodies i < workers := by
  induction group using Finset.induction_on generalizing jobs others with
  | empty =>
    rcases Nat.lt_or_eq_of_le hle with hlt | rfl
    · simpa using hlt
    · exact absurd (stuck_tasks hW h) (hnever _ hr)
  | insert i group hni ih =>
    rw [Finset.sum_insert hni]
    by_contra hge
    have hskip := ih hr h hle (fun j hj => hqueue j (Finset.mem_insert_of_mem hj))
    obtain ⟨own,hown,hfits,hpos,hor⟩ : ∃ own ≤ waitsAt bodies i, others + own ≤ workers ∧
        0 < own ∧ (own = waitsAt bodies i ∨ others + own = workers) :=
      ⟨min (waitsAt bodies i) (workers - others),by omega,by omega,by omega,by omega⟩
    cases hbody : bodies[i]? with
    | none =>
      rw [waitsAt, hbody] at hown
      exact Nat.not_le.mpr hpos hown
    | some body =>
      rw [waitsAt, hbody] at hown
      obtain ⟨job,hrun,hjam⟩ := jams body own hpos hown
      obtain ⟨hi,hbehind⟩ := hqueue i (Finset.mem_insert_self i group) body hbody
      have hnext := ih (run_node hr h hi hbehind hpos hfits hrun) (h.set hi hjam) hfits (by
        intro j hj next hnext
        obtain ⟨hj',hbehind'⟩ := hqueue j (Finset.mem_insert_of_mem hj) next hnext
        have hij : i ≠ j := by
          rintro rfl
          exact hni hj
        rw [List.getElem?_set_ne hij]
        exact ⟨hj',behind_set hbehind' hi (by simp)⟩)
      omega

end Never

/-! ### What a group needs is finished first -/

/-- One more node of a set finishes. -/
def FinishStep (nodes : List ScheduledNode) (before : Set Nat) (jobs jobs' : List Job) : Prop :=
  ∃ i body, i ∈ before ∧ jobs[i]? = some (.ready body) ∧ Behind nodes jobs i ∧
    jobs' = jobs.set i .finished

/-- Only nodes of the set have begun, and those are finished. -/
structure Cleared (nodes : List ScheduledNode) (bodies : List Body) (workers : Nat)
    (before : Set Nat) (jobs : List Job) : Prop where
  reachable : Reachable nodes bodies workers (.tasks jobs false)
  idle : JammedAll 0 jobs
  places : ∀ (i : Nat) body, bodies[i]? = some body →
    jobs[i]? = some (.ready body) ∨ (i ∈ before ∧ jobs[i]? = some .finished)

theorem Cleared.step {before : Set Nat} {jobs' : List Job} (hW : 0 < workers)
    (hnever : ∀ s, Reachable nodes bodies workers s → ¬ Stuck nodes workers s)
    (h : Cleared nodes bodies workers before jobs) (hs : FinishStep nodes before jobs jobs') :
    Cleared nodes bodies workers before jobs' := by
  obtain ⟨i,body,hbefore,hi,hbehind,rfl⟩ := hs
  refine ⟨finish_node hW hnever h.reachable h.idle hi hbehind,h.idle.set hi jammed_finished,?_⟩
  intro j next hj
  by_cases hij : i = j
  · subst hij
    exact .inr ⟨hbefore,List.getElem?_set_self (List.getElem?_eq_some_iff.mp hi).1⟩
  · rw [List.getElem?_set_ne hij]
    exact h.places j next hj

/-- All that a set of nodes depends on, with the set closed under dependencies, can be
finished without starting another node. -/
theorem exists_cleared (before : Set Nat) (hW : 0 < workers)
    (hlen : bodies.length = nodes.length)
    (hnever : ∀ s, Reachable nodes bodies workers s → ¬ Stuck nodes workers s)
    (hacyclic : ∀ i, ¬ Relation.TransGen (Scheduler.Dependency nodes) i i)
    (hrange : ∀ d i, Scheduler.Dependency nodes d i → d < nodes.length)
    (hclosed : ∀ d i, Scheduler.Dependency nodes d i → i ∈ before → d ∈ before)
    (hstart : Reachable nodes bodies workers (.tasks (bodies.map .ready) false)) :
    ∃ jobs, Cleared nodes bodies workers before jobs ∧
      ∀ i ∈ before, i < nodes.length → jobs[i]? = some .finished := by
  obtain ⟨jobs,hreach,hfinal⟩ := Trace.exists_final (r := FinishStep nodes before) jobSizeAll (by
    rintro _ _ ⟨i,body,_,hi,_,rfl⟩
    have hset := jobSizeAll_set .finished hi
    rw [jobSize, jobSize] at hset
    omega) (bodies.map .ready)
  have hcleared : Cleared nodes bodies workers before jobs := by
    clear hfinal
    induction hreach with
    | refl =>
      refine ⟨hstart,jammedAll_ready bodies,fun i body hbody => .inl ?_⟩
      rw [List.getElem?_map, hbody, Option.map_some]
    | tail _ hs ih => exact ih.step hW hnever hs
  refine ⟨jobs,hcleared,?_⟩
  by_contra hopen
  obtain ⟨i,hi,hlt,hne⟩ : ∃ i ∈ before, i < nodes.length ∧ jobs[i]? ≠ some .finished := by
    simpa using hopen
  obtain ⟨j,⟨hj,hjne⟩,hmin⟩ := (Kahn.acyclic_wf (n := nodes.length)
    (Scheduler.acyclic_precedence hacyclic)).has_min
      {v | v.val ∈ before ∧ jobs[v.val]? ≠ some .finished} ⟨⟨i,hlt⟩,hi,hne⟩
  have hbehind : Behind nodes jobs j := by
    intro d hd
    by_contra hunfinished
    have hdep := Scheduler.edge_precedence.mp hd
    exact hmin ⟨d,hrange d j hdep⟩ ⟨hclosed d j hdep hj,hunfinished⟩ (.single hd)
  have hlast : j.val < bodies.length := by
    rw [hlen]
    exact j.isLt
  rcases hcleared.places j bodies[j.val] (List.getElem?_eq_getElem hlast) with hready | ⟨_,hdone⟩
  · exact hfinal _ ⟨j,_,hj,hready,hbehind,rfl⟩
  · exact hjne hdone

/-! ### Nodes that depend on themselves -/

def stateSize : State → Nat
  | .tasks jobs _ => jobSizeAll jobs + 1
  | .loop job later => jobSize job + sizeAll later + 1
  | .done => 0

theorem state_step_size {kind : Kind} (hs : Step nodes workers kind s t) :
    stateSize t < stateSize s := by
  cases hs with
  | @start jobs i body hi _ _ =>
    have hset := jobSizeAll_set (.running body) hi
    rw [jobSize, jobSize] at hset
    simp only [stateSize]
    omega
  | skip hi _ _ =>
    have hset := jobSizeAll_set .finished hi
    rw [jobSize, jobSize] at hset
    simp only [stateSize]
    omega
  | @work jobs i job kind job' failed' failed hi _ hs _ _ =>
    have hset := jobSizeAll_set job' hi
    have := step_size hs
    simp only [stateSize]
    omega
  | join _ => exact Nat.succ_pos _
  | call hs =>
    have := step_size hs
    simp only [stateSize]
    omega
  | loopWork hs _ _ =>
    have := step_size hs
    simp only [stateSize]
    omega
  | next =>
    simp only [stateSize, jobSize, sizeAll]
    omega
  | exit => exact Nat.succ_pos _

/-- A run that is never stuck can be brought to its end. -/
theorem reaches_done (hnever : ∀ s, Reachable nodes bodies workers s → ¬ Stuck nodes workers s) :
    Reachable nodes bodies workers .done := by
  obtain ⟨s,hreach,hfinal⟩ := Trace.exists_final
    (r := fun s t => ∃ kind, Step nodes workers kind s t)
    stateSize (fun _ _ ⟨_,hs⟩ => state_step_size hs) (start nodes bodies)
  by_cases hdone : s = .done
  · exact hdone ▸ hreach
  · exact absurd ⟨hdone,fun ⟨kind,t,hs⟩ => hfinal t ⟨kind,hs⟩⟩ (hnever s hreach)

/-- Nodes on a cycle stay in the queue. -/
def Queued (nodes : List ScheduledNode) : State → Prop
  | .tasks jobs _ => ∀ i, Relation.TransGen (Scheduler.Dependency nodes) i i →
      ∃ body, jobs[i]? = some (.ready body)
  | _ => False

/-- A node on a cycle has one before it that is on a cycle. -/
theorem cycle_before {i : Nat} (h : Relation.TransGen (Scheduler.Dependency nodes) i i) :
    ∃ d, Scheduler.Dependency nodes d i ∧ Relation.TransGen (Scheduler.Dependency nodes) d d := by
  obtain ⟨d,hreach,hd⟩ := Relation.TransGen.tail'_iff.mp h
  exact ⟨d,hd,Relation.TransGen.head'_iff.mpr ⟨i,hd,hreach⟩⟩

theorem Queued.set {i : Nat} {job : Job} {failed failed' : Bool}
    (h : Queued nodes (.tasks jobs failed))
    (hoff : ¬ Relation.TransGen (Scheduler.Dependency nodes) i i) :
    Queued nodes (.tasks (jobs.set i job) failed') := by
  intro j hj
  have hij : i ≠ j := by
    rintro rfl
    exact hoff hj
  rw [List.getElem?_set_ne hij]
  exact h j hj

theorem Queued.off_cycle {i : Nat} {failed : Bool} (h : Queued nodes (.tasks jobs failed))
    (hbehind : Behind nodes jobs i) : ¬ Relation.TransGen (Scheduler.Dependency nodes) i i := by
  intro hcycle
  obtain ⟨d,hd,hd'⟩ := cycle_before hcycle
  obtain ⟨body,hready⟩ := h d hd'
  have hfinished := hbehind d (Scheduler.edge_precedence.mpr hd)
  rw [hready] at hfinished
  cases hfinished

theorem queued_step {kind : Kind} {i : Nat}
    (hcycle : Relation.TransGen (Scheduler.Dependency nodes) i i) (h : Queued nodes s)
    (hs : Step nodes workers kind s t) : Queued nodes t := by
  cases hs with
  | start _ hbehind _ => exact h.set (h.off_cycle hbehind)
  | skip _ hbehind _ => exact h.set (h.off_cycle hbehind)
  | work hi hroot _ _ _ =>
    refine h.set (fun hon => ?_)
    obtain ⟨body,hready⟩ := h _ hon
    rw [hi] at hready
    exact hroot body (Option.some.inj hready)
  | join hall =>
    obtain ⟨body,hready⟩ := h i hcycle
    cases hall _ (List.mem_of_getElem? hready)
  | call _ => exact h
  | loopWork _ _ _ => exact h
  | next => exact h
  | exit => exact h

/-! ### When no state is stuck -/

theorem start_tasks (bodies : List Body) (hdeps : Scheduler.hasDependencies nodes = true)
    (hrange : ¬ OutOfRange nodes) :
    start nodes bodies = .tasks (bodies.map .ready) false := by
  unfold start
  rw [if_pos hdeps, if_neg (fun hany => hrange (outOfRange_iff.mp hany))]

theorem queued_start (hlen : bodies.length = nodes.length) :
    Queued nodes (.tasks (bodies.map .ready) false) := by
  intro i hcycle
  obtain ⟨d,⟨node,hnode,_⟩,_⟩ := cycle_before hcycle
  have hlt : i < bodies.length := by
    rw [hlen]
    exact (List.getElem?_eq_some_iff.mp hnode).1
  exact ⟨bodies[i],by rw [List.getElem?_map, List.getElem?_eq_getElem hlt]; rfl⟩

theorem never_stuck_acyclic (hlen : bodies.length = nodes.length)
    (hstart : start nodes bodies = .tasks (bodies.map .ready) false)
    (hnever : ∀ s, Reachable nodes bodies workers s → ¬ Stuck nodes workers s) (i : Nat) :
    ¬ Relation.TransGen (Scheduler.Dependency nodes) i i := by
  intro hcycle
  have hqueued : ∀ s, Reachable nodes bodies workers s → Queued nodes s := by
    intro s hs
    induction hs with
    | refl =>
      rw [hstart]
      exact queued_start hlen
    | tail _ hstep ih =>
      obtain ⟨kind,hstep⟩ := hstep
      exact queued_step hcycle ih hstep
  exact hqueued _ (reaches_done hnever)

theorem never_stuck_groups (hW : 0 < workers) (hlen : bodies.length = nodes.length)
    (hrange : ¬ OutOfRange nodes) (hstart : start nodes bodies = .tasks (bodies.map .ready) false)
    (hnever : ∀ s, Reachable nodes bodies workers s → ¬ Stuck nodes workers s)
    (group : Finset Nat) (hgroup : Independent nodes group) :
    ∑ i ∈ group, waitsAt bodies i < workers := by
  obtain ⟨jobs,hcleared,hfinished⟩ := exists_cleared
    {d | ∃ i ∈ group, Relation.TransGen (Scheduler.Dependency nodes) d i} hW hlen hnever
    (never_stuck_acyclic hlen hstart hnever) (not_outOfRange hrange)
    (fun d i hd ⟨j,hj,hij⟩ => ⟨j,hj,.head hd hij⟩) (by rw [← hstart]; exact .refl)
  have hsum := group_lt hW hnever group hcleared.reachable hcleared.idle (Nat.zero_le _) (by
    intro i hi body hbody
    constructor
    · rcases hcleared.places i body hbody with hready | ⟨⟨j,hj,hij⟩,_⟩
      · exact hready
      · exact absurd hij (hgroup i hi j hj)
    · intro d hd
      have hdep := Scheduler.edge_precedence.mp hd
      exact hfinished d ⟨i,hi,.single hdep⟩ (not_outOfRange hrange d i hdep))
  rwa [Nat.zero_add] at hsum

/-- No state is stuck exactly when the workers suffice for all that can wait at one time. -/
theorem never_stuck_iff (nodes : List ScheduledNode) (bodies : List Body) (workers : Nat)
    (some_worker : 0 < workers) (one_each : bodies.length = nodes.length) :
    (∀ s, Reachable nodes bodies workers s → ¬ Stuck nodes workers s) ↔
      Enough nodes bodies workers := by
  constructor
  · intro hnever
    unfold Enough
    by_cases hdeps : Scheduler.hasDependencies nodes = true
    · rw [if_pos hdeps]
      by_cases hrange : OutOfRange nodes
      · exact .inl hrange
      · have hstart := start_tasks bodies hdeps hrange
        exact .inr ⟨never_stuck_acyclic one_each hstart hnever,
          never_stuck_groups some_worker one_each hrange hstart hnever⟩
    · rw [if_neg hdeps]
      cases bodies with
      | nil => simp
      | cons body later =>
        have hstart : start nodes (body :: later) = .loop (.running body) later := by
          unfold start
          rw [if_neg hdeps]
        exact loop_enough some_worker hnever (by rw [← hstart]; exact .refl)
  · intro henough s hs
    exact bounded_not_stuck some_worker (reachable_bounded one_each henough hs)

/-- With two workers one is left for the iterations. -/
theorem never_stuck_pair : Enough pair pairBodies 2 ∧
    ∀ s, Reachable pair pairBodies 2 s → ¬ Stuck pair 2 s := by
  have henough : Enough pair pairBodies 2 := by
    refine .inr ⟨Scheduler.acyclic_of_lt pair_lt,fun group _ => ?_⟩
    have hle : ∑ i ∈ group, waitsAt pairBodies i ≤ ∑ i ∈ group, if i = 0 then 1 else 0 := by
      apply Finset.sum_le_sum
      intro i _
      match i with
      | 0 => decide
      | 1 => decide
      | i+2 => exact Nat.zero_le _
    have hone : (∑ i ∈ group, if i = 0 then 1 else 0) ≤ 1 := by
      rw [Finset.sum_ite_eq']
      split <;> decide
    omega
  exact ⟨henough,(never_stuck_iff pair pairBodies 2 (by decide) rfl).mpr henough⟩

end Cpipe.Proofs.Deadlock
