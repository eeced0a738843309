import Cpipe.Proofs.Scheduler
import Cpipe.Runtime.Executor

namespace Cpipe.Proofs.Executor
open Cpipe.Runtime Cpipe.Runtime.Executor Library

/-! ### Counting -/

/-- Replacing an entry changes a sum by the difference. -/
theorem sum_map_set {α : Type} (f : α → Nat) {xs : List α} {i : Nat} {x : α} (y : α)
    (hi : xs[i]? = some x) : ((xs.set i y).map f).sum + f x = (xs.map f).sum + f y := by
  induction xs generalizing i with
  | nil => simp at hi
  | cons a xs ih =>
    cases i with
    | zero =>
      obtain rfl := Option.some.inj hi
      simp only [List.set_cons_zero, List.map_cons, List.sum_cons]
      omega
    | succ i =>
      simp only [List.getElem?_cons_succ] at hi
      simp only [List.set_cons_succ, List.map_cons, List.sum_cons]
      have := ih hi
      omega

theorem busyAll_eq (jobs : List Job) : busyAll jobs = (jobs.map Job.busy).sum := by
  induction jobs with
  | nil => rfl
  | cons job jobs ih => rw [busyAll, ih, List.map_cons, List.sum_cons]

theorem blockedAll_eq (jobs : List Job) : blockedAll jobs = (jobs.map Job.blocked).sum := by
  induction jobs with
  | nil => rfl
  | cons job jobs ih => rw [blockedAll, ih, List.map_cons, List.sum_cons]

theorem busyAll_set {jobs : List Job} {i : Nat} {job : Job} (job' : Job)
    (hi : jobs[i]? = some job) :
    busyAll (jobs.set i job') + job.busy = busyAll jobs + job'.busy := by
  rw [busyAll_eq, busyAll_eq]
  exact sum_map_set Job.busy job' hi

theorem blockedAll_set {jobs : List Job} {i : Nat} {job : Job} (job' : Job)
    (hi : jobs[i]? = some job) :
    blockedAll (jobs.set i job') + job.blocked = blockedAll jobs + job'.blocked := by
  rw [blockedAll_eq, blockedAll_eq]
  exact sum_map_set Job.blocked job' hi

theorem busyAll_among (before after : List Job) (job : Job) :
    busyAll (before ++ job :: after) = job.busy + (busyAll before + busyAll after) := by
  simp only [busyAll_eq, List.map_append, List.map_cons, List.sum_append, List.sum_cons]
  omega

theorem blockedAll_among (before after : List Job) (job : Job) :
    blockedAll (before ++ job :: after) = job.blocked + (blockedAll before + blockedAll after) := by
  simp only [blockedAll_eq, List.map_append, List.map_cons, List.sum_append, List.sum_cons]
  omega

theorem busyAll_ready (bodies : List Body) : busyAll (bodies.map .ready) = 0 := by
  induction bodies with
  | nil => rfl
  | cons b bodies ih => simp only [List.map_cons, busyAll, Job.busy, ih]

theorem blockedAll_ready (bodies : List Body) : blockedAll (bodies.map .ready) = 0 := by
  induction bodies with
  | nil => rfl
  | cons b bodies ih => simp only [List.map_cons, blockedAll, Job.blocked, ih]

theorem busyAll_finished {jobs : List Job} (h : ∀ job ∈ jobs, job = .finished) :
    busyAll jobs = 0 := by
  induction jobs with
  | nil => rfl
  | cons job jobs ih =>
    rw [busyAll, h job (by simp), ih (fun j hj => h j (by simp [hj]))]
    rfl

theorem blockedAll_finished {jobs : List Job} (h : ∀ job ∈ jobs, job = .finished) :
    blockedAll jobs = 0 := by
  induction jobs with
  | nil => rfl
  | cons job jobs ih =>
    rw [blockedAll, h job (by simp), ih (fun j hj => h j (by simp [hj]))]
    rfl

/-- A step blocks at most the one worker it says. -/
theorem step_blocked {kind : Kind} {job job' : Job} (h : JobStep kind job job') :
    job'.blocked ≤ job.blocked + (if kind = .block then 1 else 0) := by
  induction h with
  | take => simp [Job.blocked]
  | none => simp [Job.blocked]
  | single => simp [Job.blocked]
  | submit _ => simp [Job.blocked, blockedAll_ready]
  | resume h => simp [Job.blocked]
  | finish => simp [Job.blocked]
  | inside _ ih =>
    simp only [Job.blocked, blockedAll_among]
    omega

/-! ### Every task has a step -/

/-- A task goes on without a new worker, or all its workers are blocked and it is finished
or waits for one. -/
def Moves (job : Job) : Prop :=
  (∃ kind job', kind ≠ .take ∧ JobStep kind job job') ∨
  (job.busy = job.blocked ∧ (job = .finished ∨ ∃ job', JobStep .take job job'))

theorem running_moves (body : Body) : ∃ kind job', kind ≠ .take ∧
    JobStep kind (.running body) job' := by
  cases body with
  | done => exact ⟨.plain,_,by decide,.finish⟩
  | parFor tasks rest =>
    rcases tasks with _ | ⟨task,_ | ⟨second,tasks⟩⟩
    · exact ⟨.plain,_,by decide,.none⟩
    · exact ⟨.plain,_,by decide,.single⟩
    · exact ⟨.block,_,by decide,.submit (by simp)⟩

mutual
theorem job_moves : (job : Job) → Moves job
  | .ready body => .inr ⟨rfl,.inr ⟨_,.take⟩⟩
  | .running body => .inl (running_moves body)
  | .finished => .inr ⟨rfl,.inl rfl⟩
  | .waiting tasks rest => by
    rcases tasks_move tasks with hfin | ⟨before,task,after,kind,task',hsplit,hkind,hs⟩ |
      ⟨hbusy,before,task,after,task',hsplit,hs⟩
    · exact .inl ⟨.plain,_,by decide,.resume hfin⟩
    · subst hsplit
      exact .inl ⟨kind,_,hkind,.inside hs⟩
    · subst hsplit
      refine .inr ⟨?_,.inr ⟨_,.inside hs⟩⟩
      rw [Job.busy, Job.blocked, hbusy]

/-- Tasks that are not all finished have one that goes on, or one that waits for a worker
while all their workers are blocked. -/
theorem tasks_move : (tasks : List Job) →
    (∀ task ∈ tasks, task = .finished) ∨
    (∃ before task after kind task', tasks = before ++ task :: after ∧ kind ≠ .take ∧
      JobStep kind task task') ∨
    (busyAll tasks = blockedAll tasks ∧ ∃ before task after task',
      tasks = before ++ task :: after ∧ JobStep .take task task')
  | [] => .inl (by simp)
  | task :: tasks => by
    rcases job_moves task with ⟨kind,task',hkind,hs⟩ | ⟨hbusy,hrest⟩
    · exact .inr (.inl ⟨[],task,tasks,kind,task',rfl,hkind,hs⟩)
    · rcases tasks_move tasks with hfin | ⟨before,t,after,kind,t',hsplit,hkind,hs⟩ |
        ⟨hall,before,t,after,t',hsplit,hs⟩
      · rcases hrest with rfl | ⟨task',hs⟩
        · exact .inl (by simpa using hfin)
        · refine .inr (.inr ⟨?_,[],task,tasks,task',rfl,hs⟩)
          rw [busyAll, blockedAll, hbusy, busyAll_finished hfin, blockedAll_finished hfin]
      · exact .inr (.inl ⟨task :: before,t,after,kind,t',by rw [hsplit]; rfl,hkind,hs⟩)
      · refine .inr (.inr ⟨?_,task :: before,t,after,t',by rw [hsplit]; rfl,hs⟩)
        rw [busyAll, blockedAll, hbusy, hall]
end

/-- A task goes on, or all workers of the tasks are blocked. -/
theorem moves_or_blocked (jobs : List Job) :
    (∃ (i : Nat) (job : Job) (kind : Kind) (job' : Job), jobs[i]? = some job ∧ kind ≠ .take ∧
      JobStep kind job job') ∨ busyAll jobs = blockedAll jobs := by
  induction jobs with
  | nil => exact .inr rfl
  | cons job jobs ih =>
    rcases job_moves job with ⟨kind,job',hkind,hs⟩ | ⟨hbusy,_⟩
    · exact .inl ⟨0,job,kind,job',rfl,hkind,hs⟩
    · rcases ih with ⟨i,j,kind,j',hi,hkind,hs⟩ | hall
      · exact .inl ⟨i+1,j,kind,j',hi,hkind,hs⟩
      · right
        rw [busyAll, blockedAll, hbusy, hall]

theorem ready_takes {kind : Kind} {job : Job} (h : JobStep kind (.ready body) job) :
    kind = .take := by
  cases h
  rfl

theorem step_not_ready {kind : Kind} {job job' : Job} (h : JobStep kind job job') (body : Body) :
    job' ≠ .ready body := by
  cases h <;> simp

theorem step_not_finished {kind : Kind} {job job' : Job} (h : JobStep kind job job') :
    job ≠ .finished := by
  cases h <;> simp

/-- A task that waits goes on when all below it is finished, or with a step below it. -/
theorem waiting_cases {kind : Kind} {tasks : List Job} {rest : Body} {job : Job}
    (h : JobStep kind (.waiting tasks rest) job) :
    (∀ task ∈ tasks, task = .finished) ∨ ∃ task ∈ tasks, ∃ task', JobStep kind task task' := by
  generalize hw : Job.waiting tasks rest = before at h
  cases h with
  | take | none | single | submit _ | finish => cases hw
  | resume hfin =>
    cases hw
    exact .inl hfin
  | inside hs =>
    cases hw
    exact .inr ⟨_,by simp,_,hs⟩

/-! ### One worker that is not blocked -/

variable {nodes : List ScheduledNode} {workers : Nat}

/-- The next node can start, or be skipped after a failure. -/
theorem tasks_start {jobs : List Job} {failed : Bool} (hi : jobs[i]? = some (.ready body))
    (hbehind : Behind nodes jobs i) (hidle : busyAll jobs < workers) :
    ∃ kind t, Step nodes workers kind (.tasks jobs failed) t := by
  cases failed with
  | false => exact ⟨_,_,.start hi hbehind hidle⟩
  | true => exact ⟨_,_,.skip hi hbehind hidle⟩

/-- Where a node's task stands for the order of the nodes. -/
def phase (jobs : List Job) (i : Nat) : Scheduler.Phase :=
  match jobs[i]? with
  | some .finished => .finished none
  | _ => .waiting

theorem phase_finished {jobs : List Job} {i : Nat} :
    (phase jobs i).isFinished = true ↔ jobs[i]? = some .finished := by
  unfold phase
  constructor
  · intro h
    split at h
    · assumption
    · cases h
  · intro h
    rw [h]
    rfl

/-- A worker that is not blocked always has something to do. -/
theorem tasks_progress {jobs : List Job} {failed : Bool}
    (ha : ∀ i, ¬ Relation.TransGen (Scheduler.Dependency nodes) i i)
    (hr : ∀ d i, Scheduler.Dependency nodes d i → d < nodes.length)
    (hlen : jobs.length = nodes.length) (hb : blockedAll jobs < workers) :
    ∃ kind t, Step nodes workers kind (.tasks jobs failed) t := by
  rcases moves_or_blocked jobs with ⟨i,job,kind,job',hi,hkind,hs⟩ | hall
  · have hroot : ∀ body, job ≠ .ready body := by
      rintro body rfl
      exact hkind (ready_takes hs)
    exact ⟨kind,_,.work hi hroot hs (fun h => absurd h hkind) (.inl rfl)⟩
  -- all workers of the tasks are blocked, so one is idle
  have hidle : busyAll jobs < workers := by
    rw [hall]
    exact hb
  by_cases hfin : ∀ job ∈ jobs, job = .finished
  · exact ⟨.plain,_,.join hfin⟩
  obtain ⟨job,hjob,hne⟩ : ∃ job ∈ jobs, job ≠ .finished := by simpa using hfin
  obtain ⟨i,hlt,hi⟩ := List.mem_iff_getElem.mp hjob
  have hu : (phase jobs i).isFinished = false := by
    rw [Bool.eq_false_iff]
    intro hdone
    rw [phase_finished, List.getElem?_eq_getElem hlt, hi] at hdone
    exact hne (Option.some.inj hdone)
  obtain ⟨j,hj,hunfinished,hbefore⟩ :=
    Scheduler.unfinished_ready hr ha (hlen ▸ hlt) hu
  have hbehind : Behind nodes jobs j := fun d hd => phase_finished.mp (hbefore d hd)
  obtain ⟨next,hnext⟩ : ∃ next, jobs[j]? = some next :=
    ⟨_,List.getElem?_eq_getElem (hlen ▸ hj)⟩
  cases next with
  | ready body => exact tasks_start hnext hbehind hidle
  | finished => rw [phase_finished.mpr hnext] at hunfinished; cases hunfinished
  | running body =>
    obtain ⟨kind,job',_,hs⟩ := running_moves body
    exact ⟨kind,_,.work hnext (by simp) hs (fun _ => hidle) (.inl rfl)⟩
  | waiting tasks rest =>
    rcases job_moves (.waiting tasks rest) with ⟨kind,job',hkind,hs⟩ | ⟨_,hdone | ⟨job',hs⟩⟩
    · exact ⟨kind,_,.work hnext (by simp) hs (fun _ => hidle) (.inl rfl)⟩
    · cases hdone
    · exact ⟨.take,_,.work hnext (by simp) hs (fun _ => hidle) (.inl rfl)⟩

theorem loop_progress {job : Job} {later : List Body} (hroot : ∀ body, job ≠ .ready body)
    (hb : job.beneath blockedAll < workers) :
    ∃ kind t, Step nodes workers kind (.loop job later) t := by
  cases job with
  | ready body => exact absurd rfl (hroot body)
  | finished => exact ⟨_,_,.exit⟩
  | running body =>
    obtain ⟨kind,job',hkind,hs⟩ := running_moves body
    by_cases hblock : kind = .block
    · subst hblock
      exact ⟨_,_,.call hs⟩
    · exact ⟨_,_,.loopWork hs (fun h => absurd h hblock) (fun h => absurd h hkind)⟩
  | waiting tasks rest =>
    rcases job_moves (.waiting tasks rest) with ⟨kind,job',hkind,hs⟩ | ⟨hbusy,hdone | ⟨job',hs⟩⟩
    · exact ⟨_,_,.loopWork hs (by simp) (fun h => absurd h hkind)⟩
    · cases hdone
    · refine ⟨_,_,.loopWork hs (by simp) ?_⟩
      intro _
      rw [Job.busy, Job.blocked] at hbusy
      have : busyAll tasks = blockedAll tasks := Nat.add_left_cancel hbusy
      rw [Job.beneath, this]
      exact hb

/-! ### Two nodes in a row, the first with a loop of two iterations -/

def pair : List ScheduledNode := [⟨"a",[]⟩, ⟨"b",[0]⟩]

def pairBodies : List Body := [.parFor [.done,.done] .done, .done]

/-- The first node waits for its iterations. -/
def pairWaiting : State :=
  .tasks [.waiting [.ready .done,.ready .done] .done, .ready .done] false

theorem pair_lt (d i : Nat) (h : Scheduler.Dependency pair d i) : d < i := by
  obtain ⟨node,hi,hd⟩ := h
  match i with
  | 0 => obtain rfl := Option.some.inj hi; simp at hd
  | 1 => obtain rfl := Option.some.inj hi; simp at hd; omega
  | i+2 => simp [pair] at hi

theorem pair_first_behind (jobs : List Job) : Behind pair jobs 0 := by
  intro d hd
  exact absurd (pair_lt d 0 (Scheduler.edge_precedence.mp hd)) (Nat.not_lt_zero d)

/-- The steps to this state, with any number of workers. -/
theorem pair_steps (workers : Nat) (hW : 0 < workers) :
    Step pair workers .take (start pair pairBodies)
      (.tasks [.running (.parFor [.done,.done] .done), .ready .done] false) ∧
    Step pair workers .block
      (.tasks [.running (.parFor [.done,.done] .done), .ready .done] false) pairWaiting := by
  constructor
  · exact .start (i := 0) rfl (pair_first_behind _) hW
  · exact .work (i := 0) rfl (by simp) (.submit (by simp)) (by simp) (.inl rfl)

/-- On a machine with two threads the default is one worker, which waits for iterations
that nobody takes. -/
theorem lone_worker_stuck : ∃ s, Reachable pair pairBodies (defaultWorkerCount 2) s ∧
    Stuck pair (defaultWorkerCount 2) s := by
  obtain ⟨htake,hblock⟩ := pair_steps 1 (by decide)
  refine ⟨pairWaiting,.head ⟨_,htake⟩ (.single ⟨_,hblock⟩),by simp [pairWaiting],?_⟩
  rintro ⟨kind,t,hs⟩
  have hbusy : ¬ busyAll [.waiting [.ready .done,.ready .done] .done, .ready .done] < 1 := by
    simp [busyAll, Job.busy]
  cases hs with
  | start _ _ hidle => exact hbusy hidle
  | join hall => simpa using hall _ (.head _)
  | @work _ i _ _ _ _ _ hi hroot hs hidle _ =>
    match i with
    | 0 =>
      obtain rfl := Option.some.inj hi
      rcases waiting_cases hs with hfin | ⟨task,htask,_,hs⟩
      · simpa using hfin _ (.head _)
      · obtain rfl : task = .ready .done := by simpa using htask
        exact hbusy (hidle (ready_takes hs))
    | 1 =>
      obtain rfl := Option.some.inj hi
      exact hroot _ rfl
    | i+2 => simp at hi

end Cpipe.Proofs.Executor
