import Cpipe.Library.Trace
import Cpipe.Proofs.ExecutorWaits

namespace Cpipe.Proofs.ExecutorShares
open Cpipe.Runtime.Executor Cpipe.Proofs.Executor Cpipe.Proofs.ExecutorWaits Library

/-! ### Runs end -/

mutual
/-- A bound on the steps of a callback. -/
def size : Body → Nat
  | .done => 1
  | .parFor tasks rest => 2 + sizeAll tasks + size rest

def sizeAll : List Body → Nat
  | [] => 0
  | body :: bodies => size body + 1 + sizeAll bodies
end

mutual
def jobSize : Job → Nat
  | .ready body => size body + 1
  | .running body => size body
  | .waiting tasks rest => 1 + jobSizeAll tasks + size rest
  | .finished => 0

def jobSizeAll : List Job → Nat
  | [] => 0
  | job :: jobs => jobSize job + jobSizeAll jobs
end

theorem size_andThen : (body next : Body) → size (body.andThen next) < size body + size next + 1
  | .done, next => by
    rw [Body.andThen, size]
    omega
  | .parFor tasks rest, next => by
    have := size_andThen rest next
    rw [Body.andThen, size, size]
    omega

theorem jobSizeAll_eq (jobs : List Job) : jobSizeAll jobs = (jobs.map jobSize).sum := by
  induction jobs with
  | nil => rfl
  | cons job jobs ih => rw [jobSizeAll, ih, List.map_cons, List.sum_cons]

theorem jobSizeAll_set {jobs : List Job} {i : Nat} {job : Job} (job' : Job)
    (hi : jobs[i]? = some job) :
    jobSizeAll (jobs.set i job') + jobSize job = jobSizeAll jobs + jobSize job' := by
  rw [jobSizeAll_eq, jobSizeAll_eq]
  exact sum_map_set jobSize job' hi

theorem jobSizeAll_among (before after : List Job) (job : Job) :
    jobSizeAll (before ++ job :: after) =
      jobSize job + (jobSizeAll before + jobSizeAll after) := by
  simp only [jobSizeAll_eq, List.map_append, List.map_cons, List.sum_append, List.sum_cons]
  omega

theorem jobSizeAll_ready (bodies : List Body) :
    jobSizeAll (bodies.map .ready) = sizeAll bodies := by
  induction bodies with
  | nil => rfl
  | cons b bodies ih => simp only [List.map_cons, jobSizeAll, jobSize, sizeAll, ih]

theorem step_size {kind : Kind} {job job' : Job} (h : JobStep kind job job') :
    jobSize job' < jobSize job := by
  induction h with
  | take => exact Nat.lt_succ_self _
  | none =>
    simp only [jobSize, size, sizeAll]
    omega
  | @single task rest =>
    have := size_andThen task rest
    simp only [jobSize, size, sizeAll]
    omega
  | submit _ =>
    simp only [jobSize, size, jobSizeAll_ready]
    omega
  | resume _ =>
    simp only [jobSize]
    omega
  | finish => exact Nat.one_pos
  | inside _ ih =>
    simp only [jobSize, jobSizeAll_among]
    omega

/-! ### Tasks with a share of the workers -/

/-- One step of a task that has begun and holds at most so many workers. -/
def ShareStep (share : Nat) (job job' : Job) : Prop :=
  ∃ kind, JobStep kind job job' ∧ (∀ body, job ≠ .ready body) ∧ (kind = .take → job.busy < share)

/-- One step of one of the tasks that together hold at most so many workers. -/
def ShareStepAll (share : Nat) (tasks tasks' : List Job) : Prop :=
  ∃ kind before task task' after, tasks = before ++ task :: after ∧
    tasks' = before ++ task' :: after ∧ JobStep kind task task' ∧
    (kind = .take → busyAll tasks < share)

/-- A task whose share is used up: all its workers wait, and it goes on with one more only. -/
structure Jammed (share : Nat) (job : Job) : Prop where
  busy : job.busy = share
  blocked : job.blocked = share
  takes : ∀ kind job', JobStep kind job job' → kind = .take

structure JammedAll (share : Nat) (tasks : List Job) : Prop where
  busy : busyAll tasks = share
  blocked : blockedAll tasks = share
  takes : ∀ task ∈ tasks, ∀ kind task', JobStep kind task task' → kind = .take

/-- A step holds at most the one worker more that it takes. -/
theorem step_busy {kind : Kind} {job job' : Job} (h : JobStep kind job job') :
    job'.busy ≤ job.busy + (if kind = .take then 1 else 0) := by
  induction h with
  | take => simp [Job.busy]
  | none => simp [Job.busy]
  | single => simp [Job.busy]
  | submit _ => simp [Job.busy, busyAll_ready]
  | resume h => simp [Job.busy]
  | finish => simp [Job.busy]
  | inside _ ih =>
    simp only [Job.busy, busyAll_among]
    omega

theorem step_busy_le {share : Nat} {kind : Kind} {job job' : Job} (others : Nat)
    (h : JobStep kind job job') (hb : job.busy + others ≤ share)
    (htake : kind = .take → job.busy + others < share) : job'.busy + others ≤ share := by
  have hbusy := step_busy h
  by_cases hk : kind = .take
  · have := htake hk
    rw [if_pos hk] at hbusy
    omega
  · rw [if_neg hk] at hbusy
    omega

theorem share_busy {share : Nat} {job job' : Job} (hb : job.busy ≤ share)
    (h : Relation.ReflTransGen (ShareStep share) job job') : job'.busy ≤ share := by
  induction h with
  | refl => exact hb
  | tail _ hstep ih =>
    obtain ⟨kind,hs,_,htake⟩ := hstep
    exact step_busy_le 0 hs ih htake

theorem shareAll_busy {share : Nat} {tasks tasks' : List Job} (hb : busyAll tasks ≤ share)
    (h : Relation.ReflTransGen (ShareStepAll share) tasks tasks') : busyAll tasks' ≤ share := by
  induction h with
  | refl => exact hb
  | tail _ hstep ih =>
    obtain ⟨kind,before,task,task',after,rfl,rfl,hs,htake⟩ := hstep
    rw [busyAll_among] at ih htake ⊢
    exact step_busy_le _ hs ih htake

theorem share_not_ready {share : Nat} {job job' : Job} (hroot : ∀ body, job ≠ .ready body)
    (h : Relation.ReflTransGen (ShareStep share) job job') : ∀ body, job' ≠ .ready body := by
  induction h with
  | refl => exact hroot
  | tail _ hstep _ =>
    obtain ⟨_,hs,_⟩ := hstep
    exact step_not_ready hs

/-- A task with a share finishes, or uses it up. -/
theorem settle (share : Nat) (job : Job) (hroot : ∀ body, job ≠ .ready body)
    (hb : job.busy ≤ share) :
    ∃ job', Relation.ReflTransGen (ShareStep share) job job' ∧
      (job' = .finished ∨ Jammed share job') := by
  obtain ⟨job',hreach,hfinal⟩ := Trace.exists_final (r := ShareStep share) jobSize
    (fun _ _ ⟨_,hs,_⟩ => step_size hs) job
  have hroot' := share_not_ready hroot hreach
  refine ⟨job',hreach,?_⟩
  have htakes : ∀ kind next, JobStep kind job' next → kind = .take := by
    intro kind next hs
    by_contra hkind
    exact hfinal next ⟨kind,hs,hroot',fun h => absurd h hkind⟩
  rcases job_moves job' with ⟨kind,next,hkind,hs⟩ | ⟨hbusy,hfin | ⟨next,hs⟩⟩
  · exact absurd (htakes kind next hs) hkind
  · exact .inl hfin
  · have hle := share_busy hb hreach
    have hfull : ¬ job'.busy < share := fun hlt => hfinal next ⟨.take,hs,hroot',fun _ => hlt⟩
    exact .inr ⟨by omega,by omega,htakes⟩

/-- Tasks with a share finish, or use it up. -/
theorem settle_all {share : Nat} (tasks : List Job) (hb : busyAll tasks ≤ share) :
    ∃ tasks', Relation.ReflTransGen (ShareStepAll share) tasks tasks' ∧
      ((∀ task ∈ tasks', task = .finished) ∨
        (JammedAll share tasks' ∧ ∃ task ∈ tasks', task ≠ .finished)) := by
  obtain ⟨tasks',hreach,hfinal⟩ := Trace.exists_final (r := ShareStepAll share) jobSizeAll (by
    rintro _ _ ⟨kind,before,task,task',after,rfl,rfl,hs,_⟩
    have := step_size hs
    simp only [jobSizeAll_among]
    omega) tasks
  refine ⟨tasks',hreach,?_⟩
  have htakes : ∀ task ∈ tasks', ∀ kind next, JobStep kind task next → kind = .take := by
    intro task hm kind next hs
    by_contra hkind
    obtain ⟨before,after,rfl⟩ := List.append_of_mem hm
    exact hfinal _ ⟨kind,before,task,next,after,rfl,rfl,hs,fun h => absurd h hkind⟩
  rcases tasks_move tasks' with hfin | ⟨before,task,after,kind,next,hsplit,hkind,hs⟩ |
    ⟨hbusy,before,task,after,next,hsplit,hs⟩
  · exact .inl hfin
  · exact absurd (htakes task (by simp [hsplit]) kind next hs) hkind
  · have hle := shareAll_busy hb hreach
    have hfull : ¬ busyAll tasks' < share := fun hlt =>
      hfinal _ ⟨.take,before,task,next,after,hsplit,rfl,hs,fun _ => hlt⟩
    exact .inr ⟨⟨by omega,by omega,htakes⟩,task,by simp [hsplit],step_not_finished hs⟩

/-! ### A callback with as many workers as can wait -/

/-- A task's steps among others. -/
theorem share_among {share : Nat} {job job' : Job} (total : Nat) (before after : List Job)
    (hle : busyAll before + share + busyAll after ≤ total)
    (h : Relation.ReflTransGen (ShareStep share) job job') :
    Relation.ReflTransGen (ShareStepAll total) (before ++ job :: after)
      (before ++ job' :: after) := by
  refine Relation.ReflTransGen.lift (fun job => before ++ job :: after) ?_ _ _ h
  rintro a b ⟨kind,hs,_,htake⟩
  refine ⟨kind,before,a,b,after,rfl,rfl,hs,fun hk => ?_⟩
  have := htake hk
  rw [busyAll_among]
  omega

theorem shareAll_cons {share : Nat} {tasks tasks' : List Job} (total : Nat) (job : Job)
    (hle : job.busy + share ≤ total)
    (h : Relation.ReflTransGen (ShareStepAll share) tasks tasks') :
    Relation.ReflTransGen (ShareStepAll total) (job :: tasks) (job :: tasks') := by
  refine Relation.ReflTransGen.lift (fun tasks => job :: tasks) ?_ _ _ h
  rintro _ _ ⟨kind,before,a,b,after,rfl,rfl,hs,htake⟩
  refine ⟨kind,job :: before,a,b,after,rfl,rfl,hs,fun hk => ?_⟩
  have := htake hk
  rw [busyAll]
  omega

/-- The tasks that a task waits for have its workers but one. -/
theorem share_inside {share : Nat} {tasks tasks' : List Job} (rest : Body)
    (h : Relation.ReflTransGen (ShareStepAll share) tasks tasks') :
    Relation.ReflTransGen (ShareStep (share+1)) (.waiting tasks rest) (.waiting tasks' rest) := by
  refine Relation.ReflTransGen.lift (fun tasks => Job.waiting tasks rest) ?_ _ _ h
  rintro _ _ ⟨kind,before,a,b,after,rfl,rfl,hs,htake⟩
  refine ⟨kind,.inside hs,by simp,fun hk => ?_⟩
  have := htake hk
  rw [Job.busy]
  omega

theorem JammedAll.waiting {share : Nat} {tasks : List Job} (h : JammedAll share tasks)
    (hopen : ∃ task ∈ tasks, task ≠ .finished) (rest : Body) :
    Jammed (share+1) (.waiting tasks rest) := by
  refine ⟨by rw [Job.busy, h.busy, Nat.add_comm],by rw [Job.blocked, h.blocked, Nat.add_comm],?_⟩
  intro kind job' hs
  rcases waiting_cases hs with hfin | ⟨task,hm,_,hs⟩
  · obtain ⟨task,hm,hne⟩ := hopen
    exact absurd (hfin task hm) hne
  · exact h.takes task hm kind _ hs

def Jams (body : Body) : Prop :=
  ∀ share, 0 < share → share ≤ waits body →
    ∃ job, Relation.ReflTransGen (ShareStep share) (.running body) job ∧ Jammed share job

theorem Jammed.not_finished {share : Nat} {job : Job} (h : Jammed share job) (hs : 0 < share) :
    job ≠ .finished := by
  rintro rfl
  exact Nat.ne_of_gt hs h.busy.symm

theorem jammed_ready (body : Body) : Jammed 0 (.ready body) :=
  ⟨rfl,rfl,fun _ _ hs => ready_takes hs⟩

theorem jammed_finished : Jammed 0 .finished :=
  ⟨rfl,rfl,fun _ _ hs => absurd rfl (step_not_finished hs)⟩

theorem JammedAll.cons {own share : Nat} {job : Job} {tasks : List Job} (hjob : Jammed own job)
    (h : JammedAll share tasks) : JammedAll (own+share) (job :: tasks) := by
  refine ⟨by rw [busyAll, hjob.busy, h.busy],by rw [blockedAll, hjob.blocked, h.blocked],?_⟩
  intro task hm kind task' hs
  rcases List.mem_cons.mp hm with rfl | hm
  · exact hjob.takes kind task' hs
  · exact h.takes task hm kind task' hs

theorem JammedAll.set {others own i : Nat} {body : Body} {jobs : List Job} {job : Job}
    (h : JammedAll others jobs)
    (hi : jobs[i]? = some (.ready body)) (hjob : Jammed own job) :
    JammedAll (others+own) (jobs.set i job) := by
  have hbusy := busyAll_set job hi
  have hblocked := blockedAll_set job hi
  rw [h.busy, hjob.busy, Job.busy] at hbusy
  rw [h.blocked, hjob.blocked, Job.blocked] at hblocked
  refine ⟨by omega,by omega,?_⟩
  intro task hm kind task' hs
  rcases List.mem_or_eq_of_mem_set hm with hm | rfl
  · exact h.takes task hm kind task' hs
  · exact hjob.takes kind task' hs

theorem jammedAll_ready (bodies : List Body) : JammedAll 0 (bodies.map .ready) := by
  refine ⟨busyAll_ready bodies,blockedAll_ready bodies,?_⟩
  intro task hm kind task' hs
  obtain ⟨body,_,rfl⟩ := List.mem_map.mp hm
  exact ready_takes hs

/-- The first task takes its share, the others stay in the queue. -/
theorem jams_first {body : Body} (hjams : Jams body) (later : List Body) {own share : Nat}
    (hown : own ≤ waits body) (hle : own ≤ share) :
    ∃ job, Relation.ReflTransGen (ShareStepAll share) (.ready body :: later.map .ready)
      (job :: later.map .ready) ∧ Jammed own job ∧ job ≠ .finished := by
  rcases Nat.eq_zero_or_pos own with rfl | hpos
  · exact ⟨.ready body,.refl,jammed_ready body,by simp⟩
  · obtain ⟨job,hrun,hjam⟩ := hjams own hpos hown
    refine ⟨job,?_,hjam,hjam.not_finished hpos⟩
    have htake : ShareStepAll share (.ready body :: later.map .ready)
        (.running body :: later.map .ready) := by
      refine ⟨.take,[],_,_,_,rfl,rfl,.take,fun _ => ?_⟩
      rw [busyAll, Job.busy, busyAll_ready]
      omega
    have hsteps := share_among share [] (later.map .ready)
      (by rw [busyAll_ready, busyAll]; omega) hrun
    exact hsteps.head htake

/-- Tasks in the queue use up any share that they can. -/
theorem jams_all {bodies : List Body} (hjams : ∀ body ∈ bodies, Jams body) {share : Nat}
    (hshare : share ≤ waitsAll bodies) :
    ∃ tasks, Relation.ReflTransGen (ShareStepAll share) (bodies.map .ready) tasks ∧
      JammedAll share tasks ∧ tasks.length = bodies.length ∧ ∀ task ∈ tasks, task ≠ .finished := by
  induction bodies generalizing share with
  | nil =>
    obtain rfl : share = 0 := by simpa [waitsAll] using hshare
    exact ⟨[],.refl,⟨rfl,rfl,by simp⟩,rfl,by simp⟩
  | cons body bodies ih =>
    rw [waitsAll] at hshare
    obtain ⟨own,others,hown,hothers,rfl⟩ :
        ∃ own others, own ≤ waits body ∧ others ≤ waitsAll bodies ∧ own + others = share :=
      ⟨min share (waits body),share - min share (waits body),by omega,by omega,by omega⟩
    obtain ⟨job,hfirst,hjob,hne⟩ := jams_first (hjams body (by simp)) bodies hown
      (Nat.le_add_right own others)
    obtain ⟨tasks,hreach,hjam,hlen,hopen⟩ := ih (fun b hb => hjams b (by simp [hb])) hothers
    have hrest := shareAll_cons (own+others) job (by rw [hjob.busy]) hreach
    exact ⟨job :: tasks,hfirst.trans hrest,hjam.cons hjob,by simp [hlen],by simpa using ⟨hne,hopen⟩⟩

theorem size_mem {body : Body} {tasks : List Body} (h : body ∈ tasks) :
    size body < sizeAll tasks := by
  induction tasks with
  | nil => cases h
  | cons task tasks ih =>
    rw [sizeAll]
    rcases List.mem_cons.mp h with rfl | h
    · omega
    · have := ih h
      omega

/-- A loop uses up its share in its iterations, or in what comes after it. -/
theorem jams_loop {tasks : List Body} {rest : Body} (hlen : 2 ≤ tasks.length)
    (htasks : ∀ body ∈ tasks, Jams body) (hrest : Jams rest) : Jams (.parFor tasks rest) := by
  intro share hpos hle
  obtain ⟨others,rfl⟩ : ∃ others, share = others+1 := ⟨share-1,by omega⟩
  have hsubmit : ShareStep (others+1) (.running (.parFor tasks rest))
      (.waiting (tasks.map .ready) rest) := ⟨.block,.submit hlen,by simp,by simp⟩
  rw [waits, if_pos hlen] at hle
  by_cases hin : others ≤ waitsAll tasks
  · obtain ⟨inner,hreach,hjam,hsame,hopen⟩ := jams_all htasks hin
    obtain ⟨first,hfirst⟩ : ∃ first, first ∈ inner := by
      apply List.exists_mem_of_ne_nil
      rintro rfl
      rw [List.length_nil] at hsame
      omega
    exact ⟨_,(share_inside rest hreach).head hsubmit,
      hjam.waiting ⟨first,hfirst,hopen first hfirst⟩ rest⟩
  · have hidle : busyAll (tasks.map .ready) ≤ others := by
      rw [busyAll_ready]
      exact Nat.zero_le others
    obtain ⟨inner,hreach,hfin | ⟨hjam,hopen⟩⟩ := settle_all (tasks.map .ready) hidle
    · obtain ⟨job,hrun,hjam⟩ := hrest (others+1) hpos (by omega)
      have hresume : ShareStep (others+1) (.waiting inner rest) (.running rest) :=
        ⟨.plain,.resume hfin,by simp,by simp⟩
      exact ⟨job,((share_inside rest hreach).head hsubmit).trans (hrun.head hresume),hjam⟩
    · exact ⟨_,(share_inside rest hreach).head hsubmit,hjam.waiting hopen rest⟩

/-- A callback uses up any share of the workers that can wait in it. -/
theorem jams (body : Body) : Jams body := by
  induction hn : size body using Nat.strongRecOn generalizing body with
  | ind n ih =>
    subst hn
    cases body with
    | done =>
      intro share hpos hle
      exact absurd hle (Nat.not_le.mpr hpos)
    | parFor tasks rest =>
      have hrest : Jams rest := ih (size rest) (by rw [size]; omega) rest rfl
      rcases tasks with _ | ⟨task,_ | ⟨second,tasks⟩⟩
      · intro share hpos hle
        obtain ⟨job,hrun,hjam⟩ := hrest share hpos (by simpa [waits, waitsAll] using hle)
        exact ⟨job,hrun.head ⟨.plain,.none,by simp,by simp⟩,hjam⟩
      · have hsize := size_andThen task rest
        have hboth : Jams (task.andThen rest) :=
          ih _ (by simp only [size, sizeAll]; omega) (task.andThen rest) rfl
        intro share hpos hle
        obtain ⟨job,hrun,hjam⟩ := hboth share hpos (by
          rw [waits_andThen]
          simpa [waits, waitsAll] using hle)
        exact ⟨job,hrun.head ⟨.plain,.single,by simp,by simp⟩,hjam⟩
      · refine jams_loop (by simp) (fun body hm => ih (size body) ?_ body rfl) hrest
        have := size_mem hm
        rw [size]
        omega

end Cpipe.Proofs.ExecutorShares
