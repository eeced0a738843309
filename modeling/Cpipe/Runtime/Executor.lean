import Cpipe.Runtime.Scheduler

namespace Cpipe.Runtime.Executor

/-! ### What runs on the executor -/

/-- A callback as the executor sees it: the parallel loops it makes one after the other,
each with the bodies of its iterations. -/
inductive Body where
  | done
  | parFor (tasks : List Body) (rest : Body)

/-- First this body, then the other. -/
def Body.andThen : Body → Body → Body
  | .done, next => next
  | .parFor tasks rest, next => .parFor tasks (rest.andThen next)

/-- A task: in the queue, on a worker, on a worker that waits for the tasks it submitted,
or finished. -/
inductive Job where
  | ready (body : Body)
  | running (body : Body)
  | waiting (tasks : List Job) (rest : Body)
  | finished

mutual
/-- The workers a task holds. -/
def Job.busy : Job → Nat
  | .ready _ => 0
  | .running _ => 1
  | .waiting tasks _ => 1 + busyAll tasks
  | .finished => 0

def busyAll : List Job → Nat
  | [] => 0
  | job :: jobs => job.busy + busyAll jobs
end

mutual
/-- Those of them that are blocked in `wait`. -/
def Job.blocked : Job → Nat
  | .ready _ => 0
  | .running _ => 0
  | .waiting tasks _ => 1 + blockedAll tasks
  | .finished => 0

def blockedAll : List Job → Nat
  | [] => 0
  | job :: jobs => job.blocked + blockedAll jobs
end

/-- What a step needs or does: it takes a worker, blocks one, or neither. -/
inductive Kind where
  | take | block | plain
deriving DecidableEq, Repr

/-- One step of a task or of a task below it. -/
inductive JobStep : Kind → Job → Job → Prop
  | take : JobStep .take (.ready body) (.running body)
  -- at most one iteration runs in the caller's own loop
  | none : JobStep .plain (.running (.parFor [] rest)) (.running rest)
  | single : JobStep .plain (.running (.parFor [task] rest)) (.running (task.andThen rest))
  -- more are submitted, and the worker waits for them
  | submit (h : 2 ≤ tasks.length) :
      JobStep .block (.running (.parFor tasks rest)) (.waiting (tasks.map .ready) rest)
  | resume (h : ∀ task ∈ tasks, task = .finished) :
      JobStep .plain (.waiting tasks rest) (.running rest)
  | finish : JobStep .plain (.running .done) .finished
  | inside (h : JobStep kind task task') :
      JobStep kind (.waiting (before ++ task :: after) rest)
        (.waiting (before ++ task' :: after) rest)

/-! ### `Scheduler::run` -/

/-- The tasks of the nodes with the flag for a failure, or the loop without dependencies,
in which the calling thread, no worker, makes the calls. -/
inductive State where
  | tasks (jobs : List Job) (failed : Bool)
  | loop (job : Job) (later : List Body)
  | done

/-- The workers held by the tasks below the calling thread's. -/
def Job.beneath (count : List Job → Nat) : Job → Nat
  | .waiting tasks _ => count tasks
  | _ => 0

def State.blocked : State → Nat
  | .tasks jobs _ => blockedAll jobs
  | .loop job _ => job.beneath blockedAll
  | .done => 0

def start (nodes : List ScheduledNode) (bodies : List Body) : State :=
  if Scheduler.hasDependencies nodes then
    if (Scheduler.precedence nodes).any (fun e => decide (nodes.length ≤ e.1)) then .done
    else .tasks (bodies.map .ready) false
  else
    match bodies with
    | [] => .done
    | body :: later => .loop (.running body) later

/-- All tasks before this one have finished. -/
def Behind (nodes : List ScheduledNode) (jobs : List Job) (i : Nat) : Prop :=
  ∀ d, Library.Kahn.Edge (Scheduler.precedence nodes) d i → jobs[d]? = some .finished

/-- One step with so many workers. The kind says whether a worker is taken or blocked. -/
inductive Step (nodes : List ScheduledNode) (workers : Nat) : Kind → State → State → Prop
  | start (hi : jobs[i]? = some (.ready body)) (hdeps : Behind nodes jobs i)
      (hidle : busyAll jobs < workers) :
      Step nodes workers .take (.tasks jobs false) (.tasks (jobs.set i (.running body)) false)
  | skip (hi : jobs[i]? = some (.ready body)) (hdeps : Behind nodes jobs i)
      (hidle : busyAll jobs < workers) :
      Step nodes workers .plain (.tasks jobs true) (.tasks (jobs.set i .finished) true)
  -- a node that ends may have failed
  | work (hi : jobs[i]? = some job) (hroot : ∀ body, job ≠ .ready body)
      (hs : JobStep kind job job') (hidle : kind = .take → busyAll jobs < workers)
      (hfailed : failed' = failed ∨ job' = .finished) :
      Step nodes workers kind (.tasks jobs failed) (.tasks (jobs.set i job') (failed || failed'))
  | join (hall : ∀ job ∈ jobs, job = .finished) :
      Step nodes workers .plain (.tasks jobs failed) .done
  -- the calling thread submits and waits without a worker
  | call (hs : JobStep .block (.running body) job) :
      Step nodes workers .plain (.loop (.running body) later) (.loop job later)
  | loopWork (hs : JobStep kind job job') (hroot : kind = .block → ∀ body, job ≠ .running body)
      (hidle : kind = .take → job.beneath busyAll < workers) :
      Step nodes workers kind (.loop job later) (.loop job' later)
  | next : Step nodes workers .plain (.loop .finished (body :: later)) (.loop (.running body) later)
  | exit : Step nodes workers .plain (.loop .finished later) .done

/-- `Scheduler::default_worker_count` on a machine with so many threads. -/
def defaultWorkerCount (hardware : Nat) : Nat := max 1 (if 0 < hardware then hardware-1 else 1)

def Reachable (nodes : List ScheduledNode) (bodies : List Body) (workers : Nat) (s : State) :
    Prop :=
  Relation.ReflTransGen (fun s t => ∃ kind, Step nodes workers kind s t) (start nodes bodies) s

/-- Neither finished nor able to go on. -/
def Stuck (nodes : List ScheduledNode) (workers : Nat) (s : State) : Prop :=
  s ≠ .done ∧ ¬ ∃ kind t, Step nodes workers kind s t

end Cpipe.Runtime.Executor
