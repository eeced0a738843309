import Cpipe.Core.Manifest
import Cpipe.Library.Kahn

namespace Cpipe.Runtime
open Library

/-- A node as the scheduler sees it. Its callback is not part of the record: a
call may return any status, at any time. -/
structure ScheduledNode where
  id : String
  dependencies : List Nat := []

namespace Scheduler

/-- Where the task of one node stands. Reading the flag, calling the node and
writing the flag are separate steps. -/
inductive Phase
  | waiting
  | admitted
  | calling
  | returned (status : Status)
  | finished (result : Option Status)
  deriving DecidableEq

/-- A task that found the flag set finishes without a result. -/
def Phase.isFinished : Phase → Bool
  | .finished _ => true
  | _ => false

inductive Event
  | called (node : Nat)
  | returned (node : Nat) (status : Status)
  deriving DecidableEq

inductive Control
  | loop (next : Nat)
  | calling (node : Nat)
  | tasks (phase : Nat → Phase)
  | done (status : Status)

/-- The log records the calls and returns of the callbacks in the order they
happen. -/
structure State where
  control : Control
  firstStatus : Status := .ok
  log : List Event := []

def hasDependencies (nodes : List ScheduledNode) : Bool :=
  nodes.any (fun node => !node.dependencies.isEmpty)

/-- The pairs handed to `precede`. -/
def precedence (nodes : List ScheduledNode) : Kahn.Edges :=
  nodes.zipIdx.flatMap (fun p => p.1.dependencies.map (fun dependency => (dependency, p.2)))

def start (nodes : List ScheduledNode) : State :=
  if hasDependencies nodes then
    if (precedence nodes).any (fun e => decide (nodes.length ≤ e.1)) then
      { control := .done .badIndex }
    else
      { control := .tasks (fun _ => .waiting) }
  else
    { control := .loop 0 }

/-- The executor's own promise: a task starts after its predecessors finished. -/
def ready (nodes : List ScheduledNode) (phase : Nat → Phase) (i : Nat) : Prop :=
  i < nodes.length ∧ phase i = .waiting ∧
    ∀ d, Kahn.Edge (precedence nodes) d i → (phase d).isFinished = true

/-- One step of `Scheduler::run`. The first four are the loop without
dependencies, the last is the wait for the executor. -/
inductive Step (nodes : List ScheduledNode) : State → State → Prop
  | exit : Step nodes ⟨.loop nodes.length, first, log⟩ ⟨.done .ok, first, log⟩
  | dispatch (hi : i < nodes.length) :
      Step nodes ⟨.loop i, first, log⟩ ⟨.calling i, first, log ++ [.called i]⟩
  | pass : Step nodes ⟨.calling i, first, log⟩ ⟨.loop (i+1), first, log ++ [.returned i .ok]⟩
  | abort (hs : status ≠ .ok) :
      Step nodes ⟨.calling i, first, log⟩ ⟨.done status, first, log ++ [.returned i status]⟩
  | skip (hr : ready nodes phase i) (hf : first ≠ .ok) :
      Step nodes ⟨.tasks phase, first, log⟩
        ⟨.tasks (Function.update phase i (.finished none)), first, log⟩
  | enter (hr : ready nodes phase i) :
      Step nodes ⟨.tasks phase, .ok, log⟩ ⟨.tasks (Function.update phase i .admitted), .ok, log⟩
  | call (hp : phase i = .admitted) :
      Step nodes ⟨.tasks phase, first, log⟩
        ⟨.tasks (Function.update phase i .calling), first, log ++ [.called i]⟩
  | reply (hp : phase i = .calling) :
      Step nodes ⟨.tasks phase, first, log⟩
        ⟨.tasks (Function.update phase i (.returned status)), first, log ++ [.returned i status]⟩
  | finish (hp : phase i = .returned .ok) :
      Step nodes ⟨.tasks phase, first, log⟩
        ⟨.tasks (Function.update phase i (.finished (some .ok))), first, log⟩
  | record (hp : phase i = .returned status) (hs : status ≠ .ok) :
      Step nodes ⟨.tasks phase, first, log⟩
        ⟨.tasks (Function.update phase i (.finished (some status))),
          if first = .ok then status else first, log⟩
  | join (hall : ∀ i < nodes.length, (phase i).isFinished = true) :
      Step nodes ⟨.tasks phase, first, log⟩ ⟨.done first, first, log⟩

def Reachable (nodes : List ScheduledNode) (s : State) : Prop :=
  Relation.ReflTransGen (Step nodes) (start nodes) s

/-- `executor_.run(taskflow).wait()` on any task graph: the executor completes a run when no
task is running or ready, and a task that waits for ever does not hold it up. -/
inductive Run (nodes : List ScheduledNode) : State → State → Prop
  | step (h : Step nodes s t) : Run nodes s t
  | complete (hidle : ∀ i < nodes.length, phase i = .waiting ∨ (phase i).isFinished = true)
      (hready : ∀ i, ¬ ready nodes phase i) :
      Run nodes ⟨.tasks phase, first, log⟩ ⟨.done first, first, log⟩

def Reached (nodes : List ScheduledNode) (s : State) : Prop :=
  Relation.ReflTransGen (Run nodes) (start nodes) s

end Scheduler
end Cpipe.Runtime
