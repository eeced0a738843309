import Cpipe.Library.Trace

namespace Cpipe.Runtime.HalideExecutor

/-! ### Schedulers and the global pointer -/

/-- The life of a `Scheduler`. The constructor builds the executor and then stores its
address, the destructor takes the address back and then destroys the executor. -/
inductive Life where
  | built | published | retracted | destroyed
deriving DecidableEq, Repr

/-- `running` while the owner is inside `run`. -/
structure Object where
  life : Life
  running : Bool
deriving DecidableEq, Repr

inductive Phase where
  | loaded | submitted | done
deriving DecidableEq, Repr

/-- A call of `cpipeHalideDoParFor` by a task under the scheduler `owner`, with the
pointer it loaded. -/
structure Call where
  owner : Nat
  executor : Option Nat
  phase : Phase
deriving DecidableEq, Repr

/-- The objects and calls of a process, each by its number. Two objects that are alive have
different addresses, so a pointer is the number of the scheduler it points into. -/
structure State where
  objects : List Object := []
  gHalideExecutor : Option Nat := none
  calls : List Call := []
deriving DecidableEq, Repr

inductive Event where
  | build
  | publish (scheduler : Nat)
  | beginRun (scheduler : Nat)
  | load (scheduler : Nat)
  | submit (call : Nat)
  | loop (call : Nat)
  | wait (call : Nat)
  | endRun (scheduler : Nat)
  | retract (scheduler : Nat)
  | destroy (scheduler : Nat)
deriving DecidableEq, Repr

/-! ### Steps -/

def State.put (s : State) (i : Nat) (o : Object) : State :=
  { s with objects := s.objects.set i o }

def State.putCall (s : State) (c : Nat) (call : Call) : State :=
  { s with calls := s.calls.set c call }

def step (s : State) : Event → Option State
  | .build => some { s with objects := s.objects ++ [⟨.built,false⟩] }
  | .publish i =>
    if s.objects[i]? = some ⟨.built,false⟩ then
      some { s.put i ⟨.published,false⟩ with gHalideExecutor := some i }
    else none
  | .beginRun i =>
    if s.objects[i]? = some ⟨.published,false⟩ then some (s.put i ⟨.published,true⟩) else none
  | .load i =>
    if s.objects[i]? = some ⟨.published,true⟩ then
      some { s with calls := s.calls ++ [⟨i,s.gHalideExecutor,.loaded⟩] }
    else none
  | .submit c =>
    match s.calls[c]? with
    | some ⟨owner,some e,.loaded⟩ => some (s.putCall c ⟨owner,some e,.submitted⟩)
    | _ => none
  -- a null pointer or at most one iteration: the tasks run in the caller's loop
  | .loop c =>
    match s.calls[c]? with
    | some ⟨owner,e,.loaded⟩ => some (s.putCall c ⟨owner,e,.done⟩)
    | _ => none
  | .wait c =>
    match s.calls[c]? with
    | some ⟨owner,e,.submitted⟩ => some (s.putCall c ⟨owner,e,.done⟩)
    | _ => none
  -- `run` returns when its tasks have ended, and with them their calls
  | .endRun i =>
    if s.objects[i]? = some ⟨.published,true⟩ ∧
        ∀ call ∈ s.calls, call.owner = i → call.phase = .done then
      some (s.put i ⟨.published,false⟩)
    else none
  | .retract i =>
    if s.objects[i]? = some ⟨.published,false⟩ then
      some { s.put i ⟨.retracted,false⟩ with
        gHalideExecutor :=
          if s.gHalideExecutor = some i then none else s.gHalideExecutor }
    else none
  -- the executor's destructor waits for what was submitted to it
  | .destroy i =>
    if s.objects[i]? = some ⟨.retracted,false⟩ ∧
        ∀ call ∈ s.calls, call.executor = some i → call.phase ≠ .submitted then
      some (s.put i ⟨.destroyed,false⟩)
    else none

def run (events : List Event) : Option State := Library.Trace.run step {} events

end Cpipe.Runtime.HalideExecutor
