import Cpipe.Library.Trace

namespace Cpipe.Server.DebounceTimer

/-- Where the thread of `param_debounce_loop` is when it does not hold the lock: in front of
a `lock`, in its wait for an update, or in its wait for the deadline it has read. -/
inductive Loop where
  | unlocked
  | waiting
  | timed (deadline : Nat)
deriving DecidableEq, Repr

/-- An update, or a decision to run: `param_debounce_pending_` is cleared. -/
inductive Mark where
  | updated (time : Nat)
  | decided (time : Nat)
deriving DecidableEq, Repr

/-- What `schedule_param_rerun` and `param_debounce_loop` share. Times are in nanoseconds.
`owed` counts the calls between the end of their block and `notify_one`, `notified` says that
the loop was taken out of its wait, and `log` has the marks in the order of their blocks. -/
structure State where
  clock : Nat := 0
  pending : Bool := false
  deadline : Nat := 0
  loop : Loop := .unlocked
  owed : Nat := 0
  notified : Bool := false
  log : List Mark := []
deriving DecidableEq, Repr

/-- A wake-up may be spurious and may come at any time. -/
inductive Event where
  | elapse (span : Nat)
  | scheduleParamRerun
  | notifyOne
  | wake
  | timeout
  | relock
deriving DecidableEq, Repr

/-- `std::chrono::milliseconds{200}`. -/
def delay : Nat := 200000000

/-- From the condition of the inner loop, under the lock, to the next wait. -/
def enterInner (s : State) : State :=
  { s with
    loop := if s.pending then .timed s.deadline else .waiting
    notified := false }

def step (s : State) : Event → Option State
  | .elapse span => some { s with clock := s.clock+span }
  | .scheduleParamRerun =>
    some { s with
      pending := true
      deadline := s.clock+delay
      owed := s.owed+1
      log := s.log ++ [.updated s.clock] }
  -- nobody is woken when the loop is not in a wait
  | .notifyOne =>
    if 0 < s.owed then
      some { s with owed := s.owed-1, notified := s.notified || s.loop ≠ .unlocked }
    else none
  | .wake =>
    match s.loop with
    | .unlocked => none
    | .waiting => some (enterInner s)
    | .timed deadline =>
      if s.deadline ≠ deadline then some (enterInner s) else some { s with notified := false }
  -- the predicate is asked once more when the time is up
  | .timeout =>
    match s.loop with
    | .timed deadline =>
      if deadline ≤ s.clock then
        if s.deadline ≠ deadline then some (enterInner s)
        else some { s with
          pending := false
          loop := .unlocked
          notified := false
          log := s.log ++ [.decided s.clock] }
      else none
    | _ => none
  | .relock =>
    if s.loop = .unlocked then some (enterInner s) else none

/-- Runs from the start of the thread on, without a stop. -/
def run (events : List Event) : Option State := Library.Trace.run step {} events

end Cpipe.Server.DebounceTimer
