import Cpipe.Library.Trace

namespace Cpipe.Server.ParamDebounce

/-! ### The three threads -/

/-- How far `start` is on the caller's thread, behind the spawn of the io thread. From
`flagReset` to its end it holds `start_mutex_`; `refused` has read that the io thread failed. -/
inductive Start where
  | waiting
  | flagReset
  | done
  | refused
deriving DecidableEq, Repr

/-- The io thread: routes and the loop are set up, then handlers and callbacks run one at a
time. `applied` is inside the handler of a parameter update. An exception ends the loop
(`thrown`), is reported under `start_mutex_` (`caught`), and the thread takes the loop away
(`ended`). -/
inductive Io where
  | setup
  | loopStored
  | serving
  | applied
  | thrown
  | caught
  | ended
deriving DecidableEq, Repr

/-- `paramDebounceLoop` where it does not hold the lock: in front of its outer wait,
in its timed wait with the deadline it waits for, or behind a decision. -/
inductive Loop where
  | absent
  | outer
  | timed (deadline : Nat)
  | decided
  | deferred
deriving DecidableEq, Repr

/-- The shared state. Times are in milliseconds; `callbacks` counts what the event
loop was given and has not run. -/
structure State where
  start : Start := .waiting
  io : Io := .setup
  debounce : Loop := .absent
  loop : Bool := false
  pending : Bool := false
  deadline : Nat := 0
  now : Nat := 0
  callbacks : Nat := 0
deriving DecidableEq, Repr

/-- What the threads do, each in one step: a block under the lock, an atomic access
or a call into the event loop. -/
inductive Event where
  | storeLoop
  | listen
  | resetFlag
  | spawnDebounce
  | applyParamDelta
  | refuseParamDelta
  | scheduleParamRerun
  | runRequest
  | emitCompletedRun
  | handlerThrows
  | catchException
  | clearLoop
  | wake
  | rescheduled
  | decide
  | defer
  | dropDefer
  | relock
  | tick
deriving DecidableEq, Repr

/-! ### Steps -/

/-- The inner loop of `paramDebounceLoop` from its condition to the next wait. -/
def enterInner (s : State) : State :=
  { s with debounce := if s.pending then .timed s.deadline else .outer }

def step (s : State) : Event → Option State
  | .storeLoop =>
    if s.io = .setup then some { s with io := .loopStored, loop := true } else none
  | .listen =>
    if s.io = .loopStored then some { s with io := .serving } else none
  -- `start` goes on when the listener has reported that it is bound and no failure is reported
  | .resetFlag =>
    if s.start = .waiting ∧ (s.io = .serving ∨ s.io = .applied ∨ s.io = .thrown) then
      some { s with start := .flagReset, pending := false }
    else none
  | .spawnDebounce =>
    if s.start = .flagReset then some { s with start := .done, debounce := .outer } else none
  | .applyParamDelta =>
    if s.io = .serving then some { s with io := .applied } else none
  | .refuseParamDelta =>
    if s.io = .serving then some s else none
  | .scheduleParamRerun =>
    if s.io = .applied then
      some { s with io := .serving, pending := true, deadline := s.now+200 }
    else none
  -- a run record is created by a request or by a callback
  | .runRequest =>
    if s.io = .serving then some s else none
  | .emitCompletedRun =>
    if s.io = .serving ∧ 0 < s.callbacks then
      some { s with callbacks := s.callbacks-1 }
    else none
  -- what a handler or a callback throws leaves `app.run()`; queued callbacks stay behind
  | .handlerThrows =>
    if s.io = .serving then some { s with io := .thrown } else none
  | .catchException =>
    if s.io = .thrown ∧ s.start ≠ .flagReset then
      some { s with
        io := .caught
        start := if s.start = .waiting then .refused else s.start }
    else none
  | .clearLoop =>
    if s.io = .caught then some { s with io := .ended, loop := false } else none
  | .wake =>
    if s.debounce = .outer ∧ s.pending = true then some (enterInner s) else none
  -- the timed wait ends with its predicate: the deadline was moved
  | .rescheduled =>
    match s.debounce with
    | .timed deadline => if s.deadline ≠ deadline then some (enterInner s) else none
    | _ => none
  -- or by its deadline
  | .decide =>
    match s.debounce with
    | .timed deadline =>
      if s.deadline = deadline ∧ deadline ≤ s.now then
        some { s with pending := false, debounce := .decided }
      else none
    | _ => none
  | .defer =>
    if s.debounce = .decided ∧ s.loop = true then
      some { s with debounce := .deferred, callbacks := s.callbacks+1 }
    else none
  | .dropDefer =>
    if s.debounce = .decided ∧ s.loop = false then
      some { s with debounce := .deferred }
    else none
  | .relock =>
    if s.debounce = .deferred then some (enterInner s) else none
  | .tick => some { s with now := s.now+1 }

/-- Runs of the three threads from the spawn of the io thread on. -/
def run (events : List Event) : Option State := Library.Trace.run step {} events

end Cpipe.Server.ParamDebounce
