import Cpipe.Library.Trace

namespace Cpipe.Server.StartStop

/-! ### The threads -/

inductive Mutex where
  | start
  | paramDebounce
  | session
deriving DecidableEq, Repr

/-- The thread in `start`, one that calls `stop`, and the io thread. -/
inductive Thread where
  | starter
  | stopper
  | io
deriving DecidableEq, Repr

/-- How far a call of `stop` is. `stops` is inside the block of `stop_param_debounce`. -/
inductive Stop where
  | wantsDebounce
  | stops
  | joinsDebounce
  | defersClose
  | joinsIo
  | leaves
deriving DecidableEq, Repr

/-- How far `start` is. `expired` and `refused` are its two exits into `stop`. -/
inductive Start where
  | idle
  | wantsReset
  | resets
  | spawns
  | wantsWait
  | waits
  | reported
  | expired (stop : Stop)
  | refused (stop : Stop)
  | wantsDebounce
  | resetsFlag
  | leaves
deriving DecidableEq, Repr

/-- How far the io thread is. `callback` and `handler` are in front of their blocks under
`start_mutex_`, `reports` and `fails` inside; a request may want a mutex and have a block
under it. -/
inductive Io where
  | absent
  | setup
  | callback
  | reports
  | serving
  | wants (mutex : Mutex)
  | block (mutex : Mutex)
  | handler
  | fails
  | ending
  | finished
deriving DecidableEq, Repr

/-! ### Locks

Every lock is a guard with a scope, so the place of a thread says what it holds. -/

def Stop.holds : Stop → Mutex → Bool
  | .stops, .paramDebounce => true
  | _, _ => false

/-- `start` keeps its `unique_lock` to the end, and gives it back before the `stop` of a
refused start only. -/
def Start.holds : Start → Mutex → Bool
  | .resets, .start => true
  | .reported, .start => true
  | .expired _, .start => true
  | .expired stop, m => stop.holds m
  | .refused stop, m => stop.holds m
  | .wantsDebounce, .start => true
  | .resetsFlag, .start => true
  | .resetsFlag, .paramDebounce => true
  | .leaves, .start => true
  | _, _ => false

def Io.holds : Io → Mutex → Bool
  | .reports, .start => true
  | .fails, .start => true
  | .block held, m => held = m
  | _, _ => false

/-- The mutex the io thread is about to take. -/
def Io.wanted : Io → Option Mutex
  | .callback => some .start
  | .handler => some .start
  | .wants m => some m
  | _ => none

structure State where
  starter : Start := .idle
  stopper : Option Stop := none
  io : Io := .absent
  startComplete : Bool := false
  startSuccess : Bool := false
  running : Bool := false
deriving DecidableEq, Repr

def State.holds (s : State) : Thread → Mutex → Bool
  | .starter, m => s.starter.holds m
  | .stopper, m => s.stopper.any (fun stop => stop.holds m)
  | .io, m => s.io.holds m

def State.free (s : State) (m : Mutex) : Bool :=
  !s.holds .starter m && !s.holds .stopper m && !s.holds .io m

/-! ### Steps -/

/-- What a thread does up to its next wait or the end of a block. `starter`, `stopper` and
`io` go on where there is one way to go. -/
inductive Event where
  | callStart
  | callStop
  | starter
  | wake
  | timeout
  | stopper
  | io
  | listen
  | bound (token : Bool)
  | throws
  | request (mutex : Mutex)
  | close
deriving DecidableEq, Repr

/-- One step of `stop`. The join of the io thread returns when there is no thread to join or
it has ended. -/
def stopStep (s : State) : Stop → Option (Stop × State)
  | .wantsDebounce => if s.free .paramDebounce then some (.stops,s) else none
  | .stops => some (.joinsDebounce,s)
  | .joinsDebounce => some (.defersClose,s)
  | .defersClose => some (.joinsIo,s)
  | .joinsIo =>
    if s.io = .absent ∨ s.io = .finished then
      some (.leaves,{ s with io := .absent, running := false })
    else none
  | .leaves => none

/-- The predicate of `wait_for`, asked under the lock. -/
def checkComplete (s : State) : State :=
  { s with starter := if s.startComplete then .reported else .waits }

def starterStep (s : State) : Option State :=
  match s.starter with
  | .idle => none
  | .wantsReset => if s.free .start then some { s with starter := .resets } else none
  | .resets =>
    some { s with starter := .spawns, startComplete := false, startSuccess := false }
  | .spawns =>
    if s.io = .absent then some { s with starter := .wantsWait, io := .setup } else none
  | .wantsWait => if s.free .start then some (checkComplete s) else none
  | .waits => none
  | .reported =>
    some { s with starter := if s.startSuccess then .wantsDebounce else .refused .wantsDebounce }
  | .expired .leaves => some { s with starter := .idle }
  | .expired stop => (stopStep s stop).map (fun p => { p.2 with starter := .expired p.1 })
  | .refused .leaves => some { s with starter := .idle }
  | .refused stop => (stopStep s stop).map (fun p => { p.2 with starter := .refused p.1 })
  | .wantsDebounce =>
    if s.free .paramDebounce then some { s with starter := .resetsFlag } else none
  | .resetsFlag => some { s with starter := .leaves }
  | .leaves => some { s with starter := .idle }

def ioStep (s : State) : Option State :=
  match s.io with
  | .callback => if s.free .start then some { s with io := .reports } else none
  | .wants m => if s.free m then some { s with io := .block m } else none
  | .block _ => some { s with io := .serving }
  | .handler => if s.free .start then some { s with io := .fails } else none
  | .fails => some { s with io := .ending, startComplete := true, startSuccess := false }
  | .ending => some { s with io := .finished, running := false }
  | _ => none

def step (s : State) : Event → Option State
  -- a second start is refused while the server runs
  | .callStart =>
    if s.starter = .idle ∧ s.running = false then some { s with starter := .wantsReset } else none
  | .callStop =>
    if s.stopper = none then some { s with stopper := some .wantsDebounce } else none
  | .starter => starterStep s
  -- a thread in `wait_for` has given the lock back and takes it again
  | .wake =>
    if s.starter = .waits ∧ s.free .start = true then some (checkComplete s) else none
  | .timeout =>
    if s.starter = .waits ∧ s.free .start = true then
      some { s with
        starter := if s.startComplete then .reported else .expired .wantsDebounce }
    else none
  | .stopper =>
    match s.stopper with
    | none => none
    | some .leaves => some { s with stopper := none }
    | some stop => (stopStep s stop).map (fun p => { p.2 with stopper := some p.1 })
  | .io => ioStep s
  | .listen => if s.io = .setup then some { s with io := .callback } else none
  | .bound token =>
    if s.io = .reports then
      some { s with
        io := .serving, startComplete := true, startSuccess := token, running := token }
    else none
  | .throws =>
    if s.io = .setup ∨ s.io = .serving then some { s with io := .handler } else none
  | .request m =>
    if s.io = .serving ∧ m ≠ .start then some { s with io := .wants m } else none
  -- `app.run()` returns
  | .close => if s.io = .serving then some { s with io := .ending } else none

/-- Runs of any calls of `start` and `stop`. -/
def run (events : List Event) : Option State := Library.Trace.run step {} events

end Cpipe.Server.StartStop
