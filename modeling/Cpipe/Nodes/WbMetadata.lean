import Mathlib.Algebra.Order.Field.Basic

/-! The search for the colour temperature of a scene. The node for two illuminants has the
same code once more. -/

namespace Cpipe.Nodes.WbMetadata

variable {K : Type} [Field K] [LinearOrder K]

local instance atLeastTwo : Nat.AtLeastTwo 2 := ⟨Nat.le_refl 2⟩

def kSearchMinCct : K := 1500

def kSearchMaxCct : K := 10000

def kBrentGoldenStep : K := 3819660112501051/10000000000000000

def kBrentTolerance : K := 1/100000

structure BrentSearchState (K : Type) where
  lower : K
  upper : K
  best : K
  previous : K
  previous2 : K
  bestError : K
  previousError : K
  previous2Error : K
  step : K
  previousStep : K

/-- `std::copysign`, with the sign bit of its second argument. -/
def copysign (magnitude : K) (negative : Bool) : K :=
  if negative then -|magnitude| else |magnitude|

namespace BrentSearchState

def intervalStep (state : BrentSearchState K) (midpoint : K) : K :=
  if state.best < midpoint then state.upper - state.best else state.lower - state.best

/-- The numerator of the parabola's step after its change of sign. -/
def numerator (state : BrentSearchState K) : K :=
  let a := (state.best - state.previous)*(state.bestError - state.previous2Error)
  let b := (state.best - state.previous2)*(state.bestError - state.previousError)
  let numerator := ((state.best - state.previous2)*b) - ((state.best - state.previous)*a)
  Neg.neg numerator

def denominator (state : BrentSearchState K) : K :=
  let a := (state.best - state.previous)*(state.bestError - state.previous2Error)
  let b := (state.best - state.previous2)*(state.bestError - state.previousError)
  2*(b - a)

/-- The step to the vertex of a parabola, if it is a good one, and the changed state. -/
def parabolicStep (state : BrentSearchState K) (midpoint tolerance : K) :
    Option K × BrentSearchState K :=
  let numerator := state.numerator
  let denominator := state.denominator
  if denominator ≤ 0 then
    (none,state)
  else
    let oldStep := state.previousStep
    let state := { state with previousStep := state.step }
    if |1/2*denominator*oldStep| ≤ |numerator| ∨
        numerator ≤ denominator*(state.lower - state.best) ∨
        denominator*(state.upper - state.best) ≤ numerator then
      (none,state)
    else
      let trialStep := numerator/denominator
      let trial := state.best + trialStep
      if trial - state.lower < 2*tolerance ∨ state.upper - trial < 2*tolerance then
        (some (copysign tolerance (midpoint - state.best < 0)),state)
      else
        (some trialStep,state)

def goldenStep (state : BrentSearchState K) (midpoint : K) : K × BrentSearchState K :=
  let state := { state with previousStep := state.intervalStep midpoint }
  (kBrentGoldenStep*state.previousStep,state)

def nextBrentStep (state : BrentSearchState K) (midpoint tolerance : K) :
    K × BrentSearchState K :=
  if tolerance < |state.previousStep| then
    match state.parabolicStep midpoint tolerance with
    | (some trialStep,state) => (trialStep,state)
    | (none,state) => state.goldenStep midpoint
  else
    state.goldenStep midpoint

def acceptTrial (state : BrentSearchState K) (trial trialError : K) : BrentSearchState K :=
  let state :=
    if trial < state.best then { state with upper := state.best }
    else { state with lower := state.best }
  { state with previous2 := state.previous, previous2Error := state.previousError
               previous := state.best, previousError := state.bestError
               best := trial, bestError := trialError }

/-- The bracket up to a point that was rejected. -/
def cut (state : BrentSearchState K) (trial : K) : BrentSearchState K :=
  if trial < state.best then { state with lower := trial } else { state with upper := trial }

def rejectTrial (state : BrentSearchState K) (trial trialError : K) : BrentSearchState K :=
  let state := state.cut trial
  if trialError ≤ state.previousError ∨ state.previous = state.best then
    { state with previous2 := state.previous, previous2Error := state.previousError
                 previous := trial, previousError := trialError }
  else if trialError ≤ state.previous2Error ∨ state.previous2 = state.best ∨
      state.previous2 = state.previous then
    { state with previous2 := trial, previous2Error := trialError }
  else
    state

def midpoint (state : BrentSearchState K) : K := 1/2*(state.lower + state.upper)

def tolerance (state : BrentSearchState K) : K := (kBrentTolerance*|state.best|) + kBrentTolerance

/-- The test that ends the loop. -/
def done (state : BrentSearchState K) : Bool :=
  |state.best - state.midpoint| ≤ (2*state.tolerance) - (1/2*(state.upper - state.lower))

/-- A step of at least the tolerance. A step of zero comes from a numerator of zero, which
the change of sign makes negative. -/
def trialStep (tolerance step : K) : K :=
  if tolerance ≤ |step| then step else copysign tolerance (step ≤ 0)

/-- The next point to try and the state before it is tried. -/
def nextTrial (state : BrentSearchState K) : K × BrentSearchState K :=
  let (step,state') := state.nextBrentStep state.midpoint state.tolerance
  (state.best + trialStep state.tolerance step,{ state' with step })

end BrentSearchState

open BrentSearchState

section Search

-- The objective: `cct_error` of a neutral and two matrices.
variable (cctError : K → K)

def start : BrentSearchState K :=
  let best := 1/2*(kSearchMinCct + kSearchMaxCct)
  { lower := kSearchMinCct, upper := kSearchMaxCct, best, previous := best, previous2 := best
    bestError := cctError best, previousError := cctError best, previous2Error := cctError best
    step := 0, previousStep := 0 }

/-- What an iteration does with a point. -/
def evaluate (state : BrentSearchState K) (trial : K) : BrentSearchState K :=
  let trialError := cctError trial
  if trialError ≤ state.bestError then state.acceptTrial trial trialError
  else state.rejectTrial trial trialError

/-- An iteration: the point it evaluates and the next state, or nothing at the end. -/
def iteration (state : BrentSearchState K) : Option (K × BrentSearchState K) :=
  if state.done then none
  else
    let (trial,state) := state.nextTrial
    some (trial,evaluate cctError state trial)

/-- The loop, with the points at which the objective was evaluated. -/
def loop : Nat → BrentSearchState K → List K → BrentSearchState K × List K
  | 0, state, seen => (state,seen)
  | n + 1, state, seen =>
    match iteration cctError state with
    | none => (state,seen)
    | some (trial,state) => loop n state (seen ++ [trial])

def search : BrentSearchState K × List K :=
  let state := start cctError
  loop cctError 80 state [state.best]

def estimateSceneCct : K := (search cctError).1.best

end Search

end Cpipe.Nodes.WbMetadata
