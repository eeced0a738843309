import Cpipe.Library.Trace
import Cpipe.Nodes.WbMetadata
import Mathlib.Tactic.Linarith
import Mathlib.Tactic.NormNum
import Mathlib.Tactic.Positivity
import Mathlib.Tactic.Ring

namespace Cpipe.Nodes.WbMetadata
open Library.Trace (run run_append run_history)

variable {K : Type} [Field K] [LinearOrder K]

/-! ### Changes of the state -/

namespace BrentSearchState

/-- A step to try is the parabola's or the golden section's, and only the steps of the state
are changed for it. -/
theorem nextBrentStep_cases (state : BrentSearchState K) (midpoint tolerance : K) :
    ((state.parabolicStep midpoint tolerance).1 =
        some (state.nextBrentStep midpoint tolerance).1 ∨
      (state.nextBrentStep midpoint tolerance).1 =
        kBrentGoldenStep*state.intervalStep midpoint) ∧
    ∃ previousStep, (state.nextBrentStep midpoint tolerance).2 = { state with previousStep } := by
  have hframe : ∃ previousStep, (state.parabolicStep midpoint tolerance).2 =
      { state with previousStep } := by
    simp only [parabolicStep]
    split
    · exact ⟨state.previousStep,rfl⟩
    split
    · exact ⟨state.step,rfl⟩
    split
    · exact ⟨state.step,rfl⟩
    · exact ⟨state.step,rfl⟩
  unfold nextBrentStep
  split
  · obtain ⟨previousStep,hframe⟩ := hframe
    split
    · rename_i hparabolic
      rw [hparabolic] at hframe
      exact ⟨.inl (congrArg Prod.fst hparabolic),previousStep,hframe⟩
    · rename_i hparabolic
      rw [hparabolic] at hframe
      simp only at hframe
      rw [hframe]
      exact ⟨.inr rfl,_,rfl⟩
  · exact ⟨.inr rfl,_,rfl⟩

theorem nextTrial_frame (state : BrentSearchState K) :
    ∃ step previousStep, state.nextTrial.2 = { state with step, previousStep } := by
  obtain ⟨previousStep,hframe⟩ := (nextBrentStep_cases state state.midpoint state.tolerance).2
  refine ⟨(state.nextBrentStep state.midpoint state.tolerance).1,previousStep,?_⟩
  simp only [nextTrial, hframe]

omit [Field K] in
/-- Besides the bracket only the two points behind the best one are changed. -/
theorem rejectTrial_frame (state : BrentSearchState K) (trial trialError : K) :
    ∃ previous previousError previous2 previous2Error, state.rejectTrial trial trialError =
      { state.cut trial with previous, previousError, previous2, previous2Error } := by
  unfold rejectTrial
  simp only
  split
  · exact ⟨_,_,_,_,rfl⟩
  split
  · exact ⟨_,_,_,_,rfl⟩
  · exact ⟨_,_,_,_,rfl⟩

end BrentSearchState

/-- The bracket is in the range of the search with the best point strictly inside, and the
best point has the least error of all points seen. -/
structure Bracketed (cctError : K → K) (seen : List K) (state : BrentSearchState K) : Prop where
  lower_ge : kSearchMinCct ≤ state.lower
  lower_lt : state.lower < state.best
  lt_upper : state.best < state.upper
  upper_le : state.upper ≤ kSearchMaxCct
  error : state.bestError = cctError state.best
  best_seen : state.best ∈ seen
  least : ∀ p ∈ seen, state.bestError ≤ cctError p

section Bracket

variable {cctError : K → K} {seen : List K} {state : BrentSearchState K} {trial : K}

/-- A better point becomes the best one, and the old best one an end of the bracket. -/
theorem acceptTrial_bracketed (h : Bracketed cctError seen state) (hlow : state.lower < trial)
    (hhigh : trial < state.upper) (hne : trial ≠ state.best)
    (herror : cctError trial ≤ state.bestError) :
    Bracketed cctError (seen ++ [trial]) (state.acceptTrial trial (cctError trial)) := by
  have hleast : ∀ p ∈ seen ++ [trial], cctError trial ≤ cctError p := by
    intro p hp
    rcases List.mem_append.mp hp with hseen | hnew
    · exact herror.trans (h.least p hseen)
    · rw [List.mem_singleton.mp hnew]
  have hseen : trial ∈ seen ++ [trial] := List.mem_append_right seen List.mem_cons_self
  unfold BrentSearchState.acceptTrial
  split
  · rename_i hside
    exact ⟨h.lower_ge,hlow,hside,h.lt_upper.le.trans h.upper_le,rfl,hseen,hleast⟩
  · rename_i hside
    have hside' := lt_of_le_of_ne (not_lt.mp hside) hne.symm
    exact ⟨h.lower_ge.trans h.lower_lt.le,hside',hhigh,h.upper_le,rfl,hseen,hleast⟩

/-- A worse point becomes an end of the bracket. -/
theorem rejectTrial_bracketed (h : Bracketed cctError seen state) (hlow : state.lower < trial)
    (hhigh : trial < state.upper) (hne : trial ≠ state.best)
    (herror : state.bestError < cctError trial) :
    Bracketed cctError (seen ++ [trial]) (state.rejectTrial trial (cctError trial)) := by
  have hleast : ∀ p ∈ seen ++ [trial], state.bestError ≤ cctError p := by
    intro p hp
    rcases List.mem_append.mp hp with hseen | hnew
    · exact h.least p hseen
    · rw [List.mem_singleton.mp hnew]
      exact herror.le
  have hseen : state.best ∈ seen ++ [trial] := List.mem_append_left _ h.best_seen
  have hcut : Bracketed cctError (seen ++ [trial]) (state.cut trial) := by
    unfold BrentSearchState.cut
    split
    · rename_i hside
      exact ⟨h.lower_ge.trans hlow.le,hside,h.lt_upper,h.upper_le,h.error,hseen,hleast⟩
    · rename_i hside
      have hside' := lt_of_le_of_ne (not_lt.mp hside) hne.symm
      exact ⟨h.lower_ge,h.lower_lt,hside',hhigh.le.trans h.upper_le,h.error,hseen,hleast⟩
  obtain ⟨previous,previousError,previous2,previous2Error,hframe⟩ :=
    BrentSearchState.rejectTrial_frame state trial (cctError trial)
  rw [hframe]
  exact ⟨hcut.lower_ge,hcut.lower_lt,hcut.lt_upper,hcut.upper_le,hcut.error,hcut.best_seen,
    hcut.least⟩

theorem evaluate_bracketed (h : Bracketed cctError seen state) (hlow : state.lower < trial)
    (hhigh : trial < state.upper) (hne : trial ≠ state.best) :
    Bracketed cctError (seen ++ [trial]) (evaluate cctError state trial) := by
  unfold evaluate
  simp only
  split
  · rename_i herror
    exact acceptTrial_bracketed h hlow hhigh hne herror
  · rename_i herror
    exact rejectTrial_bracketed h hlow hhigh hne (not_le.mp herror)

end Bracket

/-! ### Runs -/

/-- An iteration as a step with the point it evaluates. -/
def probe (cctError : K → K) (state : BrentSearchState K) (trial : K) :
    Option (BrentSearchState K) :=
  (iteration cctError state).bind (fun r => if r.1 = trial then some r.2 else none)

theorem probe_eq_some {cctError : K → K} {state next : BrentSearchState K} {trial : K} :
    probe cctError state trial = some next ↔ iteration cctError state = some (trial,next) := by
  rw [probe, Option.bind_eq_some_iff]
  constructor
  · rintro ⟨⟨t,s⟩,hiteration,hsame⟩
    split at hsame
    · rename_i ht
      obtain rfl := Option.some.inj hsame
      rw [hiteration, ← ht]
    · cases hsame
  · intro h
    exact ⟨_,h,if_pos rfl⟩

/-- The loop is a run of at most so many iterations as it has rounds. -/
theorem loop_run (cctError : K → K) : ∀ (n : Nat) (state : BrentSearchState K) (seen : List K),
    ∃ trials : List K, trials.length ≤ n ∧
      run (probe cctError) state trials = some (loop cctError n state seen).1 ∧
      (loop cctError n state seen).2 = seen ++ trials := by
  intro n
  induction n with
  | zero =>
    intro state seen
    exact ⟨[],le_rfl,rfl,(List.append_nil seen).symm⟩
  | succ n ih =>
    intro state seen
    rw [loop]
    cases hiteration : iteration cctError state with
    | none => exact ⟨[],Nat.zero_le _,rfl,(List.append_nil seen).symm⟩
    | some result =>
      obtain ⟨trial,next⟩ := result
      obtain ⟨trials,hlength,hrun,hseen⟩ := ih next (seen ++ [trial])
      refine ⟨trial :: trials,Nat.succ_le_succ hlength,?_,?_⟩
      · rw [run, probe_eq_some.mpr hiteration]
        exact hrun
      · rw [hseen, List.append_assoc]
        rfl

variable [IsStrictOrderedRing K]

namespace BrentSearchState

/-! ### The trial -/

section Trial

variable {state : BrentSearchState K} {step : K}

theorem tolerance_pos (state : BrentSearchState K) : 0 < state.tolerance := by
  have hconstant : (0 : K) < kBrentTolerance := by
    unfold kBrentTolerance
    positivity
  have hproduct := mul_nonneg hconstant.le (abs_nonneg state.best)
  unfold tolerance
  linarith

theorem two_midpoint (state : BrentSearchState K) :
    2*state.midpoint = state.lower + state.upper := by
  unfold midpoint
  ring

/-- Before the end the longer side of the bracket has more than two tolerances. -/
theorem long_side (h : state.done = false) :
    (state.best < state.midpoint → 2*state.tolerance < state.upper - state.best) ∧
      (state.midpoint ≤ state.best → 2*state.tolerance < state.best - state.lower) := by
  have hfar := not_le.mp (of_decide_eq_false h)
  have hsum := state.two_midpoint
  constructor
  · intro hside
    rw [abs_of_neg (sub_neg.mpr hside)] at hfar
    linarith
  · intro hside
    rw [abs_of_nonneg (sub_nonneg.mpr hside)] at hfar
    linarith

/-- A step to a point strictly inside the bracket. -/
def StaysInside (state : BrentSearchState K) (step : K) : Prop :=
  state.lower < state.best + step ∧ state.best + step < state.upper

theorem copysign_pos {t : K} (ht : 0 < t) : copysign t false = t := by
  rw [copysign, if_neg Bool.false_ne_true, abs_of_pos ht]

theorem copysign_neg {t : K} (ht : 0 < t) : copysign t true = -t := by
  rw [copysign, if_pos rfl, abs_of_pos ht]

/-- The least step stays inside where a tolerance has room on the side of the step. -/
theorem trialStep_inside (hbracket : state.lower < state.best ∧ state.best < state.upper)
    (hstep : state.StaysInside step) (hup : 0 < step → state.tolerance < state.upper - state.best)
    (hdown : step ≤ 0 → state.tolerance < state.best - state.lower) :
    state.StaysInside (trialStep state.tolerance step) := by
  have ht := state.tolerance_pos
  unfold trialStep
  split
  · exact hstep
  · rcases lt_or_ge 0 step with hpos | hneg
    · rw [decide_eq_false (not_le.mpr hpos), copysign_pos ht]
      have hroom := hup hpos
      exact ⟨by linarith [hbracket.1],by linarith⟩
    · rw [decide_eq_true hneg, copysign_neg ht]
      have hroom := hdown hneg
      exact ⟨by linarith,by linarith [hbracket.2]⟩

theorem golden_inside (hbracket : state.lower < state.best ∧ state.best < state.upper)
    (h : state.done = false) :
    state.StaysInside
      (trialStep state.tolerance (kBrentGoldenStep*state.intervalStep state.midpoint)) := by
  obtain ⟨hright,hleft⟩ := long_side h
  have ht := state.tolerance_pos
  have hg : (0 : K) < kBrentGoldenStep ∧ (kBrentGoldenStep : K) < 1 := by
    unfold kBrentGoldenStep
    constructor <;> norm_num
  have hscale {n : K} (hn : 0 < n) :
      0 < kBrentGoldenStep*n ∧ (kBrentGoldenStep : K)*n < n :=
    ⟨mul_pos hg.1 hn,mul_lt_of_lt_one_left hn hg.2⟩
  unfold intervalStep
  split
  · rename_i hside
    have hroom := hright hside
    have hgolden := hscale (sub_pos.mpr hbracket.2)
    refine trialStep_inside hbracket ⟨?_,?_⟩ (fun _ => by linarith) (fun hneg => ?_)
    · linarith [hbracket.1]
    · linarith
    · linarith
  · rename_i hside
    have hroom := hleft (not_lt.mp hside)
    have hgolden := hscale (sub_pos.mpr hbracket.1)
    have hflip : (kBrentGoldenStep : K)*(state.lower - state.best) =
        -(kBrentGoldenStep*(state.best - state.lower)) := by ring
    rw [hflip]
    refine trialStep_inside hbracket ⟨?_,?_⟩ (fun hpos => ?_) (fun _ => by linarith)
    · linarith
    · linarith [hbracket.2]
    · linarith

/-- The parabola's step stays in the bracket; near its ends, or where it is short, the least
step takes its place. -/
theorem parabolic_inside (hbracket : state.lower < state.best ∧ state.best < state.upper)
    (h : state.done = false)
    (hstep : (state.parabolicStep state.midpoint state.tolerance).1 = some step) :
    state.StaysInside (trialStep state.tolerance step) := by
  obtain ⟨hright,hleft⟩ := long_side h
  have ht := state.tolerance_pos
  simp only [parabolicStep] at hstep
  split at hstep
  · cases hstep
  rename_i hdenominator
  have hden : 0 < state.denominator := not_le.mp hdenominator
  split at hstep
  · cases hstep
  rename_i hinside
  simp only [not_or, not_le] at hinside
  obtain ⟨-,hlow,hhigh⟩ := hinside
  have hvertex : state.StaysInside (state.numerator/state.denominator) := by
    have hlow' := (lt_div_iff₀ hden).mpr (by linarith : (state.lower - state.best)*state.denominator <
      state.numerator)
    have hhigh' := (div_lt_iff₀ hden).mpr (by linarith : state.numerator <
      (state.upper - state.best)*state.denominator)
    exact ⟨by linarith,by linarith⟩
  split at hstep
  · obtain rfl := Option.some.inj hstep
    rcases lt_or_ge (state.midpoint - state.best) 0 with hside | hside
    · have hroom := hleft (by linarith)
      rw [decide_eq_true hside, copysign_neg ht]
      refine trialStep_inside hbracket ⟨?_,?_⟩ (fun hpos => ?_) (fun _ => by linarith)
      · linarith
      · linarith [hbracket.2]
      · linarith
    · have hroom : 2*state.tolerance < state.upper - state.best := by
        rcases hside.lt_or_eq with hlt | heq
        · exact hright (by linarith)
        · have hmid : state.upper - state.best = state.best - state.lower := by
            have hsum := state.two_midpoint
            linarith
          rw [hmid]
          exact hleft (by linarith)
      rw [decide_eq_false (not_lt.mpr hside), copysign_pos ht]
      refine trialStep_inside hbracket ⟨?_,?_⟩ (fun _ => by linarith) (fun hneg => ?_)
      · linarith [hbracket.1]
      · linarith
      · linarith
  · rename_i hfar
    simp only [not_or, not_lt] at hfar
    obtain rfl := Option.some.inj hstep
    exact trialStep_inside hbracket hvertex (fun hpos => by linarith [hfar.2])
      (fun hneg => by linarith [hfar.1])

theorem nextTrial_inside (hbracket : state.lower < state.best ∧ state.best < state.upper)
    (h : state.done = false) :
    state.lower < state.nextTrial.1 ∧ state.nextTrial.1 < state.upper := by
  rcases (nextBrentStep_cases state state.midpoint state.tolerance).1 with hstep | hstep
  · exact parabolic_inside hbracket h hstep
  · have hinside := golden_inside hbracket h
    rw [← hstep] at hinside
    exact hinside

/-- The trial is at least a tolerance away from the best point. -/
theorem nextTrial_ne (state : BrentSearchState K) : state.nextTrial.1 ≠ state.best := by
  have ht := state.tolerance_pos
  have hstep (step : K) : trialStep state.tolerance step ≠ 0 := by
    unfold trialStep
    split
    · rename_i hlong
      exact abs_pos.mp (ht.trans_le hlong)
    · cases decide (step ≤ 0) with
      | true =>
        rw [copysign_neg ht]
        exact neg_ne_zero.mpr ht.ne'
      | false =>
        rw [copysign_pos ht]
        exact ht.ne'
  simp only [nextTrial, ne_eq, add_eq_left]
  exact hstep _

end Trial

end BrentSearchState

/-! ### The iterations -/

section Iterations

variable {cctError : K → K} {seen : List K} {state next : BrentSearchState K} {trial : K}

variable (cctError) in
/-- A point inside the bracket takes a part of it away. -/
theorem evaluate_shrinks (hbracket : state.lower < state.best ∧ state.best < state.upper)
    (hlow : state.lower < trial) (hhigh : trial < state.upper) :
    (evaluate cctError state trial).upper - (evaluate cctError state trial).lower <
      state.upper - state.lower := by
  unfold evaluate
  simp only
  split
  · unfold BrentSearchState.acceptTrial
    split
    · exact sub_lt_sub_right hbracket.2 _
    · exact sub_lt_sub_left hbracket.1 _
  · obtain ⟨previous,previousError,previous2,previous2Error,hframe⟩ :=
      BrentSearchState.rejectTrial_frame state trial (cctError trial)
    rw [hframe]
    unfold BrentSearchState.cut
    split
    · exact sub_lt_sub_left hlow _
    · exact sub_lt_sub_right hhigh _

/-- An iteration evaluates the objective inside the bracket, keeps the invariant and shrinks
the bracket. -/
theorem iteration_spec (h : Bracketed cctError seen state)
    (hiteration : iteration cctError state = some (trial,next)) :
    (state.lower < trial ∧ trial < state.upper) ∧ Bracketed cctError (seen ++ [trial]) next ∧
      next.upper - next.lower < state.upper - state.lower := by
  have hbracket := And.intro h.lower_lt h.lt_upper
  unfold iteration at hiteration
  split at hiteration
  · cases hiteration
  rename_i hdone
  have hdone := Bool.eq_false_iff.mpr hdone
  obtain ⟨rfl,rfl⟩ := Prod.mk.inj (Option.some.inj hiteration)
  have hinside := BrentSearchState.nextTrial_inside hbracket hdone
  have hne := BrentSearchState.nextTrial_ne state
  obtain ⟨step,previousStep,hframe⟩ := state.nextTrial_frame
  have hsame : Bracketed cctError seen state.nextTrial.2 := by
    rw [hframe]
    exact ⟨h.lower_ge,h.lower_lt,h.lt_upper,h.upper_le,h.error,h.best_seen,h.least⟩
  have hstate : state.nextTrial.2.lower = state.lower ∧ state.nextTrial.2.upper = state.upper ∧
      state.nextTrial.2.best = state.best := by
    rw [hframe]
    exact ⟨rfl,rfl,rfl⟩
  obtain ⟨hl,hu,hb⟩ := hstate
  have hlow := lt_of_eq_of_lt hl hinside.1
  have hhigh := lt_of_lt_of_eq hinside.2 hu.symm
  have hshrinks := evaluate_shrinks cctError ⟨hsame.lower_lt,hsame.lt_upper⟩ hlow hhigh
  rw [hl, hu] at hshrinks
  exact ⟨hinside,evaluate_bracketed hsame hlow hhigh (fun heq => hne (heq.trans hb)),hshrinks⟩

theorem start_bracketed (cctError : K → K) :
    Bracketed cctError [(start cctError).best] (start cctError) := by
  have hbest : (start cctError).best = 1/2*(1500 + 10000) := rfl
  refine ⟨le_rfl,?_,?_,le_rfl,rfl,List.mem_cons_self,fun p hp => ?_⟩
  · rw [hbest]
    change (1500 : K) < _
    norm_num
  · rw [hbest]
    change _ < (10000 : K)
    norm_num
  · rw [List.mem_singleton.mp hp]
    exact le_rfl

end Iterations

/-! ### The search -/

theorem run_bracketed {cctError : K → K} {trials : List K} {state : BrentSearchState K}
    (h : run (probe cctError) (start cctError) trials = some state) :
    Bracketed cctError ((start cctError).best :: trials) state := by
  refine run_history (I := fun past => Bracketed cctError ((start cctError).best :: past)) ?_
    (start_bracketed cctError) h
  intro past s trial next hs hprobe
  exact (iteration_spec hs (probe_eq_some.mp hprobe)).2.1

/-- In every run the bracket invariant holds and the next iteration evaluates the objective
inside the bracket and shrinks it. The temperature returned is in the range of the search and
the best of the points seen. -/
theorem brent_search (cctError : K → K) :
    (∀ (trials : List K) (state : BrentSearchState K),
      run (probe cctError) (start cctError) trials = some state →
      Bracketed cctError ((start cctError).best :: trials) state ∧
        ∀ trial next, iteration cctError state = some (trial,next) →
          (state.lower < trial ∧ trial < state.upper) ∧
            next.upper - next.lower < state.upper - state.lower) ∧
    (∃ trials : List K, trials.length ≤ 80 ∧
      run (probe cctError) (start cctError) trials = some (search cctError).1 ∧
      (search cctError).2 = (start cctError).best :: trials) ∧
    (kSearchMinCct ≤ estimateSceneCct cctError ∧ estimateSceneCct cctError ≤ kSearchMaxCct) ∧
    estimateSceneCct cctError ∈ (search cctError).2 ∧
    ∀ p ∈ (search cctError).2, cctError (estimateSceneCct cctError) ≤ cctError p := by
  obtain ⟨trials,hlength,hrun,hseen⟩ := loop_run cctError 80 (start cctError)
    [(start cctError).best]
  have hlast := run_bracketed hrun
  refine ⟨fun ts state hstate => ?_,⟨trials,hlength,hrun,hseen⟩,
    ⟨hlast.lower_ge.trans hlast.lower_lt.le,hlast.lt_upper.le.trans hlast.upper_le⟩,?_,?_⟩
  · have hbracketed := run_bracketed hstate
    refine ⟨hbracketed,fun trial next hiteration => ?_⟩
    obtain ⟨hinside,-,hshrinks⟩ := iteration_spec hbracketed hiteration
    exact ⟨hinside,hshrinks⟩
  · have hbest := hlast.best_seen
    rw [← List.singleton_append, ← hseen] at hbest
    exact hbest
  · intro p hp
    have hp' : p ∈ (start cctError).best :: trials := by
      rw [← List.singleton_append, ← hseen]
      exact hp
    have hleast := hlast.least p hp'
    rw [hlast.error] at hleast
    exact hleast

/-- A scene at 6500 kelvin. -/
theorem daylight_search :
    estimateSceneCct (fun t : ℚ => (t - 6500)^2) ∈ (search (fun t : ℚ => (t - 6500)^2)).2 :=
  (brent_search (fun t : ℚ => (t - 6500)^2)).2.2.2.1

end Cpipe.Nodes.WbMetadata
