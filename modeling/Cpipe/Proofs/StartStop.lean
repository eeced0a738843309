import Cpipe.Server.StartStop

namespace Cpipe.Proofs.StartStop
open Cpipe.Server.StartStop Library

variable {s t : State} {e : Event}

/-! ### Locks -/

/-- One thread moves, and takes a mutex only when it is free. -/
structure Moves (s t : State) (who : Thread) : Prop where
  others : ∀ other, other ≠ who → ∀ m, t.holds other m = s.holds other m
  takes : ∀ m, t.holds who m = true → s.holds who m = true ∨ s.free m = true

theorem moves_starter {place : Start} (ht : t.starter = place) (hstop : t.stopper = s.stopper)
    (hio : ∀ m, t.io.holds m = s.io.holds m)
    (htakes : ∀ m, place.holds m = true → s.starter.holds m = true ∨ s.free m = true) :
    Moves s t .starter := by
  refine ⟨fun other hne m => ?_,fun m hm => htakes m (by simpa [State.holds, ht] using hm)⟩
  cases other with
  | starter => exact absurd rfl hne
  | stopper => simp [State.holds, hstop]
  | io => exact hio m

theorem moves_stopper (ht : t.starter = s.starter) (hio : ∀ m, t.io.holds m = s.io.holds m)
    (htakes : ∀ m, t.holds .stopper m = true → s.holds .stopper m = true ∨ s.free m = true) :
    Moves s t .stopper := by
  refine ⟨fun other hne m => ?_,htakes⟩
  cases other with
  | starter => simp [State.holds, ht]
  | stopper => exact absurd rfl hne
  | io => exact hio m

theorem moves_io {place : Io} (hplace : t.io = place) (ht : t.starter = s.starter)
    (hstop : t.stopper = s.stopper)
    (htakes : ∀ m, place.holds m = true → s.io.holds m = true ∨ s.free m = true) :
    Moves s t .io := by
  refine ⟨fun other hne m => ?_,fun m hm => htakes m (by simpa [State.holds, hplace] using hm)⟩
  cases other with
  | starter => simp [State.holds, ht]
  | stopper => simp [State.holds, hstop]
  | io => exact absurd rfl hne

theorem stopStep_moves {stop next : Stop} (h : stopStep s stop = some (next,t)) :
    t.starter = s.starter ∧ t.stopper = s.stopper ∧ (∀ m, t.io.holds m = s.io.holds m) ∧
      ∀ m, next.holds m = true → stop.holds m = true ∨ s.free m = true := by
  cases stop with
  | wantsDebounce =>
    simp only [stopStep] at h
    split at h
    · rename_i hfree
      cases h
      refine ⟨rfl,rfl,fun _ => rfl,fun m hm => ?_⟩
      cases m <;> first | exact .inr hfree | cases hm
    · cases h
  | stops | joinsDebounce | defersClose =>
    cases h
    refine ⟨rfl,rfl,fun _ => rfl,fun m hm => ?_⟩
    cases m <;> cases hm
  | joinsIo =>
    simp only [stopStep] at h
    split at h
    · rename_i hio
      cases h
      refine ⟨rfl,rfl,fun m => ?_,fun m hm => ?_⟩
      · rcases hio with hio | hio <;> simp [hio, Io.holds]
      · cases m <;> cases hm
    · cases h
  | leaves => cases h

theorem expired_moves {stop : Stop} (hplace : s.starter = .expired stop)
    (h : starterStep s = some t) : Moves s t .starter := by
  by_cases hleaves : stop = .leaves
  · subst hleaves
    simp only [starterStep, hplace] at h
    cases h
    exact moves_starter rfl rfl (fun _ => rfl) (fun m hm => by cases hm)
  · have hstop : starterStep s =
        (stopStep s stop).map (fun p => { p.2 with starter := .expired p.1 }) := by
      cases stop <;> simp_all [starterStep]
    rw [hstop] at h
    obtain ⟨⟨next,u⟩,hu,rfl⟩ := Option.map_eq_some_iff.mp h
    obtain ⟨_,hstopper,hio,htakes⟩ := stopStep_moves hu
    refine moves_starter rfl hstopper hio (fun m hm => ?_)
    rw [hplace]
    cases m with
    | start => exact .inl rfl
    | paramDebounce => exact htakes _ hm
    | session => exact htakes _ hm

theorem refused_moves {stop : Stop} (hplace : s.starter = .refused stop)
    (h : starterStep s = some t) : Moves s t .starter := by
  by_cases hleaves : stop = .leaves
  · subst hleaves
    simp only [starterStep, hplace] at h
    cases h
    exact moves_starter rfl rfl (fun _ => rfl) (fun m hm => by cases hm)
  · have hstop : starterStep s =
        (stopStep s stop).map (fun p => { p.2 with starter := .refused p.1 }) := by
      cases stop <;> simp_all [starterStep]
    rw [hstop] at h
    obtain ⟨⟨next,u⟩,hu,rfl⟩ := Option.map_eq_some_iff.mp h
    obtain ⟨_,hstopper,hio,htakes⟩ := stopStep_moves hu
    refine moves_starter rfl hstopper hio (fun m hm => ?_)
    rw [hplace]
    exact htakes m hm

theorem checkComplete_moves (hfree : s.free .start = true) :
    Moves s (checkComplete s) .starter := by
  refine moves_starter rfl rfl (fun _ => rfl) (fun m hm => ?_)
  cases hc : s.startComplete <;> cases m <;> simp_all [checkComplete, Start.holds]

theorem starterStep_moves (h : starterStep s = some t) : Moves s t .starter := by
  cases hplace : s.starter with
  | expired stop => exact expired_moves hplace h
  | refused stop => exact refused_moves hplace h
  | idle | waits => simp [starterStep, hplace] at h
  | wantsReset | wantsDebounce =>
    simp only [starterStep, hplace] at h
    split at h
    · rename_i hfree
      cases h
      refine moves_starter rfl rfl (fun _ => rfl) (fun m hm => ?_)
      cases m <;> simp_all [Start.holds]
    · cases h
  | resets | leaves | resetsFlag =>
    simp only [starterStep, hplace] at h
    cases h
    refine moves_starter rfl rfl (fun _ => rfl) (fun m hm => ?_)
    cases m <;> simp_all [Start.holds]
  | spawns =>
    simp only [starterStep, hplace] at h
    split at h
    · rename_i hio
      cases h
      refine moves_starter rfl rfl (fun m => ?_) (fun m hm => by cases hm)
      simp [hio, Io.holds]
    · cases h
  | wantsWait =>
    simp only [starterStep, hplace] at h
    split at h
    · rename_i hfree
      cases h
      exact checkComplete_moves hfree
    · cases h
  | reported =>
    simp only [starterStep, hplace] at h
    cases h
    refine moves_starter rfl rfl (fun _ => rfl) (fun m hm => ?_)
    rw [hplace]
    split at hm
    · cases m <;> first | exact .inl rfl | cases hm
    · cases m <;> cases hm

theorem ioStep_moves (h : ioStep s = some t) : Moves s t .io := by
  cases hplace : s.io with
  | absent | setup | reports | serving | finished => simp [ioStep, hplace] at h
  | callback | handler | wants =>
    simp only [ioStep, hplace] at h
    split at h
    · rename_i hfree
      cases h
      refine moves_io rfl rfl rfl (fun m hm => ?_)
      cases m <;> simp_all [Io.holds]
    · cases h
  | block | fails | ending =>
    simp only [ioStep, hplace] at h
    cases h
    refine moves_io rfl rfl rfl (fun m hm => ?_)
    cases m <;> cases hm

theorem stopper_moves (h : step s .stopper = some t) : Moves s t .stopper := by
  cases hplace : s.stopper with
  | none => simp [step, hplace] at h
  | some stop =>
    by_cases hleaves : stop = .leaves
    · subst hleaves
      simp only [step, hplace] at h
      cases h
      exact moves_stopper rfl (fun _ => rfl) (fun m hm => by cases hm)
    · have hstop : step s .stopper =
          (stopStep s stop).map (fun p => { p.2 with stopper := some p.1 }) := by
        cases stop <;> simp_all [step]
      rw [hstop] at h
      obtain ⟨⟨next,u⟩,hu,rfl⟩ := Option.map_eq_some_iff.mp h
      obtain ⟨hstarter,_,hio,htakes⟩ := stopStep_moves hu
      refine moves_stopper hstarter hio (fun m hm => ?_)
      simp only [State.holds, hplace, Option.any_some] at hm ⊢
      exact htakes m hm

theorem step_moves (h : step s e = some t) : ∃ who, Moves s t who := by
  cases e with
  | starter => exact ⟨_,starterStep_moves h⟩
  | stopper => exact ⟨_,stopper_moves h⟩
  | io => exact ⟨_,ioStep_moves h⟩
  | callStart =>
    simp only [step] at h
    split at h
    · cases h
      exact ⟨_,moves_starter rfl rfl (fun _ => rfl) (fun m hm => by cases hm)⟩
    · cases h
  | callStop =>
    simp only [step] at h
    split at h
    · cases h
      exact ⟨_,moves_stopper rfl (fun _ => rfl) (fun m hm => by cases hm)⟩
    · cases h
  | wake =>
    simp only [step] at h
    split at h
    · rename_i hfree
      cases h
      exact ⟨_,checkComplete_moves hfree.2⟩
    · cases h
  | timeout =>
    simp only [step] at h
    split at h
    · rename_i hfree
      cases h
      refine ⟨_,moves_starter rfl rfl (fun _ => rfl) (fun m hm => ?_)⟩
      obtain ⟨_,hfree⟩ := hfree
      cases hc : s.startComplete <;> cases m <;> simp_all [Start.holds, Stop.holds]
    · cases h
  | listen | bound | throws | request | close =>
    simp only [step] at h
    split at h
    · cases h
      exact ⟨_,moves_io rfl rfl rfl (fun m hm => by cases hm)⟩
    · cases h

/-- No two threads hold one mutex. -/
def Exclusive (s : State) : Prop :=
  ∀ m t u, s.holds t m = true → s.holds u m = true → t = u

theorem not_holds_of_free {m : Mutex} (h : s.free m = true) (who : Thread) :
    s.holds who m = false := by
  simp only [State.free, Bool.and_eq_true, Bool.not_eq_true'] at h
  cases who
  · exact h.1.1
  · exact h.1.2
  · exact h.2

theorem step_exclusive (hx : Exclusive s) (h : step s e = some t) : Exclusive t := by
  obtain ⟨who,hmoves⟩ := step_moves h
  have hother : ∀ m other, other ≠ who → t.holds other m = true → t.holds who m = true → False := by
    intro m other hne hholds hwho
    rw [hmoves.others other hne] at hholds
    rcases hmoves.takes m hwho with hold | hfree
    · exact hne (hx m other who hholds hold)
    · rw [not_holds_of_free hfree] at hholds
      cases hholds
  intro m a b ha hb
  by_cases haw : a = who
  · by_cases hbw : b = who
    · exact haw.trans hbw.symm
    · exact (hother m b hbw hb (haw ▸ ha)).elim
  · by_cases hbw : b = who
    · exact (hother m a haw ha (hbw ▸ hb)).elim
    · rw [hmoves.others a haw] at ha
      rw [hmoves.others b hbw] at hb
      exact hx m a b ha hb

theorem run_exclusive {events : List Event} (h : run events = some s) : Exclusive s := by
  refine Trace.run_invariant (fun _ _ _ => step_exclusive) ?_ h
  intro m a b ha
  cases a <;> cases m <;> cases ha

/-! ### Deadlocks -/

/-- The thread is at the join of the io thread. -/
def joins (s : State) : Thread → Prop
  | .starter => s.starter = .expired .joinsIo ∨ s.starter = .refused .joinsIo
  | .stopper => s.stopper = some .joinsIo
  | .io => False

/-- A thread joins the io thread, which waits for a mutex of that thread. -/
def Deadlocked (s : State) : Prop :=
  ∃ who m, joins s who ∧ s.io.wanted = some m ∧ s.holds who m = true

/-- `wait_for` gives up before the io thread has reported. -/
def Expires (s : State) (e : Event) : Prop := e = .timeout ∧ s.startComplete = false

def InExpiry (s : State) : Prop := ∃ stop, s.starter = .expired stop

theorem not_deadlocked (h : ¬ InExpiry s) : ¬ Deadlocked s := by
  rintro ⟨who,m,hjoins,_,hholds⟩
  cases who with
  | starter =>
    rcases hjoins with hplace | hplace
    · exact h ⟨_,hplace⟩
    · simp [State.holds, hplace, Start.holds, Stop.holds] at hholds
  | stopper =>
    have hplace : s.stopper = some .joinsIo := hjoins
    simp [State.holds, hplace, Stop.holds] at hholds
  | io => exact hjoins

/-- What `stop` leaves alone. The io thread goes away only when it has ended. -/
theorem stopStep_keeps {stop next : Stop} (h : stopStep s stop = some (next,t)) :
    t.starter = s.starter ∧ t.startComplete = s.startComplete ∧
      (t.io = s.io ∨ s.io = .absent ∨ s.io = .finished) := by
  cases stop with
  | wantsDebounce | joinsIo =>
    simp only [stopStep] at h
    split at h
    · cases h
      simp_all
    · cases h
  | stops | joinsDebounce | defersClose =>
    cases h
    exact ⟨rfl,rfl,.inl rfl⟩
  | leaves => cases h

theorem stopper_keeps (h : step s .stopper = some t) :
    t.starter = s.starter ∧ t.startComplete = s.startComplete ∧
      (t.io = s.io ∨ s.io = .absent ∨ s.io = .finished) := by
  simp only [step] at h
  split at h
  · cases h
  · cases h
    exact ⟨rfl,rfl,.inl rfl⟩
  · obtain ⟨⟨next,u⟩,hu,rfl⟩ := Option.map_eq_some_iff.mp h
    have hkeeps := stopStep_keeps hu
    exact hkeeps

theorem ioStep_starter (h : ioStep s = some t) : t.starter = s.starter := by
  unfold ioStep at h
  repeat' split at h
  all_goals cases h
  all_goals rfl

theorem checkComplete_place (s : State) :
    (checkComplete s).starter = .reported ∨ (checkComplete s).starter = .waits := by
  unfold checkComplete
  split
  · exact .inl rfl
  · exact .inr rfl

/-- The exit is not entered from another place of `start`. -/
theorem starterStep_inExpiry (hs : ¬ InExpiry s) (h : starterStep s = some t) : ¬ InExpiry t := by
  rintro ⟨stop,hstop⟩
  cases hplace : s.starter with
  | expired => exact hs ⟨_,hplace⟩
  | refused stop =>
    cases stop with
    | leaves =>
      simp only [starterStep, hplace] at h
      cases h
      cases hstop
    | _ =>
      simp only [starterStep, hplace] at h
      obtain ⟨_,_,rfl⟩ := Option.map_eq_some_iff.mp h
      cases hstop
  | idle | waits => simp [starterStep, hplace] at h
  | wantsWait =>
    simp only [starterStep, hplace] at h
    split at h
    · cases h
      rcases checkComplete_place s with hcheck | hcheck <;> simp [hcheck] at hstop
    · cases h
  | wantsReset | spawns | wantsDebounce =>
    simp only [starterStep, hplace] at h
    split at h
    · cases h
      cases hstop
    · cases h
  | reported =>
    simp only [starterStep, hplace] at h
    cases h
    dsimp only at hstop
    split at hstop <;> cases hstop
  | resets | resetsFlag | leaves =>
    simp only [starterStep, hplace] at h
    cases h
    cases hstop

theorem step_inExpiry (hs : ¬ InExpiry s) (he : ¬ Expires s e) (h : step s e = some t) :
    ¬ InExpiry t := by
  have hsame : t.starter = s.starter → ¬ InExpiry t := by
    rintro hplace ⟨stop,hstop⟩
    exact hs ⟨stop,hplace ▸ hstop⟩
  cases e with
  | starter => exact starterStep_inExpiry hs h
  | stopper => exact hsame (stopper_keeps h).1
  | io => exact hsame (ioStep_starter h)
  | timeout =>
    have hcomplete : s.startComplete = true := by
      by_contra hc
      exact he ⟨rfl,by simpa using hc⟩
    simp only [step, hcomplete, if_true] at h
    split at h
    · cases h
      rintro ⟨stop,hstop⟩
      cases hstop
    · cases h
  | wake =>
    simp only [step] at h
    split at h
    · cases h
      rintro ⟨stop,hstop⟩
      rcases checkComplete_place s with hcheck | hcheck <;> simp [hcheck] at hstop
    · cases h
  | callStart =>
    simp only [step] at h
    split at h
    · cases h
      rintro ⟨stop,hstop⟩
      cases hstop
    · cases h
  | callStop | listen | bound | throws | request | close =>
    simp only [step] at h
    split at h
    · cases h
      exact hsame rfl
    · cases h

/-! ### What the exit leads to -/

/-- The io thread has not been through its report. -/
def Io.unreported : Io → Bool
  | .setup | .callback | .reports | .handler | .fails => true
  | _ => false

def Waiting (s : State) : Prop := s.starter = .wantsWait ∨ s.starter = .waits

/-- While `start` waits without a report the io thread is still to report. -/
def Reporting (s : State) : Prop :=
  Waiting s → s.startComplete = false → Io.unreported s.io = true

theorem starterStep_waiting (h : starterStep s = some t) (hw : Waiting t) :
    t.io = .setup ∨ (Waiting s ∧ t.io = s.io ∧ t.startComplete = s.startComplete) := by
  cases hplace : s.starter with
  | spawns =>
    simp only [starterStep, hplace] at h
    split at h
    · cases h
      exact .inl rfl
    · cases h
  | wantsWait =>
    simp only [starterStep, hplace] at h
    split at h
    · cases h
      exact .inr ⟨.inl hplace,rfl,rfl⟩
    · cases h
  | expired stop | refused stop =>
    cases stop with
    | leaves =>
      simp only [starterStep, hplace] at h
      cases h
      simp [Waiting] at hw
    | _ =>
      simp only [starterStep, hplace] at h
      obtain ⟨_,_,rfl⟩ := Option.map_eq_some_iff.mp h
      simp [Waiting] at hw
  | idle | waits => simp [starterStep, hplace] at h
  | wantsReset | wantsDebounce =>
    simp only [starterStep, hplace] at h
    split at h
    · cases h
      simp [Waiting] at hw
    · cases h
  | reported =>
    simp only [starterStep, hplace] at h
    cases h
    simp only [Waiting] at hw
    split at hw <;> simp at hw
  | resets | resetsFlag | leaves =>
    simp only [starterStep, hplace] at h
    cases h
    simp [Waiting] at hw

theorem ioStep_reporting (hr : Reporting s) (h : ioStep s = some t) : Reporting t := by
  intro hw hc
  rw [Waiting, ioStep_starter h] at hw
  cases hplace : s.io with
  | absent | setup | reports | serving | finished => simp [ioStep, hplace] at h
  | callback | handler =>
    simp only [ioStep, hplace] at h
    split at h
    · cases h
      rfl
    · cases h
  | wants =>
    simp only [ioStep, hplace] at h
    split at h
    · cases h
      have hearly := hr hw hc
      simp [hplace, Io.unreported] at hearly
    · cases h
  | block | ending =>
    simp only [ioStep, hplace] at h
    cases h
    have hearly := hr hw hc
    simp [hplace, Io.unreported] at hearly
  | fails =>
    simp only [ioStep, hplace] at h
    cases h
    cases hc

theorem step_reporting (hr : Reporting s) (h : step s e = some t) : Reporting t := by
  cases e with
  | starter =>
    intro hw hc
    rcases starterStep_waiting h hw with hio | ⟨hws,hio,hcs⟩
    · rw [hio]
      rfl
    · rw [hio]
      exact hr hws (hcs ▸ hc)
  | stopper =>
    intro hw hc
    obtain ⟨hstarter,hcomplete,hio⟩ := stopper_keeps h
    rw [Waiting, hstarter] at hw
    have hearly := hr hw (hcomplete ▸ hc)
    rcases hio with hio | hio | hio
    · rwa [hio]
    · simp [hio, Io.unreported] at hearly
    · simp [hio, Io.unreported] at hearly
  | io => exact ioStep_reporting hr h
  | wake =>
    simp only [step] at h
    split at h
    · rename_i hplace
      cases h
      intro _ hc
      exact hr (.inr hplace.1) hc
    · cases h
  | timeout =>
    simp only [step] at h
    split at h
    · cases h
      intro hw
      simp only [Waiting] at hw
      split at hw <;> simp at hw
    · cases h
  | callStart =>
    simp only [step] at h
    split at h
    · cases h
      intro hw
      simp [Waiting] at hw
    · cases h
  | callStop =>
    simp only [step] at h
    split at h
    · cases h
      exact hr
    · cases h
  | listen =>
    simp only [step] at h
    split at h
    · cases h
      exact fun _ _ => rfl
    · cases h
  | throws =>
    simp only [step] at h
    split at h
    · cases h
      exact fun _ _ => rfl
    · cases h
  | bound =>
    simp only [step] at h
    split at h
    · cases h
      intro _ hc
      cases hc
    · cases h
  | request | close =>
    simp only [step] at h
    split at h
    · rename_i hio
      cases h
      intro hw hc
      have hearly := hr hw hc
      simp_all [Io.unreported]
    · cases h

theorem run_reporting {events : List Event} (h : run events = some s) : Reporting s := by
  refine Trace.run_invariant (fun _ _ _ => step_reporting) ?_ h
  intro hw
  simp [Waiting] at hw

theorem debounce_free (hstarter : s.starter = .expired .wantsDebounce)
    (hio : ∀ m, s.io.holds m = false) (hstopper : s.stopper ≠ some .stops) :
    s.free .paramDebounce = true := by
  have h1 : s.holds .starter .paramDebounce = false := by
    simp [State.holds, hstarter, Start.holds, Stop.holds]
  have h2 : s.holds .stopper .paramDebounce = false := by
    cases hs : s.stopper with
    | none => simp [State.holds, hs]
    | some stop => cases stop <;> simp_all [State.holds, Stop.holds]
  have h3 : s.holds .io .paramDebounce = false := hio _
  simp [State.free, h1, h2, h3]

/-- A `stop` on another thread may have the mutex of the debounce thread, and gives it back. -/
theorem frees_debounce (hstarter : s.starter = .expired .wantsDebounce)
    (hio : ∀ m, s.io.holds m = false) :
    ∃ later t, Trace.run step s later = some t ∧ t.starter = s.starter ∧ t.io = s.io ∧
      t.free .paramDebounce = true := by
  by_cases hstopper : s.stopper = some .stops
  · have hstep : step s .stopper = some { s with stopper := some .joinsDebounce } := by
      simp [step, hstopper, stopStep]
    refine ⟨[.stopper],_,Trace.run_cons.mpr ⟨_,hstep,rfl⟩,rfl,rfl,?_⟩
    exact debounce_free hstarter hio (by simp)
  · exact ⟨[],s,rfl,rfl,rfl,debounce_free hstarter hio hstopper⟩

/-- The starter goes through `stop` up to the join. -/
theorem reaches_join (hstarter : s.starter = .expired .wantsDebounce)
    (hfree : s.free .paramDebounce = true) :
    Trace.run step s [.starter,.starter,.starter,.starter] =
      some { s with starter := .expired .joinsIo } := by
  simp [Trace.run, step, starterStep, stopStep, hstarter, hfree]

/-- The io thread comes to want `start_mutex_`. -/
theorem reaches_report (hio : s.io = .setup ∨ s.io = .callback ∨ s.io = .handler) :
    ∃ later t, Trace.run step s later = some t ∧ t.starter = s.starter ∧
      t.io.wanted = some .start := by
  rcases hio with hio | hio | hio
  · have hstep : step s .listen = some { s with io := .callback } := by simp [step, hio]
    exact ⟨[.listen],_,Trace.run_cons.mpr ⟨_,hstep,rfl⟩,rfl,rfl⟩
  · exact ⟨[],s,rfl,rfl,by rw [hio]; rfl⟩
  · exact ⟨[],s,rfl,rfl,by rw [hio]; rfl⟩

theorem expiry_deadlocks {events : List Event} (h : run events = some s)
    (he : Expires s .timeout) (ht : step s .timeout = some t) :
    ∃ later u, Trace.run step t later = some u ∧ Deadlocked u := by
  have hexit : (if s.startComplete = true then Start.reported else .expired .wantsDebounce) =
      .expired .wantsDebounce := if_neg (by simp [he.2])
  simp only [step, hexit] at ht
  split at ht
  · rename_i hwait
    obtain ⟨hwait,hfree⟩ := hwait
    cases ht
    have hearly := run_reporting h (.inr hwait) he.2
    have hquiet := not_holds_of_free hfree .io
    -- the mutex is free, so the io thread is in front of its report
    have hio : s.io = .setup ∨ s.io = .callback ∨ s.io = .handler := by
      cases hs : s.io <;> simp_all [Io.unreported, State.holds, Io.holds]
    have hnone : ∀ m, s.io.holds m = false := by
      intro m
      rcases hio with hio | hio | hio <;> simp [hio, Io.holds]
    obtain ⟨first,a,ha,hstarter,hioa,hdebounce⟩ :=
      frees_debounce (s := { s with starter := .expired .wantsDebounce }) rfl hnone
    have hjoin := reaches_join hstarter hdebounce
    obtain ⟨last,u,hu,hplace,hwanted⟩ :=
      reaches_report (s := { a with starter := .expired .joinsIo }) (by simpa [hioa] using hio)
    refine ⟨first ++ ([.starter,.starter,.starter,.starter] ++ last),u,?_,?_⟩
    · exact Trace.run_append.mpr ⟨a,ha,Trace.run_append.mpr ⟨_,hjoin,hu⟩⟩
    · refine ⟨.starter,.start,.inl hplace,hwanted,?_⟩
      simp [State.holds, hplace, Start.holds]
  · cases ht

/-- The locks exclude each other. As long as no wait of `start` gives up before the io thread
has reported, nobody joins an io thread that waits for a lock of the joining thread. A wait
that does give up can always end there: its `stop` runs under `start_mutex_`, which the report
needs. -/
theorem deadlock_free_unless_expired (events : List Event) (s : State)
    (h : run events = some s) :
    Exclusive s ∧
    (Trace.Throughout step (fun t e => ¬ Expires t e) {} events → ¬ Deadlocked s) ∧
    (∀ t, Expires s .timeout → step s .timeout = some t →
      ∃ later u, Trace.run step t later = some u ∧ Deadlocked u) := by
  refine ⟨run_exclusive h,fun hcalm => ?_,fun t he ht => expiry_deadlocks h he ht⟩
  refine not_deadlocked (Trace.run_guarded (I := fun s => ¬ InExpiry s)
    (fun _ _ _ => step_inExpiry) ?_ hcalm h)
  rintro ⟨stop,hstop⟩
  cases hstop

/-- A start whose port is taken: it has given its lock back when it joins. -/
theorem refused_start_joins :
    ∃ s, run [.callStart,.starter,.starter,.starter,.starter,.listen,.io,.bound false,.wake,
        .starter,.starter,.starter,.starter,.starter] = some s ∧
      s.starter = .refused .joinsIo ∧ ¬ Deadlocked s := by
  refine ⟨_,rfl,rfl,(deadlock_free_unless_expired [.callStart,.starter,.starter,.starter,.starter,
    .listen,.io,.bound false,.wake,.starter,.starter,.starter,.starter,.starter] _ rfl).2.1 ?_⟩
  intro past e later t hsplit _ hexpires
  have hmem : Event.timeout ∈ past ++ e :: later := by simp [hexpires.1]
  rw [← hsplit] at hmem
  simp at hmem

/-- The listener comes up late: `start` joins the io thread under the lock its callback
waits for. -/
theorem late_listener_deadlocks :
    ∃ s, run [.callStart,.starter,.starter,.starter,.starter,.timeout,.starter,.starter,.starter,
        .starter,.listen] = some s ∧ Deadlocked s :=
  ⟨_,rfl,.starter,.start,.inl rfl,rfl,rfl⟩

end Cpipe.Proofs.StartStop
