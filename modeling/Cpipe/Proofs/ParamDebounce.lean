import Cpipe.Server.ParamDebounce

namespace Cpipe.Server.ParamDebounce
open Library.Trace (run_append run_cons run_history run_invariant)

variable {s t : State} {e : Event}

/-! ### What a step can do -/

/-- A step by what it needs and does. -/
inductive Effect (s : State) : Event → State → Prop
  | storeLoop (hio : s.io = .setup) : Effect s .storeLoop { s with io := .loopStored, loop := true }
  | listen (hio : s.io = .loopStored) : Effect s .listen { s with io := .serving }
  | resetFlag (hstart : s.start = .waiting)
      (hio : s.io = .serving ∨ s.io = .applied ∨ s.io = .thrown) :
      Effect s .resetFlag { s with start := .flagReset, pending := false }
  | spawnDebounce (hstart : s.start = .flagReset) :
      Effect s .spawnDebounce { s with start := .done, debounce := .outer }
  | applyParamDelta (hio : s.io = .serving) : Effect s .applyParamDelta { s with io := .applied }
  | refuseParamDelta (hio : s.io = .serving) : Effect s .refuseParamDelta s
  | scheduleParamRerun (hio : s.io = .applied) : Effect s .scheduleParamRerun
      { s with io := .serving, pending := true, deadline := s.now+200 }
  | runRequest (hio : s.io = .serving) : Effect s .runRequest s
  | emitCompletedRun (hio : s.io = .serving) (hqueued : 0 < s.callbacks) :
      Effect s .emitCompletedRun { s with callbacks := s.callbacks-1 }
  | handlerThrows (hio : s.io = .serving) : Effect s .handlerThrows { s with io := .thrown }
  | catchException (hio : s.io = .thrown) (hstart : s.start ≠ .flagReset) :
      Effect s .catchException
        { s with
          io := .caught
          start := if s.start = .waiting then .refused else s.start }
  | clearLoop (hio : s.io = .caught) :
      Effect s .clearLoop { s with io := .ended, loop := false }
  | wake (houter : s.debounce = .outer) (hpending : s.pending = true) :
      Effect s .wake (enterInner s)
  | rescheduled {deadline : Nat} (htimed : s.debounce = .timed deadline)
      (hmoved : s.deadline ≠ deadline) : Effect s .rescheduled (enterInner s)
  | decide {deadline : Nat} (htimed : s.debounce = .timed deadline)
      (hsame : s.deadline = deadline) (hover : deadline ≤ s.now) :
      Effect s .decide { s with pending := false, debounce := .decided }
  | defer (hdecided : s.debounce = .decided) (hloop : s.loop = true) :
      Effect s .defer { s with debounce := .deferred, callbacks := s.callbacks+1 }
  | dropDefer (hdecided : s.debounce = .decided) (hloop : s.loop = false) :
      Effect s .dropDefer { s with debounce := .deferred }
  | relock (hdeferred : s.debounce = .deferred) : Effect s .relock (enterInner s)
  | tick : Effect s .tick { s with now := s.now+1 }

theorem step_effect (h : step s e = some t) : Effect s e t := by
  cases e with
  | storeLoop =>
    obtain ⟨hio,⟨⟩⟩ := Option.ite_none_right_eq_some.mp h
    exact .storeLoop hio
  | listen =>
    obtain ⟨hio,⟨⟩⟩ := Option.ite_none_right_eq_some.mp h
    exact .listen hio
  | resetFlag =>
    obtain ⟨⟨hstart,hio⟩,⟨⟩⟩ := Option.ite_none_right_eq_some.mp h
    exact .resetFlag hstart hio
  | spawnDebounce =>
    obtain ⟨hstart,⟨⟩⟩ := Option.ite_none_right_eq_some.mp h
    exact .spawnDebounce hstart
  | applyParamDelta =>
    obtain ⟨hio,⟨⟩⟩ := Option.ite_none_right_eq_some.mp h
    exact .applyParamDelta hio
  | refuseParamDelta =>
    obtain ⟨hio,⟨⟩⟩ := Option.ite_none_right_eq_some.mp h
    exact .refuseParamDelta hio
  | scheduleParamRerun =>
    obtain ⟨hio,⟨⟩⟩ := Option.ite_none_right_eq_some.mp h
    exact .scheduleParamRerun hio
  | runRequest =>
    obtain ⟨hio,⟨⟩⟩ := Option.ite_none_right_eq_some.mp h
    exact .runRequest hio
  | emitCompletedRun =>
    obtain ⟨⟨hio,hqueued⟩,⟨⟩⟩ := Option.ite_none_right_eq_some.mp h
    exact .emitCompletedRun hio hqueued
  | handlerThrows =>
    obtain ⟨hio,⟨⟩⟩ := Option.ite_none_right_eq_some.mp h
    exact .handlerThrows hio
  | catchException =>
    obtain ⟨⟨hio,hstart⟩,⟨⟩⟩ := Option.ite_none_right_eq_some.mp h
    exact .catchException hio hstart
  | clearLoop =>
    obtain ⟨hio,⟨⟩⟩ := Option.ite_none_right_eq_some.mp h
    exact .clearLoop hio
  | wake =>
    obtain ⟨⟨houter,hpending⟩,⟨⟩⟩ := Option.ite_none_right_eq_some.mp h
    exact .wake houter hpending
  | rescheduled =>
    -- only the timed wait has these two exits
    cases hd : s.debounce with
    | timed deadline =>
      simp only [step, hd] at h
      obtain ⟨hmoved,⟨⟩⟩ := Option.ite_none_right_eq_some.mp h
      exact .rescheduled hd hmoved
    | _ => simp [step, hd] at h
  | decide =>
    cases hd : s.debounce with
    | timed deadline =>
      simp only [step, hd] at h
      obtain ⟨⟨hsame,hover⟩,⟨⟩⟩ := Option.ite_none_right_eq_some.mp h
      exact .decide hd hsame hover
    | _ => simp [step, hd] at h
  | defer =>
    obtain ⟨⟨hdecided,hloop⟩,⟨⟩⟩ := Option.ite_none_right_eq_some.mp h
    exact .defer hdecided hloop
  | dropDefer =>
    obtain ⟨⟨hdecided,hloop⟩,⟨⟩⟩ := Option.ite_none_right_eq_some.mp h
    exact .dropDefer hdecided hloop
  | relock =>
    obtain ⟨hdeferred,⟨⟩⟩ := Option.ite_none_right_eq_some.mp h
    exact .relock hdeferred
  | tick =>
    cases h
    exact .tick

theorem enterInner_ne_absent : (enterInner s).debounce ≠ .absent := by
  unfold enterInner
  split <;> simp

/-! ### Order of the start -/

/-- The debounce thread and its callbacks come after `start`, and the pointer to the
event loop before the listener; it stays until an exception has ended the loop. -/
structure Ordered (s : State) : Prop where
  absent : s.start ≠ .done → s.debounce = .absent
  stored : s.io ≠ .setup → s.io ≠ .ended → s.loop = true
  listening : s.start ≠ .waiting → s.io ≠ .setup
  fresh : s.debounce = .absent → s.callbacks = 0

theorem Ordered.done (ho : Ordered s) (h : s.debounce ≠ .absent) : s.start = .done := by
  by_contra hstart
  exact h (ho.absent hstart)

/-- Where the thread runs, what it does to itself, the flag and the callbacks keeps the order. -/
theorem Ordered.debounced (ho : Ordered s) (h : s.debounce ≠ .absent) (hstart : t.start = s.start)
    (hio : t.io = s.io) (hloop : t.loop = s.loop) (ht : t.debounce ≠ .absent) : Ordered t where
  absent := fun hne => absurd (hstart.trans (ho.done h)) hne
  stored := fun hne hlive => hloop.trans (ho.stored (hio ▸ hne) (hio ▸ hlive))
  listening := fun hne => hio ▸ ho.listening (hstart ▸ hne)
  fresh := fun hnone => absurd hnone ht

theorem step_ordered (ho : Ordered s) (h : step s e = some t) : Ordered t := by
  cases step_effect h with
  | storeLoop hio => exact { ho with stored := fun _ _ => rfl, listening := fun _ => by simp }
  | listen hio | applyParamDelta hio | scheduleParamRerun hio | handlerThrows hio =>
    exact { ho with
      stored := fun _ _ => ho.stored (by simp [hio]) (by simp [hio])
      listening := fun _ => by simp }
  | resetFlag hstart hio =>
    have hio' : s.io ≠ .setup := by rcases hio with hio | hio | hio <;> simp [hio]
    exact { ho with absent := fun _ => ho.absent (by simp [hstart]), listening := fun _ => hio' }
  | spawnDebounce hstart =>
    exact {
      ho with
      absent := fun hne => absurd rfl hne
      listening := fun _ => ho.listening (by simp [hstart])
      fresh := fun hnone => by cases hnone }
  | catchException hio hstart =>
    refine { ho with
      absent := fun hne => ho.absent fun hdone => hne (by simp [hdone])
      stored := fun _ _ => ho.stored (by simp [hio]) (by simp [hio])
      listening := fun _ => by simp }
  | clearLoop hio =>
    exact { ho with
      stored := fun _ hlive => absurd rfl hlive
      listening := fun _ => by simp }
  | emitCompletedRun _ hqueued => exact { ho with fresh := fun hnone => by simp [ho.fresh hnone] }
  | wake houter _ => exact ho.debounced (by simp [houter]) rfl rfl rfl enterInner_ne_absent
  | rescheduled htimed _ => exact ho.debounced (by simp [htimed]) rfl rfl rfl enterInner_ne_absent
  | relock hdeferred => exact ho.debounced (by simp [hdeferred]) rfl rfl rfl enterInner_ne_absent
  | decide htimed _ _ => exact ho.debounced (by simp [htimed]) rfl rfl rfl (by simp)
  | defer hdecided _ => exact ho.debounced (by simp [hdecided]) rfl rfl rfl (by simp)
  | dropDefer hdecided _ => exact ho.debounced (by simp [hdecided]) rfl rfl rfl (by simp)
  | refuseParamDelta _ | runRequest _ => exact ho
  | tick => exact { ho with }

theorem run_ordered {events : List Event} (h : run events = some s) : Ordered s :=
  run_invariant (fun _ _ _ => step_ordered) ⟨fun _ => rfl,by simp,by simp,fun _ => rfl⟩ h

/-! ### The loop of the io thread -/

/-- No exception has ended the loop. -/
def Io.alive (io : Io) : Prop := io ≠ .thrown ∧ io ≠ .caught ∧ io ≠ .ended

theorem step_alive (hs : s.io.alive) (he : e ≠ .handlerThrows) (h : step s e = some t) :
    t.io.alive := by
  cases step_effect h with
  | handlerThrows _ => exact absurd rfl he
  | catchException hio _ => exact absurd hio hs.1
  | clearLoop hio => exact absurd hio hs.2.1
  | storeLoop _ | listen _ | applyParamDelta _ | scheduleParamRerun _ => simp [Io.alive]
  | _ => exact hs

theorem run_alive {events : List Event} (h : run events = some s)
    (hcalm : .handlerThrows ∉ events) : s.io.alive :=
  @run_history State Event step (fun past x => .handlerThrows ∉ past → x.io.alive)
    (fun past x e y hx hy hnone => by
      rw [List.mem_append, List.mem_singleton, not_or] at hnone
      exact step_alive (hx hnone.1) (Ne.symm hnone.2) hy)
    events {} s (fun _ => by simp [Io.alive]) h hcalm

/-! ### The flag, a decision and the callbacks -/

theorem step_pending (hs : s.pending = true) (h : step s e = some t) :
    t.pending = true ∨ (e = .resetFlag ∧ s.start = .waiting) ∨
      (e = .decide ∧ t.debounce = .decided) := by
  cases step_effect h with
  | resetFlag hstart _ => exact .inr (.inl ⟨rfl,hstart⟩)
  | decide _ _ _ => exact .inr (.inr ⟨rfl,rfl⟩)
  | scheduleParamRerun _ => exact .inl rfl
  | _ => exact .inl hs

theorem step_decided (ho : Ordered s) (halive : s.io.alive) (hs : s.debounce = .decided)
    (h : step s e = some t) :
    t.debounce = .decided ∨ (e = .defer ∧ 0 < t.callbacks) := by
  have hdone : s.start = .done := ho.done (by simp [hs])
  have hstored : s.loop = true := ho.stored (ho.listening (by simp [hdone])) halive.2.2
  cases step_effect h with
  | spawnDebounce hstart => simp [hdone] at hstart
  | defer _ _ => exact .inr ⟨rfl,Nat.succ_pos _⟩
  | dropDefer _ hloop => simp [hstored] at hloop
  | wake houter _ => simp [hs] at houter
  | rescheduled htimed _ => simp [hs] at htimed
  | relock hdeferred => simp [hs] at hdeferred
  | decide _ _ _ => exact .inl rfl
  | _ => exact .inl hs

theorem step_callbacks (hs : 0 < s.callbacks) (h : step s e = some t) :
    0 < t.callbacks ∨ e = .emitCompletedRun := by
  cases step_effect h with
  | emitCompletedRun _ _ => exact .inr rfl
  | defer _ _ => exact .inl (Nat.succ_pos _)
  | _ => exact .inl hs

/-- The flag is reset once: `start` does not go back. -/
theorem step_started (hs : s.start ≠ .waiting) (h : step s e = some t) : t.start ≠ .waiting := by
  cases step_effect h with
  | resetFlag _ _ => simp
  | spawnDebounce _ => simp
  | catchException _ _ =>
    rw [if_neg hs]
    exact hs
  | _ => exact hs

/-! ### Updates are kept -/

/-- What has become of an update, from the events after it: it is pending, a run was
decided and is about to be handed over, the run is queued, or there was a run. -/
inductive Remembered (later : List Event) (s : State) : Prop
  | pending (h : s.pending = true)
  | decided (h : .decide ∈ later) (hnow : s.debounce = .decided)
  | deferred {before after : List Event} (h : later = before ++ .decide :: after)
      (hdefer : .defer ∈ after) (hqueued : 0 < s.callbacks)
  | recorded (h : .runRequest ∈ later ∨ .emitCompletedRun ∈ later)

theorem step_remembered {later : List Event} (ho : Ordered s) (halive : s.io.alive)
    (hstart : s.start ≠ .waiting) (hs : Remembered later s) (h : step s e = some t) : Remembered (later ++ [e]) t := by
  cases hs with
  | pending hpending =>
    rcases step_pending hpending h with hstill | ⟨_,hwaiting⟩ | ⟨rfl,hdecided⟩
    · exact .pending hstill
    · exact absurd hwaiting hstart
    · exact .decided (by simp) hdecided
  | decided hmem hnow =>
    rcases step_decided ho halive hnow h with hstill | ⟨rfl,hqueued⟩
    · exact .decided (List.mem_append_left _ hmem) hstill
    · obtain ⟨before,after,rfl⟩ := List.append_of_mem hmem
      refine .deferred (by rw [List.append_assoc, List.cons_append]) (by simp) hqueued
  | deferred hsplit hdefer hqueued =>
    rcases step_callbacks hqueued h with hstill | rfl
    · refine .deferred (by rw [hsplit, List.append_assoc, List.cons_append])
        (List.mem_append_left _ hdefer) hstill
    · exact .recorded (.inr (by simp))
  | recorded hmem => exact .recorded (hmem.imp (List.mem_append_left _) (List.mem_append_left _))

/-- No update is scheduled before the reset in `start`. -/
def AfterReset (events : List Event) : Prop :=
  .scheduleParamRerun ∉ events.takeWhile (fun e => e ≠ .resetFlag)

theorem AfterReset.mem_before {before later : List Event}
    (h : AfterReset (before ++ .scheduleParamRerun :: later)) : .resetFlag ∈ before := by
  by_contra hnone
  have hall : ∀ e ∈ before, decide (e ≠ .resetFlag) = true := by
    intro e he
    exact decide_eq_true (fun heq => hnone (heq ▸ he))
  apply h
  rw [List.takeWhile_append_of_pos hall]
  exact List.mem_append_right _ List.mem_cons_self

theorem started_of_reset {events : List Event} (h : run events = some s)
    (hreset : .resetFlag ∈ events) : s.start ≠ .waiting := by
  obtain ⟨before,after,rfl⟩ := List.append_of_mem hreset
  obtain ⟨u,_,hrest⟩ := run_append.mp h
  obtain ⟨v,hv,hafter⟩ := run_cons.mp hrest
  have hv' : v.start ≠ .waiting := by
    cases step_effect hv
    simp
  exact run_invariant (fun _ _ _ => step_started) hv' hafter

/-- In every run in which no update is scheduled before `start` has reset the flag and no
exception of a handler ends the loop, no update is lost: after it there is always a run in
sight. -/
theorem update_remembered (before later : List Event)
    (hrun : run (before ++ .scheduleParamRerun :: later) = some s)
    (hafter : AfterReset (before ++ .scheduleParamRerun :: later))
    (hcalm : .handlerThrows ∉ before ++ .scheduleParamRerun :: later) : Remembered later s := by
  obtain ⟨u,hu,hrest⟩ := run_append.mp hrun
  obtain ⟨v,hv,hlater⟩ := run_cons.mp hrest
  have hstart := step_started (started_of_reset hu hafter.mem_before) hv
  have hpending : v.pending = true := by
    cases step_effect hv
    rfl
  simp only [List.mem_append, List.mem_cons, not_or] at hcalm
  obtain ⟨hbefore,-,hrest⟩ := hcalm
  have halive := step_alive (run_alive hu hbefore) (by simp) hv
  have hend := @run_history State Event step
    (fun past x => Ordered x ∧ x.start ≠ .waiting ∧
      (.handlerThrows ∉ past → x.io.alive ∧ Remembered past x))
    (fun past x e y ⟨hx,hxs,hxr⟩ hy =>
      ⟨step_ordered hx hy,step_started hxs hy,fun hnone => by
        rw [List.mem_append, List.mem_singleton, not_or] at hnone
        obtain ⟨hxa,hxr⟩ := hxr hnone.1
        exact ⟨step_alive hxa (Ne.symm hnone.2) hy,step_remembered hx hxa hxs hxr hy⟩⟩)
    later v s ⟨step_ordered (run_ordered hu) hv,hstart,fun _ => ⟨halive,.pending hpending⟩⟩ hlater
  exact (hend.2.2 hrest).2

/-- Two updates, the second while the loop waits for the first one's deadline. -/
theorem update_remembered_twice :
    ∃ s, run ([.storeLoop,.listen,.resetFlag,.spawnDebounce,.applyParamDelta] ++
        .scheduleParamRerun :: [.wake,.tick,.applyParamDelta,.scheduleParamRerun,.rescheduled]) =
          some s ∧
      Remembered [.wake,.tick,.applyParamDelta,.scheduleParamRerun,.rescheduled] s :=
  ⟨_,rfl,update_remembered [.storeLoop,.listen,.resetFlag,.spawnDebounce,.applyParamDelta] _ rfl
    (by unfold AfterReset; decide) (by decide)⟩

/-! ### Updates before the reset -/

/-- While `start` waits there is no debounce thread, so no callback runs. -/
theorem no_callback_while_waiting {events : List Event} (h : run events = some s)
    (hs : s.start = .waiting) : .emitCompletedRun ∉ events := by
  have hend := @run_history State Event step
    (fun past x => Ordered x ∧ (x.start = .waiting → .emitCompletedRun ∉ past))
    (fun past x e y ⟨hx,hpast⟩ hy => by
      refine ⟨step_ordered hx hy,fun hwaiting hmem => ?_⟩
      have hxs : x.start = .waiting := by
        by_contra hne
        exact step_started hne hy hwaiting
      rcases List.mem_append.mp hmem with hold | hnew
      · exact hpast hxs hold
      · have hnone : x.callbacks = 0 := hx.fresh (hx.absent (by simp [hxs]))
        rw [List.mem_singleton] at hnew
        subst hnew
        simp [step, hnone] at hy)
    events {} s ⟨run_ordered (rfl : run [] = some {}),fun _ => List.not_mem_nil⟩ h
  exact hend.2 hs

/-- An update scheduled before the reset is forgotten by it, unless a run was asked for
in between. -/
theorem remembered_at_reset_iff {before between : List Event}
    (h : run (before ++ .scheduleParamRerun :: (between ++ [.resetFlag])) = some s) :
    Remembered (between ++ [.resetFlag]) s ↔ .runRequest ∈ between := by
  have hsplit : before ++ .scheduleParamRerun :: (between ++ [.resetFlag]) =
      (before ++ .scheduleParamRerun :: between) ++ [.resetFlag] := by simp
  rw [hsplit] at h
  obtain ⟨u,hu,hlast⟩ := run_append.mp h
  obtain ⟨v,hv,hnil⟩ := run_cons.mp hlast
  cases hnil
  have hwaiting : u.start = .waiting := by
    cases step_effect hv with
    | resetFlag hstart _ => exact hstart
  have hnone : .emitCompletedRun ∉ before ++ .scheduleParamRerun :: between :=
    no_callback_while_waiting hu hwaiting
  have habsent : u.debounce = .absent := (run_ordered hu).absent (by simp [hwaiting])
  have hfresh : u.callbacks = 0 := (run_ordered hu).fresh habsent
  have hs : s.pending = false ∧ s.debounce = .absent ∧ s.callbacks = 0 := by
    cases step_effect hv
    exact ⟨rfl,habsent,hfresh⟩
  constructor
  · intro hrem
    cases hrem with
    | pending hp => simp [hs] at hp
    | decided _ hnow => simp [hs] at hnow
    | deferred _ _ hq => simp [hs] at hq
    | recorded hmem =>
      rcases hmem with hrequest | hemit
      · simpa using hrequest
      · exact absurd (by simp at hemit; simp [hemit]) hnone
  · intro hmem
    exact .recorded (.inl (List.mem_append_left _ hmem))

/-! ### Updates before an exception -/

/-- A control frame that makes the handler throw, and then the deadline of an update. -/
def endedLoop : List Event :=
  [.handlerThrows,.catchException,.clearLoop,.wake] ++ List.replicate 200 .tick ++
    [.decide,.dropDefer]

theorem endedLoop_forgets {s : State} (hpending : s.pending = false)
    (hdebounce : s.debounce = .deferred) (hcallbacks : s.callbacks = 0) :
    ¬ Remembered endedLoop s := by
  intro hrem
  cases hrem with
  | pending hp => simp [hpending] at hp
  | decided _ hnow => simp [hdebounce] at hnow
  | deferred _ _ hq => simp [hcallbacks] at hq
  | recorded hmem =>
    simp only [endedLoop, List.mem_append, List.mem_replicate, List.mem_cons] at hmem
    simp at hmem

/-- A client whose update comes between the bind of the listener and the reset, and one whose
next frame ends the loop. -/
theorem update_forgotten :
    (∃ s, run ([.storeLoop,.listen,.applyParamDelta] ++ .scheduleParamRerun :: [.resetFlag]) =
        some s ∧ ¬ Remembered [.resetFlag] s) ∧
    ∃ s, run ([.storeLoop,.listen,.resetFlag,.spawnDebounce,.applyParamDelta] ++
        .scheduleParamRerun :: endedLoop) = some s ∧ ¬ Remembered endedLoop s := by
  constructor
  · refine ⟨_,rfl,fun hrem => ?_⟩
    have hmem := (@remembered_at_reset_iff _ [.storeLoop,.listen,.applyParamDelta] [] rfl).mp hrem
    cases hmem
  · have hrun : run ([.storeLoop,.listen,.resetFlag,.spawnDebounce,.applyParamDelta] ++
        .scheduleParamRerun :: endedLoop) =
        some { start := .done, io := .ended, debounce := .deferred, deadline := 200, now := 200 } := by
      decide +kernel
    exact ⟨_,hrun,endedLoop_forgets rfl rfl rfl⟩

end Cpipe.Server.ParamDebounce
