import Cpipe.Color.OcioVulkanProcessor

namespace Cpipe.Proofs.VulkanLifetimes
open Cpipe.Compute Cpipe.Color Cpipe.Color.OcioVulkanProcessor Library

variable {log more : List Call} {driver : Driver} {device : Device} {s t : State} {e : Event}

/-! ### Logs -/

/-- No object of a submission is destroyed before its value is reached. -/
def Safe (log : List Call) : Prop :=
  ∀ before h after, log = before ++ .destroyed h :: after →
    ∀ uses timeline, .submitted uses timeline ∈ before → h ∈ uses → .reached timeline ∈ before

/-- The device is done with every submission. -/
def Done (log : List Call) : Prop :=
  ∀ uses timeline, .submitted uses timeline ∈ log → .reached timeline ∈ log

/-- Handles come and go. -/
def Plain (more : List Call) : Prop :=
  ∀ c ∈ more, (∃ h, c = .created h) ∨ ∃ h, c = .destroyed h

theorem Plain.nil : Plain [] := by
  intro c hc
  cases hc

theorem Plain.append {first second : List Call} (h1 : Plain first) (h2 : Plain second) :
    Plain (first ++ second) := by
  intro c hc
  rcases List.mem_append.mp hc with hc | hc
  · exact h1 c hc
  · exact h2 c hc

theorem Plain.created (h : Handle) : Plain [.created h] := by
  intro c hc
  exact .inl ⟨h,List.mem_singleton.mp hc⟩

theorem Plain.destroyed (hs : List Handle) : Plain (hs.map .destroyed) := by
  intro c hc
  obtain ⟨h,_,rfl⟩ := List.mem_map.mp hc
  exact .inr ⟨h,rfl⟩

theorem Plain.not_submitted (hp : Plain more) (uses : List Handle) (timeline : Handle) :
    .submitted uses timeline ∉ more := by
  intro hmem
  rcases hp _ hmem with ⟨_,h⟩ | ⟨_,h⟩ <;> cases h

/-- What is behind the device is safe to destroy. -/
theorem Safe.append_plain (hs : Safe log) (hd : Done log) (hp : Plain more) :
    Safe (log ++ more) := by
  intro before h after hsplit uses timeline hsub huse
  rcases List.append_eq_append_iff.mp hsplit with ⟨mid,rfl,hrest⟩ | ⟨mid,rfl,hrest⟩
  · have hold : .submitted uses timeline ∈ log := by
      rcases List.mem_append.mp hsub with hsub | hsub
      · exact hsub
      · refine absurd ?_ (hp.not_submitted uses timeline)
        rw [hrest]
        exact List.mem_append_left _ hsub
    exact List.mem_append_left _ (hd uses timeline hold)
  · cases mid with
    | nil =>
      rw [List.append_nil] at hd
      exact hd uses timeline hsub
    | cons c mid =>
      obtain ⟨rfl,_⟩ := List.cons.inj hrest
      exact hs before h mid rfl uses timeline hsub huse

/-- Nothing is destroyed. -/
theorem Safe.append_quiet (hs : Safe log) (hq : ∀ h, .destroyed h ∉ more) : Safe (log ++ more) := by
  intro before h after hsplit uses timeline hsub huse
  rcases List.append_eq_append_iff.mp hsplit with ⟨mid,rfl,hrest⟩ | ⟨mid,rfl,hrest⟩
  · refine absurd ?_ (hq h)
    rw [hrest]
    exact List.mem_append_right _ List.mem_cons_self
  · cases mid with
    | nil =>
      refine absurd ?_ (hq h)
      rw [← show .destroyed h :: after = more from hrest]
      exact List.mem_cons_self
    | cons c mid =>
      obtain ⟨rfl,_⟩ := List.cons.inj hrest
      exact hs before h mid rfl uses timeline hsub huse

theorem Safe.init (h : Safe (log ++ more)) : Safe log := by
  intro before k after hsplit uses timeline hsub huse
  refine h before k (after ++ more) ?_ uses timeline hsub huse
  rw [hsplit, List.append_assoc, List.cons_append]

/-! ### What a pass does to the log -/

theorem createStage_plain (device : Device) (stage : Stage) (r : PipelineResources)
    (driver : Driver) :
    ∃ more, Plain more ∧ (createStage device stage r driver).2.log = driver.log ++ more := by
  cases stage with
  | source => exact ⟨[],.nil,(List.append_nil _).symm⟩
  | setLayout | pipelineLayout | shader | pipeline => exact ⟨_,.created _,rfl⟩

theorem createStages_plain (fails : Stage → Bool) (device : Device) (stages : List Stage)
    (r : PipelineResources) (driver : Driver) :
    ∃ more, Plain more ∧
      (createStages fails device stages r driver).2.2.log = driver.log ++ more := by
  induction stages generalizing r driver with
  | nil => exact ⟨[],.nil,(List.append_nil _).symm⟩
  | cons stage stages ih =>
    unfold createStages
    split
    · exact ⟨[],.nil,(List.append_nil _).symm⟩
    · obtain ⟨first,hfirst,hlog⟩ := createStage_plain device stage r driver
      obtain ⟨rest,hrest,hlog'⟩ := ih (createStage device stage r driver).1
        (createStage device stage r driver).2
      exact ⟨first ++ rest,hfirst.append hrest,by rw [hlog', hlog, List.append_assoc]⟩

theorem pipelineFor_plain (fails : Stage → Bool) (device : Device) (format : PixelFormat)
    (p : Processor) :
    ∃ more, Plain more ∧
      (pipelineFor fails device format p).1.driver.log = p.driver.log ++ more := by
  unfold pipelineFor
  dsimp only
  split
  · exact ⟨[],.nil,(List.append_nil _).symm⟩
  · split
    · let old := ((p.pipelines.lookup format).getD {}).handles
      obtain ⟨rest,hrest,hlog⟩ := createStages_plain (throws fails format) device
        (createDescriptorSetLayout ++ createPipelineLayout ++ createShaderAndPipeline)
        { device := some device } (destroyHandles p.driver old)
      refine ⟨old.map .destroyed ++ rest,(Plain.destroyed old).append hrest,hlog.trans ?_⟩
      rw [destroyHandles, List.append_assoc]
    · exact createStages_plain _ _ _ _ _

/-- The locals of a pass that got through all its places. -/
theorem createLocals_spec (fails : Place → Bool) (device : Device)
    (todo : List (Place × Option Kind)) (made : List Handle) (driver : Driver) :
    (∃ more, Plain more ∧
      (createLocals fails device todo made driver).2.2.log = driver.log ++ more) ∧
    ((createLocals fails device todo made driver).1 = true →
      (createLocals fails device todo made driver).2.1.map Handle.kind =
        (todo.filterMap Prod.snd).reverse ++ made.map Handle.kind) := by
  induction todo generalizing made driver with
  | nil => exact ⟨⟨[],.nil,(List.append_nil _).symm⟩,fun _ => rfl⟩
  | cons first todo ih =>
    obtain ⟨place,kind⟩ := first
    unfold createLocals
    split
    · exact ⟨⟨[],.nil,(List.append_nil _).symm⟩,fun h => by cases h⟩
    · cases kind with
      | none => exact ih made driver
      | some kind =>
        obtain ⟨⟨more,hmore,hlog⟩,hkinds⟩ :=
          ih ((create driver device kind).1 :: made) (create driver device kind).2
        refine ⟨⟨[.created ⟨device,kind,driver.next⟩] ++ more,(Plain.created _).append hmore,?_⟩,
          fun h => ?_⟩
        · rw [hlog, create, List.append_assoc]
        · rw [hkinds h]
          simp [create]

/-- A pass that waits has submitted a command buffer it is going to destroy. -/
structure Submitted (s : State) (w : Wait) : Prop where
  waits : s.wait = some w
  submitted : ∃ uses, .submitted uses w.timeline ∈ s.log ∧ ∃ h ∈ w.locals, h ∈ uses

/-- A pass adds plain calls to the log and may end in a submission it waits for. -/
theorem submitPass_spec (pass : Pass) (device : Device) (p : Processor) :
    ∃ more, Plain more ∧
      (((submitPass pass device p).wait = none ∧
        (submitPass pass device p).log = p.driver.log ++ more) ∨
      ∃ w uses, Submitted (submitPass pass device p) w ∧
        (submitPass pass device p).log =
          p.driver.log ++ more ++ [.submitted uses w.timeline]) := by
  obtain ⟨first,hfirst,hlog⟩ :=
    pipelineFor_plain pass.stageFails device pass.output.layout.format p
  unfold submitPass
  dsimp only
  generalize pipelineFor pass.stageFails device pass.output.layout.format p = found at hlog ⊢
  cases found.2 with
  | none => exact ⟨first,hfirst,.inl ⟨rfl,hlog⟩⟩
  | some r =>
    obtain ⟨⟨rest,hrest,hlocals⟩,hkinds⟩ :=
      createLocals_spec pass.placeFails device places [] found.1.driver
    dsimp only
    generalize hm : createLocals pass.placeFails device places [] found.1.driver = made
    rw [hm] at hlocals hkinds
    have hmade : made.2.2.log = p.driver.log ++ (first ++ rest) := by
      rw [hlocals, hlog, List.append_assoc]
    split
    · rename_i timeline hthrough _
      let uses := (r.pipeline.map (Handle.mk device .pipeline)).toList ++
        made.2.1.filter (fun h => h.kind ≠ .timeline)
      have hbuffer : ∃ h ∈ made.2.1, h.kind = .commandBuffer := by
        have hmem : Kind.commandBuffer ∈ made.2.1.map Handle.kind := by
          rw [hkinds hthrough]
          decide
        exact List.mem_map.mp hmem
      obtain ⟨h,hmem,hkind⟩ := hbuffer
      have huses : h ∈ uses :=
        List.mem_append_right _ (List.mem_filter.mpr ⟨hmem,by simp [hkind]⟩)
      refine ⟨first ++ rest,hfirst.append hrest,
        .inr ⟨⟨made.2.1,timeline⟩,uses,⟨rfl,uses,?_,h,hmem,huses⟩,?_⟩⟩
      · exact List.mem_append_right _ List.mem_cons_self
      · rw [← hmade]
        rfl
    · refine ⟨first ++ rest ++ made.2.1.map .destroyed,
        (hfirst.append hrest).append (Plain.destroyed _),.inl ⟨rfl,?_⟩⟩
      rw [← List.append_assoc, ← hmade]
      rfl

/-! ### Runs -/

def run (events : List Event) : Option State := Trace.run step {} events

/-- The device is done with every submission but the one a pass waits for. -/
structure Inv (s : State) : Prop where
  safe : Safe s.log
  done : ∀ uses timeline, .submitted uses timeline ∈ s.log →
    .reached timeline ∈ s.log ∨ ∃ w, s.wait = some w ∧ w.timeline = timeline

/-- A wait that ends without success ends after the value was reached. -/
def Punctual (s : State) (e : Event) : Prop :=
  e = .endWait false → ∀ w, s.wait = some w → .reached w.timeline ∈ s.log

theorem Inv.idle (h : Inv s) (hw : s.wait = none) : Done s.log := by
  intro uses timeline hsub
  rcases h.done uses timeline hsub with hr | ⟨w,hsome,_⟩
  · exact hr
  · rw [hw] at hsome
    cases hsome

theorem Done.append_plain (hd : Done log) (hp : Plain more) : Done (log ++ more) := by
  intro uses timeline hsub
  rcases List.mem_append.mp hsub with hsub | hsub
  · exact List.mem_append_left _ (hd uses timeline hsub)
  · exact absurd hsub (hp.not_submitted uses timeline)

theorem inv_idle (hs : Safe s.log) (hd : Done s.log) : Inv s :=
  ⟨hs,fun uses timeline hsub => .inl (hd uses timeline hsub)⟩

theorem submitPass_inv {p : Processor} (hs : Safe p.driver.log) (hd : Done p.driver.log)
    (pass : Pass) (device : Device) : Inv (submitPass pass device p) := by
  obtain ⟨more,hmore,⟨_,hlog⟩ | ⟨w,uses,hw,hlog⟩⟩ := submitPass_spec pass device p
  · refine inv_idle ?_ ?_
    · rw [hlog]
      exact hs.append_plain hd hmore
    · rw [hlog]
      exact hd.append_plain hmore
  · constructor
    · rw [hlog]
      exact (hs.append_plain hd hmore).append_quiet (by simp)
    · intro uses' timeline hsub
      rw [hlog] at hsub ⊢
      rcases List.mem_append.mp hsub with hsub | hsub
      · exact .inl (List.mem_append_left _ (hd.append_plain hmore uses' timeline hsub))
      · obtain ⟨_,rfl⟩ := Call.submitted.inj (List.mem_singleton.mp hsub)
        exact .inr ⟨w,hw.waits,rfl⟩

/-- What a step can do. -/
inductive Effect (s : State) : Event → State → Prop where
  | pass (call : Pass) (device : Device) (hw : s.wait = none) :
      Effect s (.computePass call) (submitPass call device s.processor)
  | refused (call : Pass) (t : State) (hw : s.wait = none) (hw' : t.wait = none)
      (hlog : t.log = s.log) : Effect s (.computePass call) t
  | reach (timeline : Handle) (t : State) (hw : t.wait = s.wait)
      (hlog : t.log = s.log ++ [.reached timeline]) : Effect s (.reach timeline) t
  | endWait (success : Bool) (w : Wait) (t : State) (hw : s.wait = some w)
      (hsuccess : success = true → .reached w.timeline ∈ s.log) (hw' : t.wait = none)
      (hlog : t.log = s.log ++ w.locals.map .destroyed) : Effect s (.endWait success) t
  | tearDown (handles : List Handle) (t : State) (hw : s.wait = none) (hw' : t.wait = none)
      (hlog : t.log = s.log ++ handles.map .destroyed) : Effect s .tearDown t

theorem step_effect (h : step s e = some t) : Effect s e t := by
  cases e with
  | computePass pass =>
    simp only [step] at h
    split at h
    · cases h
    · rename_i hw
      split at h
      · cases h
        exact .pass _ _ hw
      · cases h
        exact .refused _ _ hw hw rfl
  | reach timeline =>
    simp only [step] at h
    split at h
    · cases h
      exact .reach _ _ rfl rfl
    · cases h
  | endWait success =>
    simp only [step] at h
    split at h
    · cases h
    · rename_i w hw
      split at h
      · cases h
      · rename_i hwait
        cases h
        refine .endWait _ w _ hw (fun hs => ?_) rfl rfl
        by_contra hnot
        exact hwait ⟨hs,hnot⟩
  | tearDown =>
    simp only [step] at h
    split at h
    · cases h
    · rename_i hw
      cases h
      exact .tearDown _ _ hw hw rfl

theorem step_inv (hi : Inv s) (hp : Punctual s e) (h : step s e = some t) : Inv t := by
  cases step_effect h with
  | pass _ _ hw => exact submitPass_inv hi.safe (hi.idle hw) _ _
  | refused _ _ hw hw' hlog =>
    have hdone := hi.idle hw
    rw [← hlog] at hdone
    exact inv_idle (hlog ▸ hi.safe) hdone
  | reach _ _ hw hlog =>
    constructor
    · rw [hlog]
      exact hi.safe.append_quiet (by simp)
    · intro uses timeline hsub
      rw [hlog] at hsub ⊢
      have hold : .submitted uses timeline ∈ s.log := by simpa using hsub
      rcases hi.done uses timeline hold with hr | hr
      · exact .inl (List.mem_append_left _ hr)
      · exact .inr (hw ▸ hr)
  | endWait success w _ hw hsuccess hw' hlog =>
    have hreached : .reached w.timeline ∈ s.log := by
      cases success with
      | true => exact hsuccess rfl
      | false => exact hp rfl w hw
    have hdone : Done s.log := by
      intro uses timeline hsub
      rcases hi.done uses timeline hsub with hr | ⟨w',hsome,rfl⟩
      · exact hr
      · obtain rfl := Option.some.inj (hw.symm.trans hsome)
        exact hreached
    refine inv_idle ?_ ?_
    · rw [hlog]
      exact hi.safe.append_plain hdone (Plain.destroyed _)
    · rw [hlog]
      exact hdone.append_plain (Plain.destroyed _)
  | tearDown _ _ hw hw' hlog =>
    have hdone := hi.idle hw
    refine inv_idle ?_ ?_
    · rw [hlog]
      exact hi.safe.append_plain hdone (Plain.destroyed _)
    · rw [hlog]
      exact hdone.append_plain (Plain.destroyed _)

/-! ### A wait that ends too early -/

theorem step_grows (h : step s e = some t) : ∃ more, t.log = s.log ++ more := by
  cases step_effect h with
  | pass =>
    obtain ⟨more,_,⟨_,hlog⟩ | ⟨w,uses,_,hlog⟩⟩ := submitPass_spec _ _ s.processor
    · exact ⟨_,hlog⟩
    · exact ⟨_,hlog.trans (List.append_assoc _ _ _)⟩
  | refused _ _ _ _ hlog => exact ⟨[],hlog.trans (List.append_nil _).symm⟩
  | reach _ _ _ hlog => exact ⟨_,hlog⟩
  | endWait _ _ _ _ _ _ hlog => exact ⟨_,hlog⟩
  | tearDown _ _ _ _ hlog => exact ⟨_,hlog⟩

theorem run_grows {events : List Event} (h : Trace.run step s events = some t) :
    ∃ more, t.log = s.log ++ more := by
  induction events generalizing s with
  | nil =>
    cases h
    exact ⟨[],(List.append_nil _).symm⟩
  | cons e events ih =>
    obtain ⟨m,hm,hrest⟩ := Trace.run_cons.mp h
    obtain ⟨first,hfirst⟩ := step_grows hm
    obtain ⟨more,hmore⟩ := ih hrest
    exact ⟨first ++ more,by rw [hmore, hfirst, List.append_assoc]⟩

/-- Whoever waits has submitted. -/
def Waits (s : State) : Prop := ∀ w, s.wait = some w → Submitted s w

theorem step_waits (hi : Waits s) (h : step s e = some t) : Waits t := by
  intro w hw
  cases step_effect h with
  | pass =>
    obtain ⟨more,_,⟨hnone,_⟩ | ⟨w',uses,hsub,_⟩⟩ := submitPass_spec _ _ s.processor
    · rw [hnone] at hw
      cases hw
    · obtain rfl := Option.some.inj (hsub.waits.symm.trans hw)
      exact hsub
  | reach _ _ hsame hlog =>
    obtain ⟨uses,hsub,huse⟩ := (hi w (hsame ▸ hw)).submitted
    exact ⟨hw,uses,by rw [hlog]; exact List.mem_append_left _ hsub,huse⟩
  | refused _ _ _ hnone | endWait _ _ _ _ _ hnone | tearDown _ _ _ hnone =>
    rw [hnone] at hw
    cases hw

theorem early_unsafe {w : Wait} (hw : Submitted s w) (hnot : .reached w.timeline ∉ s.log) :
    ¬ Safe (s.log ++ w.locals.map .destroyed) := by
  intro hsafe
  obtain ⟨uses,hsub,h,hmem,huse⟩ := hw.submitted
  obtain ⟨before,after,hsplit⟩ := List.append_of_mem hmem
  have hreached := hsafe (s.log ++ before.map .destroyed) h (after.map .destroyed)
    (by rw [hsplit]; simp) uses w.timeline (List.mem_append_left _ hsub) huse
  rcases List.mem_append.mp hreached with hr | hr
  · exact hnot hr
  · simp at hr

/-- Objects outlive their use exactly in the runs in which no wait gives up before the device
has reached the submission. -/
theorem objects_outlive_iff (events : List Event) (s : State) (h : run events = some s) :
    Safe s.log ↔ Trace.Throughout step Punctual {} events := by
  constructor
  · rintro hsafe past e later m rfl hm rfl w hw
    by_contra hnot
    obtain ⟨m',hpast,hrest⟩ := Trace.run_append.mp h
    obtain rfl := Option.some.inj (hm.symm.trans hpast)
    obtain ⟨u,hu,hlater⟩ := Trace.run_cons.mp hrest
    have hwaits : Waits m :=
      Trace.run_invariant (I := Waits) (fun _ _ _ => step_waits) (fun w hw => by cases hw) hm
    obtain ⟨more,hmore⟩ := run_grows hlater
    rw [hmore] at hsafe
    cases step_effect hu with
    | endWait _ _ _ hw' _ _ hlog =>
      obtain rfl := Option.some.inj (hw.symm.trans hw')
      rw [hlog] at hsafe
      exact early_unsafe (hwaits w hw) hnot hsafe.init
  · intro hcalm
    refine (Trace.run_guarded (I := Inv) (fun _ _ _ => step_inv) ?_ hcalm h).safe
    refine inv_idle ?_ ?_
    · intro before k after hsplit
      simp [State.log] at hsplit
    · intro uses timeline hsub
      simp [State.log] at hsub

/-- A pass from a half float image to eight bits. -/
def smallPass : Pass where
  plane := some 0
  input := ⟨0,imageLayout .r16g16b16a16Sfloat 8 8⟩
  output := ⟨0,imageLayout .r8g8b8a8Unorm 8 8⟩

/-- The timeline of the first pass: four handles of the pipeline and three locals come first. -/
def firstTimeline : Handle := ⟨0,.timeline,7⟩

theorem objects_outlive_punctual :
    ∃ s, run [.computePass smallPass,.reach firstTimeline,.endWait true,.tearDown] = some s ∧
      Safe s.log := by
  refine ⟨_,rfl,(objects_outlive_iff
    [.computePass smallPass,.reach firstTimeline,.endWait true,.tearDown] _ rfl).mpr ?_⟩
  intro past e later m hsplit _ he
  have hmem : Event.endWait false ∈ past ++ e :: later := by simp [he]
  rw [← hsplit] at hmem
  simp at hmem

/-- The wait times out: the command buffer is freed while the device may still run it. -/
theorem timeout_frees_pending :
    ∃ s, run [.computePass smallPass,.endWait false] = some s ∧ ¬ Safe s.log := by
  refine ⟨_,rfl,fun hsafe => ?_⟩
  have hreached := hsafe _ ⟨0,.commandBuffer,8⟩ _ rfl
    [⟨0,.pipeline,3⟩,⟨0,.commandBuffer,8⟩,⟨0,.descriptorPool,6⟩,⟨0,.imageView,5⟩,⟨0,.imageView,4⟩]
    firstTimeline (by decide) (by decide)
  revert hreached
  decide

end Cpipe.Proofs.VulkanLifetimes
