import Cpipe.Runtime.VulkanImage

namespace Cpipe.Proofs.VulkanImage
open Cpipe.Runtime.VulkanImages Library

variable {D : Type} {image : VulkanImage D} {device : Device D} {outcome : Outcome}
  {commands : List (Command D)} {landed : Option D} {s t : Images D} {event : Event D}

/-! ### The layout that is noted down -/

/-- The image is in the layout that is noted down, or none is and the image is where nothing or
a submission whose end was not reported has left it. -/
inductive Tracks : VkImageLayout → VkImageLayout → Prop
  | fresh : Tracks .undefined .undefined
  | unreported : Tracks .undefined .general
  | noted : Tracks .general .general

/-- The commands that ran broke no rule. -/
structure Tracked (image : VulkanImage D) (device : Device D) : Prop where
  replayed : image.replay = some device
  layout : Tracks image.currentLayout device.layout

theorem Tracked.contents_eq (h : Tracked image device) : image.contents = device.contents := by
  rw [VulkanImage.contents, h.replayed]
  rfl

/-- What a barrier from the layout that is noted down leaves. -/
def landing (image : VulkanImage D) : Option D :=
  if image.currentLayout = .undefined then none else image.contents

theorem exec_transition (h : Tracked image device) (new : VkImageLayout) (hnew : new ≠ .undefined) :
    Trace.run Device.exec device (transitionImage image.currentLayout new) =
      some ⟨new,landing image⟩ := by
  have hcontents := h.contents_eq
  have hlayout := h.layout
  obtain ⟨layout,contents⟩ := device
  rw [landing, hcontents]
  generalize image.currentLayout = tracked at hlayout
  cases hlayout with
  | fresh | unreported =>
    rw [transitionImage, if_neg hnew.symm]
    rfl
  | noted =>
    rw [transitionImage]
    split
    · rename_i hsame
      subst hsame
      rfl
    · rfl

theorem Tracked.append {device' : Device D} (h : Tracked image device)
    (hrun : Trace.run Device.exec device commands = some device')
    (layout : VkImageLayout) (hlayout : Tracks layout device'.layout) :
    Tracked { image with commands := image.commands ++ commands, currentLayout := layout } device' :=
  ⟨Trace.run_append.mpr ⟨device,h.replayed,hrun⟩,hlayout⟩

/-- Whatever becomes of a submission that ends in the general layout. -/
theorem submit_tracked (outcome : Outcome) (h : Tracked image device)
    (hrun : Trace.run Device.exec device commands = some ⟨.general,landed⟩) :
    ∃ device', Tracked (image.submitImmediate commands outcome).2 device' ∧
      device'.contents = if outcome = .refused then image.contents else landed := by
  cases outcome with
  | refused => exact ⟨device,h,h.contents_eq.symm⟩
  | done => exact ⟨_,h.append hrun .general .noted,rfl⟩
  | unreported =>
    refine ⟨_,h.append hrun image.currentLayout ?_,rfl⟩
    have hlayout := h.layout
    generalize image.currentLayout = tracked, device.layout = actual at hlayout ⊢
    cases hlayout with
    | fresh | unreported => exact .unreported
    | noted => exact .noted

/-! ### The operations -/

theorem transition_tracked (outcome : Outcome) (h : Tracked image device) :
    ∃ device', Tracked (image.transitionToGeneral outcome).2 device' ∧
      device'.contents = if outcome = .refused then image.contents else landing image :=
  submit_tracked outcome h (exec_transition h .general (by decide))

theorem upload_tracked (outcome : Outcome) (h : Tracked image device) :
    ∃ device', Tracked (image.uploadFromStaging outcome).2 device' ∧
      device'.contents = if outcome = .refused then image.contents else some image.staging := by
  refine submit_tracked outcome h ?_
  rw [List.append_assoc]
  exact Trace.run_append.mpr ⟨_,exec_transition h .transferDstOptimal (by decide),rfl⟩

theorem download_run (h : Tracked image device) : Trace.run Device.exec device
    (transitionImage image.currentLayout .transferSrcOptimal ++ [.load .transferSrcOptimal] ++
      transitionImage .transferSrcOptimal .general) = some ⟨.general,landing image⟩ := by
  rw [List.append_assoc]
  exact Trace.run_append.mpr ⟨_,exec_transition h .transferSrcOptimal (by decide),rfl⟩

theorem Tracked.staging {data : D} (h : Tracked image device) :
    Tracked { image with staging := data } device := ⟨h.replayed,h.layout⟩

theorem Tracked.lock {access : CpuAccess} {locked : Bool} (h : Tracked image device) :
    Tracked { image with lockedAccess := access, locked } device := ⟨h.replayed,h.layout⟩

theorem download_tracked (outcome : Outcome) (invalidated : Bool) (stale : D)
    (h : Tracked image device) :
    ∃ device', Tracked (image.downloadToStaging outcome invalidated stale).2 device' ∧
      device'.contents = if outcome = .refused then image.contents else landing image := by
  obtain ⟨device',htracked,hcontents⟩ := submit_tracked outcome h (download_run h)
  refine ⟨device',?_,hcontents⟩
  rw [VulkanImage.downloadToStaging]
  split
  rename_i submitted after hsubmit
  rw [hsubmit] at htracked
  split
  · exact htracked.staging
  · exact htracked

theorem lock_tracked {access : CpuAccess} {invalidated : Bool} {stale : D}
    (h : Tracked image device) :
    ∃ device', Tracked (image.lockCpu access outcome invalidated stale).2 device' := by
  rw [VulkanImage.lockCpu]
  split
  rename_i ready after hready
  split at hready
  · obtain ⟨device',htracked,-⟩ :=
      download_tracked outcome invalidated stale h
    rw [hready] at htracked
    refine ⟨device',?_⟩
    split
    · exact htracked.lock
    · exact htracked
  · cases hready
    exact ⟨device,h.lock⟩

theorem unlock_tracked (h : Tracked image device) :
    ∃ device', Tracked (image.unlockCpu outcome).2 device' := by
  rw [VulkanImage.unlockCpu]
  split
  rename_i uploaded after hupload
  split at hupload
  · obtain ⟨device',htracked,-⟩ := upload_tracked outcome h
    rw [hupload] at htracked
    refine ⟨device',?_⟩
    split
    · exact ⟨htracked.replayed,htracked.layout⟩
    · exact htracked
  · cases hupload
    exact ⟨device,h.replayed,h.layout⟩

theorem transition_noted (h : (image.transitionToGeneral outcome).1 = true) :
    outcome = .done ∧ (image.transitionToGeneral outcome).2.currentLayout = .general := by
  cases outcome with
  | done => exact ⟨rfl,rfl⟩
  | refused | unreported => cases h

/-- Every image of a family. -/
def AllTracked (s : Images D) : Prop := ∀ i, ∃ device, Tracked (s i) device

theorem AllTracked.update {i : Nat} (h : AllTracked s)
    (hi : ∃ device, Tracked image device) : AllTracked (Function.update s i image) := by
  intro j
  by_cases hj : j = i
  · subst hj
    rw [Function.update_self]
    exact hi
  · rw [Function.update_of_ne hj]
    exact h j

/-- A shader writes to an image that was just brought to the general layout. -/
theorem Tracked.shaded (contents : Option D) (h : Tracked image device)
    (hnoted : image.currentLayout = .general) :
    Tracked { image with commands := image.commands ++ [.store .general contents] }
      ⟨.general,contents⟩ := by
  have hlayout := h.layout
  rw [hnoted] at hlayout
  have hactual : device.layout = .general := by
    generalize device.layout = actual at hlayout
    cases hlayout
    rfl
  refine ⟨Trace.run_append.mpr ⟨device,h.replayed,?_⟩,?_⟩
  · simp [Trace.run, Device.exec, hactual]
  · rw [hnoted]
    exact .noted

theorem pass_tracked {input output : Nat} {shader : D → D} {first second pass : Outcome}
    (h : AllTracked s) : AllTracked (computePass s input output shader first second pass) := by
  have hfirst : AllTracked
      (Function.update s input ((s input).transitionToGeneral first).2) := by
    obtain ⟨device,hdevice⟩ := h input
    obtain ⟨device',htracked,-⟩ := transition_tracked first hdevice
    exact h.update ⟨device',htracked⟩
  rw [computePass]
  split
  rename_i ready image hready
  rw [hready] at hfirst
  simp only
  split
  · exact hfirst
  obtain ⟨device,hdevice⟩ := hfirst output
  obtain ⟨device',htracked,-⟩ := transition_tracked second hdevice
  have hsecond := hfirst.update (i := output) ⟨device',htracked⟩
  split
  · exact hsecond
  · rename_i hgo
    rw [Bool.or_eq_true, not_or] at hgo
    refine hsecond.update ?_
    rw [Function.update_self]
    exact ⟨_,htracked.shaded _ (transition_noted (by simpa using hgo.1)).2⟩

theorem step_tracked (h : AllTracked s) (hstep : step s event = some t) : AllTracked t := by
  cases event with
  | lockCpu i access outcome invalidated stale =>
    rw [step] at hstep
    split at hstep
    · cases hstep
      obtain ⟨device,hdevice⟩ := h i
      exact h.update (lock_tracked hdevice)
    · cases hstep
  | write i f =>
    rw [step] at hstep
    split at hstep
    · cases hstep
      obtain ⟨device,hdevice⟩ := h i
      exact h.update ⟨device,hdevice.staging⟩
    · cases hstep
  | unlockCpu i outcome =>
    rw [step] at hstep
    split at hstep
    · cases hstep
      obtain ⟨device,hdevice⟩ := h i
      exact h.update (unlock_tracked hdevice)
    · cases hstep
  | transitionToGeneral i outcome =>
    cases hstep
    obtain ⟨device,hdevice⟩ := h i
    obtain ⟨device',htracked,-⟩ := transition_tracked outcome hdevice
    exact h.update ⟨device',htracked⟩
  | computePass input output shader first second pass =>
    cases hstep
    exact pass_tracked h

/-- An image that was just made. -/
def Made (s : Images D) : Prop :=
  ∀ i, (s i).currentLayout = .undefined ∧ (s i).commands = [] ∧ (s i).locked = false

theorem Made.tracked (h : Made s) : AllTracked s := by
  intro i
  obtain ⟨hlayout,hcommands,-⟩ := h i
  refine ⟨{},?_,?_⟩
  · rw [VulkanImage.replay, hcommands]
    rfl
  · rw [hlayout]
    exact .fresh

/-- However locks, passes and failures of the driver follow each other, no image is ever given
a command that names another layout than the one it is in, and a layout that is noted down is
the one the image is in. -/
theorem layouts_hold {events : List (Event D)} (h : Made s) (hrun : Trace.run step s events = some t)
    (i : Nat) : ∃ device, (t i).replay = some device ∧
      (device.layout = .undefined ∨ device.layout = .general) ∧
      ((t i).currentLayout = .undefined ∨
        (t i).currentLayout = .general ∧ device.layout = .general) := by
  obtain ⟨device,htracked⟩ := Trace.run_invariant (fun _ _ _ => step_tracked) h.tracked hrun i
  have hlayout := htracked.layout
  refine ⟨device,htracked.replayed,?_⟩
  generalize (t i).currentLayout = tracked, device.layout = actual at hlayout
  cases hlayout with
  | fresh => exact ⟨.inl rfl,.inl rfl⟩
  | unreported => exact ⟨.inr rfl,.inl rfl⟩
  | noted => exact ⟨.inr rfl,.inr ⟨rfl,rfl⟩⟩

/-- Images that were just made, with the numbers the host has. -/
def newImages : Images Nat := fun _ => { cpuRead := true, cpuWrite := true, staging := 0 }

theorem made_newImages : Made newImages := fun _ => ⟨rfl,rfl,rfl⟩

/-- One image is written, passed to another and read back there. -/
def passOn : List (Event Nat) :=
  [.lockCpu 0 .write .done true 0, .write 0 (fun _ => 7), .unlockCpu 0 .done,
    .computePass 0 1 (· + 1) .done .done .done, .lockCpu 1 .read .done true 0]

theorem layouts_hold_passOn : ∃ t, Trace.run step newImages passOn = some t ∧
    ∃ device, (t 1).replay = some device ∧ device.layout = .general := by
  obtain ⟨t,hrun⟩ : ∃ t, Trace.run step newImages passOn = some t := ⟨_,rfl⟩
  obtain ⟨device,hreplay,-,hlayout⟩ := layouts_hold made_newImages hrun 1
  refine ⟨t,hrun,device,hreplay,?_⟩
  rcases hlayout with hundefined | hgeneral
  · cases hrun
    cases hundefined
  · exact hgeneral.2

end Cpipe.Proofs.VulkanImage
