import Cpipe.Proofs.VulkanImage

namespace Cpipe.Proofs.ImageCells
open Cpipe.Runtime.VulkanImages Cpipe.Proofs.VulkanImage Library

variable {D : Type} {image : VulkanImage D} {device : Device D} {outcome : Outcome}
  {s t : Images D} {event : Event D} {events : List (Event D)}

/-! ### What an image is for -/

/-- An image without layouts and commands: what the host sees, what the device has. -/
structure Cell (D : Type) where
  cpuRead : Bool
  cpuWrite : Bool
  host : D
  stored : Option D
  lockedAccess : CpuAccess
  locked : Bool

/-- A lock that reads brings what is stored to the host. -/
def Cell.lock (cell : Cell D) (access : CpuAccess) (outcome : Outcome) (invalidated : Bool)
    (stale : D) : Cell D :=
  if access.reads then
    if outcome = .done ∧ invalidated = true then
      { cell with host := cell.stored.getD stale, lockedAccess := access, locked := true }
    else cell
  else { cell with lockedAccess := access, locked := true }

abbrev Cells (D : Type) : Type := Nat → Cell D

/-- What there is to an image. -/
def cell (image : VulkanImage D) : Cell D :=
  ⟨image.cpuRead,image.cpuWrite,image.staging,image.contents,image.lockedAccess,image.locked⟩

def cells (s : Images D) : Cells D := fun i => cell (s i)

/-! ### No contents without a layout -/

/-- Nothing is in an image that no layout is noted down for. -/
def Settled (image : VulkanImage D) : Prop :=
  (∃ device, Tracked image device) ∧ (image.currentLayout = .undefined → image.contents = none)

theorem Settled.landing_eq (h : Settled image) : landing image = image.contents := by
  rw [landing]
  split
  · rename_i hnone
    exact (h.2 hnone).symm
  · rfl

/-- What a submission leaves that ends in the general layout with `landed` in the image. -/
structure Submitted (image : VulkanImage D) (commands : List (Command D)) (outcome : Outcome)
    (landed : Option D) (after : VulkanImage D) : Prop where
  result : image.submitImmediate commands outcome = (decide (outcome = .done),after)
  tracked : ∃ device, Tracked after device
  cell : cell after =
    { cell image with stored := if outcome = .refused then image.contents else landed }
  layout : after.currentLayout = if outcome = .done then .general else image.currentLayout

theorem submitted {commands : List (Command D)} {landed : Option D} (outcome : Outcome)
    (h : Tracked image device)
    (hrun : Trace.run Device.exec device commands = some ⟨.general,landed⟩) :
    ∃ after, Submitted image commands outcome landed after := by
  obtain ⟨device',htracked,hcontents⟩ := submit_tracked outcome h hrun
  refine ⟨(image.submitImmediate commands outcome).2,?_,⟨device',htracked⟩,?_,?_⟩
  · cases outcome <;> rfl
  · rw [← hcontents, ← htracked.contents_eq]
    cases outcome <;> rfl
  · cases outcome <;> rfl

/-- A submission that leaves the contents as they are. -/
theorem Submitted.settled {commands : List (Command D)} {after : VulkanImage D}
    (h : Settled image) (hs : Submitted image commands outcome (landing image) after) :
    Settled after ∧ ImageCells.cell after = ImageCells.cell image := by
  have hcell : ImageCells.cell after = ImageCells.cell image := by
    rw [hs.cell, h.landing_eq, ite_self]
    rfl
  refine ⟨⟨hs.tracked,fun hlayout => ?_⟩,hcell⟩
  have hcontents : after.contents = image.contents := congrArg Cell.stored hcell
  rw [hs.layout] at hlayout
  rw [hcontents]
  split at hlayout
  · cases hlayout
  · exact h.2 hlayout

theorem Settled.fields {after : VulkanImage D} (h : Settled image)
    (hcommands : after.commands = image.commands)
    (hlayout : after.currentLayout = image.currentLayout) : Settled after := by
  obtain ⟨⟨device,hdevice⟩,hnone⟩ := h
  have hreplay : after.replay = image.replay := by
    rw [VulkanImage.replay, VulkanImage.replay, hcommands]
  refine ⟨⟨device,hreplay.trans hdevice.replayed,hlayout ▸ hdevice.layout⟩,fun hundefined => ?_⟩
  rw [VulkanImage.contents, hreplay]
  exact hnone (hlayout ▸ hundefined)

/-- An upload that ran has the host's data in the image. -/
theorem uploaded (outcome : Outcome) (h : Tracked image device) :
    ∃ after, image.uploadFromStaging outcome = (decide (outcome = .done),after) ∧
      (∃ device', Tracked after device') ∧
      cell after = { cell image with
        stored := if outcome = .refused then image.contents else some image.staging } ∧
      after.currentLayout = if outcome = .done then .general else image.currentLayout := by
  have hrun : Trace.run Device.exec device
      (transitionImage image.currentLayout .transferDstOptimal ++
        [.store .transferDstOptimal (some image.staging)] ++
        transitionImage .transferDstOptimal .general) = some ⟨.general,some image.staging⟩ := by
    rw [List.append_assoc]
    exact Trace.run_append.mpr ⟨_,exec_transition h .transferDstOptimal (by decide),rfl⟩
  obtain ⟨after,hafter⟩ := submitted outcome h hrun
  exact ⟨after,hafter.result,hafter.tracked,hafter.cell,hafter.layout⟩

def AllSettled (s : Images D) : Prop := ∀ i, Settled (s i)

theorem AllSettled.update {i : Nat} (h : AllSettled s) (hi : Settled image) :
    AllSettled (Function.update s i image) := by
  intro j
  by_cases hj : j = i
  · subst hj
    rw [Function.update_self]
    exact hi
  · rw [Function.update_of_ne hj]
    exact h j

theorem Settled.shaded (contents : Option D) (h : Settled image)
    (hnoted : image.currentLayout = .general) :
    Settled { image with commands := image.commands ++ [.store .general contents] } ∧
      cell { image with commands := image.commands ++ [.store .general contents] } =
        { cell image with stored := contents } := by
  obtain ⟨device,hdevice⟩ := h.1
  have htracked := hdevice.shaded contents hnoted
  refine ⟨⟨⟨_,htracked⟩,fun hundefined => ?_⟩,?_⟩
  · rw [show _ = VkImageLayout.general from hnoted] at hundefined
    cases hundefined
  · rw [cell, htracked.contents_eq]
    rfl

end Cpipe.Proofs.ImageCells
