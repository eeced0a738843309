import Cpipe.Library.Trace
import Mathlib.Logic.Function.Basic

namespace Cpipe.Runtime.VulkanImages
open Library

/-! ### The device -/

inductive VkImageLayout where
  | undefined | general | transferSrcOptimal | transferDstOptimal
deriving DecidableEq, Repr

/-- A command about one image. The old layout is the barrier's first. -/
inductive Command (D : Type) where
  | barrier (old new : VkImageLayout)
  | store (layout : VkImageLayout) (contents : Option D)
  | load (layout : VkImageLayout)

/-- What the device has: a layout, and contents unless they are undefined. -/
structure Device (D : Type) where
  layout : VkImageLayout := .undefined
  contents : Option D := none

variable {D : Type}

/-- A command that names a layout the image is not in breaks a rule. A barrier from the
undefined layout is always allowed and discards the contents. -/
def Device.exec (device : Device D) : Command D → Option (Device D)
  | .barrier old new =>
    if old = .undefined then some ⟨new,none⟩
    else if old = device.layout then some { device with layout := new }
    else none
  | .store layout contents => if layout = device.layout then some { device with contents } else none
  | .load layout => if layout = device.layout then some device else none

/-! ### The image -/

inductive CpuAccess where
  | read | write | readWrite
deriving DecidableEq, Repr

def CpuAccess.writes : CpuAccess → Bool
  | .read => false
  | .write | .readWrite => true

def CpuAccess.reads : CpuAccess → Bool
  | .write => false
  | .read | .readWrite => true

/-- The fields of the class, and the commands that ran so far. -/
structure VulkanImage (D : Type) where
  cpuRead : Bool
  cpuWrite : Bool
  currentLayout : VkImageLayout := .undefined
  staging : D
  lockedAccess : CpuAccess := .read
  locked : Bool := false
  commands : List (Command D) := []

def transitionImage (old new : VkImageLayout) : List (Command D) :=
  if old = new then [] else [.barrier old new]

/-- How `submit_immediate` ends: it returns, it throws before the commands were submitted, or it
throws out of the wait. -/
inductive Outcome where
  | done | refused | unreported
deriving DecidableEq, Repr

namespace VulkanImage

def replay (image : VulkanImage D) : Option (Device D) := Trace.run Device.exec {} image.commands

/-- What the device has in the image. -/
def contents (image : VulkanImage D) : Option D := image.replay.bind Device.contents

/-- The commands run, if they were submitted, and the layout is noted down if that is reported. -/
def submitImmediate (image : VulkanImage D) (commands : List (Command D)) :
    Outcome → Bool × VulkanImage D
  | .refused => (false,image)
  | .unreported => (false,{ image with commands := image.commands ++ commands })
  | .done =>
    (true,{ image with commands := image.commands ++ commands, currentLayout := .general })

def transitionToGeneral (image : VulkanImage D) (outcome : Outcome) : Bool × VulkanImage D :=
  image.submitImmediate (transitionImage image.currentLayout .general) outcome

/-- The staging buffer is made and filled before the submission. -/
def uploadFromStaging (image : VulkanImage D) (outcome : Outcome) : Bool × VulkanImage D :=
  image.submitImmediate (transitionImage image.currentLayout .transferDstOptimal ++
    [.store .transferDstOptimal (some image.staging)] ++
    transitionImage .transferDstOptimal .general) outcome

/-- `stale` is what the staging buffer has where the image's contents are undefined. -/
def downloadToStaging (image : VulkanImage D) (outcome : Outcome) (invalidated : Bool) (stale : D) :
    Bool × VulkanImage D :=
  let (submitted,image) := image.submitImmediate
    (transitionImage image.currentLayout .transferSrcOptimal ++ [.load .transferSrcOptimal] ++
      transitionImage .transferSrcOptimal .general) outcome
  if submitted && invalidated then (true,{ image with staging := image.contents.getD stale })
  else (false,image)

def lockCpu (image : VulkanImage D) (access : CpuAccess) (outcome : Outcome) (invalidated : Bool)
    (stale : D) : Bool × VulkanImage D :=
  let (ready,image) :=
    if access.reads then image.downloadToStaging outcome invalidated stale else (true,image)
  if ready then (true,{ image with lockedAccess := access, locked := true }) else (false,image)

/-- An image whose upload fails stays locked. -/
def unlockCpu (image : VulkanImage D) (outcome : Outcome) : Bool × VulkanImage D :=
  let (uploaded,image) :=
    if image.lockedAccess.writes then image.uploadFromStaging outcome else (true,image)
  if uploaded then (true,{ image with locked := false }) else (false,image)

end VulkanImage

/-! ### Images in use -/

inductive Event (D : Type) where
  | lockCpu (image : Nat) (access : CpuAccess) (outcome : Outcome) (invalidated : Bool) (stale : D)
  | write (image : Nat) (f : D → D)
  | unlockCpu (image : Nat) (outcome : Outcome)
  | transitionToGeneral (image : Nat) (outcome : Outcome)
  | computePass (input output : Nat) (shader : D → D) (first second pass : Outcome)

abbrev Images (D : Type) : Type := Nat → VulkanImage D

/-- The asserted conditions of `lock_cpu`. -/
def lockable (cpuRead cpuWrite locked : Bool) (access : CpuAccess) : Bool :=
  !locked && (!access.reads || cpuRead) && (!access.writes || cpuWrite)

/-- `compute_pass` of the OCIO processor behind its checks. -/
def computePass (s : Images D) (input output : Nat) (shader : D → D)
    (first second pass : Outcome) : Images D :=
  let (ready,image) := (s input).transitionToGeneral first
  let s := Function.update s input image
  if !ready then s
  else
    let (ready,image) := (s output).transitionToGeneral second
    let s := Function.update s output image
    if !ready || pass = .refused then s
    else
      Function.update s output
        { s output with
          commands := (s output).commands ++ [.store .general ((s input).contents.map shader)] }

/-- The host writes through the pointer it has, from the lock to the unlock. -/
def step (s : Images D) : Event D → Option (Images D)
  | .lockCpu i access outcome invalidated stale =>
    if lockable (s i).cpuRead (s i).cpuWrite (s i).locked access then
      some (Function.update s i ((s i).lockCpu access outcome invalidated stale).2)
    else none
  | .write i f =>
    if (s i).locked && (s i).lockedAccess.writes then
      some (Function.update s i { s i with staging := f (s i).staging })
    else none
  | .unlockCpu i outcome =>
    if (s i).locked then some (Function.update s i ((s i).unlockCpu outcome).2) else none
  | .transitionToGeneral i outcome =>
    some (Function.update s i ((s i).transitionToGeneral outcome).2)
  | .computePass input output shader first second pass =>
    some (computePass s input output shader first second pass)

end Cpipe.Runtime.VulkanImages
