import Cpipe.Library.Holders
import Cpipe.Runtime.VulkanDevicePlane

namespace Cpipe.Proofs.VulkanDevicePlane
open Cpipe.Runtime.VulkanDevicePlane Library

variable {driver driver' : Driver} {held held' rest : List Handle} {kind : Kind}
  {result : VkResult} {handle : Handle} {l : Loader} {device : PhysicalDevice}

/-! ### The driver -/

/-- The ledger of the driver's calls, with what is open. -/
abbrev Kept (driver : Driver) (held : List Handle) : Prop :=
  Holders.Kept Handle.id driver.next driver.log held

theorem create_ok (hc : driver.create kind result = (.ok handle,driver'))
    (h : Kept driver held) : Kept driver' (handle :: held) := by
  rw [Driver.create] at hc
  split at hc
  · cases hc
    exact h.opened rfl
  · cases hc

theorem create_kind (hc : driver.create kind result = (.ok handle,driver')) :
    handle.kind = kind ∧ result = .success := by
  rw [Driver.create] at hc
  split at hc
  · rename_i hresult
    cases hc
    exact ⟨rfl,hresult⟩
  · cases hc

theorem create_error {failed : VkResult} (hc : driver.create kind result = (.error failed,driver'))
    (h : Kept driver held) : Kept driver' held ∧ result ≠ .success := by
  rw [Driver.create] at hc
  split at hc
  · cases hc
  · rename_i hresult
    cases hc
    exact ⟨h.refused rfl,hresult⟩

theorem destroy_kept (h : Kept driver (held ++ rest)) : Kept (driver.destroy held) rest := h.closes

/-! ### Creation -/

/-- The device a plane is made on: the one that is asked for, or the first eligible one. -/
structure Chosen (l : Loader) (device : PhysicalDevice) : Prop where
  eligible : isEligibleDevice device = true
  place : ∃ i : Nat, l.physicalDevices[i]? = some device ∧
    (0 ≤ requestedDeviceIndex l.deviceIndex → requestedDeviceIndex l.deviceIndex = i) ∧
    (requestedDeviceIndex l.deviceIndex < 0 →
      ∀ j other, j < i → l.physicalDevices[j]? = some other → isEligibleDevice other = false)

theorem selectDevice_chosen (h : selectDevice l = .selected device) : Chosen l device := by
  rw [selectDevice] at h
  split at h
  · cases h
  split at h
  · cases h
  split at h
  · cases h
  simp only at h
  split at h
  · rename_i hrequested
    split at h
    · cases h
    rename_i found hfound
    split at h
    · rename_i heligible
      cases h
      refine ⟨heligible,(requestedDeviceIndex l.deviceIndex).toNat,hfound,fun _ => ?_,
        fun hneg => absurd hrequested (Int.not_le.mpr hneg)⟩
      exact (Int.toNat_of_nonneg hrequested).symm
    · cases h
  · rename_i hrequested
    split at h
    · cases h
    rename_i found hfound
    cases h
    obtain ⟨heligible,before,after,hsplit,hbefore⟩ := List.find?_eq_some_iff_append.mp hfound
    refine ⟨heligible,before.length,?_,fun hpos => absurd hpos hrequested,
      fun _ j other hj hother => ?_⟩
    · rw [hsplit, List.getElem?_append_right (Nat.le_refl _), Nat.sub_self]
      rfl
    · rw [hsplit, List.getElem?_append_left hj] at hother
      simpa using hbefore other (List.mem_of_getElem? hother)

/-- What a plane stands on, in the order the destructor closes it. -/
def roots (plane : Plane) : List Handle := [plane.allocator,plane.device,plane.vulkanInstance]

/-- The queue family is the first that can do both. -/
def FirstQueue (device : PhysicalDevice) (index : Nat) : Prop :=
  (∃ family, device.queueFamilies[index]? = some family ∧ (family.graphics && family.compute)) ∧
    ∀ j family, j < index → device.queueFamilies[j]? = some family →
      (family.graphics && family.compute) = false

theorem eligible_queue (h : isEligibleDevice device = true) :
    FirstQueue device ((findGraphicsComputeQueue device).getD 0) := by
  have hsome : (findGraphicsComputeQueue device).isSome = true := by
    simp only [isEligibleDevice, Bool.and_eq_true] at h
    exact h.2
  obtain ⟨index,hindex⟩ := Option.isSome_iff_exists.mp hsome
  rw [hindex, Option.getD_some]
  obtain ⟨hlt,hboth,hbefore⟩ := List.findIdx?_eq_some_iff_getElem.mp hindex
  refine ⟨⟨_,List.getElem?_eq_getElem hlt,hboth⟩,fun j family hj hfamily => ?_⟩
  have hfound := hbefore j hj
  obtain ⟨_,rfl⟩ := List.getElem?_eq_some_iff.mp hfamily
  simpa using hfound

/-- A plane as the constructor leaves it. -/
structure Fresh (l : Loader) (plane : Plane) : Prop where
  chosen : Chosen l plane.physicalDevice
  queue : FirstQueue plane.physicalDevice plane.queueFamilyIndex
  budget : plane.memoryBudgetBytes = deviceLocalBudget plane.physicalDevice
  pools : plane.commandPools = ∅
  kinds : plane.allocator.kind = .allocator ∧ plane.device.kind = .device ∧
    plane.vulkanInstance.kind = .vulkanInstance

/-- What `create` returns, with what is open besides what was open before. -/
inductive Result (l : Loader) (held : List Handle) :
    VulkanDevicePlaneCreateResult → Driver → Prop
  | made (plane : Plane) (driver : Driver) (fresh : Fresh l plane)
      (kept : Kept driver (roots plane ++ held)) : Result l held ⟨.ok,some plane,""⟩ driver
  | refused (status : Status) (message : String) (driver : Driver)
      (refusal : status = .unsupported ∨ status = .failed)
      (kept : Kept driver held) : Result l held ⟨status,none,message⟩ driver

theorem Result.unsupported (message : String) (h : Kept driver held) :
    Result l held (unsupported message) driver := .refused _ _ _ (.inl rfl) h

/-- How the `try` block ends. -/
def Ended (l : Loader) (held : List Handle) : Exit × Driver → Prop
  | (.returned result,driver) => Result l held result driver
  | (.thrown _ locals,driver) => Kept driver (locals.handles ++ held)

theorem createDevice_ended {vulkanInstance : Handle} (validation : Bool)
    (hkind : vulkanInstance.kind = .vulkanInstance) (hchosen : Chosen l device)
    (h : Kept driver (vulkanInstance :: held)) :
    Ended l held (createDevice l validation vulkanInstance device driver) := by
  rw [createDevice]
  simp only
  split
  · rename_i hdevice
    exact (create_error hdevice h).1
  · rename_i made after hdevice
    have hmade := create_ok hdevice h
    split
    · rename_i hallocator
      exact (create_error hallocator hmade).1
    · rename_i hallocator
      refine Result.made _ _ ⟨hchosen,eligible_queue hchosen.eligible,rfl,rfl,?_,?_,hkind⟩
        (create_ok hallocator hmade)
      · exact (create_kind hallocator).1
      · exact (create_kind hdevice).1

theorem createBody_ended (l : Loader) (h : Kept driver held) :
    Ended l held (createBody l driver) := by
  rw [createBody]
  split
  · exact h
  split
  · exact Result.unsupported _ h
  split
  · exact h
  split
  · rename_i hinstance
    exact Result.unsupported _ (create_error hinstance h).1
  · rename_i hinstance
    exact (create_error hinstance h).1
  · rename_i hinstance
    have hmade := create_ok hinstance h
    split
    · exact hmade
    · exact Result.unsupported _ (destroy_kept hmade)
    · rename_i hselected
      exact createDevice_ended _ (create_kind hinstance).1 (selectDevice_chosen hselected) hmade

theorem create_spec (l : Loader) (h : Kept driver held) :
    Result l held (create l driver).1 (create l driver).2 := by
  rw [create]
  split
  · exact Result.unsupported _ h
  split
  · exact Result.unsupported _ h
  have hbody := createBody_ended l h
  split
  · rename_i hexit
    rw [hexit] at hbody
    exact hbody
  · rename_i message locals after hexit
    rw [hexit] at hbody
    exact Result.refused _ _ _ (.inr rfl) (destroy_kept hbody)

/-! ### When a plane is made -/

/-- Nothing on the way to a plane refuses. -/
structure Ready (l : Loader) : Prop where
  icd : l.icdFilenames ≠ some ""
  index : requestedDeviceIndex l.deviceIndex ≠ -1
  enumerateVersion : l.enumerateVersion = .success
  version : kApiVersion13 ≤ l.version
  layers : l.validationRequested = true → l.countLayers = .success → l.layers ≠ [] →
    l.enumerateLayers = .success
  createInstance : l.createInstance = .success
  countDevices : l.countDevices = .success
  enumerateDevices : l.enumerateDevices = .success
  chosen : ∃ device, Chosen l device
  createDevice : l.createDevice = .success
  createAllocator : l.createAllocator = .success

theorem checkVk_ok {operation : String} : checkVk result operation = .ok () ↔ result = .success := by
  rw [checkVk]
  split <;> simp_all

theorem hasValidationLayer_ok : (∃ found, hasValidationLayer l = .ok found) ↔
    (l.countLayers = .success → l.layers ≠ [] → l.enumerateLayers = .success) := by
  rw [hasValidationLayer]
  split
  · rename_i hnone
    refine ⟨fun _ hcount hlayers => ?_,fun _ => ⟨false,rfl⟩⟩
    rcases hnone with hnone | hnone
    · exact absurd hcount hnone
    · exact absurd hnone hlayers
  · rename_i hsome
    rw [not_or, not_not] at hsome
    constructor
    · intro ⟨found,hfound⟩ _ _
      cases hcheck : checkVk l.enumerateLayers "vkEnumerateInstanceLayerProperties" with
      | error message =>
        rw [hcheck] at hfound
        cases hfound
      | ok _ => exact checkVk_ok.mp hcheck
    · intro h
      rw [checkVk_ok.mpr (h hsome.1 hsome.2)]
      exact ⟨_,rfl⟩

theorem validationEnabled_ok : (∃ enabled, validationEnabled l = .ok enabled) ↔
    (l.validationRequested = true → l.countLayers = .success → l.layers ≠ [] →
      l.enumerateLayers = .success) := by
  rw [validationEnabled]
  split
  · rename_i hrequested
    rw [hasValidationLayer_ok]
    exact ⟨fun h _ => h,fun h => h hrequested⟩
  · rename_i hrequested
    exact ⟨fun _ h => absurd h hrequested,fun _ => ⟨false,rfl⟩⟩

theorem selectDevice_of_chosen (hcount : l.countDevices = .success)
    (henumerate : l.enumerateDevices = .success) (h : Chosen l device) :
    selectDevice l = .selected device := by
  obtain ⟨i,hi,hrequested,hfirst⟩ := h.place
  have hne : l.physicalDevices ≠ [] := by
    intro hnil
    rw [hnil] at hi
    cases hi
  rw [selectDevice, checkVk_ok.mpr hcount, checkVk_ok.mpr henumerate]
  simp only [if_neg hne]
  by_cases hindex : 0 ≤ requestedDeviceIndex l.deviceIndex
  · rw [if_pos hindex, hrequested hindex, Int.toNat_natCast, hi]
    simp only [if_pos h.eligible]
  · have hfind : l.physicalDevices.find? isEligibleDevice = some device := by
      obtain ⟨hlt,hdevice⟩ := List.getElem?_eq_some_iff.mp hi
      refine List.find?_eq_some_iff_getElem.mpr ⟨h.eligible,i,hlt,hdevice,fun j hj => ?_⟩
      have hother := hfirst (Int.not_le.mp hindex) j _ hj
        (List.getElem?_eq_getElem (Nat.lt_trans hj hlt))
      simpa using hother
    rw [if_neg hindex, hfind]

theorem selectDevice_answers (h : selectDevice l = .selected device) :
    l.countDevices = .success ∧ l.enumerateDevices = .success := by
  rw [selectDevice] at h
  split at h
  · cases h
  rename_i hcount
  split at h
  · cases h
  split at h
  · cases h
  rename_i henumerate
  exact ⟨checkVk_ok.mp hcount,checkVk_ok.mp henumerate⟩

theorem create_success (driver : Driver) (kind : Kind) :
    ∃ handle driver', driver.create kind .success = (.ok handle,driver') := ⟨_,_,rfl⟩

theorem Result.isSome_iff {made : VulkanDevicePlaneCreateResult} (h : Result l held made driver) :
    made.plane.isSome ↔ made.status = .ok := by
  cases h with
  | made plane driver fresh kept => exact ⟨fun _ => rfl,fun _ => rfl⟩
  | refused status message driver refusal kept => rcases refusal with rfl | rfl <;> simp

theorem Result.fresh {made : VulkanDevicePlaneCreateResult} {plane : Plane}
    (h : Result l held made driver) (hplane : made.plane = some plane) :
    Fresh l plane ∧ Kept driver (roots plane ++ held) := by
  cases h with
  | made plane' driver fresh kept =>
    cases hplane
    exact ⟨fresh,kept⟩
  | refused status message driver refusal kept => cases hplane

theorem created_of_ready (driver : Driver) (h : Ready l) :
    (create l driver).1.status = .ok := by
  obtain ⟨enabled,henabled⟩ := validationEnabled_ok.mpr h.layers
  obtain ⟨device,hdevice⟩ := h.chosen
  obtain ⟨vulkanInstance,d₁,h₁⟩ := create_success driver .vulkanInstance
  obtain ⟨made,d₂,h₂⟩ := create_success d₁ .device
  obtain ⟨allocator,d₃,h₃⟩ := create_success d₂ .allocator
  rw [create, if_neg h.icd, if_neg h.index, createBody, checkVk_ok.mpr h.enumerateVersion]
  simp only [if_neg (UInt32.not_lt.mpr h.version), henabled, h.createInstance, h₁,
    selectDevice_of_chosen h.countDevices h.enumerateDevices hdevice, createDevice,
    h.createDevice, h₂, h.createAllocator, h₃]

theorem ready_of_created (h : (create l driver).1.status = .ok) : Ready l := by
  rw [create] at h
  split at h
  · cases h
  rename_i hicd
  split at h
  · cases h
  rename_i hindex
  split at h
  · rename_i result after hbody
    rw [createBody] at hbody
    split at hbody
    · cases hbody
    rename_i hversion
    split at hbody
    · cases hbody
      cases h
    rename_i hnew
    split at hbody
    · cases hbody
    rename_i enabled henabled
    split at hbody
    · cases hbody
      cases h
    · cases hbody
    rename_i vulkanInstance d₁ hinstance
    split at hbody
    · cases hbody
    · cases hbody
      cases h
    rename_i device hdevice
    rw [createDevice] at hbody
    simp only at hbody
    split at hbody
    · cases hbody
    rename_i made d₂ hmade
    split at hbody
    · cases hbody
    rename_i allocator d₃ hallocator
    exact ⟨hicd,hindex,checkVk_ok.mp hversion,UInt32.not_lt.mp hnew,
      validationEnabled_ok.mp ⟨enabled,henabled⟩,(create_kind hinstance).2,
      (selectDevice_answers hdevice).1,(selectDevice_answers hdevice).2,
      ⟨device,selectDevice_chosen hdevice⟩,(create_kind hmade).2,(create_kind hallocator).2⟩
  · cases h

/-- Whatever the environment, the loader and the driver answer, `create` gives back a plane on
the device that was asked for, with its three handles open, or no plane and leaves nothing open.
It gives one back exactly when nothing on the way refuses. -/
theorem create_plane_or_nothing (l : Loader) (h : Kept driver held) :
    Result l held (create l driver).1 (create l driver).2 ∧
      ((create l driver).1.plane.isSome ↔ Ready l) := by
  have hspec := create_spec l h
  refine ⟨hspec,?_⟩
  rw [hspec.isSome_iff]
  exact ⟨ready_of_created,created_of_ready driver⟩

/-- A driver with one device that can do all that is asked for. -/
def oneDevice : Loader :=
  { physicalDevices := [⟨kApiVersion13,true,[⟨true,true⟩],[⟨true,1024⟩]⟩] }

theorem create_on_one_device :
    (create oneDevice {}).1.plane.isSome ↔ Ready oneDevice :=
  (create_plane_or_nothing oneDevice (show Kept {} [] from Holders.Kept.start)).2

end Cpipe.Proofs.VulkanDevicePlane
