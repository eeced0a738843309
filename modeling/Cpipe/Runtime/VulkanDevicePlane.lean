import Cpipe.Core.Manifest
import Cpipe.Library.Ledger
import Mathlib.Algebra.Group.Int.Defs
import Mathlib.Data.List.AList

namespace Cpipe.Runtime.VulkanDevicePlane
open Library.Ledger (Act)

/-! ### The driver -/

inductive VkResult where
  | success | notReady | timeout | outOfHostMemory | outOfDeviceMemory | initializationFailed
  | layerNotPresent | extensionNotPresent | incompatibleDriver | featureNotPresent | unknown
deriving DecidableEq, Repr

def vkResultName : VkResult → String
  | .success => "VK_SUCCESS"
  | .notReady => "VK_NOT_READY"
  | .timeout => "VK_TIMEOUT"
  | .outOfHostMemory => "VK_ERROR_OUT_OF_HOST_MEMORY"
  | .outOfDeviceMemory => "VK_ERROR_OUT_OF_DEVICE_MEMORY"
  | .initializationFailed => "VK_ERROR_INITIALIZATION_FAILED"
  | .layerNotPresent => "VK_ERROR_LAYER_NOT_PRESENT"
  | .extensionNotPresent => "VK_ERROR_EXTENSION_NOT_PRESENT"
  | .incompatibleDriver => "VK_ERROR_INCOMPATIBLE_DRIVER"
  | .featureNotPresent => "VK_ERROR_FEATURE_NOT_PRESENT"
  | .unknown => "VK_ERROR_UNKNOWN"

inductive Kind where
  | vulkanInstance | device | allocator | commandPool | commandBuffer | fence | image | buffer
deriving DecidableEq, Repr

/-- The driver gives out each number once. -/
structure Handle where
  kind : Kind
  id : Nat
deriving DecidableEq, Repr

structure Driver where
  next : Nat := 0
  log : List (Handle × Act) := []

namespace Driver

def record (driver : Driver) (handle : Handle) (act : Act) : Driver :=
  { driver with log := driver.log ++ [(handle,act)] }

/-- A call that makes an object. -/
def create (driver : Driver) (kind : Kind) (result : VkResult) : Except VkResult Handle × Driver :=
  let handle : Handle := ⟨kind,driver.next⟩
  if result = .success then (.ok handle,{ driver.record handle .opened with next := driver.next+1 })
  else (.error result,{ driver.record handle .refused with next := driver.next+1 })

def destroy (driver : Driver) (handles : List Handle) : Driver :=
  { driver with log := driver.log ++ Library.Ledger.closes handles }

end Driver

/-! ### Devices -/

structure QueueFamily where
  graphics : Bool
  compute : Bool
deriving DecidableEq, Repr

structure MemoryHeap where
  deviceLocal : Bool
  size : UInt64
deriving DecidableEq, Repr

structure PhysicalDevice where
  apiVersion : UInt32
  timelineSemaphore : Bool
  queueFamilies : List QueueFamily
  memoryHeaps : List MemoryHeap
deriving DecidableEq, Repr

def deviceLocalBudget (device : PhysicalDevice) : UInt64 :=
  device.memoryHeaps.foldl (fun total heap => if heap.deviceLocal then total + heap.size else total) 0

/-- `none` is `VK_QUEUE_FAMILY_IGNORED`. -/
def findGraphicsComputeQueue (device : PhysicalDevice) : Option Nat :=
  device.queueFamilies.findIdx? (fun family => family.graphics && family.compute)

/-- `VK_API_VERSION_1_3`. -/
def kApiVersion13 : UInt32 := 0x403000

def isEligibleDevice (device : PhysicalDevice) : Bool :=
  !decide (device.apiVersion < kApiVersion13) && device.timelineSemaphore &&
    (findGraphicsComputeQueue device).isSome

/-- The digits of `from_chars`, which takes no blank and no plus. -/
def fromDigits (text : List Char) : Option Nat :=
  if text.isEmpty || !text.all Char.isDigit then none
  else some (text.foldl (fun n c => 10*n + (c.toNat - '0'.toNat)) 0)

def fromChars : List Char → Option Int
  | '-' :: text => (fromDigits text).map (fun n => -(n : Int))
  | text => (fromDigits text).map (fun n => (n : Int))

def requestedDeviceIndex (env : Option String) : Int :=
  match env.bind (fun text => fromChars text.toList) with
  | some value => if -2^31 ≤ value ∧ value < 2^31 then value else -2
  | none => -2

/-! ### Creation -/

/-- What the environment, the loader and the driver answer. -/
structure Loader where
  icdFilenames : Option String := none
  deviceIndex : Option String := none
  validationRequested : Bool := false
  enumerateVersion : VkResult := .success
  version : UInt32 := kApiVersion13
  countLayers : VkResult := .success
  enumerateLayers : VkResult := .success
  layers : List String := []
  createInstance : VkResult := .success
  countDevices : VkResult := .success
  enumerateDevices : VkResult := .success
  physicalDevices : List PhysicalDevice := []
  createDevice : VkResult := .success
  createAllocator : VkResult := .success

/-- The members that outlive the constructor. -/
structure Plane where
  vulkanInstance : Handle
  physicalDevice : PhysicalDevice
  device : Handle
  allocator : Handle
  queueFamilyIndex : Nat
  memoryBudgetBytes : UInt64
  validationRequested : Bool
  validationEnabled : Bool
  commandPools : AList (fun _ : Nat => Handle) := ∅

structure VulkanDevicePlaneCreateResult where
  status : Status
  plane : Option Plane := none
  message : String := ""

def unsupported (message : String) : VulkanDevicePlaneCreateResult := ⟨.unsupported,none,message⟩

/-- The text of an exception of `check_vk`. -/
def failure (operation : String) (result : VkResult) : String :=
  operation ++ " failed: " ++ vkResultName result

def checkVk (result : VkResult) (operation : String) : Except String Unit :=
  if result = .success then .ok () else .error (failure operation result)

def kValidationLayer : String := "VK_LAYER_KHRONOS_validation"

def hasValidationLayer (l : Loader) : Except String Bool :=
  if l.countLayers ≠ .success ∨ l.layers = [] then .ok false
  else do
    checkVk l.enumerateLayers "vkEnumerateInstanceLayerProperties"
    return l.layers.contains kValidationLayer

/-- Whether validation is enabled. The layers are looked for only when it is requested. -/
def validationEnabled (l : Loader) : Except String Bool :=
  if l.validationRequested then hasValidationLayer l else .ok false

/-- The local handles of `create`, and what its handler of exceptions destroys. -/
structure Locals where
  vulkanInstance : Option Handle := none
  device : Option Handle := none
  allocator : Option Handle := none

def Locals.handles (locals : Locals) : List Handle :=
  locals.allocator.toList ++ locals.device.toList ++ locals.vulkanInstance.toList

/-- How the body of `create` ends: it returns, or it throws with its locals as they are. -/
inductive Exit where
  | returned (result : VulkanDevicePlaneCreateResult)
  | thrown (message : String) (locals : Locals)

/-- The choice of a device: a refusal returns, an error of the driver throws. -/
inductive Selection where
  | refused (message : String)
  | thrown (message : String)
  | selected (device : PhysicalDevice)

def selectDevice (l : Loader) : Selection :=
  match checkVk l.countDevices "vkEnumeratePhysicalDevices" with
  | .error message => .thrown message
  | .ok _ =>
    if l.physicalDevices = [] then .refused "no Vulkan physical devices found"
    else
      match checkVk l.enumerateDevices "vkEnumeratePhysicalDevices" with
      | .error message => .thrown message
      | .ok _ =>
        let requested := requestedDeviceIndex l.deviceIndex
        if 0 ≤ requested then
          match l.physicalDevices[requested.toNat]? with
          | none => .refused "requested Vulkan device is unavailable or ineligible"
          | some device =>
            if isEligibleDevice device then .selected device
            else .refused "requested Vulkan device is unavailable or ineligible"
        else
          match l.physicalDevices.find? isEligibleDevice with
          | none =>
            .refused "no Vulkan 1.3 graphics+compute device with timeline semaphore found"
          | some device => .selected device

/-- Behind the choice: the logical device and the allocator. -/
def createDevice (l : Loader) (validation : Bool) (vulkanInstance : Handle)
    (selected : PhysicalDevice) (driver : Driver) : Exit × Driver :=
  let locals : Locals := { vulkanInstance := some vulkanInstance }
  match driver.create .device l.createDevice with
  | (.error result,driver) => (.thrown (failure "vkCreateDevice" result) locals,driver)
  | (.ok device,driver) =>
    match driver.create .allocator l.createAllocator with
    | (.error result,driver) =>
      (.thrown (failure "vmaCreateAllocator" result) { locals with device := some device },driver)
    | (.ok allocator,driver) =>
      (.returned { status := .ok
                   plane := some {
                    vulkanInstance, physicalDevice := selected, device, allocator
                    queueFamilyIndex := (findGraphicsComputeQueue selected).getD 0
                    memoryBudgetBytes := deviceLocalBudget selected
                    validationRequested := l.validationRequested
                    validationEnabled := validation } },driver)

/-- The `try` block. -/
def createBody (l : Loader) (driver : Driver) : Exit × Driver :=
  match checkVk l.enumerateVersion "vkEnumerateInstanceVersion" with
  | .error message => (.thrown message {},driver)
  | .ok _ =>
    if l.version < kApiVersion13 then
      (.returned (unsupported "Vulkan loader does not support API 1.3"),driver)
    else
      match validationEnabled l with
      | .error message => (.thrown message {},driver)
      | .ok validation =>
        match driver.create .vulkanInstance l.createInstance with
        | (.error .incompatibleDriver,driver) =>
          (.returned (unsupported (failure "vkCreateInstance" .incompatibleDriver)),driver)
        | (.error result,driver) => (.thrown (failure "vkCreateInstance" result) {},driver)
        | (.ok vulkanInstance,driver) =>
          match selectDevice l with
          | .thrown message => (.thrown message { vulkanInstance := some vulkanInstance },driver)
          | .refused message => (.returned (unsupported message),driver.destroy [vulkanInstance])
          | .selected device => createDevice l validation vulkanInstance device driver

def create (l : Loader) (driver : Driver) : VulkanDevicePlaneCreateResult × Driver :=
  if l.icdFilenames = some "" then (unsupported "VK_ICD_FILENAMES is empty",driver)
  else if requestedDeviceIndex l.deviceIndex = -1 then
    (unsupported "CPIPE_VULKAN_DEVICE_INDEX disables Vulkan",driver)
  else
    match createBody l driver with
    | (.returned result,driver) => (result,driver)
    | (.thrown message locals,driver) => (⟨.failed,none,message⟩,driver.destroy locals.handles)

/-! ### Threads and owners -/

abbrev Thread := Nat

/-- What a call of `submit_immediate` does next. -/
inductive Stage where
  | commandPool | allocate | begin | record | finish | createFence | submit | wait | destroyFence
  | free
deriving DecidableEq, Repr

structure Call where
  stage : Stage := .commandPool
  commandBuffer : Option Handle := none
  fence : Option Handle := none
deriving DecidableEq, Repr

def Call.handles (call : Call) : List Handle := call.fence.toList ++ call.commandBuffer.toList

/-- A plane, the pointers to it and the calls made through them. An object holds a pointer and
a handle, or nothing once it was moved from. `lost` is no field of the source: it has the
handles whose last variable is gone. -/
structure State where
  driver : Driver := {}
  plane : Option Plane := none
  owners : Nat := 0
  objects : AList (fun _ : Nat => Option Handle) := ∅
  calls : AList (fun _ : Thread => Call) := ∅
  lost : List Handle := []

/-- What a constructor of an object is called for, with the answers of the driver. A buffer is
mapped unless its memory comes mapped. -/
inductive Construction where
  | commandBuffer (thread : Thread) (pool allocate : VkResult)
  | image (create : VkResult)
  | buffer (create map : VkResult)

inductive Event where
  | share
  | release
  | enter (thread : Thread)
  | advance (thread : Thread) (result : VkResult)
  | construct (object : Nat) (what : Construction)
  | moveAssign (target source : Nat)
  | destroy (object : Nat)

namespace State

def objectHandles (s : State) : List Handle := s.objects.entries.flatMap (fun e => e.2.toList)

/-- The pointers to the plane. -/
def users (s : State) : Nat := s.owners + s.objectHandles.length

def isCommandBuffer (handle : Handle) : Bool := handle.kind = .commandBuffer

/-- The destructor. A pool takes the command buffers with it that nobody freed. -/
def tearDown (s : State) (plane : Plane) : State :=
  { s with
    driver := s.driver.destroy (s.lost.filter isCommandBuffer ++
      plane.commandPools.entries.map Sigma.snd ++ [plane.allocator,plane.device,plane.vulkanInstance])
    plane := none
    lost := s.lost.filter (fun h => !isCommandBuffer h) }

/-- A pointer is gone. No call is made through a pointer that ends before it. -/
def expire (s : State) : Option State :=
  match s.plane with
  | none => some s
  | some plane =>
    if 0 < s.users then some s
    else if s.calls.entries = [] then some (s.tearDown plane)
    else none

/-- `command_pool_for_current_thread`. -/
def commandPoolForCurrentThread (s : State) (plane : Plane) (thread : Thread) (result : VkResult) :
    Except VkResult Handle × State :=
  match plane.commandPools.lookup thread with
  | some pool => (.ok pool,s)
  | none =>
    match s.driver.create .commandPool result with
    | (.error failed,driver) => (.error failed,{ s with driver })
    | (.ok pool,driver) =>
      (.ok pool,{ s with
        driver
        plane := some { plane with commandPools := plane.commandPools.insert thread pool } })

/-- The call is left by an exception. Its locals have no destructors. -/
def throwCall (s : State) (thread : Thread) (call : Call) : State :=
  { s with calls := s.calls.erase thread, lost := call.handles ++ s.lost }

def setCall (s : State) (thread : Thread) (call : Call) : State :=
  { s with calls := s.calls.insert thread call }

/-- A driver call that makes one of the locals. -/
def makeLocal (s : State) (thread : Thread) (call : Call) (kind : Kind) (result : VkResult)
    (keep : Handle → Call) : State :=
  match s.driver.create kind result with
  | (.error _,driver) => { s with driver }.throwCall thread call
  | (.ok handle,driver) => { s with driver }.setCall thread (keep handle)

/-- A driver call that uses locals. -/
def useLocals (s : State) (thread : Thread) (call : Call) (handles : List Handle)
    (result : VkResult) (next : Stage) : State :=
  let used := { s with driver := handles.foldl (fun d h => d.record h .used) s.driver }
  if result = .success then used.setCall thread { call with stage := next }
  else used.throwCall thread call

/-- One step of `submit_immediate`. -/
def advance (s : State) (plane : Plane) (thread : Thread) (call : Call) (result : VkResult) : State :=
  match call.stage with
  | .commandPool =>
    match s.commandPoolForCurrentThread plane thread result with
    | (.error _,t) => t.throwCall thread call
    | (.ok _,t) => t.setCall thread { call with stage := .allocate }
  | .allocate =>
    s.makeLocal thread call .commandBuffer result
      (fun h => { call with stage := .begin, commandBuffer := some h })
  | .begin => s.useLocals thread call call.commandBuffer.toList result .record
  | .record => s.useLocals thread call call.commandBuffer.toList result .finish
  | .finish => s.useLocals thread call call.commandBuffer.toList result .createFence
  | .createFence =>
    s.makeLocal thread call .fence result (fun h => { call with stage := .submit, fence := some h })
  | .submit =>
    s.useLocals thread call (call.commandBuffer.toList ++ call.fence.toList) result .wait
  | .wait => s.useLocals thread call call.fence.toList result .destroyFence
  | .destroyFence =>
    { s with driver := s.driver.destroy call.fence.toList }.setCall thread
      { call with stage := .free, fence := none }
  | .free =>
    { s with
      driver := s.driver.destroy call.commandBuffer.toList
      calls := s.calls.erase thread }

/-- The constructors of `VulkanCommandBuffer`, `VulkanImage` and `VulkanBuffer`. -/
def construct (s : State) (plane : Plane) (object : Nat) : Construction → State
  | .commandBuffer thread pool allocate =>
    match s.commandPoolForCurrentThread plane thread pool with
    | (.error _,t) => t
    | (.ok _,t) =>
      match t.driver.create .commandBuffer allocate with
      | (.error _,driver) => { t with driver }
      | (.ok handle,driver) => { t with driver, objects := t.objects.insert object (some handle) }
  | .image create =>
    match s.driver.create .image create with
    | (.error _,driver) => { s with driver }
    | (.ok handle,driver) => { s with driver, objects := s.objects.insert object (some handle) }
  | .buffer create map =>
    match s.driver.create .buffer create with
    | (.error _,driver) => { s with driver }
    | (.ok handle,driver) =>
      -- the destructor of an object that was not made does not run
      if map = .success then { s with driver, objects := s.objects.insert object (some handle) }
      else { s with driver, lost := handle :: s.lost }

/-- The handle of an object goes back to the driver. -/
def freeObject (s : State) (object : Nat) (handle : Option Handle) : State :=
  { s with
    driver := s.driver.destroy handle.toList
    objects := s.objects.erase object }

def step (s : State) : Event → Option State
  | .share => if 0 < s.owners then some { s with owners := s.owners+1 } else none
  | .release =>
    if 0 < s.owners then expire { s with owners := s.owners-1 } else none
  | .enter thread =>
    if s.plane.isSome ∧ thread ∉ s.calls then some (s.setCall thread {}) else none
  | .advance thread result =>
    match s.plane, s.calls.lookup thread with
    | some plane, some call => some (s.advance plane thread call result)
    | _, _ => none
  | .construct object what =>
    match s.plane with
    | some plane => if object ∈ s.objects then none else some (s.construct plane object what)
    | none => none
  | .moveAssign target source =>
    match s.objects.lookup target, s.objects.lookup source with
    | some mine, some other =>
      if !(mine.toList ++ other.toList).all isCommandBuffer then none
      else if target = source then some s
      else
        let freed := s.freeObject target mine
        expire { freed with
          objects := (freed.objects.insert source none).insert target other }
    | _, _ => none
  | .destroy object =>
    match s.objects.lookup object with
    | some handle => expire (s.freeObject object handle)
    | none => none

end State

/-- A plane that was just created, with one pointer to it. -/
def start (plane : Plane) (driver : Driver) : State :=
  { driver, plane := some plane, owners := 1 }

end Cpipe.Runtime.VulkanDevicePlane
