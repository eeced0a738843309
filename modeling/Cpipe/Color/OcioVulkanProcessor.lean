import Cpipe.Core.Layout
import Cpipe.Core.Manifest
import Cpipe.Library.Trace
import Mathlib.Data.List.AList

namespace Cpipe.Color
open Cpipe.Compute

/-! ### The driver -/

abbrev Device := Nat

inductive Kind where
  | setLayout
  | pipelineLayout
  | shader
  | pipeline
  | imageView
  | descriptorPool
  | timeline
  | commandBuffer
deriving DecidableEq, Repr

/-- A Vulkan object. The driver gives out each number once. -/
structure Handle where
  device : Device
  kind : Kind
  id : Nat
deriving DecidableEq, Repr

/-- What the driver sees. A submission names the objects its command buffer uses and the
timeline it signals; the device reaches the value at some later time. -/
inductive Call where
  | created (handle : Handle)
  | destroyed (handle : Handle)
  | submitted (uses : List Handle) (timeline : Handle)
  | reached (timeline : Handle)
deriving DecidableEq, Repr

structure Driver where
  next : Nat := 0
  log : List Call := []
deriving Repr

namespace OcioVulkanProcessor

/-- A successful `vkCreate*` call. -/
def create (driver : Driver) (device : Device) (kind : Kind) : Handle × Driver :=
  (⟨device,kind,driver.next⟩,
    ⟨driver.next+1,driver.log ++ [.created ⟨device,kind,driver.next⟩]⟩)

def destroyHandles (driver : Driver) (handles : List Handle) : Driver :=
  { driver with log := driver.log ++ handles.map .destroyed }

/-! ### Pipelines -/

/-- A null handle is `none`. -/
structure PipelineResources where
  device : Option Device := none
  setLayout : Option Nat := none
  pipelineLayout : Option Nat := none
  shader : Option Nat := none
  pipeline : Option Nat := none
deriving DecidableEq, Repr

/-- The handles `destroy` gives to the driver, in its order and on the stored device. -/
def PipelineResources.handles (r : PipelineResources) : List Handle :=
  match r.device with
  | none => []
  | some device =>
    (r.pipeline.map (Handle.mk device .pipeline)).toList ++
    (r.shader.map (Handle.mk device .shader)).toList ++
    (r.pipelineLayout.map (Handle.mk device .pipelineLayout)).toList ++
    (r.setLayout.map (Handle.mk device .setLayout)).toList

structure Processor where
  pipelines : AList (fun _ : PixelFormat => PipelineResources) := ∅
  driver : Driver := {}

/-- The places where `pipelineFor` may throw. `source` is `make_compute_shader` and the
compilation of its text. -/
inductive Stage where
  | setLayout
  | pipelineLayout
  | source
  | shader
  | pipeline
deriving DecidableEq, Repr

/-- The format the compute shader declares for its output image. -/
inductive StorageFormat where
  | rgba8
  | rgba16
  | rgba16f
  | rgba32f
deriving DecidableEq, Repr

/-- `none` is the exception for an unsupported format. -/
def storageFormat : PixelFormat → Option StorageFormat
  | .r8g8b8a8Unorm => some .rgba8
  | .r16g16b16a16Unorm => some .rgba16
  | .r16g16b16a16Sfloat => some .rgba16f
  | .r32g32b32a32Sfloat => some .rgba32f
  | _ => none

/-- A stage that does not throw stores its handle in the entry. -/
def createStage (device : Device) (stage : Stage) (r : PipelineResources) (driver : Driver) :
    PipelineResources × Driver :=
  match stage with
  | .setLayout =>
    let made := create driver device .setLayout
    ({ r with setLayout := some made.1.id },made.2)
  | .pipelineLayout =>
    let made := create driver device .pipelineLayout
    ({ r with pipelineLayout := some made.1.id },made.2)
  | .source => (r,driver)
  | .shader =>
    let made := create driver device .shader
    ({ r with shader := some made.1.id },made.2)
  | .pipeline =>
    let made := create driver device .pipeline
    ({ r with pipeline := some made.1.id },made.2)

/-- Stages up to the first that throws. What was stored stays, and a `vkCreate*` call that
fails leaves its variable as it was. -/
def createStages (fails : Stage → Bool) (device : Device) :
    List Stage → PipelineResources → Driver → Bool × PipelineResources × Driver
  | [], r, driver => (true,r,driver)
  | stage :: rest, r, driver =>
    if fails stage then (false,r,driver)
    else
      let made := createStage device stage r driver
      createStages fails device rest made.1 made.2

def createDescriptorSetLayout : List Stage := [.setLayout]

def createPipelineLayout : List Stage := [.pipelineLayout]

def createShaderAndPipeline : List Stage := [.source,.shader,.pipeline]

/-- A format without a storage format has no shader source. -/
def throws (fails : Stage → Bool) (format : PixelFormat) (stage : Stage) : Bool :=
  fails stage || (stage == .source && (storageFormat format).isNone)

/-- `none` is the exception of a stage. -/
def pipelineFor (fails : Stage → Bool) (device : Device) (format : PixelFormat) (p : Processor) :
    Processor × Option PipelineResources :=
  let entry := (p.pipelines.lookup format).getD {}
  if entry.pipeline.isSome ∧ entry.device = some device then (p,some entry)
  else
    let start : PipelineResources × Driver :=
      if entry.pipeline.isSome then ({},destroyHandles p.driver entry.handles)
      else (entry,p.driver)
    let result := createStages (throws fails format) device
      (createDescriptorSetLayout ++ createPipelineLayout ++ createShaderAndPipeline)
      { start.1 with device := some device } start.2
    (⟨p.pipelines.insert format result.2.1,result.2.2⟩,
      if result.1 then some result.2.1 else none)

/-- `~Impl`. -/
def tearDown (p : Processor) : Processor :=
  ⟨∅,destroyHandles p.driver (p.pipelines.entries.flatMap (fun e => e.2.handles))⟩

/-! ### A compute pass -/

structure Image where
  device : Device
  layout : BufferLayout

/-- The places of `compute_pass` behind `pipeline_for` that may throw, with what they create. -/
inductive Place where
  | transition
  | inputView
  | outputView
  | descriptorPool
  | allocate
  | timeline
  | commandBuffer
  | record
  | submit
deriving DecidableEq, Repr

def places : List (Place × Option Kind) :=
  [(.transition,none),(.inputView,some .imageView),(.outputView,some .imageView),
    (.descriptorPool,some .descriptorPool),(.allocate,none),(.timeline,some .timeline),
    (.commandBuffer,some .commandBuffer),(.record,none),(.submit,none)]

/-- The locals made up to the first place that throws, the last one first. -/
def createLocals (fails : Place → Bool) (device : Device) :
    List (Place × Option Kind) → List Handle → Driver → Bool × List Handle × Driver
  | [], made, driver => (true,made,driver)
  | (place,kind) :: rest, made, driver =>
    if fails place then (false,made,driver)
    else
      match kind with
      | none => createLocals fails device rest made driver
      | some kind =>
        let next := create driver device kind
        createLocals fails device rest (next.1 :: made) next.2

/-- A call of `compute_pass`: its arguments and where it throws. -/
structure Pass where
  plane : Option Device
  input : Image
  output : Image
  stageFails : Stage → Bool := fun _ => false
  placeFails : Place → Bool := fun _ => false

/-- The locals of a pass that waits for its submission. -/
structure Wait where
  locals : List Handle
  timeline : Handle
deriving Repr

structure State where
  processor : Processor := {}
  wait : Option Wait := none
  status : Option Status := none

def State.log (s : State) : List Call := s.processor.driver.log

def State.append (s : State) (calls : List Call) : State :=
  { s with
    processor := { s.processor with
      driver := { s.processor.driver with log := s.log ++ calls } } }

/-- The checks in front of the work. -/
def refuses (pass : Pass) : Option Status :=
  match pass.plane with
  | none => some .badIndex
  | some device =>
    if pass.input.device ≠ device ∨ pass.output.device ≠ device then some .badIndex
    else if pass.input.layout.format ≠ .r16g16b16a16Sfloat ∨
        pass.input.layout.dims.toList.getD 0 0 ≠ pass.output.layout.dims.toList.getD 0 0 ∨
        pass.input.layout.dims.toList.getD 1 0 ≠ pass.output.layout.dims.toList.getD 1 0 then
      some .badPrecision
    else none

/-- From the pipeline to the submission. A throw destroys the locals made so far. -/
def submitPass (pass : Pass) (device : Device) (processor : Processor) : State :=
  let found := pipelineFor pass.stageFails device pass.output.layout.format processor
  match found.2 with
  | none => { processor := found.1, status := some .failed }
  | some r =>
    let made := createLocals pass.placeFails device places [] found.1.driver
    match made.1, made.2.1.find? (fun h => h.kind = .timeline) with
    | true, some timeline =>
      let uses := (r.pipeline.map (Handle.mk device .pipeline)).toList ++
        made.2.1.filter (fun h => h.kind ≠ .timeline)
      { processor := { found.1 with
          driver := { made.2.2 with log := made.2.2.log ++ [.submitted uses timeline] } }
        wait := some ⟨made.2.1,timeline⟩ }
    | _, _ =>
      { processor := { found.1 with driver := destroyHandles made.2.2 made.2.1 }
        status := some .failed }

/-- Calls of `compute_pass`, the progress of the device, the end of a wait and the end of the
processor. -/
inductive Event where
  | computePass (pass : Pass)
  | reach (timeline : Handle)
  | endWait (success : Bool)
  | tearDown

def signals (timeline : Handle) : Call → Bool
  | .submitted _ signalled => signalled = timeline
  | _ => false

def step (s : State) : Event → Option State
  | .computePass pass =>
    match s.wait with
    | some _ => none
    | none =>
      match pass.plane, refuses pass with
      | some device, none => some (submitPass pass device s.processor)
      | _, refused => some { s with status := refused }
  | .reach timeline =>
    if s.log.any (signals timeline) then some (s.append [.reached timeline]) else none
  -- `vkWaitSemaphores` succeeds when the value is reached; a timeout or an error ends the wait too
  | .endWait success =>
    match s.wait with
    | none => none
    | some w =>
      if success = true ∧ .reached w.timeline ∉ s.log then none
      else
        let done := s.append (w.locals.map .destroyed)
        some { done with wait := none, status := some (if success then .ok else .failed) }
  | .tearDown =>
    match s.wait with
    | some _ => none
    | none => some { s with processor := tearDown s.processor }

end OcioVulkanProcessor
end Cpipe.Color
