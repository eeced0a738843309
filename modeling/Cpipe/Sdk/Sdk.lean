import Cpipe.Core.Manifest

namespace Cpipe.Sdk

/-! ### The host as a plugin sees it -/

/-- A pointer that may be null. -/
abbrev Pointer := Option Nat

/-- A float as its bits. -/
abbrev Float32Bits := UInt32

inductive CpuAccess where
  | read | write | readWrite
deriving DecidableEq, Repr

/-- A function of a suite. It may keep a state of its own and answers with a status and
what it stores through its out-pointers. -/
abbrev Entry (σ α : Type) := σ → (Status × α) × σ

/-- `cpipe_calibration_view` as the host fills it. -/
structure RawCalibration (σ : Type) where
  hasCfa : Bool := false
  cfaRepeat : List UInt8 := []
  cfaPattern : List UInt8 := []
  blackLevel : List Float32Bits := []
  whiteLevel : UInt32 := 0
  hasLinearizationTable : Bool := false
  getLinearizationTable : Option (Nat → Entry σ (Nat × List UInt16)) := none
  hasColorMatrix1 : Bool := false
  colorMatrix1 : List Float32Bits := []
  hasColorMatrix2 : Bool := false
  colorMatrix2 : List Float32Bits := []
  hasForwardMatrix1 : Bool := false
  forwardMatrix1 : List Float32Bits := []
  hasForwardMatrix2 : Bool := false
  forwardMatrix2 : List Float32Bits := []
  calibrationIlluminant1 : UInt16 := 0
  calibrationIlluminant2 : UInt16 := 0
  getNoiseProfile : Option (Nat → Entry σ (Nat × List (Float32Bits × Float32Bits))) := none

structure Rect2u where
  x : UInt32
  y : UInt32
  width : UInt32
  height : UInt32
deriving DecidableEq, Repr

/-- The entries the wrappers call. An absent entry is a null function pointer. -/
structure BufferSuite (σ : Type) where
  getDims : Option (Nat → Entry σ (List UInt32)) := none
  getFormat : Option (Nat → Entry σ Int) := none
  lockCpu : Option (Nat → CpuAccess → Entry σ Pointer) := none
  unlockCpu : Option (Nat → Entry σ Unit) := none
  flushCpuWrites : Option (Nat → Entry σ Unit) := none
  getMetadata : Option (Pointer → Entry σ Pointer) := none

structure MetadataSuite (σ : Type) where
  getCalibration : Option (Nat → Entry σ (RawCalibration σ)) := none
  getCapture : Option (Nat → Entry σ (List Float32Bits)) := none
  getCsRole : Option (Nat → Entry σ (Option String)) := none
  getActiveArea : Option (Nat → Entry σ Rect2u) := none
  hasAppliedStep : Option (Nat → String → Entry σ Bool) := none
  listAppliedSteps : Option (Nat → Nat → Entry σ (Nat × List (Option String))) := none
  getBlob : Option (Nat → String → Entry σ (Pointer × Nat)) := none

structure MetadataBuilderSuite (σ : Type) where
  setCsRole : Option (Nat → String → Entry σ Unit) := none
  addAppliedStep : Option (Nat → String → Entry σ Unit) := none
  setBlob : Option (Nat → String → List UInt8 → Entry σ Unit) := none
  setAsShotNeutral : Option (Nat → List Float32Bits → Entry σ Unit) := none
  clearCfa : Option (Nat → Entry σ Unit) := none
  setCfa : Option (Nat → List UInt8 → List UInt8 → Entry σ Unit) := none

structure ComputeSuite (σ : Type) where
  submitHalide : Option (Pointer → String → List Pointer → List Pointer → Entry σ Unit) := none
  submitHalideWithParams :
    Option (Pointer → String → List Pointer → List Pointer → List UInt8 → Entry σ Unit) := none
  submitOcioProcessor : Option (Pointer → Pointer → Pointer → Pointer → Entry σ Unit) := none

structure ParamSuite (σ : Type) where
  getEnum : Option (Nat → String → Entry σ (Option String)) := none

/-- The host with the suites it hands out. Any other suite it does not have is one
without entries. -/
structure Host (σ : Type) where
  buffer : BufferSuite σ := {}
  metadata : Option (MetadataSuite σ) := none
  metadataBuilder : MetadataBuilderSuite σ := {}
  compute : ComputeSuite σ := {}
  param : ParamSuite σ := {}
  getOcioProcessor : Option (String → String → String → σ → Pointer × σ) := none

/-! ### Results -/

abbrev Result (α : Type) := Except Error α

variable {σ α β : Type}

/-- An entry with its handle, if neither is null. -/
def bound (entry : Option (Nat → β)) (impl : Pointer) : Option β :=
  match entry, impl with
  | some f, some handle => some (f handle)
  | _, _ => none

/-- The common body of the wrappers: an error where the entry is missing, an error with the
host's status where the call fails or its answer is not `valid`, else the answer. -/
def access (entry : Option (Entry σ α)) (valid : α → Bool) (unavailable : Error)
    (failed : String) : σ → Result α × σ := fun s =>
  match entry with
  | none => (.error unavailable,s)
  | some f =>
    if (f s).1.1 ≠ .ok ∨ !valid (f s).1.2 then (.error ⟨(f s).1.1,failed⟩,(f s).2)
    else (.ok (f s).1.2,(f s).2)

/-- The next call, where the one before it gave a value. -/
def andThen (first : σ → Result α × σ) (next : α → σ → Result β × σ) : σ → Result β × σ := fun s =>
  match (first s).1 with
  | .error e => (.error e,(first s).2)
  | .ok a => next a (first s).2

def give (a : α) : σ → Result α × σ := fun s => (.ok a,s)

/-! ### BufferMetadata -/

def metadataUnavailable : Error := ⟨.needMetadata,"metadata suite unavailable"⟩

structure CalibrationView where
  hasCfa : Bool
  cfaRepeat : List UInt8
  cfaPattern : List UInt8
  blackLevel : List Float32Bits
  whiteLevel : UInt32
  linearizationTable : List UInt16
  colorMatrix1 : Option (List Float32Bits)
  colorMatrix2 : Option (List Float32Bits)
  forwardMatrix1 : Option (List Float32Bits)
  forwardMatrix2 : Option (List Float32Bits)
  calibrationIlluminant1 : UInt16
  calibrationIlluminant2 : UInt16
  noiseProfile : List (Float32Bits × Float32Bits)

/-- The pairs the host reports, asked for their number first. -/
def fillNoiseProfile (raw : RawCalibration σ) : σ → Result (List (Float32Bits × Float32Bits)) × σ :=
  match raw.getNoiseProfile with
  | none => give []
  | some entry =>
    andThen (access (some (entry 0)) (fun _ => true) metadataUnavailable
      "get_noise_profile count failed") (fun counted =>
        if counted.1 = 0 then give []
        else
          andThen (access (some (entry counted.1)) (fun _ => true) metadataUnavailable
            "get_noise_profile read failed") (fun read => give (read.2.take read.1)))

def readLinearizationTable (raw : RawCalibration σ) : σ → Result (List UInt16) × σ :=
  match raw.hasLinearizationTable, raw.getLinearizationTable with
  | true, some entry =>
    andThen (access (some (entry 0)) (fun _ => true) metadataUnavailable
      "get_linearization_table count failed") (fun counted =>
        if counted.1 = 0 then give []
        else
          andThen (access (some (entry counted.1)) (fun _ => true) metadataUnavailable
            "get_linearization_table read failed") (fun read => give (read.2.take read.1)))
  | _, _ => give []

def calibration (host : Host σ) (impl : Pointer) : σ → Result CalibrationView × σ :=
  andThen (access (bound (host.metadata.bind (·.getCalibration)) impl) (fun _ => true)
    metadataUnavailable "get_calibration failed") (fun raw =>
  andThen (fillNoiseProfile raw) (fun noise =>
  andThen (readLinearizationTable raw) (fun table =>
  give
    { hasCfa := raw.hasCfa
      cfaRepeat := raw.cfaRepeat
      cfaPattern := raw.cfaPattern
      blackLevel := raw.blackLevel
      whiteLevel := raw.whiteLevel
      linearizationTable := table
      colorMatrix1 := if raw.hasColorMatrix1 then some raw.colorMatrix1 else none
      colorMatrix2 := if raw.hasColorMatrix2 then some raw.colorMatrix2 else none
      forwardMatrix1 := if raw.hasForwardMatrix1 then some raw.forwardMatrix1 else none
      forwardMatrix2 := if raw.hasForwardMatrix2 then some raw.forwardMatrix2 else none
      calibrationIlluminant1 := raw.calibrationIlluminant1
      calibrationIlluminant2 := raw.calibrationIlluminant2
      noiseProfile := noise })))

def capture (host : Host σ) (impl : Pointer) : σ → Result (List Float32Bits) × σ :=
  access (bound (host.metadata.bind (·.getCapture)) impl) (fun _ => true) metadataUnavailable
    "get_capture failed"

/-- The reads without an error of their own turn every failure into a default. -/
def orElse (first : σ → Result α × σ) (default : α) : σ → α × σ := fun s =>
  match (first s).1 with
  | .error _ => (default,(first s).2)
  | .ok a => (a,(first s).2)

def csRole (host : Host σ) (impl : Pointer) : σ → Option String × σ :=
  orElse (access (bound (host.metadata.bind (·.getCsRole)) impl) Option.isSome
    metadataUnavailable "") none

def activeArea (host : Host σ) (impl : Pointer) : σ → Option Rect2u × σ := fun s =>
  let read := access (bound (host.metadata.bind (·.getActiveArea)) impl)
    (fun r => r.width != 0 && r.height != 0) metadataUnavailable "" s
  (read.1.toOption,read.2)

def hasStep (host : Host σ) (impl : Pointer) (step : String) : σ → Bool × σ :=
  orElse (access ((bound (host.metadata.bind (·.hasAppliedStep)) impl).map (· step)) (fun _ => true)
    metadataUnavailable "") false

def appliedSteps (host : Host σ) (impl : Pointer) : σ → List String × σ :=
  match bound (host.metadata.bind (·.listAppliedSteps)) impl with
  | none => fun s => ([],s)
  | some entry =>
    orElse (andThen (access (some (entry 0)) (fun out => out.1 != 0) metadataUnavailable "")
      (fun counted => andThen (access (some (entry counted.1)) (fun _ => true)
        metadataUnavailable "") (fun read => give (read.2.filterMap id)))) []

def blob (host : Host σ) (impl : Pointer) (key : String) : σ → Result (Pointer × Nat) × σ :=
  access ((bound (host.metadata.bind (·.getBlob)) impl).map (· key))
    (fun out => out.1.isSome && out.2 != 0) metadataUnavailable "metadata blob missing"

/-! ### MetadataBuilder -/

def builderUnavailable : Error := ⟨.unsupported,"metadata builder suite unavailable"⟩

def setCsRole (host : Host σ) (impl : Pointer) (role : String) : σ → Result Unit × σ :=
  access ((bound host.metadataBuilder.setCsRole impl).map (· role)) (fun _ => true)
    builderUnavailable "set_cs_role failed"

def addAppliedStep (host : Host σ) (impl : Pointer) (step : String) : σ → Result Unit × σ :=
  access ((bound host.metadataBuilder.addAppliedStep impl).map (· step)) (fun _ => true)
    builderUnavailable "add_applied_step failed"

def setBlob (host : Host σ) (impl : Pointer) (key : String) (bytes : List UInt8) :
    σ → Result Unit × σ :=
  access ((bound host.metadataBuilder.setBlob impl).map (· key bytes)) (fun _ => true)
    builderUnavailable "set_blob failed"

def setAsShotNeutral (host : Host σ) (impl : Pointer) (neutral : List Float32Bits) :
    σ → Result Unit × σ :=
  access ((bound host.metadataBuilder.setAsShotNeutral impl).map (· neutral)) (fun _ => true)
    builderUnavailable "set_as_shot_neutral failed"

def clearCfa (host : Host σ) (impl : Pointer) : σ → Result Unit × σ :=
  access (bound host.metadataBuilder.clearCfa impl) (fun _ => true) builderUnavailable
    "clear_cfa failed"

def setCfa (host : Host σ) (impl : Pointer) (repeats pattern : List UInt8) :
    σ → Result Unit × σ :=
  access ((bound host.metadataBuilder.setCfa impl).map (· repeats pattern)) (fun _ => true)
    builderUnavailable "set_cfa failed"

/-! ### Buffer -/

def bufferUnavailable : Error := ⟨.badIndex,"buffer suite unavailable"⟩

def dims (host : Host σ) (impl : Pointer) : σ → Result (List UInt32) × σ :=
  access (bound host.buffer.getDims impl) (fun _ => true) bufferUnavailable "get_dims failed"

def format (host : Host σ) (impl : Pointer) : σ → Result Int × σ :=
  access (bound host.buffer.getFormat impl) (fun _ => true) bufferUnavailable "get_format failed"

def lockCpu (host : Host σ) (impl : Pointer) (mode : CpuAccess) : σ → Result Pointer × σ :=
  access ((bound host.buffer.lockCpu impl).map (· mode)) Option.isSome bufferUnavailable
    "lock_cpu failed"

def unlockCpu (host : Host σ) (impl : Pointer) : σ → Result Unit × σ :=
  access (bound host.buffer.unlockCpu impl) (fun _ => true) bufferUnavailable "unlock_cpu failed"

def flushCpuWrites (host : Host σ) (impl : Pointer) : σ → Result Unit × σ :=
  access (bound host.buffer.flushCpuWrites impl) (fun _ => true) bufferUnavailable
    "flush_cpu_writes failed"

/-- The metadata handle of a buffer, null where the host has none. -/
def metadata (host : Host σ) (impl : Pointer) : σ → Pointer × σ :=
  orElse (access (host.metadata.bind (fun _ => host.buffer.getMetadata.map (· impl))) Option.isSome
    bufferUnavailable "") none

/-! ### ComputeContext and ParamView -/

def submitHalide (host : Host σ) (impl : Pointer) (aotId : String)
    (inputs outputs : List Pointer) : σ → Result Unit × σ :=
  access (host.compute.submitHalide.map (· impl aotId inputs outputs)) (fun _ => true)
    ⟨.unsupported,"compute suite unavailable"⟩ "submit_halide failed"

def submitHalideWithParams (host : Host σ) (impl : Pointer) (aotId : String)
    (inputs outputs : List Pointer) (paramBlob : List UInt8) : σ → Result Unit × σ :=
  access (host.compute.submitHalideWithParams.map (· impl aotId inputs outputs paramBlob))
    (fun _ => true) ⟨.unsupported,"compute suite params unavailable"⟩
    "submit_halide_with_params failed"

def getOcioProcessor (host : Host σ) (config src dst : String) : σ → Pointer × σ :=
  match host.getOcioProcessor with
  | none => fun s => (none,s)
  | some f => f config src dst

def submitOcioProcessor (host : Host σ) (impl processor input output : Pointer) :
    σ → Result Unit × σ :=
  access (host.compute.submitOcioProcessor.map (· impl processor input output)) (fun _ => true)
    ⟨.unsupported,"compute suite OCIO unavailable"⟩ "submit_ocio_processor failed"

def paramString (host : Host σ) (impl : Pointer) (key : String) : σ → Result (Option String) × σ :=
  access ((bound host.param.getEnum impl).map (· key)) Option.isSome
    ⟨.needParam,"param suite unavailable"⟩ "string param missing"

/-! ### Nodes -/

/-- How a node's method ends. -/
inductive Outcome where
  | returned (result : Result Unit)
  | threw

/-- The arguments of `process`. -/
structure ProcessCtx where
  compute : Pointer
  inference : Pointer
  inputs : List Pointer
  outputs : List Pointer
  outMetadata : List Pointer

/-- A node class with the state `ι` of its instances. -/
structure NodeClass (σ ι : Type) where
  make : ι
  create : Host σ → Pointer → ι → σ → Outcome × ι × σ
  prepare : Host σ → Pointer → Pointer → ι → σ → Outcome × ι × σ
  process : Host σ → Pointer → ProcessCtx → ι → σ → Outcome × ι × σ

def resultToStatus : Result Unit → Status
  | .ok _ => .ok
  | .error e => e.status

/-- The status of a method, with the `catch` of `dispatch`. -/
def outcomeStatus : Outcome → Status
  | .returned result => resultToStatus result
  | .threw => .internalError

/-- What the host passes with an action. `destroy` and the methods get the instance. -/
inductive Action where
  | describe | create | destroy | prepare (compute : Pointer) | process (ctx : ProcessCtx) | other

/-- `dispatch` with the instance before and after. The host calls no method without one. -/
def dispatch {ι : Type} (node : NodeClass σ ι) (action : Action) (host : Host σ)
    (params : Pointer) (current : Option ι) (s : σ) : Status × Option ι × σ :=
  match action, current with
  | .describe, _ => (.replyDefault,current,s)
  | .create, _ =>
    let (outcome,i,t) := node.create host params node.make s
    let status := outcomeStatus outcome
    (status,if status = .ok then some i else none,t)
  | .destroy, _ => (.ok,none,s)
  | .prepare compute, some i =>
    let (outcome,j,t) := node.prepare host params compute i s
    (outcomeStatus outcome,some j,t)
  | .process ctx, some i =>
    let (outcome,j,t) := node.process host params ctx i s
    (outcomeStatus outcome,some j,t)
  | .prepare _, none => (.internalError,none,s)
  | .process _, none => (.internalError,none,s)
  | .other, _ => (.replyDefault,current,s)

end Cpipe.Sdk
