import Cpipe.Sdk.Sdk

namespace Cpipe.Proofs.Sdk
open Cpipe.Sdk

variable {σ ι α β : Type}

/-! ### What a node can call -/

/-- The accessors that give a result, with their arguments. -/
inductive Call where
  | calibration (impl : Pointer)
  | capture (impl : Pointer)
  | blob (impl : Pointer) (key : String)
  | setCsRole (impl : Pointer) (role : String)
  | addAppliedStep (impl : Pointer) (step : String)
  | setBlob (impl : Pointer) (key : String) (bytes : List UInt8)
  | setAsShotNeutral (impl : Pointer) (neutral : List Float32Bits)
  | clearCfa (impl : Pointer)
  | setCfa (impl : Pointer) (repeats pattern : List UInt8)
  | dims (impl : Pointer)
  | format (impl : Pointer)
  | lockCpu (impl : Pointer) (mode : CpuAccess)
  | unlockCpu (impl : Pointer)
  | flushCpuWrites (impl : Pointer)
  | submitHalide (impl : Pointer) (aotId : String) (inputs outputs : List Pointer)
  | submitHalideWithParams (impl : Pointer) (aotId : String) (inputs outputs : List Pointer)
      (paramBlob : List UInt8)
  | submitOcioProcessor (impl processor input output : Pointer)
  | paramString (impl : Pointer) (key : String)

/-- The call without its value. -/
def discard (call : σ → Result α × σ) : σ → Result Unit × σ := andThen call (fun _ => give ())

def perform (host : Host σ) : Call → σ → Result Unit × σ
  | .calibration impl => discard (calibration host impl)
  | .capture impl => discard (capture host impl)
  | .blob impl key => discard (blob host impl key)
  | .setCsRole impl role => setCsRole host impl role
  | .addAppliedStep impl step => addAppliedStep host impl step
  | .setBlob impl key bytes => setBlob host impl key bytes
  | .setAsShotNeutral impl neutral => setAsShotNeutral host impl neutral
  | .clearCfa impl => clearCfa host impl
  | .setCfa impl repeats pattern => setCfa host impl repeats pattern
  | .dims impl => discard (dims host impl)
  | .format impl => discard (format host impl)
  | .lockCpu impl mode => discard (lockCpu host impl mode)
  | .unlockCpu impl => unlockCpu host impl
  | .flushCpuWrites impl => flushCpuWrites host impl
  | .submitHalide impl aotId inputs outputs => submitHalide host impl aotId inputs outputs
  | .submitHalideWithParams impl aotId inputs outputs paramBlob =>
    submitHalideWithParams host impl aotId inputs outputs paramBlob
  | .submitOcioProcessor impl processor input output =>
    submitOcioProcessor host impl processor input output
  | .paramString impl key => discard (paramString host impl key)

/-- No error of the call says that all is well. -/
def Reports (call : σ → Result α × σ) : Prop :=
  ∀ s e, (call s).1 = .error e → e.status ≠ .ok

/-- An error is one an accessor gave. -/
def Arises (host : Host σ) (e : Error) : Prop := ∃ call s, (perform host call s).1 = .error e

/-- A node that builds no error with the status of success itself: what it returns is its
own report or an accessor's. -/
def Forwards (node : NodeClass σ ι) (host : Host σ) : Prop :=
  ∀ params ctx i s e, (node.process host params ctx i s).1 = .returned (.error e) →
    e.status ≠ .ok ∨ Arises host e

/-- The node reports success only where `process` returned a value. -/
def Propagates (node : NodeClass σ ι) (host : Host σ) : Prop :=
  ∀ params ctx i s, (dispatch node (.process ctx) host params (some i) s).1 = .ok →
    (node.process host params ctx i s).1 = .returned (.ok ())

/-- The host does not answer success with nothing to read: no null memory, no null or
empty blob, no null text. -/
structure Answers (host : Host σ) : Prop where
  memory : ∀ f, host.buffer.lockCpu = some f → ∀ handle mode s, (f handle mode s).1.1 = .ok →
    (f handle mode s).1.2.isSome
  blob : ∀ f, host.metadata.bind (fun m => m.getBlob) = some f → ∀ handle key s,
    (f handle key s).1.1 = .ok → (f handle key s).1.2.1.isSome ∧ (f handle key s).1.2.2 ≠ 0
  text : ∀ f, host.param.getEnum = some f → ∀ handle key s, (f handle key s).1.1 = .ok →
    (f handle key s).1.2.isSome

/-! ### Reports compose -/

theorem reports_give (a : α) : Reports (give a : σ → Result α × σ) := by
  intro s e h
  cases h

theorem reports_andThen {first : σ → Result α × σ} {next : α → σ → Result β × σ}
    (hf : Reports first) (hn : ∀ a, Reports (next a)) : Reports (andThen first next) := by
  intro s e h
  unfold andThen at h
  cases hr : (first s).1 with
  | error e' =>
    rw [hr] at h
    obtain rfl := Except.error.inj h
    exact hf s e' hr
  | ok a =>
    rw [hr] at h
    exact hn a _ e h

theorem reports_access {entry : Option (Entry σ α)} {valid : α → Bool} {unavailable : Error}
    {failed : String} (hu : unavailable.status ≠ .ok)
    (hv : ∀ f, entry = some f → ∀ s, (f s).1.1 = .ok → valid (f s).1.2 = true) :
    Reports (access entry valid unavailable failed) := by
  intro s e h
  unfold access at h
  cases entry with
  | none =>
    obtain rfl := Except.error.inj h
    exact hu
  | some f =>
    dsimp only at h
    by_cases hbad : (f s).1.1 ≠ .ok ∨ !valid (f s).1.2
    · rw [if_pos hbad] at h
      obtain rfl := Except.error.inj h
      intro hok
      rcases hbad with hbad | hbad
      · exact hbad hok
      · simp [hv f rfl s hok] at hbad
    · rw [if_neg hbad] at h
      cases h

/-- Most accessors take any answer. -/
theorem reports_status {entry : Option (Entry σ α)} {unavailable : Error} {failed : String}
    (hu : unavailable.status ≠ .ok) :
    Reports (access entry (fun _ => true) unavailable failed) :=
  reports_access hu (fun _ _ _ _ => rfl)

theorem reports_discard {call : σ → Result α × σ} (h : Reports call) : Reports (discard call) :=
  reports_andThen h (fun _ => reports_give ())

/-! ### The accessors -/

theorem bound_some {entry : Option (Nat → β)} {impl : Pointer} {g : β}
    (h : bound entry impl = some g) : ∃ f handle, entry = some f ∧ g = f handle := by
  unfold bound at h
  split at h
  · rename_i f handle
    exact ⟨f,handle,rfl,(Option.some.inj h).symm⟩
  · cases h

theorem reports_noiseProfile (raw : RawCalibration σ) : Reports (fillNoiseProfile raw) := by
  unfold fillNoiseProfile
  split
  · exact reports_give []
  · refine reports_andThen (reports_status (by decide)) (fun counted => ?_)
    split
    · exact reports_give []
    · exact reports_andThen (reports_status (by decide)) (fun _ => reports_give _)

theorem reports_linearizationTable (raw : RawCalibration σ) :
    Reports (readLinearizationTable raw) := by
  unfold readLinearizationTable
  split
  · refine reports_andThen (reports_status (by decide)) (fun counted => ?_)
    split
    · exact reports_give []
    · exact reports_andThen (reports_status (by decide)) (fun _ => reports_give _)
  · exact reports_give []

theorem reports_calibration (host : Host σ) (impl : Pointer) : Reports (calibration host impl) :=
  reports_andThen (reports_status (by decide)) (fun raw =>
    reports_andThen (reports_noiseProfile raw) (fun _ =>
      reports_andThen (reports_linearizationTable raw) (fun _ => reports_give _)))

theorem reports_lockCpu {host : Host σ} (h : Answers host) (impl : Pointer) (mode : CpuAccess) :
    Reports (lockCpu host impl mode) := by
  refine reports_access (by decide) (fun g hg s hok => ?_)
  obtain ⟨f,hf,rfl⟩ := Option.map_eq_some_iff.mp hg
  obtain ⟨entry,handle,hentry,rfl⟩ := bound_some hf
  exact h.memory entry hentry handle mode s hok

theorem reports_blob {host : Host σ} (h : Answers host) (impl : Pointer) (key : String) :
    Reports (blob host impl key) := by
  refine reports_access (by decide) (fun g hg s hok => ?_)
  obtain ⟨f,hf,rfl⟩ := Option.map_eq_some_iff.mp hg
  obtain ⟨entry,handle,hentry,rfl⟩ := bound_some hf
  obtain ⟨hsome,hsize⟩ := h.blob entry hentry handle key s hok
  simp [hsome, hsize]

theorem reports_paramString {host : Host σ} (h : Answers host) (impl : Pointer) (key : String) :
    Reports (paramString host impl key) := by
  refine reports_access (by decide) (fun g hg s hok => ?_)
  obtain ⟨f,hf,rfl⟩ := Option.map_eq_some_iff.mp hg
  obtain ⟨entry,handle,hentry,rfl⟩ := bound_some hf
  exact h.text entry hentry handle key s hok

theorem perform_reports {host : Host σ} (h : Answers host) (call : Call) :
    Reports (perform host call) := by
  cases call with
  | calibration impl => exact reports_discard (reports_calibration host impl)
  | blob impl key => exact reports_discard (reports_blob h impl key)
  | lockCpu impl mode => exact reports_discard (reports_lockCpu h impl mode)
  | paramString impl key => exact reports_discard (reports_paramString h impl key)
  | capture impl => exact reports_discard (reports_status (by decide))
  | dims impl => exact reports_discard (reports_status (by decide))
  | format impl => exact reports_discard (reports_status (by decide))
  | _ => exact reports_status (by decide)

/-- An answer of success that is not valid becomes an error with the status of success. -/
theorem access_invalid {f : Entry σ α} {valid : α → Bool} {unavailable : Error} {failed : String}
    {s : σ} (hok : (f s).1.1 = .ok) (hv : valid (f s).1.2 = false) :
    (discard (access (some f) valid unavailable failed) s).1 = .error ⟨.ok,failed⟩ := by
  have hbad : (f s).1.1 ≠ .ok ∨ !valid (f s).1.2 := .inr (by rw [hv]; rfl)
  have herror : access (some f) valid unavailable failed s =
      (.error ⟨(f s).1.1,failed⟩,(f s).2) := if_pos hbad
  rw [discard, andThen, herror, hok]

theorem answers_of_reports {host : Host σ} (h : ∀ call, Reports (perform host call)) :
    Answers host := by
  refine ⟨?_,?_,?_⟩
  · intro f hf handle mode s hok
    by_contra hno
    have hcall : perform host (.lockCpu (some handle) mode) = discard (access
        (some (f handle mode)) Option.isSome bufferUnavailable "lock_cpu failed") := by
      simp only [perform, lockCpu, hf, bound, Option.map_some]
    refine h (.lockCpu (some handle) mode) s ⟨.ok,"lock_cpu failed"⟩ ?_ rfl
    rw [hcall]
    exact access_invalid hok (by simpa using hno)
  · intro f hf handle key s hok
    by_contra hno
    have hcall : perform host (.blob (some handle) key) = discard (access
        (some (f handle key)) (fun out => out.1.isSome && out.2 != 0) metadataUnavailable
        "metadata blob missing") := by
      simp only [perform, blob, hf, bound, Option.map_some]
    refine h (.blob (some handle) key) s ⟨.ok,"metadata blob missing"⟩ ?_ rfl
    rw [hcall]
    refine access_invalid hok (Bool.eq_false_iff.mpr (fun hvalid => hno ?_))
    simpa using hvalid
  · intro f hf handle key s hok
    by_contra hno
    have hcall : perform host (.paramString (some handle) key) = discard (access
        (some (f handle key)) Option.isSome ⟨.needParam,"param suite unavailable"⟩
        "string param missing") := by
      simp only [perform, paramString, hf, bound, Option.map_some]
    refine h (.paramString (some handle) key) s ⟨.ok,"string param missing"⟩ ?_ rfl
    rw [hcall]
    exact access_invalid hok (by simpa using hno)

/-! ### Nodes that forward errors -/

theorem forwards_propagates {host : Host σ} (h : ∀ call, Reports (perform host call))
    {node : NodeClass σ ι} (hf : Forwards node host) : Propagates node host := by
  intro params ctx i s hok
  have hstatus : outcomeStatus (node.process host params ctx i s).1 = .ok := hok
  cases hr : (node.process host params ctx i s).1 with
  | threw =>
    rw [hr] at hstatus
    cases hstatus
  | returned result =>
    cases result with
    | ok value => rfl
    | error e =>
      rw [hr] at hstatus
      have he : e.status = .ok := hstatus
      rcases hf params ctx i s e hr with hne | ⟨call,t,harises⟩
      · exact absurd he hne
      · exact absurd he (h call t e harises)

/-- Errors of the accessors are reported, by every node that forwards them, exactly when the
host never answers success with nothing to read. -/
theorem errors_reported_iff (host : Host σ) :
    ((∀ call, Reports (perform host call)) ∧
      ∀ (ι : Type) (node : NodeClass σ ι), Forwards node host → Propagates node host) ↔
    Answers host := by
  constructor
  · intro h
    exact answers_of_reports h.1
  · intro h
    exact ⟨perform_reports h,fun _ _ hf => forwards_propagates (perform_reports h) hf⟩

/-- A host that locks a buffer without memory. -/
def emptyBufferHost : Host Unit where
  buffer := { lockCpu := some (fun _ _ s => ((.ok,none),s)) }

/-- A node that needs the memory of its output and forwards the error. -/
def writer : NodeClass Unit Unit where
  make := ()
  create _ _ i s := (.returned (.ok ()),i,s)
  prepare _ _ _ i s := (.returned (.ok ()),i,s)
  process host _ ctx i s :=
    (.returned (discard (lockCpu host (ctx.outputs.headD none) .write) s).1,i,s)

theorem writer_reports_success :
    Forwards writer emptyBufferHost ∧
    (writer.process emptyBufferHost none ⟨none,none,[],[some 0],[]⟩ () ()).1 =
      .returned (.error ⟨.ok,"lock_cpu failed"⟩) ∧
    (dispatch writer (.process ⟨none,none,[],[some 0],[]⟩) emptyBufferHost none (some ())
      ()).1 = .ok := by
  refine ⟨?_,rfl,rfl⟩
  intro params ctx i s e h
  exact .inr ⟨.lockCpu (ctx.outputs.headD none) .write,s,Outcome.returned.inj h⟩

end Cpipe.Proofs.Sdk
