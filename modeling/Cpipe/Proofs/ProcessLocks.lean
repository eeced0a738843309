import Cpipe.Library.Ledger
import Cpipe.Nodes.Process

namespace Cpipe.Proofs.ProcessLocks
open Cpipe.Compute Cpipe.Runtime Cpipe.Runtime.ComputeContext Cpipe.Nodes.Process
open Library.Ledger (Act Balanced Lawful about about_eq_nil allow balanced_append_iff balanced_pair
  balanced_two not_lawful_opened_twice)
open Library.Trace (run)

variable {B : Type} {input output : Ref B}

/-- Layouts that differ in their formats at most. -/
def Reformatted (input output : Ref B) : Prop :=
  output.layout = { input.layout with format := output.layout.format }

theorem Reformatted.null_iff (h : Reformatted input output) (hf : output.format = input.format) :
    output.isNull = input.isNull := by
  have hl : output.layout = input.layout := by
    rw [h, show output.layout.format = input.layout.format from hf]
  rw [Ref.isNull, Ref.isNull, hl]

theorem imagePair_formats {expected made : PixelFormat}
    (h : imagePair expected made input output = true) :
    input.format = expected ∧ output.format = made := by
  simp only [imagePair, formats, Bool.and_eq_true, decide_eq_true_eq] at h
  exact h.1

/-- All three handles hold one buffer, so it is locked twice in a row. -/
theorem toneMertensLocal_twice (r : Request B) (input output : Ref B)
    (hin : r.inputs = List.replicate 3 input)
    (hout : r.outputs = [output]) (hf : input.format = .r16g16b16a16Sfloat)
    (ho : output.format = .r16g16b16a16Sfloat) (hdims : input.dims = output.dims) :
    ∃ later, toneMertensLocal r = input.lockCpu :: input.lockCpu :: later := by
  have hstack : requireRgba16Stack [input,input,input] output = true := by
    simp [requireRgba16Stack, hf, ho, hdims]
  unfold toneMertensLocal
  rw [hin, hout]
  simp only [List.replicate]
  rw [if_pos hstack]
  exact ⟨_,rfl⟩

/-- A call runs the body of the node with its id, or nothing. -/
theorem process_body (nodeId : String) (r : Request B) :
    process nodeId r = [] ∨
      ∃ node ∈ processes, node.1 = nodeId ∧ process nodeId r = node.2 r := by
  unfold process
  cases hfind : processes.find? (fun node => node.1 == nodeId) with
  | none => exact .inl rfl
  | some node =>
    have hid : node.1 = nodeId := by simpa using List.find?_some hfind
    exact .inr ⟨node,List.mem_of_find?_eq_some hfind,hid,rfl⟩

variable [DecidableEq B]

/-- A call as an act on its buffer: the assertions of `CpuBuffer` are what the ledger allows. -/
def act : LockCall B → B × Act
  | .lockCpu buffer => (buffer, .opened)
  | .unlockCpu buffer => (buffer, .closed)

/-- No buffer is locked while it is locked or unlocked while it is not. -/
def Kept (log : List (LockCall B)) : Prop := Lawful (log.map act)

theorem not_kept_twice (before later : List (LockCall B)) (b : B) :
    ¬ Kept (before ++ .lockCpu b :: .lockCpu b :: later) := by
  unfold Kept
  rw [List.map_append]
  exact not_lawful_opened_twice b

/-! ### One call of `process` -/

/-- A log that can follow any other that left the current buffer and the next one
unlocked: it keeps the ledger, touches nothing but these and the caller's own buffer, and
leaves the buffer that goes on to the next node unlocked. -/
structure Orderly (log : List (LockCall B)) (current own : B) (next : Option B) : Prop where
  kept : Kept log
  within : ∀ b, b ≠ current → b ≠ own → some b ≠ next → about b (log.map act) = []
  left : run allow false (about (next.getD current) (log.map act)) = some false

variable {current own : B}

theorem orderly_nil (current own : B) (next : Option B) : Orderly [] current own next where
  kept := fun _ => ⟨false,rfl⟩
  within := fun _ _ _ _ => rfl
  left := rfl

theorem orderly_balanced {log : List (LockCall B)} {next : Option B}
    (h : Balanced (log.map act))
    (hin : ∀ call ∈ log, (act call).1 = current ∨ (act call).1 = own ∨
      some (act call).1 = next) : Orderly log current own next where
  kept := h.lawful
  within := by
    intro b hc ho hn
    apply about_eq_nil
    intro entry hentry
    obtain ⟨call,hcall,rfl⟩ := List.mem_map.mp hentry
    rintro rfl
    rcases hin call hcall with h | h | h
    · exact hc h
    · exact ho h
    · exact hn h
  left := h _

/-- The input is left locked, but the run goes on with the output. -/
theorem orderly_abandoned {next : B} (h : next ≠ current) :
    Orderly [.lockCpu current] current own (some next) where
  kept := by
    intro b
    by_cases hc : current = b
    · exact ⟨true,by simp [about, act, run, allow, hc]⟩
    · exact ⟨false,by simp [about, act, run, hc]⟩
  within := by
    intro b hc _ _
    simp [about, act, hc.symm]
  left := by simp [about, act, run, h.symm]

/-- What a call of `process` is handed: the current buffer through every input handle,
and another one to fill unless the node is a sink. -/
structure Handed (r : Request B) (current : Ref B) (next : Option (Ref B)) : Prop where
  inputs : ∃ n, r.inputs = List.replicate n current
  outputs : r.outputs = next.toList
  apart : ∀ output, next = some output → output.id ≠ current.id

/-- The call keeps the locks in order. -/
def InOrder (log : List (LockCall B)) (r : Request B) (current : Ref B) (next : Option (Ref B)) :
    Prop :=
  Orderly log current.id r.own (next.map Ref.id)

variable {r : Request B} {out : Option (Ref B)}

theorem nested_inOrder (h : output.id ≠ input.id) :
    InOrder [input.lockCpu,output.lockCpu,output.unlockCpu,input.unlockCpu] r input
      (some output) := by
  apply orderly_balanced
  · exact balanced_two h (.inl rfl)
  · simp [act, Ref.lockCpu, Ref.unlockCpu]

theorem crossed_inOrder (h : output.id ≠ input.id) :
    InOrder [input.lockCpu,output.lockCpu,input.unlockCpu,output.unlockCpu] r input
      (some output) := by
  apply orderly_balanced
  · exact balanced_two h (.inr rfl)
  · simp [act, Ref.lockCpu, Ref.unlockCpu]

theorem submitHalide_inOrder (aotId : String) (h : Handed r input out) :
    InOrder (submitHalide aotId r.inputs r.outputs) r input out := by
  obtain ⟨⟨n,hin⟩,hout,hapart⟩ := h
  unfold submitHalide
  rw [hin, hout]
  split
  · rcases n with _ | _ | n
    · exact orderly_nil _ _ _
    · cases out with
      | none => exact orderly_nil _ _ _
      | some output => exact nested_inOrder (hapart output rfl)
    · exact orderly_nil _ _ _
  · exact orderly_nil _ _ _

/-- One input and one output: whatever the number of handles, only that case is left. -/
theorem onPair_inOrder {f : Ref B → Ref B → List (LockCall B)} (h : Handed r input out)
    (hf : ∀ output, out = some output → r.inputs = [input] → r.outputs = [output] →
      output.id ≠ input.id → InOrder (f input output) r input (some output)) :
    InOrder (onPair r f) r input out := by
  obtain ⟨⟨n,hin⟩,hout,hapart⟩ := h
  rw [onPair, hin, hout]
  rcases n with _ | _ | n
  · exact orderly_nil _ _ _
  · cases out with
    | none => exact orderly_nil _ _ _
    | some output => exact hf output rfl hin hout (hapart output rfl)
  · exact orderly_nil _ _ _

theorem submitHalideWithParams_inOrder (aotId : String) (hin : r.inputs = [input])
    (hout : r.outputs = [output]) (h : output.id ≠ input.id) :
    InOrder (submitHalideWithParams aotId r.inputs r.outputs) r input (some output) := by
  rw [submitHalideWithParams, hin, hout]
  split
  · exact nested_inOrder h
  · exact orderly_nil _ _ _

theorem submitPair_inOrder (aotId : String) (h : Handed r input out) :
    InOrder (submitPair aotId r) r input out :=
  onPair_inOrder h (fun _ _ hin hout hne => submitHalideWithParams_inOrder aotId hin hout hne)

theorem filterPair_inOrder (aotId : String) (check : Ref B → Ref B → Bool)
    (h : Handed r input out) : InOrder (filterPair aotId check r) r input out := by
  apply onPair_inOrder h
  intro output _ hin hout hne
  split
  · exact submitHalideWithParams_inOrder aotId hin hout hne
  · exact orderly_nil _ _ _

/-- A copy is in order unless it gives up for an output without memory. -/
theorem copyImage_inOrder (h : output.id ≠ input.id)
    (hnull : output.isNull = true → input.isNull = true) :
    InOrder (copyImage input output) r input (some output) := by
  unfold copyImage
  by_cases hi : input.isNull = true
  · rw [if_pos hi]
    exact orderly_abandoned h
  · rw [if_neg hi, if_neg (fun ho => hi (hnull ho))]
    exact crossed_inOrder h

theorem copyFrame_inOrder (h : output.id ≠ input.id)
    (hnull : output.isNull = true → input.isNull = true) :
    InOrder (copyFrame input output) r input (some output) := by
  unfold copyFrame
  by_cases hi : input.isNull = true
  · rw [if_pos hi]
    exact orderly_abandoned h
  · rw [if_neg hi, if_neg (fun ho => hi (hnull ho))]
    exact nested_inOrder h

theorem copyOrFilter_inOrder (aotId : String) {check : Ref B → Ref B → Bool}
    (h : Handed r input out)
    (hnull : ∀ output, out = some output → check input output = true →
      output.isNull = true → input.isNull = true) :
    InOrder (copyOrFilter aotId check r) r input out := by
  apply onPair_inOrder h
  intro output hnext hin hout hne
  by_cases hc : check input output = true
  · rw [if_pos hc]
    cases r.choice with
    | stop => exact orderly_nil _ _ _
    | copy => exact copyImage_inOrder hne (hnull output hnext hc)
    | work => exact submitHalideWithParams_inOrder aotId hin hout hne
  · rw [if_neg hc]
    exact orderly_nil _ _ _

/-- A sink is in order unless its input has no memory. -/
theorem writeHeif_inOrder (expected : PixelFormat) (h : Handed r input out)
    (hnull : out = none → isImage input = true → input.isNull = false) :
    InOrder (writeHeif expected r) r input out := by
  obtain ⟨⟨n,hin⟩,hout,hapart⟩ := h
  unfold writeHeif
  rw [hin, hout]
  rcases n with _ | _ | n
  · exact orderly_nil _ _ _
  · cases out with
    | some output => exact orderly_nil _ _ _
    | none =>
      simp only [List.replicate, Option.toList_none]
      split
      · rename_i hcheck
        simp only [Bool.and_eq_true] at hcheck
        rw [hnull rfl hcheck.1.2, if_neg (by simp)]
        apply orderly_balanced
        · exact balanced_pair input.id
        · simp [act, Ref.lockCpu, Ref.unlockCpu]
      · exact orderly_nil _ _ _
  · exact orderly_nil _ _ _

theorem submitOcioProcessor_inOrder :
    InOrder (submitOcioProcessor input output) r input (some output) := by
  unfold submitOcioProcessor
  split
  · split
    · apply orderly_balanced
      · exact (balanced_append_iff (balanced_pair input.id)).mpr (balanced_pair output.id)
      · simp [act, Ref.lockCpu, Ref.unlockCpu]
    · apply orderly_balanced
      · exact balanced_pair input.id
      · simp [act, Ref.lockCpu, Ref.unlockCpu]
  · exact orderly_nil _ _ _

theorem colorSceneLinearToDisplay_inOrder (h : Handed r input out) :
    InOrder (colorSceneLinearToDisplay r) r input out := by
  apply onPair_inOrder h
  intro output _ _ _ _
  cases targetFormat (Params.text r.params "target" "") with
  | none => exact orderly_nil _ _ _
  | some made =>
    dsimp only
    split
    · exact submitOcioProcessor_inOrder
    · exact orderly_nil _ _ _

theorem precisionConvert_inOrder (h : Handed r input out) :
    InOrder (precisionConvert r) r input out := by
  apply onPair_inOrder h
  intro output hnext hin hout hne
  dsimp only
  split
  · cases filterFor input.format (Params.text r.params "target_format" "") with
    | none => exact orderly_nil _ _ _
    | some filter => exact hnext ▸ submitHalide_inOrder filter h
  · exact orderly_nil _ _ _

theorem builtinDngInput_inOrder (r : Request B) (input : Ref B) (out : Option (Ref B)) :
    InOrder (builtinDngInput r) r input out := by
  unfold builtinDngInput
  split
  · apply orderly_balanced
    · exact balanced_pair r.own
    · simp [act]
  · exact orderly_nil _ _ _

theorem demosaicQuadBayerRemosaic_inOrder (h : Handed r input out)
    (hnull : ∀ output, out = some output → output.isNull = true → input.isNull = true) :
    InOrder (demosaicQuadBayerRemosaic r) r input out := by
  apply onPair_inOrder h
  intro output hnext _ _ hne
  cases r.choice with
  | stop => exact orderly_nil _ _ _
  | copy => exact copyImage_inOrder hne (hnull output hnext)
  | work => exact hnext ▸ submitHalide_inOrder _ h

theorem wbGreyworldAuto_inOrder (h : Handed r input out)
    (hsame : ∀ output, out = some output → Reformatted input output) :
    InOrder (wbGreyworldAuto r) r input out := by
  apply onPair_inOrder h
  intro output hnext _ _ hne
  split
  · rename_i hc
    obtain ⟨hi,ho⟩ := imagePair_formats ((Bool.and_eq_true _ _).mp hc).1
    refine copyFrame_inOrder hne (fun hn => ?_)
    rwa [← (hsame output hnext).null_iff (ho.trans hi.symm)]
  · exact orderly_nil _ _ _

theorem fusionHdrPlusDerivative_inOrder (h : Handed r input out)
    (hsame : ∀ output, out = some output → Reformatted input output) :
    InOrder (fusionHdrPlusDerivative r) r input out := by
  obtain ⟨⟨n,hin⟩,hout,hapart⟩ := h
  unfold fusionHdrPlusDerivative
  rw [hin, hout]
  rcases n with _ | _ | _ | n
  · exact orderly_nil _ _ _
  · exact orderly_nil _ _ _
  · cases out with
    | none => exact orderly_nil _ _ _
    | some output =>
      simp only [List.replicate, Option.toList_some]
      split
      · rename_i hc
        obtain ⟨hi,ho⟩ := imagePair_formats ((Bool.and_eq_true _ _).mp hc).1
        refine copyFrame_inOrder (hapart output rfl) (fun hn => ?_)
        rwa [← (hsame output rfl).null_iff (ho.trans hi.symm)]
      · exact orderly_nil _ _ _
  · exact orderly_nil _ _ _

/-! ### The node with three in-ports -/

def mertensLocalId : String := "com.cpipe.tone.mertens_local"

theorem toneMertensLocal_inOrder (h : Handed r input out)
    (hf : input.format ≠ .r16g16b16a16Sfloat) : InOrder (toneMertensLocal r) r input out := by
  obtain ⟨⟨n,hin⟩,hout,_⟩ := h
  unfold toneMertensLocal
  rw [hin, hout]
  rcases n with _ | _ | _ | _ | n
  · exact orderly_nil _ _ _
  · exact orderly_nil _ _ _
  · exact orderly_nil _ _ _
  · cases out with
    | none => exact orderly_nil _ _ _
    | some output =>
      have hstack : ¬ requireRgba16Stack [input,input,input] output = true := by
        simp [requireRgba16Stack, hf]
      simp only [List.replicate, Option.toList_some]
      rw [if_neg hstack]
      exact orderly_nil _ _ _
  · exact orderly_nil _ _ _

/-! ### Every node -/

def quadBayerRemosaicId : String := "com.cpipe.demosaic.quad_bayer_remosaic"

def heifIds : List String := ["com.cpipe.output.heif_sdr", "com.cpipe.output.heif_hdr_pq"]

/-- A call is in order unless it has three handles on one buffer, or a sink finds no
memory behind its pixels. -/
theorem process_inOrder (nodeId : String) (h : Handed r input out)
    (hmertens : nodeId = mertensLocalId → input.format ≠ .r16g16b16a16Sfloat)
    (hheif : nodeId ∈ heifIds → out = none → isImage input = true → input.isNull = false)
    (hsame : ∀ output, out = some output → Reformatted input output)
    (hquad : nodeId = quadBayerRemosaicId → ∀ output, out = some output →
      output.isNull = true → input.isNull = true) :
    InOrder (process nodeId r) r input out := by
  have hcopy : ∀ format output, out = some output → imagePair format format input output = true →
      output.isNull = true → input.isNull = true := by
    intro format output hnext hc hn
    obtain ⟨hi,ho⟩ := imagePair_formats hc
    rwa [← (hsame output hnext).null_iff (ho.trans hi.symm)]
  rcases process_body nodeId r with hbody | ⟨node,hmem,rfl,hbody⟩ <;> rw [hbody]
  · exact orderly_nil _ _ _
  · simp only [processes, List.mem_cons, List.not_mem_nil, or_false] at hmem
    rcases hmem with rfl | rfl | rfl | rfl | rfl | rfl | rfl | rfl | rfl | rfl | rfl | rfl | rfl |
      rfl | rfl | rfl | rfl | rfl | rfl | rfl | rfl | rfl | rfl | rfl | rfl | rfl | rfl
    · exact submitHalide_inOrder "passthrough_copy" h
    · exact builtinDngInput_inOrder r input out
    · exact filterPair_inOrder _ _ h
    · exact filterPair_inOrder _ _ h
    · exact filterPair_inOrder _ _ h
    · exact filterPair_inOrder _ _ h
    · exact demosaicQuadBayerRemosaic_inOrder h (hquad rfl)
    · exact filterPair_inOrder _ _ h
    · exact filterPair_inOrder _ _ h
    · exact wbGreyworldAuto_inOrder h hsame
    · exact filterPair_inOrder _ _ h
    · exact filterPair_inOrder _ _ h
    · exact submitPair_inOrder _ h
    · exact submitPair_inOrder _ h
    · exact filterPair_inOrder _ _ h
    · exact colorSceneLinearToDisplay_inOrder h
    · exact submitPair_inOrder _ h
    · exact submitPair_inOrder _ h
    · exact submitPair_inOrder _ h
    · exact toneMertensLocal_inOrder h (hmertens rfl)
    · exact submitPair_inOrder _ h
    · exact copyOrFilter_inOrder _ h (hcopy _)
    · exact copyOrFilter_inOrder _ h (hcopy _)
    · exact fusionHdrPlusDerivative_inOrder h hsame
    · exact precisionConvert_inOrder h
    · exact writeHeif_inOrder _ h (hheif (by simp [heifIds]))
    · exact writeHeif_inOrder _ h (hheif (by simp [heifIds]))

/-- A source has no input, and only the DNG reader locks anything then. -/
theorem process_source {nodeId : String} (h : r.inputs = []) :
    Balanced ((process nodeId r).map act) := by
  have hpair : ∀ f, Balanced ((onPair r f).map act) := by
    intro f
    unfold onPair
    rw [h]
    exact .nil
  rcases process_body nodeId r with hbody | ⟨node,hmem,_,hbody⟩ <;> rw [hbody]
  · exact .nil
  · simp only [processes, List.mem_cons, List.not_mem_nil, or_false] at hmem
    rcases hmem with rfl | rfl | rfl | rfl | rfl | rfl | rfl | rfl | rfl | rfl | rfl | rfl | rfl |
      rfl | rfl | rfl | rfl | rfl | rfl | rfl | rfl | rfl | rfl | rfl | rfl | rfl | rfl
    case inl =>
      simp only [builtinPassthrough, submitHalide, h]
      split <;> exact .nil
    case inr.inl =>
      simp only [builtinDngInput]
      split
      · exact balanced_pair r.own
      · exact .nil
    all_goals first
      | exact hpair _
      | simp only [toneMertensLocal, fusionHdrPlusDerivative, outputHeifSdr, outputHeifHdrPq,
          writeHeif, h]; exact .nil

end Cpipe.Proofs.ProcessLocks
