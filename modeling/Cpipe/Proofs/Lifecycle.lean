import Cpipe.Library.Ledger
import Cpipe.Nodes.Manifests
import Cpipe.Proofs.Run
import Cpipe.Runtime.Calls

namespace Cpipe.Proofs.Lifecycle
open Cpipe.Runtime Cpipe.Runtime.Pipeline Cpipe.Compute Cpipe.Proofs.Run
open Library.Ledger (Act balanced_append_iff balanced_refused balanced_full not_balanced_opened)

variable {D : Type} {output : Option String} {node : NodeInstance} {nodes : List NodeInstance}
  {plugin : Plugin D} {plugins : Nat → Plugin D} {index : Nat} {s : Session D}
  {layout : BufferLayout} {current : Buffer D}

/-! ### The log of a run -/

/-- What a node is handed to process. -/
def processed : Call D → Option (Nat × List (Buffer D) × Option BufferLayout)
  | .process (.node index) _ inputs output _ => some (index, inputs, output)
  | _ => none

def seen (v : Visit D) : Nat × List (Buffer D) × Option BufferLayout :=
  (v.index, v.inputs, v.output.map Buffer.layout)

theorem processed_fullCalls {params : Params} {inputs : List (Buffer D)}
    {made : Option BufferLayout} {a b : Status} :
    (fullCalls (.node index) params inputs made a b).filterMap processed =
      [(index, inputs, made)] :=
  rfl

theorem nodeCalls_visits :
    (nodeTask output node plugin index s).1.visits.map seen =
      s.visits.map seen ++ (nodeCalls output node plugin index s).filterMap processed := by
  unfold nodeTask nodeCalls
  dsimp only
  by_cases hc : plugin.create (nodeParams node output) = .ok
  · rw [if_neg (not_not_intro hc), if_neg (not_not_intro hc)]
    by_cases hout : nodeHasOutput node.descriptor = true
    · rw [if_pos hout, if_pos hout]
      cases hl : outputLayoutForNode node.descriptor node.params s.current.layout with
      | error e => exact (List.append_nil _).symm
      | ok layout =>
        simp only [processed_fullCalls, processInto]
        cases settle node
            (plugin.process (nodeParams node output) (handedInputs node s.current)
              (some layout)).status plugin.destroy with
        | none => simp [seen]
        | some e => simp [seen]
    · rw [if_neg hout, if_neg hout]
      simp [processSink, seen, processed_fullCalls]
  · rw [if_pos hc, if_pos hc]
    exact (List.append_nil _).symm

theorem loopCalls_visits :
    (nodeLoop output plugins index nodes s).1.visits.map seen =
      s.visits.map seen ++ (loopCalls output plugins index nodes s).filterMap processed := by
  induction nodes generalizing index s with
  | nil => exact (List.append_nil _).symm
  | cons node rest ih =>
    have hnode := @nodeCalls_visits D output node (plugins index) index s
    rw [nodeLoop, loopCalls, List.filterMap_append, ← List.append_assoc, ← hnode]
    cases nodeTask output node (plugins index) index s with
    | mk s' err =>
      cases err with
      | none => exact ih
      | some e => exact (List.append_nil _).symm

theorem processed_sourceCalls (binding : SourceBinding) (source : SourcePlugin D)
    (layout : BufferLayout) : (sourceCalls binding source layout).filterMap processed = [] := by
  unfold sourceCalls
  dsimp only
  split <;> rfl

/-- The log has the visits of the run, in their order. -/
theorem boundCalls_visits (p : Pipeline) (output : Option String) (source : SourcePlugin D)
    (plugins : Nat → Plugin D) :
    (boundCalls p output source plugins).filterMap processed =
      (runBound p output source plugins).visits.map seen := by
  unfold boundCalls runBound
  cases hbound : boundSource p with
  | error e => rfl
  | ok bound =>
    obtain ⟨input,binding⟩ := bound
    dsimp only
    rw [List.filterMap_append, processed_sourceCalls, List.nil_append]
    cases hsource : runSource binding source input.layout with
    | mk frames result =>
      cases result with
      | error e => rfl
      | ok start =>
        have hloop := @loopCalls_visits D output p.nodes plugins 0
          ⟨start.1, false, start.2, [], frames⟩
        exact (hloop.trans (List.nil_append _)).symm

/-! ### Balance -/

/-- A call as an act on the instance of its callee. -/
def act : Call D → Callee × Act
  | .create callee _ status => (callee, if status = .ok then .opened else .refused)
  | .process callee _ _ _ _ => (callee, .used)
  | .destroy callee _ => (callee, .closed)

/-- Every instance that was created is destroyed exactly once, processes only in
between, and no other instance is destroyed. -/
def Balanced (calls : List (Call D)) : Prop := Library.Ledger.Balanced (calls.map act)

theorem Balanced.nil : Balanced ([] : List (Call D)) := Library.Ledger.Balanced.nil

theorem append_iff {calls later : List (Call D)} (h : Balanced calls) :
    Balanced (calls ++ later) ↔ Balanced later := by
  unfold Balanced
  rw [List.map_append]
  exact balanced_append_iff h

theorem balanced_failed {callee : Callee} {params : Params} {status : Status}
    (h : status ≠ .ok) : Balanced [(.create callee params status : Call D)] := by
  unfold Balanced
  simpa [act, h] using balanced_refused callee

theorem balanced_fullCalls (callee : Callee) (params : Params) (inputs : List (Buffer D))
    (output : Option BufferLayout) (processed destroyed : Status) :
    Balanced (fullCalls callee params inputs output processed destroyed) := by
  unfold Balanced
  simpa [fullCalls, act] using balanced_full callee

theorem not_balanced_created (callee : Callee) (params : Params) :
    ¬ Balanced [(.create callee params .ok : Call D)] := by
  unfold Balanced
  simpa [act] using not_balanced_opened callee

/-! ### `run_bound` -/

theorem balanced_sourceCalls (binding : SourceBinding) (source : SourcePlugin D)
    (layout : BufferLayout) : Balanced (sourceCalls binding source layout) := by
  unfold sourceCalls
  dsimp only
  split
  · rename_i hfailed
    exact balanced_failed hfailed
  · exact balanced_fullCalls _ _ _ _ _ _

/-- The early return on an undefined layout is the only one that skips the destroy. -/
theorem nodeCalls_defined (hd : layoutDefined node = true) :
    Balanced (nodeCalls output node plugin index s) := by
  unfold nodeCalls
  dsimp only
  split
  · rename_i hfailed
    exact balanced_failed hfailed
  · split
    · rename_i hout
      split
      · rename_i e hl
        rw [(undefined_iff _).mpr ⟨hout,e,hl⟩] at hd
        cases hd
      · exact balanced_fullCalls _ _ _ _ _ _
    · exact balanced_fullCalls _ _ _ _ _ _

theorem nodeCalls_undefined (hd : layoutDefined node = false)
    (hc : plugin.create (nodeParams node output) = .ok) :
    nodeCalls output node plugin index s =
      [.create (.node index) (nodeParams node output) .ok] := by
  obtain ⟨hout,e,hlayout⟩ := (undefined_iff s.current.layout).mp hd
  simp [nodeCalls, hc, hout, hlayout]

theorem nodeTask_undefined (hd : layoutDefined node = false) :
    ∃ e, nodeTask output node plugin index s = (s, some e) := by
  obtain ⟨hout,e,hlayout⟩ := (undefined_iff s.current.layout).mp hd
  unfold nodeTask
  dsimp only
  split
  · exact ⟨_,rfl⟩
  · exact ⟨e,by rw [hlayout]⟩

theorem balanced_loopCalls (h : ∀ node ∈ nodes, layoutDefined node = true) :
    Balanced (loopCalls output plugins index nodes s) := by
  induction nodes generalizing index s with
  | nil => exact .nil
  | cons node rest ih =>
    unfold loopCalls
    rw [append_iff (nodeCalls_defined (h node List.mem_cons_self))]
    split
    · exact .nil
    · exact ih (fun other hother => h other (List.mem_cons_of_mem node hother))

/-- With plugins that report no error the loop gets to a node without a layout and
leaves its instance behind. -/
theorem defined_of_balanced (hw : ∀ i, Willing (plugins i))
    (h : Balanced (loopCalls output plugins index nodes s)) :
    ∀ node ∈ nodes, layoutDefined node = true := by
  induction nodes generalizing index s with
  | nil => exact fun _ hmem => absurd hmem List.not_mem_nil
  | cons node rest ih =>
    unfold loopCalls at h
    cases hd : layoutDefined node with
    | false =>
      obtain ⟨e,htask⟩ : ∃ e, nodeTask output node (plugins index) index s = (s, some e) :=
        nodeTask_undefined hd
      rw [htask, nodeCalls_undefined hd ((hw index).create _), List.append_nil] at h
      exact absurd h (not_balanced_created _ _)
    | true =>
      rw [append_iff (nodeCalls_defined hd)] at h
      intro other hother
      rcases List.mem_cons.mp hother with rfl | hrest
      · exact hd
      · split at h
        · rename_i s' e htask
          rw [nodeTask_willing (hw index) htask] at hd
          cases hd
        · exact ih h other hrest

/-! ### `run_file` -/

theorem balanced_fileTask : Balanced (fileTask layout node plugin index current).1 := by
  unfold fileTask
  dsimp only
  split
  · rename_i hfailed
    exact balanced_failed hfailed
  · exact balanced_fullCalls _ _ _ _ _ _

theorem balanced_fileLoop : Balanced (fileLoop layout plugins index nodes current).1 := by
  induction nodes generalizing index current with
  | nil => exact .nil
  | cons node rest ih =>
    have htask := @balanced_fileTask D node (plugins index) index layout current
    unfold fileLoop
    split
    case h_1 calls e heq =>
      rw [heq] at htask
      exact htask
    case h_2 calls next heq =>
      rw [heq] at htask
      exact (append_iff htask).mpr ih

theorem balanced_runFile (p : Pipeline) (fill : List UInt8 → D) (files : Files)
    (plugins : Nat → Plugin D) : Balanced (runFile p fill files plugins).1 := by
  have hloop : ∀ bytes, Balanced
      (fileLoop p.layout plugins 0 p.nodes ⟨p.layout, [], fill bytes⟩).1 :=
    fun _ => balanced_fileLoop
  unfold runFile
  split
  · exact .nil
  · rename_i bytes _
    split
    · exact .nil
    · have hbytes := hloop bytes
      split
      · rename_i heq
        rw [heq] at hbytes
        exact hbytes
      · rename_i heq
        rw [heq] at hbytes
        split_ifs <;> exact hbytes

/-! ### Every run -/

/-- Both ways of running a pipeline keep the ledger, whatever the plugins return and
wherever the run ends. -/
def LifecycleKept (p : Pipeline) : Prop :=
  ∀ (D : Type) (output : Option String) (source : SourcePlugin D) (plugins : Nat → Plugin D)
    (fill : List UInt8 → D) (files : Files),
    Balanced (boundCalls p output source plugins) ∧ Balanced (runFile p fill files plugins).1

theorem balanced_boundCalls {p : Pipeline} {source : SourcePlugin D}
    (h : ∀ node ∈ p.nodes, layoutDefined node = true) :
    Balanced (boundCalls p output source plugins) := by
  unfold boundCalls
  split
  · exact .nil
  · rw [append_iff (balanced_sourceCalls _ _ _)]
    split
    · exact .nil
    · exact balanced_loopCalls h

/-- A run of idle plugins shows an instance that is left behind. -/
theorem defined_of_kept {p : Pipeline} {bound : InputPort × SourceBinding}
    (h : LifecycleKept p) (hbound : boundSource p = .ok bound) :
    ∀ node ∈ p.nodes, layoutDefined node = true := by
  have hbalanced := (h Unit none (filler [] ()) (fun _ => idle) (fun _ => ()) ⟨none,true,true⟩).1
  rw [boundCalls, hbound] at hbalanced
  dsimp only at hbalanced
  rw [append_iff (balanced_sourceCalls _ _ _)] at hbalanced
  exact defined_of_balanced (fun _ => idle_willing) hbalanced

/-- The calls of a run process what the run visits, and the ledger is kept in every run exactly
when the input is not bound, so that no plugin is called, or every node with an output has a
layout for it. -/
theorem lifecycle_kept_iff (p : Pipeline) :
    (∀ (D : Type) (output : Option String) (source : SourcePlugin D) (plugins : Nat → Plugin D),
      (boundCalls p output source plugins).filterMap processed =
        (runBound p output source plugins).visits.map seen) ∧
    (LifecycleKept p ↔ ((∃ bound, boundSource p = .ok bound) →
      ∀ node ∈ p.nodes, layoutDefined node = true)) := by
  refine ⟨fun D output source plugins => boundCalls_visits p output source plugins,?_⟩
  constructor
  · intro h ⟨bound,hbound⟩
    exact defined_of_kept h hbound
  · intro h D output source plugins fill files
    refine ⟨?_,balanced_runFile p fill files plugins⟩
    cases hbound : boundSource p with
    | error e =>
      rw [boundCalls, hbound]
      exact .nil
    | ok bound => exact balanced_boundCalls (h ⟨bound,hbound⟩)

/-- One display node set to a target that is declared and refused. -/
def reservedDocument : Document where
  id := "reserved"
  inputs := [⟨"raw", "Image2D", "R16G16B16A16_SFLOAT", some 4, some 4⟩]
  nodes := [⟨"show", "com.cpipe.color.scene_linear_to_display", [("target", .string "DisplayP3")]⟩]
  edges := []

/-- A loaded and bound pipeline whose only node is created and never destroyed. -/
theorem instance_leaked :
    ∃ loaded bound, load {} Nodes.builtinNodes reservedDocument = .ok loaded ∧
      setSource loaded "raw" "com.cpipe.builtin.dng_input" [] = .ok bound ∧
      ¬ LifecycleKept bound := by
  refine ⟨_,_,rfl,rfl,fun h => ?_⟩
  exact absurd (defined_of_kept h rfl) (by decide +kernel)

end Cpipe.Proofs.Lifecycle
