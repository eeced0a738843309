import Cpipe.Ingest.DngReader
import Cpipe.Proofs.Formats
import Cpipe.Proofs.ProcessLocks
import Cpipe.Runtime.BufferLocks
import Mathlib.Data.Nat.Prime.Basic

namespace Cpipe.Proofs.BufferLocks
open Cpipe.Runtime Cpipe.Runtime.Pipeline Cpipe.Nodes.Process Cpipe.Compute
open Cpipe.Proofs.ProcessLocks Cpipe.Proofs.Run
open Library.Ledger (Balanced Lawful about about_append allow balanced_pair)
open Library.Trace (run)

variable {D : Type} {p : Pipeline} {choices : Callee → Choice} {current : BufferId} {index : Nat}

/-! ### Logs one behind the other -/

/-- What the rest of a run may lock: the current buffer and those that are still to be made. -/
structure Follows (log : List (LockCall BufferId)) (current : BufferId) (index : Nat) : Prop where
  kept : Kept log
  within : ∀ b, about b (log.map act) ≠ [] →
    b = current ∨ ∃ j, index ≤ j ∧ (b = .made j ∨ b = .decoded (.node j))

/-- The current buffer is none of those still to be made. -/
def Earlier (current : BufferId) (index : Nat) : Prop :=
  ∀ j, index ≤ j → current ≠ .made j ∧ current ≠ .decoded (.node j)

theorem Earlier.succ (h : Earlier current index) : Earlier current (index+1) :=
  fun j hj => h j (by omega)

theorem earlier_made (index : Nat) : Earlier (.made index) (index+1) := by
  intro j hj
  refine ⟨?_,by simp⟩
  simp only [ne_eq, BufferId.made.injEq]
  omega

theorem follows_nil (current : BufferId) (index : Nat) : Follows [] current index :=
  ⟨fun _ => ⟨false,rfl⟩,fun _ h => absurd rfl h⟩

/-- A call in order, and then the rest with the buffer that goes on. -/
theorem orderly_follows {log later : List (LockCall BufferId)} {next : Option BufferId}
    (h : Orderly log current (.decoded (.node index)) next)
    (hnext : ∀ b, next = some b → b = .made index) (hearlier : Earlier current index)
    (hlater : Follows later (next.getD current) (index+1)) :
    Follows (log ++ later) current index := by
  have houtside : ∀ b j, index+1 ≤ j → b = .made j ∨ b = .decoded (.node j) →
      about b (log.map act) = [] := by
    intro b j hj hb
    have hne := hearlier j (by omega)
    apply h.within
    · rcases hb with rfl | rfl
      · exact hne.1.symm
      · exact hne.2.symm
    · rcases hb with rfl | rfl
      · simp
      · simp only [ne_eq, BufferId.decoded.injEq, Callee.node.injEq]
        omega
    · intro hb'
      have := hnext b hb'.symm
      rcases hb with rfl | rfl
      · simp only [BufferId.made.injEq] at this
        omega
      · cases this
  constructor
  · unfold Kept
    rw [List.map_append]
    apply Lawful.append h.kept hlater.kept
    intro b hb
    rcases hlater.within b hb with rfl | ⟨j,hj,hb⟩
    · exact h.left
    · rw [houtside b j hj hb]
      rfl
  · intro b hb
    rw [List.map_append, about_append] at hb
    by_cases hlog : about b (log.map act) = []
    · rw [hlog, List.nil_append] at hb
      rcases hlater.within b hb with rfl | ⟨j,hj,hb⟩
      · cases next with
        | none => exact .inl rfl
        | some b => exact .inr ⟨index,Nat.le_refl _,.inl (hnext b rfl)⟩
      · exact .inr ⟨j,by omega,hb⟩
    · by_contra hout
      simp only [not_or, not_exists, not_and] at hout
      apply hlog
      refine h.within b hout.1 (hout.2 index (Nat.le_refl _)).2 ?_
      intro hb
      exact (hout.2 index (Nat.le_refl _)).1 (hnext b hb.symm)

/-! ### The calls that go wrong -/

/-- The node with three in-ports is handed a buffer it submits. -/
def Clashes (p : Pipeline) : Call D → Prop
  | .process callee _ inputs _ _ => pluginIdOf p callee = mertensLocalId ∧
      ∃ input ∈ inputs, input.layout.format = .r16g16b16a16Sfloat
  | _ => False

/-- A sink is handed an image with pixels whose size in bytes wraps to zero. -/
def Wraps (p : Pipeline) : Call D → Prop
  | .process callee _ inputs _ _ => pluginIdOf p callee ∈ heifIds ∧
      ∃ input ∈ inputs, input.layout.sizeBytes = 0 ∧
        ∀ d ∈ input.layout.dims.toList.take input.layout.ndim.toNat, d ≠ 0
  | _ => False

instance (p : Pipeline) : (call : Call D) → Decidable (Clashes p call)
  | .process _ _ inputs _ _ => inferInstanceAs (Decidable (_ ∧ ∃ input ∈ inputs, _))
  | .create .. => .isFalse id
  | .destroy .. => .isFalse id

instance (p : Pipeline) : (call : Call D) → Decidable (Wraps p call)
  | .process _ _ inputs _ _ =>
    inferInstanceAs (Decidable (_ ∧ ∃ input ∈ inputs, _ ∧ ∀ d ∈ List.take _ _, _))
  | .create .. => .isFalse id
  | .destroy .. => .isFalse id

theorem isImage_dims {B : Type} {buffer : Ref B} (h : isImage buffer = true) :
    ∀ d ∈ buffer.dims, d ≠ 0 := by
  unfold isImage at h
  split at h
  · rename_i width height hdims
    rw [hdims]
    simpa using h
  · cases h

theorem locksOf_fullCalls {callee : Callee} {params : Params} {inputs : List (Buffer D)}
    {output : Option BufferLayout} {processed destroyed : Status} {calls : List (Call D)} :
    (locksOf p choices current (fullCalls callee params inputs output processed destroyed ++
      calls)).1 =
      process (pluginIdOf p callee) (request choices current callee params inputs output) ++
        (locksOf p choices (handOver p current callee output) calls).1 := rfl

/-! ### The registered nodes -/

/-- The node at a position of an accepted pipeline comes from the registry. -/
structure Placed (p : Pipeline) (index : Nat) (node : NodeInstance) (desc : PluginDesc) :
    Prop where
  at_index : p.nodes[index]? = some node
  descriptor : node.descriptor = some desc
  builtin : desc ∈ Nodes.builtinNodes

variable {node : NodeInstance} {desc : PluginDesc}

theorem rest_at {rest : List NodeInstance}
    (hat : ∀ (j : Nat), (node :: rest)[j]? = p.nodes[index+j]?) (j : Nat) :
    rest[j]? = p.nodes[index+1+j]? := by
  rw [show index+1+j = index+(j+1) by omega, ← hat (j+1), List.getElem?_cons_succ]

theorem Placed.pluginId (h : Placed p index node desc) :
    pluginIdOf p (.node index) = desc.nodeId := by
  simp [pluginIdOf, instanceDescriptor, h.at_index, h.descriptor]

theorem Placed.eq_of_id (h : Placed p index node desc) {id : String} {only : PluginDesc}
    (honly : Nodes.builtinNodes.filter (fun d => d.nodeId == id) = [only])
    (hid : pluginIdOf p (.node index) = id) : node.descriptor = some only := by
  rw [h.pluginId] at hid
  have hmem : desc ∈ Nodes.builtinNodes.filter (fun d => d.nodeId == id) :=
    List.mem_filter.mpr ⟨h.builtin,by simpa using hid⟩
  rw [honly] at hmem
  rw [h.descriptor, List.mem_singleton.mp hmem]

theorem Placed.mertens (h : Placed p index node desc)
    (hid : pluginIdOf p (.node index) = mertensLocalId) :
    node.descriptor = some Nodes.toneMertensLocal :=
  h.eq_of_id rfl hid

theorem Placed.quadBayer (h : Placed p index node desc)
    (hid : pluginIdOf p (.node index) = quadBayerRemosaicId) :
    node.descriptor = some Nodes.demosaicQuadBayerRemosaic :=
  h.eq_of_id rfl hid

/-! ### Sizes -/

/-- Two 32-bit numbers have no product of `2^63`: both would be powers of two. -/
theorem mul_ne_two_pow {w h : Nat} (hw : w < 2^32) (hh : h < 2^32) : w * h ≠ 2^63 := by
  intro he
  obtain ⟨a,_,rfl⟩ := (Nat.dvd_prime_pow Nat.prime_two).mp (Dvd.intro _ he)
  obtain ⟨b,_,rfl⟩ := (Nat.dvd_prime_pow Nat.prime_two).mp (Dvd.intro_left _ he)
  have ha := (Nat.pow_lt_pow_iff_right (by decide : 1 < 2)).mp hw
  have hb := (Nat.pow_lt_pow_iff_right (by decide : 1 < 2)).mp hh
  rw [← Nat.pow_add] at he
  have := Nat.pow_right_injective (Nat.le_refl 2) he
  omega

/-- A 16-bit image without bytes has no pixels, so no format gives it any bytes. -/
theorem raw_null {format : PixelFormat} {w h : UInt32}
    (hnull : (imageLayout .r16Uint w h).sizeBytes = 0) :
    (imageLayout format w h).sizeBytes = 0 := by
  have hbytes : (imageLayout .r16Uint w h).sizeBytes.toNat = 0 := by rw [hnull]; rfl
  rw [imageLayout_size_toNat] at hbytes
  change 2 * w.toNat * h.toNat % 2^64 = 0 at hbytes
  have hw := w.toNat_lt
  have hh := h.toNat_lt
  have hlt : w.toNat * h.toNat < 2^64 := by
    calc w.toNat * h.toNat < 2^32 * 2^32 := Nat.mul_lt_mul'' hw hh
      _ = 2^64 := by decide
  have hne := mul_ne_two_pow hw hh
  have hzero : w.toNat * h.toNat = 0 := by
    rw [Nat.mul_assoc] at hbytes
    omega
  rw [← UInt64.toNat_inj, imageLayout_size_toNat, Nat.mul_assoc, hzero]
  rfl

/-- A layout of the kind the loader and the DNG reader build. -/
def IsImageLayout (layout : BufferLayout) : Prop :=
  ∃ format w h, layout = imageLayout format w h

theorem IsImageLayout.withFormat {layout : BufferLayout} (h : IsImageLayout layout)
    (format : PixelFormat) : IsImageLayout { layout with format := format } := by
  obtain ⟨f,w,h,rfl⟩ := h
  exact ⟨format,w,h,rfl⟩

/-! ### One node -/

section Call
variable {params : Params} {cur : Buffer D} {made : Option BufferLayout} {status : Status}

theorem cur_mem_handedInputs (node : NodeInstance) (cur : Buffer D) :
    cur ∈ handedInputs node cur := by
  simp [handedInputs, nodeInputCount]

theorem request_handed (choices : Callee → Choice) (params : Params) (node : NodeInstance)
    (cur : Buffer D) (made : Option BufferLayout) (hearlier : Earlier current index) :
    Handed (request choices current (.node index) params (handedInputs node cur) made)
      ⟨current,cur.layout⟩ (made.map (fun layout => ⟨.made index,layout⟩)) where
  inputs := ⟨nodeInputCount node.descriptor,by simp [request, handedInputs]⟩
  outputs := by cases made <;> rfl
  apart := by
    intro output hout
    obtain ⟨layout,_,rfl⟩ := Option.map_eq_some_iff.mp hout
    exact (hearlier index (Nat.le_refl _)).1.symm

/-- The call of a node is in order if it is none of those that go wrong. -/
theorem call_orderly (choices : Callee → Choice) (hearlier : Earlier current index)
    (hclash : ¬ Clashes p (.process (.node index) params (handedInputs node cur) made status))
    (hwraps : made = none →
      ¬ Wraps p (.process (.node index) params (handedInputs node cur) made status))
    (hsame : ∀ layout, made = some layout → layout = { cur.layout with format := layout.format })
    (hquad : pluginIdOf p (.node index) = quadBayerRemosaicId → ∀ layout, made = some layout →
      layout.sizeBytes = 0 → cur.layout.sizeBytes = 0) :
    Orderly (process (pluginIdOf p (.node index))
        (request choices current (.node index) params (handedInputs node cur) made))
      current (.decoded (.node index)) (made.map (fun _ => .made index)) := by
  have h := process_inOrder (pluginIdOf p (.node index))
    (request_handed choices params node cur made hearlier) ?_ ?_ ?_ ?_
  · simpa [InOrder, Option.map_map, Function.comp_def, request] using h
  · intro hid hf
    exact hclash ⟨hid,cur,cur_mem_handedInputs node cur,hf⟩
  · intro hid hnone himage
    rw [Ref.isNull, decide_eq_false_iff_not]
    intro hzero
    refine hwraps (Option.map_eq_none_iff.mp hnone) ⟨hid,cur,cur_mem_handedInputs node cur,hzero,?_⟩
    exact isImage_dims himage
  · intro output hout
    obtain ⟨layout,hmade,rfl⟩ := Option.map_eq_some_iff.mp hout
    exact hsame layout hmade
  · intro hid output hout hnull
    obtain ⟨layout,hmade,rfl⟩ := Option.map_eq_some_iff.mp hout
    rw [Ref.isNull, decide_eq_true_eq] at hnull ⊢
    exact hquad hid layout hmade hnull

end Call

/-! ### `run_bound` -/

section Bound
variable {output : Option String} {plugin : Plugin D} {plugins : Nat → Plugin D} {s : Session D}
  {nodes : List NodeInstance}

/-- The calls of one callback that reaches `process`, and the buffer it goes on with. -/
structure FullCalls (output : Option String) (node : NodeInstance) (plugin : Plugin D)
    (index : Nat) (s : Session D) (params : Params) (made : Option BufferLayout)
    (processed destroyed : Status) : Prop where
  calls : nodeCalls output node plugin index s =
    fullCalls (.node index) params (handedInputs node s.current) made processed destroyed
  sink : made = none → nodeHasOutput node.descriptor = false
  layout : ∀ layout, made = some layout →
    outputLayoutForNode node.descriptor node.params s.current.layout = .ok layout
  goesOn : ∀ s', nodeTask output node plugin index s = (s', none) →
    s'.current.layout = made.getD s.current.layout

theorem nodeCalls_cases (output : Option String) (node : NodeInstance) (plugin : Plugin D)
    (index : Nat) (s : Session D) :
    (∃ params status s' e, nodeCalls output node plugin index s =
      [.create (.node index) params status] ∧
      nodeTask output node plugin index s = (s', some e)) ∨
    ∃ params made processed destroyed,
      FullCalls output node plugin index s params made processed destroyed := by
  by_cases hc : plugin.create (nodeParams node output) = .ok
  · by_cases hout : nodeHasOutput node.descriptor = true
    · cases hl : outputLayoutForNode node.descriptor node.params s.current.layout with
      | error e =>
        refine .inl ⟨nodeParams node output,.ok,s,e,?_,?_⟩
        · simp only [nodeCalls, hc, hout, hl, ne_eq, not_true_eq_false, if_false, if_true]
        · simp only [nodeTask, hc, hout, hl, ne_eq, not_true_eq_false, if_false, if_true]
      | ok layout =>
        refine .inr ⟨nodeParams node output,some layout,(plugin.process (nodeParams node output)
          (handedInputs node s.current) (some layout)).status,plugin.destroy,?_,by simp,?_,?_⟩
        · simp only [nodeCalls, hc, hout, hl, ne_eq, not_true_eq_false, if_false, if_true]
        · intro l hl'
          cases hl'
          exact hl
        · intro s' ht
          simp only [nodeTask, hc, hout, hl, ne_eq, not_true_eq_false, if_false, if_true,
            processInto] at ht
          split at ht
          · cases ht
          · obtain ⟨rfl,_⟩ := Prod.mk.inj ht
            rfl
    · refine .inr ⟨nodeParams node output,none,(plugin.process (nodeParams node output)
        (handedInputs node s.current) none).status,plugin.destroy,?_,by simpa using hout,
        by simp,?_⟩
      · simp only [nodeCalls, hc, hout, ne_eq, not_true_eq_false, if_false]
        rfl
      · intro s' ht
        simp only [nodeTask, hc, hout, ne_eq, not_true_eq_false, if_false, processSink] at ht
        obtain ⟨rfl,_⟩ := Prod.mk.inj ht
        rfl
  · refine .inl ⟨nodeParams node output,plugin.create (nodeParams node output),s,
      ⟨plugin.create (nodeParams node output),"node create failed: " ++ node.id⟩,?_,?_⟩
    · simp only [nodeCalls, ne_eq, hc, not_false_eq_true, if_true]
    · simp only [nodeTask, ne_eq, hc, not_false_eq_true, if_true]

theorem handOver_node (made : Option BufferLayout) :
    handOver p current (.node index) made = (made.map (fun _ => .made index)).getD current := by
  cases made <;> rfl

/-- The buffer a node goes on with is older than those still to be made. -/
theorem earlier_next (made : Option BufferLayout) (h : Earlier current index) :
    Earlier ((made.map (fun _ => BufferId.made index)).getD current) (index+1) := by
  cases made with
  | none => exact h.succ
  | some layout => exact earlier_made index

theorem outputLayout_format {layout input : BufferLayout} {params : Params} {desc : DescPtr}
    (h : outputLayoutForNode desc params input = .ok layout) :
    layout = { input with format := layout.format } := by
  obtain ⟨format,_,rfl⟩ := outputLayoutForNode_ok h
  rfl

/-- The quad-Bayer node writes 16-bit images. -/
theorem quad_null {params : Params} {layout input : BufferLayout} (himage : IsImageLayout input)
    (h : outputLayoutForNode (some Nodes.demosaicQuadBayerRemosaic) params input = .ok layout)
    (hnull : layout.sizeBytes = 0) : input.sizeBytes = 0 := by
  obtain ⟨format,hf,rfl⟩ := outputLayoutForNode_ok h
  rw [Formats.outputFormat_plain (by decide) params] at hf
  obtain rfl := Except.ok.inj hf
  obtain ⟨f,w,h,rfl⟩ := himage
  exact raw_null hnull

theorem loop_follows (hbuiltin : ∀ i node, p.nodes[i]? = some node → ∃ desc, Placed p i node desc)
    (hat : ∀ (j : Nat), nodes[j]? = p.nodes[index+j]?) (hearlier : Earlier current index)
    (himage : IsImageLayout s.current.layout)
    (hclear : ∀ call ∈ loopCalls output plugins index nodes s, ¬ Clashes p call ∧ ¬ Wraps p call) :
    Follows (locksOf p choices current (loopCalls output plugins index nodes s)).1 current
      index := by
  induction nodes generalizing index current s with
  | nil => exact follows_nil _ _
  | cons node rest ih =>
    obtain ⟨desc,hplaced⟩ := hbuiltin index node (hat 0).symm
    rw [loopCalls] at hclear ⊢
    rcases nodeCalls_cases output node (plugins index) index s with
      ⟨params,status,s',e,hcalls,ht⟩ | ⟨params,made,processed,destroyed,hfull⟩
    · rw [hcalls, ht]
      exact follows_nil _ _
    · rw [hfull.calls] at hclear ⊢
      rw [locksOf_fullCalls, handOver_node]
      have hcall := hclear (.process (.node index) params (handedInputs node s.current) made
        processed) (by simp [fullCalls])
      have horderly := call_orderly choices hearlier hcall.1 (fun _ => hcall.2)
        (fun layout hl => outputLayout_format (hfull.layout layout hl)) ?_
      · refine orderly_follows horderly ?_ hearlier ?_
        · intro b hb
          obtain ⟨_,_,rfl⟩ := Option.map_eq_some_iff.mp hb
          rfl
        · cases ht : nodeTask output node (plugins index) index s with
          | mk s' err =>
            cases err with
            | some e => exact follows_nil _ _
            | none =>
              refine ih (rest_at hat) (earlier_next made hearlier) ?_ ?_
              · rw [hfull.goesOn s' ht]
                cases made with
                | none => exact himage
                | some layout =>
                  rw [Option.getD_some, outputLayout_format (hfull.layout layout rfl)]
                  exact himage.withFormat _
              · intro call hmem
                refine hclear call (List.mem_append_right _ ?_)
                rw [ht]
                exact hmem
      · intro hid layout hl
        have hdesc := hplaced.quadBayer hid
        have hlayout := hfull.layout layout hl
        rw [hdesc] at hlayout
        exact quad_null himage hlayout

/-- What the repository's nodes do as sources: they fill the buffer they are given, or put
the image of the DNG reader in its place. -/
def FromRepository (source : SourcePlugin D) : Prop :=
  ∀ params layout status buffer, source.process params layout = (status, .replaced (some buffer)) →
    ∃ metadata, buffer.layout = Ingest.DngReader.rawLayout metadata

theorem kept_behind {log later : List (LockCall BufferId)} (h : Balanced (log.map act))
    (hlater : Kept later) : Kept (log ++ later) := by
  unfold Kept
  rw [List.map_append]
  exact h.lawful.append hlater (fun b _ => h b)

theorem supplied_image {source : SourcePlugin D} (hs : FromRepository source)
    {binding : SourceBinding} {layout : BufferLayout} (hl : IsImageLayout layout)
    {frames : List (List BufferLayout)} {held : List BufferLayout} {start : Buffer D}
    (h : runSource binding source layout = (frames, .ok (held, start))) :
    IsImageLayout start.layout := by
  unfold runSource at h
  cases hp : source.process binding.params layout with
  | mk status supply =>
    simp only [hp] at h
    split at h
    · cases h
    · obtain ⟨_,h⟩ := Prod.mk.inj h
      split at h
      · cases h
      · split at h
        · cases h
        · cases supply with
          | filled steps content =>
            obtain ⟨_,rfl⟩ := Prod.mk.inj (Except.ok.inj h)
            exact hl
          | replaced buffer =>
            cases buffer with
            | none => cases h
            | some buffer =>
              obtain ⟨_,rfl⟩ := Prod.mk.inj (Except.ok.inj h)
              obtain ⟨metadata,hraw⟩ := hs _ _ _ _ hp
              exact ⟨_,_,_,hraw⟩

theorem earlier_source (p : Pipeline) (layout : Option BufferLayout) :
    Earlier (handOver p .given .source layout) 0 := by
  intro j _
  unfold handOver
  dsimp only
  split <;> simp

theorem bound_kept {source : SourcePlugin D} (hs : FromRepository source)
    (hbuiltin : ∀ i node, p.nodes[i]? = some node → ∃ desc, Placed p i node desc)
    (hinputs : ∀ input ∈ p.inputs, IsImageLayout input.layout)
    (hclear : ∀ call ∈ boundCalls p output source plugins, ¬ Clashes p call ∧ ¬ Wraps p call) :
    Kept (boundLocks p output source plugins choices) := by
  unfold boundLocks
  unfold boundCalls at hclear ⊢
  cases hbound : boundSource p with
  | error e => exact (follows_nil .given 0).kept
  | ok bound =>
    obtain ⟨input,binding⟩ := bound
    have himage : IsImageLayout input.layout :=
      hinputs input (by rw [boundSource_input hbound]; exact .head _)
    rw [hbound] at hclear
    dsimp only at hclear ⊢
    by_cases hc : source.create binding.params = .ok
    · have hcalls : sourceCalls binding source input.layout =
          fullCalls .source binding.params [] (some input.layout)
            (source.process binding.params input.layout).1 source.destroy := by
        simp only [sourceCalls, hc, ne_eq, not_true_eq_false, if_false]
      rw [hcalls] at hclear ⊢
      rw [locksOf_fullCalls]
      apply kept_behind (process_source rfl)
      cases hsource : runSource binding source input.layout with
      | mk frames result =>
        cases result with
        | error e => exact (follows_nil .given 0).kept
        | ok start =>
          obtain ⟨held,start⟩ := start
          refine (loop_follows hbuiltin (by simp) (earlier_source p _)
            (supplied_image hs himage hsource) ?_).kept
          intro call hmem
          refine hclear call (List.mem_append_right _ ?_)
          rw [hsource]
          exact hmem
    · have hcalls : sourceCalls binding source input.layout =
          [.create .source binding.params (source.create binding.params)] := by
        simp only [sourceCalls, ne_eq, hc, not_false_eq_true, if_true]
      have hnone : runSource binding source input.layout = ([[input.layout]],
          .error ⟨source.create binding.params,"source create failed: " ++ binding.pluginId⟩) := by
        simp only [runSource, ne_eq, hc, not_false_eq_true, if_true]
      rw [hcalls, hnone]
      exact (follows_nil .given 0).kept

end Bound

/-! ### `run_file` -/

section File
variable {plugins : Nat → Plugin D} {nodes : List NodeInstance} {layout : BufferLayout}
  {cur : Buffer D}

/-- The locks of the loop, and behind them what is done with the last buffer if every node
went well. -/
def loopLocks (p : Pipeline) (choices : Callee → Choice) (current : BufferId)
    (tail : BufferId → List (LockCall BufferId)) (loop : List (Call D) × Except Error (Buffer D)) :
    List (LockCall BufferId) :=
  (locksOf p choices current loop.1).1 ++
    match loop.2 with
    | .ok _ => tail (locksOf p choices current loop.1).2
    | .error _ => []

/-- One round of the loop: the node is not created, its call ends the run, or the loop goes
on with a buffer of the same layout. -/
theorem fileLoop_cases (layout : BufferLayout) (plugins : Nat → Plugin D) (index : Nat)
    (node : NodeInstance) (rest : List NodeInstance) (cur : Buffer D) :
    (∃ status e, fileLoop layout plugins index (node :: rest) cur =
      ([.create (.node index) nullParams status], .error e)) ∨
    ∃ processed destroyed,
      (∃ e, fileLoop layout plugins index (node :: rest) cur =
        (fullCalls (.node index) nullParams (handedInputs node cur) (some layout) processed
          destroyed, .error e)) ∨
      ∃ next : Buffer D, next.layout = layout ∧
        fileLoop layout plugins index (node :: rest) cur =
          (fullCalls (.node index) nullParams (handedInputs node cur) (some layout) processed
            destroyed ++ (fileLoop layout plugins (index+1) rest next).1,
            (fileLoop layout plugins (index+1) rest next).2) := by
  by_cases hc : (plugins index).create nullParams = .ok
  · let reply := (plugins index).process nullParams (handedInputs node cur) (some layout)
    refine .inr ⟨reply.status,(plugins index).destroy,?_⟩
    cases hsettle : settle node reply.status (plugins index).destroy with
    | some e =>
      refine .inl ⟨e,?_⟩
      simp only [fileLoop, fileTask, hc, ne_eq, not_true_eq_false, if_false, hsettle, reply]
    | none =>
      refine .inr ⟨⟨layout,reply.appliedSteps,reply.content⟩,rfl,?_⟩
      simp only [fileLoop, fileTask, hc, ne_eq, not_true_eq_false, if_false, hsettle, reply]
  · refine .inl ⟨(plugins index).create nullParams,
      ⟨(plugins index).create nullParams,"node create failed: " ++ node.id⟩,?_⟩
    simp only [fileLoop, fileTask, ne_eq, hc, not_false_eq_true, if_true]

theorem file_orderly (choices : Callee → Choice) (hearlier : Earlier current index)
    {status : Status}
    (hclash : ¬ Clashes p (.process (.node index) nullParams (handedInputs node cur)
      (some cur.layout) status)) :
    Orderly (process (pluginIdOf p (.node index)) (request choices current (.node index)
      nullParams (handedInputs node cur) (some cur.layout)))
      current (.decoded (.node index)) (some (.made index)) := by
  apply call_orderly choices hearlier hclash (by simp)
  · intro layout hl
    cases hl
    rfl
  · intro _ layout hl hzero
    cases hl
    exact hzero

theorem file_follows (choices : Callee → Choice) (cur : Buffer D)
    {tail : BufferId → List (LockCall BufferId)} (htail : ∀ b i, Follows (tail b) b i)
    (hearlier : Earlier current index) (hcur : cur.layout = layout)
    (hclear : ∀ call ∈ (fileLoop layout plugins index nodes cur).1, ¬ Clashes p call) :
    Follows (loopLocks p choices current tail (fileLoop layout plugins index nodes cur)) current
      index := by
  induction nodes generalizing index current cur with
  | nil => exact htail current index
  | cons node rest ih =>
    subst hcur
    rcases fileLoop_cases cur.layout plugins index node rest cur with
      ⟨status,e,hloop⟩ | ⟨processed,destroyed,⟨e,hloop⟩ | ⟨next,hnext,hloop⟩⟩
    · rw [hloop]
      exact follows_nil _ _
    · rw [hloop] at hclear ⊢
      have hcall := hclear _ (.tail _ (.head _))
      simpa [loopLocks, fullCalls, locksOf] using
        orderly_follows (file_orderly choices hearlier hcall) (by simp)
          hearlier (follows_nil _ _)
    · rw [hloop] at hclear ⊢
      have hcall := hclear _ (List.mem_append_left _ (.tail _ (.head _)))
      have hlater := ih next (earlier_made index) hnext
        (fun call hmem => hclear call (List.mem_append_right _ hmem))
      have hall := orderly_follows (file_orderly choices hearlier hcall) (by simp)
        hearlier hlater
      rw [loopLocks, ← List.append_assoc] at hall
      exact hall

/-- The last buffer is written out if the file opens. -/
theorem written_follows (opens : Bool) (b : BufferId) (i : Nat) :
    Follows (if opens then [.lockCpu b,.unlockCpu b] else []) b i := by
  split
  · constructor
    · exact (balanced_pair b).lawful
    · intro k hk
      left
      by_contra hne
      exact hk (by simp [about, act, Ne.symm hne])
  · exact follows_nil b i

theorem earlier_given : Earlier .given 0 := by
  intro j _
  simp

/-- A run that reads its file is the loop, with the first buffer filled before it and the
last one written out behind it. -/
theorem file_split (p : Pipeline) (fill : List UInt8 → D) (files : Files)
    (plugins : Nat → Plugin D) (choices : Callee → Choice) :
    ((runFile p fill files plugins).1 = [] ∧ fileLocks p fill files plugins choices = []) ∨
    ∃ first : Buffer D, first.layout = p.layout ∧
      (runFile p fill files plugins).1 = (fileLoop p.layout plugins 0 p.nodes first).1 ∧
      fileLocks p fill files plugins choices = [.lockCpu .given,.unlockCpu .given] ++
        loopLocks p choices .given
          (fun b => if files.outputOpens then [.lockCpu b,.unlockCpu b] else [])
          (fileLoop p.layout plugins 0 p.nodes first) := by
  unfold fileLocks runFile
  cases files.input with
  | none => exact .inl ⟨rfl,rfl⟩
  | some bytes =>
    dsimp only
    by_cases hsize : bytes.length = p.layout.sizeBytes.toNat
    · rw [if_neg (not_not_intro hsize), if_neg (not_not_intro hsize)]
      refine .inr ⟨⟨p.layout, [], fill bytes⟩,rfl,?_,?_⟩
      · cases fileLoop p.layout plugins 0 p.nodes ⟨p.layout, [], fill bytes⟩ with
        | mk calls result =>
          cases result with
          | error e => rfl
          | ok last => dsimp only; split_ifs <;> rfl
      · rw [List.append_assoc]
        rfl
    · rw [if_pos hsize, if_pos hsize]
      exact .inl ⟨rfl,rfl⟩

theorem file_kept {fill : List UInt8 → D} {files : Files}
    (hclear : ∀ call ∈ (runFile p fill files plugins).1, ¬ Clashes p call) :
    Kept (fileLocks p fill files plugins choices) := by
  rcases file_split p fill files plugins choices with ⟨_,hlocks⟩ | ⟨first,hfirst,hcalls,hlocks⟩
  · rw [hlocks]
    exact (follows_nil .given 0).kept
  · rw [hcalls] at hclear
    rw [hlocks]
    have hfilled : Balanced ([.lockCpu BufferId.given,.unlockCpu .given].map act) :=
      balanced_pair BufferId.given
    exact kept_behind hfilled (file_follows choices first (written_follows files.outputOpens)
      earlier_given hfirst hclear).kept

end File

end Cpipe.Proofs.BufferLocks
