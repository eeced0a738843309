import Cpipe.Proofs.Load
import Cpipe.Proofs.Scheduler
import Cpipe.Runtime.Run

namespace Cpipe.Proofs.Run
open Cpipe.Runtime Cpipe.Runtime.Pipeline Cpipe.Compute Library

variable {D : Type} {output : Option String} {node : NodeInstance} {nodes : List NodeInstance}
  {plugin : Plugin D} {plugins : Nat → Plugin D} {s s' : Session D} {err : Option Error}

/-- The buffer a node with an output fills. -/
def made (output : Option String) (node : NodeInstance) (plugin : Plugin D)
    (format : PixelFormat) (current : Buffer D) : Buffer D :=
  let layout := { current.layout with format := format }
  let reply := plugin.process (nodeParams node output) (handedInputs node current) (some layout)
  ⟨layout, reply.appliedSteps, reply.content⟩

def visitSink (node : NodeInstance) (i : Nat) (s : Session D) : Session D :=
  { s with visits := s.visits ++ [⟨i, handedInputs node s.current, none⟩] }

def visitInto (node : NodeInstance) (i : Nat) (next : Buffer D) (s : Session D) : Session D :=
  { s with
    visits := s.visits ++ [⟨i, handedInputs node s.current, some next⟩]
    frames := s.frames ++ [s.alive ++ [next.layout]] }

def moveOn (held : List BufferLayout) (next : Buffer D) (s : Session D) : Session D :=
  { s with own := true, current := next, frames := s.frames ++ [held ++ [next.layout]] }

theorem handedInputs_head (node : NodeInstance) (current : Buffer D) :
    (handedInputs node current).head? = some current := by
  simp [handedInputs, nodeInputCount, List.head?_replicate]

/-- What the callback of one node can do to the session. -/
inductive Task (output : Option String) (node : NodeInstance) (plugin : Plugin D) (i : Nat)
    (s : Session D) : Session D → Option Error → Prop
  | refused (e : Error) : Task output node plugin i s s (some e)
  | sink (hout : nodeHasOutput node.descriptor = false) (err : Option Error) :
      Task output node plugin i s (visitSink node i s) err
  | stopped (hout : nodeHasOutput node.descriptor = true) (format : PixelFormat)
      (hf : outputFormat node.descriptor node.params = .ok format) (e : Error) :
      Task output node plugin i s (visitInto node i (made output node plugin format s.current) s)
        (some e)
  | passed (hout : nodeHasOutput node.descriptor = true) (format : PixelFormat)
      (hf : outputFormat node.descriptor node.params = .ok format) :
      Task output node plugin i s (moveOn s.held (made output node plugin format s.current)
        (visitInto node i (made output node plugin format s.current) s)) none

theorem outputLayoutForNode_ok {desc : DescPtr} {params : Params} {input layout : BufferLayout}
    (h : outputLayoutForNode desc params input = .ok layout) :
    ∃ format, outputFormat desc params = .ok format ∧ layout = { input with format := format } := by
  unfold outputLayoutForNode at h
  cases hf : outputFormat desc params with
  | error e => simp [hf, Except.map] at h
  | ok format =>
    simp only [hf, Except.map, Except.ok.injEq] at h
    exact ⟨format, rfl, h.symm⟩

theorem nodeTask_cases (i : Nat) (h : nodeTask output node plugin i s = (s', err)) :
    Task output node plugin i s s' err := by
  unfold nodeTask at h
  dsimp only at h
  split at h
  · obtain ⟨rfl, rfl⟩ := Prod.mk.inj h
    exact .refused _
  · split at h
    · rename_i hout
      split at h
      · obtain ⟨rfl, rfl⟩ := Prod.mk.inj h
        exact .refused _
      · rename_i layout hl
        obtain ⟨format, hf, rfl⟩ := outputLayoutForNode_ok hl
        unfold processInto at h
        dsimp only at h
        split at h
        · obtain ⟨rfl, rfl⟩ := Prod.mk.inj h
          exact .stopped hout format hf _
        · obtain ⟨rfl, rfl⟩ := Prod.mk.inj h
          exact .passed hout format hf
    · rename_i hout
      obtain ⟨rfl, rfl⟩ := Prod.mk.inj h
      exact .sink (by simpa using hout) _

/-- Rule for the node loop: `P` holds before each node, `Q` when the loop ends. -/
theorem nodeLoop_rule (P : Nat → Session D → Prop) (Q : Session D → Prop)
    (step : ∀ i node s s', nodes[i]? = some node → P i s →
      nodeTask output node (plugins i) i s = (s', none) → P (i+1) s')
    (stop : ∀ i node s s' e, nodes[i]? = some node → P i s →
      nodeTask output node (plugins i) i s = (s', some e) → Q s')
    (finish : ∀ s, P nodes.length s → Q s) :
    ∀ (rest done : List NodeInstance) (s : Session D), nodes = done ++ rest → P done.length s →
      Q (nodeLoop output plugins done.length rest s).1 := by
  intro rest
  induction rest with
  | nil =>
    intro done s he hp
    rw [List.append_nil] at he
    subst he
    exact finish s hp
  | cons node rest ih =>
    intro done s he hp
    have hnode : nodes[done.length]? = some node := by simp [he]
    unfold nodeLoop
    split
    · rename_i s' e ht
      exact stop _ node s s' e hnode hp ht
    · rename_i s' ht
      have := ih (done ++ [node]) s' (by simp [he])
        (by simpa using step _ node s s' hnode hp ht)
      simpa using this

theorem nodeLoop_all (P : Nat → Session D → Prop) (Q : Session D → Prop)
    (step : ∀ i node s s', nodes[i]? = some node → P i s →
      nodeTask output node (plugins i) i s = (s', none) → P (i+1) s')
    (stop : ∀ i node s s' e, nodes[i]? = some node → P i s →
      nodeTask output node (plugins i) i s = (s', some e) → Q s')
    (finish : ∀ s, P nodes.length s → Q s) (h0 : P 0 s) :
    Q (nodeLoop output plugins 0 nodes s).1 :=
  nodeLoop_rule P Q step stop finish nodes [] s rfl h0

/-- The calls of a run and the buffer it holds after them: every node of the
list in turn, each on the buffer of the last one that made any. -/
inductive Trace (output : Option String) (nodes : List NodeInstance) (plugins : Nat → Plugin D)
    (source : Buffer D) : List (Visit D) → Buffer D → Prop
  | start : Trace output nodes plugins source [] source
  | sink {vs current node} (h : Trace output nodes plugins source vs current)
      (hn : nodes[vs.length]? = some node) (hout : nodeHasOutput node.descriptor = false) :
      Trace output nodes plugins source
        (vs ++ [⟨vs.length, handedInputs node current, none⟩]) current
  | into {vs current node format} (h : Trace output nodes plugins source vs current)
      (hn : nodes[vs.length]? = some node) (hout : nodeHasOutput node.descriptor = true)
      (hf : outputFormat node.descriptor node.params = .ok format) :
      Trace output nodes plugins source
        (vs ++ [⟨vs.length, handedInputs node current,
          some (made output node (plugins vs.length) format current)⟩])
        (made output node (plugins vs.length) format current)

theorem nodeLoop_trace {held : List BufferLayout} {current : Buffer D}
    {frames : List (List BufferLayout)} :
    ∃ last, Trace output nodes plugins current
      (nodeLoop output plugins 0 nodes ⟨held, false, current, [], frames⟩).1.visits last := by
  refine nodeLoop_all
    (fun i s => s.visits.length = i ∧ Trace output nodes plugins current s.visits s.current)
    (fun s => ∃ last, Trace output nodes plugins current s.visits last) ?_ ?_ ?_ ⟨rfl, .start⟩
  · intro i node s s' hnode hx ht
    obtain ⟨rfl, htrace⟩ := hx
    cases nodeTask_cases _ ht with
    | sink hout => exact ⟨by simp [visitSink], .sink htrace hnode hout⟩
    | passed hout format hf => exact ⟨by simp [moveOn, visitInto], .into htrace hnode hout hf⟩
  · intro i node s s' e hnode hx ht
    obtain ⟨rfl, htrace⟩ := hx
    cases nodeTask_cases _ ht with
    | refused e => exact ⟨_, htrace⟩
    | sink hout => exact ⟨_, .sink htrace hnode hout⟩
    | stopped hout format hf => exact ⟨_, .into htrace hnode hout hf⟩
  · intro s hx
    obtain ⟨_, htrace⟩ := hx
    exact ⟨_, htrace⟩

/-- A run gets as far as its nodes when its input is bound and the source hands
over a buffer. -/
structure Begun (p : Pipeline) (source : SourcePlugin D) (held : List BufferLayout)
    (current : Buffer D) (frames : List (List BufferLayout)) : Prop where
  begun : ∃ input binding, boundSource p = .ok (input, binding) ∧
    runSource binding source input.layout = (frames, .ok (held, current))

theorem boundSource_input {p : Pipeline} {input : InputPort} {binding : SourceBinding}
    (h : boundSource p = .ok (input, binding)) : p.inputs = [input] := by
  unfold boundSource at h
  split at h
  · cases h
  · split at h
    · rename_i given hinputs
      split at h
      · obtain ⟨rfl, _⟩ := Prod.mk.inj (Except.ok.inj h)
        exact hinputs
      · cases h
    · cases h

theorem runBound_begun {p : Pipeline} {source : SourcePlugin D} {held : List BufferLayout}
    {current : Buffer D} {frames : List (List BufferLayout)}
    (h : Begun p source held current frames) :
    (runBound p output source plugins).visits =
      (nodeLoop output plugins 0 p.nodes ⟨held, false, current, [], frames⟩).1.visits ∧
    (runBound p output source plugins).frames =
      (nodeLoop output plugins 0 p.nodes ⟨held, false, current, [], frames⟩).1.frames := by
  obtain ⟨input, binding, hbound, hsource⟩ := h
  simp [runBound, hbound, hsource]

theorem runBound_not_begun {p : Pipeline} {source : SourcePlugin D}
    (h : ¬ ∃ held current frames, Begun p source held current frames) :
    (runBound p output source plugins).visits = [] := by
  unfold runBound
  split
  · rfl
  · rename_i input binding hbound
    split
    · rfl
    · rename_i frames held current hsource
      exact absurd ⟨held, current, frames, ⟨input, binding, hbound, hsource⟩⟩ h

/-- The visits of a run that began form a trace from the source's buffer. -/
theorem run_trace (output : Option String) (plugins : Nat → Plugin D) {p : Pipeline}
    {source : SourcePlugin D} {held : List BufferLayout} {current : Buffer D}
    {frames : List (List BufferLayout)} (h : Begun p source held current frames) :
    ∃ last, Trace output p.nodes plugins current
      (runBound p output source plugins).visits last := by
  rw [(runBound_begun h).1]
  exact nodeLoop_trace

/-- A node that makes a buffer has a format for it. -/
def layoutDefined (node : NodeInstance) : Bool :=
  !nodeHasOutput node.descriptor || (outputFormat node.descriptor node.params).toOption.isSome

/-- Nodes a run can get to: those before the first one with no format for its
output. -/
def reach (nodes : List NodeInstance) : Nat := (nodes.takeWhile layoutDefined).length

theorem lt_reach_iff : k < reach nodes ↔
    k < nodes.length ∧ ∀ j ≤ k, ∀ node, nodes[j]? = some node → layoutDefined node = true := by
  unfold reach
  induction nodes generalizing k with
  | nil => simp
  | cons node nodes ih =>
    rw [List.takeWhile_cons]
    split
    · rename_i hd
      cases k with
      | zero => simp [hd]
      | succ k =>
        simp only [List.length_cons, Nat.add_lt_add_iff_right, ih, and_congr_right_iff]
        intro _
        constructor
        · intro h j hj other hn
          cases j with
          | zero =>
            obtain rfl : node = other := by simpa using hn
            exact hd
          | succ j => exact h j (by omega) other (by simpa using hn)
        · intro h j hj other hn
          exact h (j+1) (by omega) other (by simpa using hn)
    · rename_i hd
      simp only [List.length_nil, Nat.not_lt_zero, false_iff, not_and, not_forall]
      intro _
      exact ⟨0, by omega, node, by simp, by simpa using hd⟩

theorem reach_succ (h : k ≤ reach nodes) (hn : nodes[k]? = some node)
    (hd : layoutDefined node = true) : k + 1 ≤ reach nodes := by
  refine lt_reach_iff.mpr ⟨(List.getElem?_eq_some_iff.mp hn).1, ?_⟩
  intro j hj other ho
  rcases Nat.lt_or_eq_of_le hj with hj | rfl
  · exact (lt_reach_iff.mp (Nat.lt_of_lt_of_le hj h)).2 j (Nat.le_refl j) other ho
  · obtain rfl := Option.some.inj (hn.symm.trans ho)
    exact hd

theorem layoutDefined_sink (hout : nodeHasOutput node.descriptor = false) :
    layoutDefined node = true := by
  simp [layoutDefined, hout]

theorem layoutDefined_into {format : PixelFormat}
    (hf : outputFormat node.descriptor node.params = .ok format) : layoutDefined node = true := by
  simp [layoutDefined, hf, Except.toOption]

theorem Trace.length_le_reach {source last : Buffer D} {vs : List (Visit D)}
    (h : Trace output nodes plugins source vs last) : vs.length ≤ reach nodes := by
  induction h with
  | start => exact Nat.zero_le _
  | sink h hn hout ih =>
    rw [List.length_append, List.length_singleton]
    exact reach_succ ih hn (layoutDefined_sink hout)
  | into h hn hout hf ih =>
    rw [List.length_append, List.length_singleton]
    exact reach_succ ih hn (layoutDefined_into hf)

/-- A visit looks at the buffer the run held after the visits before it. -/
theorem Trace.visit {source last : Buffer D} {vs : List (Visit D)}
    (h : Trace output nodes plugins source vs last) (hv : vs[k]? = some v) :
    ∃ current node, Trace output nodes plugins source (vs.take k) current ∧
      nodes[k]? = some node ∧ v.index = k ∧ v.inputs = handedInputs node current ∧
      ((nodeHasOutput node.descriptor = false ∧ v.output = none) ∨
        (nodeHasOutput node.descriptor = true ∧ ∃ format,
          outputFormat node.descriptor node.params = .ok format ∧
          v.output = some (made output node (plugins k) format current))) := by
  induction h with
  | start => simp at hv
  | @sink vs current node h hn hout ih =>
    rcases Nat.lt_or_ge k vs.length with hk | hk
    · rw [List.getElem?_append_left hk] at hv
      rw [List.take_append_of_le_length (Nat.le_of_lt hk)]
      exact ih hv
    · obtain rfl : k = vs.length := by
        have := (List.getElem?_eq_some_iff.mp hv).1
        simp at this
        omega
      obtain rfl : _ = v := by simpa using hv
      exact ⟨current, node, by simpa using h, hn, rfl, rfl, .inl ⟨hout, rfl⟩⟩
  | @into vs current node format h hn hout hf ih =>
    rcases Nat.lt_or_ge k vs.length with hk | hk
    · rw [List.getElem?_append_left hk] at hv
      rw [List.take_append_of_le_length (Nat.le_of_lt hk)]
      exact ih hv
    · obtain rfl : k = vs.length := by
        have := (List.getElem?_eq_some_iff.mp hv).1
        simp at this
        omega
      obtain rfl : _ = v := by simpa using hv
      exact ⟨current, node, by simpa using h, hn, rfl, rfl, .inr ⟨hout, format, hf, rfl⟩⟩

/-- Position of the nearest node before `k` that makes a buffer. -/
def feeder (nodes : List NodeInstance) : Nat → Option Nat
  | 0 => none
  | k+1 => if nodeHasOutput (instanceDescriptor nodes k) then some k else feeder nodes k

theorem feeder_succ (hnode : nodes[k]? = some node) :
    feeder nodes (k+1) = if nodeHasOutput node.descriptor then some k else feeder nodes k := by
  simp [feeder, instanceDescriptor, hnode]

/-- Plugins that never report an error. -/
structure Willing (plugin : Plugin D) : Prop where
  create : ∀ params, plugin.create params = .ok
  process : ∀ params inputs layout, (plugin.process params inputs layout).status = .ok
  destroy : plugin.destroy = .ok

/-- The layout of a node is undefined whatever the input is. -/
theorem undefined_iff (input : BufferLayout) : layoutDefined node = false ↔
    nodeHasOutput node.descriptor = true ∧
      ∃ e, outputLayoutForNode node.descriptor node.params input = .error e := by
  cases hf : outputFormat node.descriptor node.params with
  | error e => simp [layoutDefined, outputLayoutForNode, hf, Except.toOption, Except.map]
  | ok format => simp [layoutDefined, outputLayoutForNode, hf, Except.toOption, Except.map]

def idle : Plugin Unit where
  process _ _ _ := ⟨.ok, [], ()⟩

theorem idle_willing : Willing idle := ⟨fun _ => rfl, fun _ _ _ => rfl, rfl⟩

theorem nodeTask_willing (hw : Willing plugin)
    (h : nodeTask output node plugin i s = (s', some e)) : layoutDefined node = false := by
  unfold nodeTask at h
  dsimp only at h
  rw [if_neg (by simp [hw.create])] at h
  split at h
  · rename_i hout
    split at h
    · rename_i e' hl
      exact (undefined_iff _).mpr ⟨hout, e', hl⟩
    · simp [processInto, settle, hw.process, hw.destroy] at h
  · simp [processSink, settle, hw.process, hw.destroy] at h

/-- With willing plugins a run gets to every node it can get to. -/
theorem nodeLoop_reach (hw : ∀ i, Willing (plugins i)) {held : List BufferLayout}
    {current : Buffer D} {frames : List (List BufferLayout)} :
    reach nodes ≤
      (nodeLoop output plugins 0 nodes ⟨held, false, current, [], frames⟩).1.visits.length := by
  refine nodeLoop_all (fun i s => s.visits.length = i) (fun s => reach nodes ≤ s.visits.length)
    ?_ ?_ ?_ rfl
  · rintro i node s s' hnode rfl ht
    cases nodeTask_cases _ ht with
    | sink hout => simp [visitSink]
    | passed hout format hf => simp [moveOn, visitInto]
  · rintro i node s s' e hnode rfl ht
    have hd := nodeTask_willing (hw _) ht
    have hle : reach nodes ≤ s.visits.length := by
      by_contra hlt
      have := (lt_reach_iff.mp (Nat.lt_of_not_le hlt)).2 _ (Nat.le_refl _) node hnode
      simp [hd] at this
    cases nodeTask_cases _ ht with
    | refused e => exact hle
    | sink hout => simp [visitSink]; omega
    | stopped hout format hf => simp [visitInto]; omega
  · intro s hs
    rw [hs]
    exact (List.takeWhile_prefix _).length_le

/-- A binding for the only input of a pipeline. -/
def bindInput (input : InputPort) : List (String × SourceBinding) :=
  [(input.name, ⟨"", some ⟨"", none⟩, []⟩)]

/-- A source that reports no error. -/
def supplier (supply : BufferLayout → Supply D) : SourcePlugin D where
  process _ layout := (.ok, supply layout)

theorem boundSource_bindInput {p : Pipeline} {input : InputPort} (hinput : p.inputs = [input]) :
    boundSource { p with sources := bindInput input } =
      .ok (input, ⟨"", some ⟨"", none⟩, []⟩) := by
  simp [boundSource, hinput, bindInput]

theorem begun_supplier {p : Pipeline} {input : InputPort} (hinput : p.inputs = [input])
    {supply : BufferLayout → Supply D} {start : Buffer D}
    (hs : suppliedBuffer input.layout (supply input.layout) = some start) :
    Begun { p with sources := bindInput input } (supplier supply)
      (suppliedHeld input.layout (supply input.layout)) start
      [[input.layout], suppliedHeld input.layout (supply input.layout)] :=
  ⟨input, _, boundSource_bindInput hinput, by simp [runSource, supplier, hs]⟩

/-- A source that fills the buffer it is given. -/
def filler (steps : List String) (content : D) : SourcePlugin D :=
  supplier (fun _ => .filled steps content)

theorem begun_filler {p : Pipeline} {input : InputPort} (hinput : p.inputs = [input])
    (steps : List String) (content : D) :
    Begun { p with sources := bindInput input } (filler steps content) [input.layout]
      ⟨input.layout, steps, content⟩ [[input.layout], [input.layout]] :=
  begun_supplier hinput rfl

theorem run_visit (output : Option String) {p : Pipeline} {source : SourcePlugin D}
    {held : List BufferLayout} {start : Buffer D} {frames : List (List BufferLayout)}
    (h : Begun p source held start frames) (hw : ∀ i, Willing (plugins i))
    (hk : k < reach p.nodes) :
    ∃ v ∈ (runBound p output source plugins).visits, ∃ vs current node, vs.length = k ∧
      Trace output p.nodes plugins start vs current ∧ p.nodes[k]? = some node ∧
      v.index = k ∧ v.inputs = handedInputs node current := by
  obtain ⟨last, htrace⟩ := run_trace output plugins h
  have hlen : k < (runBound p output source plugins).visits.length := by
    rw [(runBound_begun h).1]
    exact Nat.lt_of_lt_of_le hk (nodeLoop_reach hw)
  obtain ⟨current, node, hcut, hnode, hindex, hin, _⟩ :=
    htrace.visit (List.getElem?_eq_getElem hlen)
  exact ⟨_, List.getElem_mem hlen, _, current, node, by simp; omega, hcut, hnode, hindex, hin⟩

theorem scheduledNodes_chain (nodes : List NodeInstance) (d i : Nat)
    (hi : i < (scheduledNodes nodes).length) :
    Scheduler.Dependency (scheduledNodes nodes) d i ↔ d + 1 = i := by
  have hlen : i < nodes.length := by simpa [scheduledNodes] using hi
  have hget : (scheduledNodes nodes)[i]? =
      some ⟨nodes[i].id, if 0 < i then [i - 1] else []⟩ := by
    simp [scheduledNodes, hlen]
  constructor
  · intro hx
    obtain ⟨node, hn, hd⟩ := hx
    obtain rfl := Option.some.inj (hget.symm.trans hn)
    split at hd
    · simp at hd
      omega
    · simp at hd
  · intro hd
    refine ⟨_, hget, ?_⟩
    rw [if_pos (by omega)]
    simp
    omega

/-- The scheduler calls the nodes of a run one at a time and in order, so the
loop over them is what the executor does. -/
theorem scheduledNodes_sequential {t : Scheduler.State}
    (h : Scheduler.Reachable (scheduledNodes nodes) t) : Scheduler.Sequential t.log :=
  Scheduler.chain_sequential (scheduledNodes_chain nodes) h

end Cpipe.Proofs.Run
