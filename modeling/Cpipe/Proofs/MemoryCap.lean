import Cpipe.Proofs.Run

namespace Cpipe.Proofs.MemoryCap
open Cpipe.Runtime Cpipe.Runtime.Pipeline Cpipe.Compute Cpipe.Proofs.Run Library

variable {D : Type} {output : Option String} {registry : Registry} {document : Document}
  {nodes : List NodeInstance} {plan : PrecisionPlan} {order : List Nat} {out pl : Pipeline}
  {plugins : Nat → Plugin D} {s s' : Session D} {layout : BufferLayout}
  {extra : List BufferLayout}

def bytes (frame : List BufferLayout) : Nat := (frame.map (fun l => l.sizeBytes.toNat)).sum

/-- What the planner's slots hold together, in exact arithmetic. -/
def slotBytes (document : Document) (plan : PrecisionPlan) : Nat :=
  ((MemoryPlanner.coloring (primaryLayout (document.inputs.map inputPort))
    (plan.nodes.map PrecisionGraphNode.descriptor) (memoryEdges plan.edges)).2.map
      UInt64.toNat).sum

theorem peakBytes_eq (document : Document) (plan : PrecisionPlan) :
    (memoryPlan document plan).peakBytes.toNat =
      ((primaryLayout (document.inputs.map inputPort)).sizeBytes.toNat +
        slotBytes document plan) % 2^64 := by
  rw [memoryPlan, MemoryPlanner.planGraph_eq]
  exact MemoryPlanner.foldl_add_toNat _ _

/-- Size of the buffer made for the node at position `k`. -/
def outputBytes (layout : BufferLayout) (nodes : List NodeInstance) (k : Nat) : Nat :=
  match nodes[k]? with
  | none => 0
  | some node =>
    match outputFormat node.descriptor node.params with
    | .ok format => ({ layout with format := format } : BufferLayout).sizeBytes.toNat
    | .error _ => 0

/-- Size of the buffer a node before position `k` left as `current`. -/
def ownBytes (layout : BufferLayout) (nodes : List NodeInstance) (k : Nat) : Nat :=
  match feeder nodes k with
  | none => 0
  | some j => outputBytes layout nodes j

/-- The frame a node with an output goes through before it lets go of `current`. -/
def allocated (layout : BufferLayout) (extra : List BufferLayout) (nodes : List NodeInstance)
    (k : Nat) : Nat :=
  layout.sizeBytes.toNat + bytes extra + ownBytes layout nodes k + outputBytes layout nodes k

/-- The buffer of a node and the one it is made from fit, next to the input and
a buffer the source put into its handle. -/
def Fits (layout : BufferLayout) (extra : List BufferLayout) (nodes : List NodeInstance)
    (total : Nat) : Prop :=
  layout.sizeBytes.toNat + bytes extra ≤ total ∧
    ∀ k < reach nodes, nodeHasOutput (instanceDescriptor nodes k) = true →
      allocated layout extra nodes k ≤ total

/-- The locals of a run before the node at position `k`: what is alive is known,
no frame was larger than some `allocated`, and each of these was a frame. -/
structure Account (layout : BufferLayout) (extra : List BufferLayout) (nodes : List NodeInstance)
    (k : Nat) (s : Session D) : Prop where
  reached : k ≤ reach nodes
  held : s.held = layout :: extra
  own : bytes s.alive = layout.sizeBytes.toNat + bytes extra + ownBytes layout nodes k
  current : ∃ format, s.current.layout = { layout with format := format }
  frames : ∀ frame ∈ s.frames, bytes frame ≤ layout.sizeBytes.toNat + bytes extra ∨
    ∃ j < k, nodeHasOutput (instanceDescriptor nodes j) = true ∧
      bytes frame ≤ allocated layout extra nodes j
  every : ∀ j < k, nodeHasOutput (instanceDescriptor nodes j) = true →
    ∃ frame ∈ s.frames, bytes frame = allocated layout extra nodes j

theorem bytes_append (xs ys : List BufferLayout) : bytes (xs ++ ys) = bytes xs + bytes ys := by
  simp [bytes]

theorem bytes_cons (l : BufferLayout) (xs : List BufferLayout) :
    bytes (l :: xs) = l.sizeBytes.toNat + bytes xs := by
  simp [bytes]

theorem outputBytes_eq {node : NodeInstance} {format : PixelFormat} (hn : nodes[k]? = some node)
    (hf : outputFormat node.descriptor node.params = .ok format) :
    outputBytes layout nodes k =
      ({ layout with format := format } : BufferLayout).sizeBytes.toNat := by
  simp [outputBytes, hn, hf]

theorem Account.start (hf : ∀ frame ∈ s.frames, bytes frame ≤ layout.sizeBytes.toNat + bytes extra)
    (hheld : s.held = layout :: extra) (hown : s.own = false)
    (hcurrent : s.current.layout = layout) : Account layout extra nodes 0 s where
  reached := Nat.zero_le _
  held := hheld
  own := by simp [Session.alive, hown, hheld, bytes_cons, ownBytes, feeder]
  current := ⟨layout.format, hcurrent⟩
  frames frame hm := .inl (hf frame hm)
  every j hj := absurd hj (Nat.not_lt_zero j)

theorem Account.sink {node : NodeInstance} (h : Account layout extra nodes k s)
    (hn : nodes[k]? = some node) (hout : nodeHasOutput node.descriptor = false) :
    Account layout extra nodes (k+1) (visitSink node k s) where
  reached := reach_succ h.reached hn (layoutDefined_sink hout)
  held := h.held
  own := by
    have : ownBytes layout nodes (k+1) = ownBytes layout nodes k := by
      simp [ownBytes, feeder_succ hn, hout]
    rw [this]
    exact h.own
  current := h.current
  frames := by
    intro frame hm
    rcases h.frames frame hm with hle | ⟨j, hj, hrest⟩
    · exact .inl hle
    · exact .inr ⟨j, Nat.lt_succ_of_lt hj, hrest⟩
  every := by
    intro j hj hj'
    rcases Nat.lt_or_eq_of_le (Nat.le_of_lt_succ hj) with hj | rfl
    · exact h.every j hj hj'
    · simp [instanceDescriptor, hn, hout] at hj'

theorem made_layout {node : NodeInstance} {plugin : Plugin D} {format : PixelFormat}
    (h : Account layout extra nodes k s) :
    (made output node plugin format s.current).layout = { layout with format := format } := by
  obtain ⟨f, hf⟩ := h.current
  simp [made, hf]

/-- The frame with `next` in it, and the smaller one once `current` is gone. -/
theorem Account.next {node : NodeInstance} {plugin : Plugin D} {format : PixelFormat}
    (h : Account layout extra nodes k s) (hn : nodes[k]? = some node)
    (hf : outputFormat node.descriptor node.params = .ok format) :
    bytes (s.alive ++ [(made output node plugin format s.current).layout]) =
      allocated layout extra nodes k ∧
    bytes (s.held ++ [(made output node plugin format s.current).layout]) =
      layout.sizeBytes.toNat + bytes extra + outputBytes layout nodes k := by
  rw [made_layout h, bytes_append, bytes_append, h.own, h.held, allocated, outputBytes_eq hn hf,
    bytes_cons, bytes_cons]
  simp [bytes]

theorem Account.moved {node : NodeInstance} {plugin : Plugin D} {format : PixelFormat}
    (h : Account layout extra nodes k s) (hn : nodes[k]? = some node)
    (hout : nodeHasOutput node.descriptor = true)
    (hf : outputFormat node.descriptor node.params = .ok format) :
    Account layout extra nodes (k+1)
      (moveOn s.held (made output node plugin format s.current)
        (visitInto node k (made output node plugin format s.current) s)) where
  reached := reach_succ h.reached hn (layoutDefined_into hf)
  held := h.held
  own := by
    have hown : ownBytes layout nodes (k+1) = outputBytes layout nodes k := by
      simp [ownBytes, feeder_succ hn, hout]
    rw [hown]
    exact (h.next hn hf).2
  current := ⟨format, made_layout h⟩
  frames := by
    intro frame hm
    have hlast : nodeHasOutput (instanceDescriptor nodes k) = true := by
      simpa [instanceDescriptor, hn] using hout
    simp only [moveOn, visitInto, List.mem_append, List.mem_singleton] at hm
    rcases hm with (hm | rfl) | rfl
    · rcases h.frames frame hm with hle | ⟨j, hj, hrest⟩
      · exact .inl hle
      · exact .inr ⟨j, Nat.lt_succ_of_lt hj, hrest⟩
    · exact .inr ⟨k, Nat.lt_succ_self k, hlast, Nat.le_of_eq (h.next hn hf).1⟩
    · refine .inr ⟨k, Nat.lt_succ_self k, hlast, ?_⟩
      rw [(h.next hn hf).2, allocated]
      omega
  every := by
    intro j hj hj'
    rcases Nat.lt_or_eq_of_le (Nat.le_of_lt_succ hj) with hj | rfl
    · obtain ⟨frame, hm, he⟩ := h.every j hj hj'
      exact ⟨frame, by simp [moveOn, visitInto, hm], he⟩
    · exact ⟨s.alive ++ [(made output node plugin format s.current).layout],
        by simp [moveOn, visitInto], (h.next hn hf).1⟩

/-- No frame of the node loop is larger than the first ones or than what some
node it gets to allocates. -/
theorem nodeLoop_frames (h : Account layout extra nodes 0 s) :
    ∀ frame ∈ (nodeLoop output plugins 0 nodes s).1.frames,
      bytes frame ≤ layout.sizeBytes.toNat + bytes extra ∨
      ∃ j < reach nodes, nodeHasOutput (instanceDescriptor nodes j) = true ∧
        bytes frame ≤ allocated layout extra nodes j := by
  refine nodeLoop_all (Account layout extra nodes) (fun s => ∀ frame ∈ s.frames,
    bytes frame ≤ layout.sizeBytes.toNat + bytes extra ∨
      ∃ j < reach nodes, nodeHasOutput (instanceDescriptor nodes j) = true ∧
        bytes frame ≤ allocated layout extra nodes j) ?_ ?_ ?_ h
  · intro i node s s' hn hp ht
    cases nodeTask_cases _ ht with
    | sink hout => exact hp.sink hn hout
    | passed hout format hf => exact hp.moved hn hout hf
  · intro i node s s' e hn hp ht
    have hweak : ∀ frame ∈ s.frames, bytes frame ≤ layout.sizeBytes.toNat + bytes extra ∨
        ∃ j < reach nodes, nodeHasOutput (instanceDescriptor nodes j) = true ∧
          bytes frame ≤ allocated layout extra nodes j := by
      intro frame hm
      rcases hp.frames frame hm with hle | ⟨j, hj, hrest⟩
      · exact .inl hle
      · exact .inr ⟨j, Nat.lt_of_lt_of_le hj hp.reached, hrest⟩
    cases nodeTask_cases _ ht with
    | refused e => exact hweak
    | sink hout => exact hweak
    | stopped hout format hf =>
      intro frame hm
      rcases List.mem_append.mp hm with hm | hm
      · exact hweak frame hm
      · obtain rfl := List.mem_singleton.mp hm
        exact .inr ⟨i, reach_succ hp.reached hn (layoutDefined_into hf),
          by simpa [instanceDescriptor, hn] using hout, Nat.le_of_eq (hp.next hn hf).1⟩
  · intro s hp frame hm
    rcases hp.frames frame hm with hle | ⟨j, hj, hrest⟩
    · exact .inl hle
    · exact .inr ⟨j, Nat.lt_of_lt_of_le hj hp.reached, hrest⟩

/-- With willing plugins, every node a run can get to allocates its buffer. -/
theorem nodeLoop_every (hw : ∀ i, Willing (plugins i)) (h : Account layout extra nodes 0 s) :
    ∀ j < reach nodes, nodeHasOutput (instanceDescriptor nodes j) = true →
      ∃ frame ∈ (nodeLoop output plugins 0 nodes s).1.frames,
        bytes frame = allocated layout extra nodes j := by
  refine nodeLoop_all (Account layout extra nodes) (fun s => ∀ j < reach nodes,
    nodeHasOutput (instanceDescriptor nodes j) = true →
      ∃ frame ∈ s.frames, bytes frame = allocated layout extra nodes j) ?_ ?_ ?_ h
  · intro i node s s' hn hp ht
    cases nodeTask_cases _ ht with
    | sink hout => exact hp.sink hn hout
    | passed hout format hf => exact hp.moved hn hout hf
  · intro i node s s' e hn hp ht j hj hout
    -- A willing node stops the run only for want of a format, so `j` came before it.
    have hd := nodeTask_willing (hw i) ht
    have hji : j < i := by
      by_contra hle
      have := (lt_reach_iff.mp hj).2 i (Nat.le_of_not_lt hle) node hn
      simp [hd] at this
    obtain ⟨frame, hm, he⟩ := hp.every j hji hout
    cases nodeTask_cases _ ht with
    | refused e => exact ⟨frame, hm, he⟩
    | sink hs => exact ⟨frame, hm, he⟩
    | stopped hs format hf => exact ⟨frame, by simp [visitInto, hm], he⟩
  · intro s hp j hj hout
    have hlen : reach nodes ≤ nodes.length := (List.takeWhile_prefix _).length_le
    exact hp.every j (Nat.lt_of_lt_of_le hj hlen) hout

/-- A source that keeps the declared layout. `extra` holds the buffer it puts in
the place of its own, if it does. -/
def Keeps (source : SourcePlugin D) (params : Params) (layout : BufferLayout)
    (extra : List BufferLayout) : Prop :=
  suppliedHeld layout (source.process params layout).2 = layout :: extra ∧
    ∀ b, suppliedBuffer layout (source.process params layout).2 = some b → b.layout = layout

/-- No run ever has more image bytes alive than the load compared with the cap. -/
def WithinPeak (pl : Pipeline) (extra : List BufferLayout) : Prop :=
  ∀ (D : Type) (output : Option String) (source : SourcePlugin D)
    (sources : List (String × SourceBinding)) (plugins : Nat → Plugin D),
    (∀ input binding, boundSource { pl with sources := sources } = .ok (input, binding) →
      Keeps source binding.params input.layout extra) →
    ∀ frame ∈ (runBound { pl with sources := sources } output source plugins).frames,
      bytes frame ≤ pl.memoryPeakBytes.toNat

theorem runSource_frames {binding : SourceBinding} {source : SourcePlugin D}
    (hk : Keeps source binding.params layout extra) :
    (∀ frame ∈ (runSource binding source layout).1,
      bytes frame ≤ layout.sizeBytes.toNat + bytes extra) ∧
    ∀ held start, (runSource binding source layout).2 = .ok (held, start) →
      held = layout :: extra ∧ start.layout = layout := by
  obtain ⟨hheld, hlayout⟩ := hk
  unfold runSource
  dsimp only
  split
  · refine ⟨?_, by simp⟩
    intro frame hm
    obtain rfl := List.mem_singleton.mp hm
    simp [bytes]
  · constructor
    · intro frame hm
      simp only [List.mem_cons, List.not_mem_nil, or_false] at hm
      rcases hm with rfl | rfl
      · simp [bytes]
      · rw [hheld, bytes_cons]
    · intro held start h
      dsimp only at h
      repeat' split at h
      all_goals cases h
      rename_i b hb
      exact ⟨hheld, hlayout _ hb⟩

/-- Every run stays within what its first frames and its nodes allocate. -/
theorem runBound_frames {p : Pipeline} {source : SourcePlugin D} {input : InputPort}
    (hinput : p.inputs = [input])
    (hk : ∀ given binding, boundSource p = .ok (given, binding) →
      Keeps source binding.params given.layout extra) :
    ∀ frame ∈ (runBound p output source plugins).frames,
      bytes frame ≤ input.layout.sizeBytes.toNat + bytes extra ∨
      ∃ j < reach p.nodes, nodeHasOutput (instanceDescriptor p.nodes j) = true ∧
        bytes frame ≤ allocated input.layout extra p.nodes j := by
  unfold runBound
  split
  · simp
  · rename_i given binding hbound
    obtain rfl : input = given := by simpa [hinput] using boundSource_input hbound
    obtain ⟨hframes, hstart⟩ := runSource_frames (hk _ _ hbound)
    split
    · rename_i frames e hs
      intro frame hm
      rw [hs] at hframes
      exact .inl (hframes frame hm)
    · rename_i frames held current hs
      rw [hs] at hframes hstart
      obtain ⟨rfl, hlayout⟩ := hstart held current rfl
      exact nodeLoop_frames (.start hframes rfl rfl hlayout)

/-- Sources that keep the layout, one for each way to supply a buffer. -/
theorem keeps_exists (h : extra = [] ∨ extra = [layout]) :
    ∃ supply : BufferLayout → Supply Unit,
      suppliedHeld layout (supply layout) = layout :: extra ∧
      suppliedBuffer layout (supply layout) = some ⟨layout, [], ()⟩ := by
  rcases h with rfl | rfl
  · exact ⟨fun _ => .filled [] (), rfl, rfl⟩
  · exact ⟨fun l => .replaced (some ⟨l, [], ()⟩), rfl, rfl⟩

theorem fits_of_withinPeak {input : InputPort} (hinput : pl.inputs = [input])
    (hextra : extra = [] ∨ extra = [input.layout]) (h : WithinPeak pl extra) :
    Fits input.layout extra pl.nodes pl.memoryPeakBytes.toNat := by
  obtain ⟨supply, hheld, hbuffer⟩ := keeps_exists hextra
  have hkeeps : ∀ destroyed given binding,
      boundSource { pl with sources := bindInput input } = .ok (given, binding) →
      Keeps ({ supplier supply with destroy := destroyed } : SourcePlugin Unit) binding.params
        given.layout extra := by
    intro destroyed given binding hbound
    obtain rfl : input = given := by simpa [hinput] using boundSource_input hbound
    refine ⟨hheld, ?_⟩
    intro b hb
    obtain rfl := Option.some.inj (hbuffer.symm.trans hb)
    rfl
  constructor
  · -- A source that fails to be destroyed ends the run with its buffers alive.
    have hrun : (runBound { pl with sources := bindInput input } none
        { supplier supply with destroy := .failed } (fun _ => idle)).frames =
        [[input.layout], input.layout :: extra] := by
      simp [runBound, boundSource_bindInput hinput, runSource, supplier, hheld]
    have := h Unit none _ (bindInput input) (fun _ => idle) (hkeeps .failed)
      (input.layout :: extra) (by rw [hrun]; simp)
    rwa [bytes_cons] at this
  · intro k hk hout
    have hbegun := begun_supplier hinput hbuffer
    have haccount : Account input.layout extra pl.nodes 0
        (⟨suppliedHeld input.layout (supply input.layout), false, ⟨input.layout, [], ()⟩, [],
          [[input.layout], suppliedHeld input.layout (supply input.layout)]⟩ : Session Unit) := by
      refine .start ?_ hheld rfl rfl
      intro frame hm
      simp only [hheld, List.mem_cons, List.not_mem_nil, or_false] at hm
      rcases hm with rfl | rfl
      · simp [bytes]
      · rw [bytes_cons]
    obtain ⟨frame, hm, he⟩ := nodeLoop_every (fun _ => idle_willing) haccount k hk hout
    have := h Unit none (supplier supply) (bindInput input) (fun _ => idle)
      (hkeeps .ok) frame
      (by rw [(runBound_begun hbegun).2]; exact hm)
    rwa [he] at this

theorem withinPeak_of_fits {input : InputPort} (hinput : pl.inputs = [input])
    (h : Fits input.layout extra pl.nodes pl.memoryPeakBytes.toNat) : WithinPeak pl extra := by
  intro D output source sources plugins hkeeps frame hm
  have hpipe : ({ pl with sources := sources } : Pipeline).inputs = [input] := hinput
  rcases runBound_frames hpipe hkeeps frame hm with hle | ⟨j, hj, hout, hle⟩
  · exact Nat.le_trans hle h.1
  · exact Nat.le_trans hle (h.2 j hj hout)

/-- Pipelines with another number of inputs do not run at all. -/
theorem withinPeak_of_inputs (h : pl.inputs.length ≠ 1) : WithinPeak pl extra := by
  intro D output source sources plugins _ frame hm
  unfold runBound at hm
  split at hm
  · simp at hm
  · rename_i input binding hbound
    have hlen := congrArg List.length (boundSource_input hbound)
    exact absurd hlen h

/-- The load's figure bounds the image bytes of every run exactly when every
node's output and the buffer it is made from fit into it together; the planner
itself gives a chain of nodes one slot. -/
theorem memory_within_peak_iff (out : Pipeline) (registry : Registry) (document : Document)
    (pl : Pipeline) (h : load out registry document = .ok pl) :
    ∃ nodes edges sorted plan order,
      Load.Stages registry document nodes edges sorted plan order ∧
      pl.nodes = plannedNodes plan order ∧
      ∀ extra, extra = [] ∨ extra = [pl.layout] →
        (WithinPeak pl extra ↔ (document.inputs.length = 1 →
          Fits pl.layout extra pl.nodes
            ((pl.layout.sizeBytes.toNat + slotBytes document plan) % 2^64))) := by
  obtain ⟨nodes, edges, sorted, plan, order, hs, _, rfl⟩ := Load.load_ok h
  refine ⟨nodes, edges, sorted, plan, order, hs, rfl, ?_⟩
  intro extra hextra
  have hpeak : (store out registry document plan order).memoryPeakBytes.toNat =
      ((store out registry document plan order).layout.sizeBytes.toNat +
        slotBytes document plan) % 2^64 := peakBytes_eq document plan
  rw [← hpeak]
  by_cases hone : document.inputs.length = 1
  · obtain ⟨given, hgiven⟩ := List.length_eq_one_iff.mp hone
    have hinput : (store out registry document plan order).inputs = [inputPort given] := by
      simp [store, hgiven]
    have hlayout : (store out registry document plan order).layout = (inputPort given).layout := by
      simp [store, hgiven, primaryLayout]
    rw [hlayout] at hextra ⊢
    exact ⟨fun hw _ => fits_of_withinPeak hinput hextra hw,
      fun hf => withinPeak_of_fits hinput (hf hone)⟩
  · refine ⟨fun _ hc => absurd hc hone, fun _ => withinPeak_of_inputs ?_⟩
    simpa [store] using hone

theorem memory_within_peak_iff_converted :
    ∃ pl, load {} Load.convertedRegistry Load.convertedDocument = .ok pl ∧
      ∃ nodes edges sorted plan order,
        Load.Stages Load.convertedRegistry Load.convertedDocument nodes edges sorted plan order ∧
        (WithinPeak pl [] → Fits pl.layout [] pl.nodes
          ((pl.layout.sizeBytes.toNat + slotBytes Load.convertedDocument plan) % 2^64)) := by
  obtain ⟨nodes, edges, sorted, plan, order, hs, _, hiff⟩ :=
    memory_within_peak_iff {} Load.convertedRegistry Load.convertedDocument _ rfl
  exact ⟨_, rfl, nodes, edges, sorted, plan, order, hs,
    fun hw => (hiff [] (.inl rfl)).mp hw rfl⟩

/-- Two 8-bit nodes in a row. -/
def chainDocument : Document where
  id := "chain"
  inputs := [⟨"raw", "Image2D", "R8G8B8A8_UNORM", some 4, some 4⟩]
  nodes := [⟨"a", "com.cpipe.builtin.passthrough", []⟩,
    ⟨"b", "com.cpipe.builtin.passthrough", []⟩]
  edges := [⟨"a.out", "b.in"⟩]

/-- The planner counts the input and one slot, the run holds three images. -/
theorem chain_exceeds_peak :
    ∃ pl, load {} [Nodes.builtinPassthrough] chainDocument = .ok pl ∧
      pl.memoryPeakBytes = 128 ∧ ¬ WithinPeak pl [] := by
  refine ⟨_, rfl, rfl, ?_⟩
  intro hw
  have hfits := fits_of_withinPeak rfl (.inl rfl) hw
  exact absurd (hfits.2 1 (by decide) (by decide)) (by decide)

end Cpipe.Proofs.MemoryCap
