import Cpipe.Library.Dataflow
import Cpipe.Proofs.Run

namespace Cpipe.Proofs.Graph
open Cpipe.Runtime Cpipe.Runtime.Pipeline Cpipe.Compute Cpipe.Proofs.Run Library

variable {D : Type} {output : Option String} {nodes : List NodeInstance} {plan : PrecisionPlan}
  {order : List Nat} {registry : Registry} {document : Document} {out pl : Pipeline}

/-- A pure node function: the steps and the content on each out-port, for the
buffers on the in-ports. -/
abbrev NodeFunction (D : Type) := List (Buffer D) → String → List String × D

def outNames (desc : DescPtr) : List String := (portsOf desc .output).map Port.name

def firstOut (desc : DescPtr) : String := (outNames desc).headD ""

/-- The plugin that computes a node function; a run asks it for its first
out-port only. -/
def purePlugin (f : NodeFunction D) (desc : DescPtr) : Plugin D where
  process _ inputs _ := ⟨.ok, (f inputs (firstOut desc)).1, (f inputs (firstOut desc)).2⟩

theorem purePlugin_willing (f : NodeFunction D) (desc : DescPtr) : Willing (purePlugin f desc) :=
  ⟨fun _ => rfl, fun _ _ _ => rfl, rfl⟩

/-- The planned graph, with the in-ports its manifests declare. -/
def graph (plan : PrecisionPlan) : Dataflow.Graph String where
  inPorts i := (portsOf (PrecisionPlanner.descriptorAt plan.nodes i) .input).map Port.name
  wires := plan.edges.map (fun e => ⟨e.src, e.dst, e.srcPort, e.dstPort⟩)

/-- What node `i` of the plan puts on out-port `q`. -/
def produce (plan : PrecisionPlan) (f : Nat → NodeFunction D) (i : Nat) (inputs : List (Buffer D))
    (q : String) : Option (Buffer D) :=
  match plan.nodes[i]?, inputs with
  | some node, first :: _ =>
    if q ∈ outNames node.descriptor then
      (outputFormat node.descriptor node.params).toOption.map (fun format =>
        ⟨{ first.layout with format := format }, (f i inputs q).1, (f i inputs q).2⟩)
    else none
  | _, _ => none

/-- The meaning of the planned graph for given node functions and source. -/
def Meaning (plan : PrecisionPlan) (f : Nat → NodeFunction D) (source : Buffer D)
    (den : Nat → String → Option (Buffer D)) : Prop :=
  Dataflow.Denotes (graph plan) (produce plan f) source (List.range plan.nodes.length) den

/-- The plugins of a stored pipeline that compute the functions of the plan. -/
def purePlugins (plan : PrecisionPlan) (order : List Nat) (f : Nat → NodeFunction D) (k : Nat) :
    Plugin D :=
  let i := order.getD k 0
  purePlugin (f i) (PrecisionPlanner.descriptorAt plan.nodes i)

/-- The stored list computes the graph: every in-port of a node a run gets to is
fed by the nearest node before it that makes a buffer, through its first
out-port, or by the source when there is no such node. -/
structure WiredAt (plan : PrecisionPlan) (order : List Nat) (nodes : List NodeInstance)
    (k i : Nat) : Prop where
  bare : (graph plan).inPorts i = [] → feeder nodes k = none
  edge : ∀ p ∈ (graph plan).inPorts i, ∀ e ∈ plan.edges, e.dst = i → e.dstPort = p →
    ∃ j, feeder nodes k = some j ∧ order[j]? = some e.src ∧
      e.srcPort = firstOut (PrecisionPlanner.descriptorAt plan.nodes e.src)
  free : ∀ p ∈ (graph plan).inPorts i, (∀ e ∈ plan.edges, e.dst = i → e.dstPort ≠ p) →
    feeder nodes k = none

def Wired (plan : PrecisionPlan) (order : List Nat) (nodes : List NodeInstance) : Prop :=
  ∀ k < reach nodes, ∀ i, order[k]? = some i → WiredAt plan order nodes k i

/-- Every run on pure node functions hands every node what the graph means for
it, and computes that meaning. -/
def FollowsGraph (pl : Pipeline) (plan : PrecisionPlan) (order : List Nat) : Prop :=
  ∀ (D : Type) (f : Nat → NodeFunction D) (output : Option String) (source : SourcePlugin D)
    (sources : List (String × SourceBinding)) (held : List BufferLayout) (start : Buffer D)
    (frames : List (List BufferLayout)) (den : Nat → String → Option (Buffer D)),
    Begun { pl with sources := sources } source held start frames → Meaning plan f start den →
    ∀ v ∈ (runBound { pl with sources := sources } output source
      (purePlugins plan order f)).visits, ∃ i, order[v.index]? = some i ∧
        Dataflow.Inputs (graph plan) start den i v.inputs ∧
        ∀ b, v.output = some b →
          den i (firstOut (PrecisionPlanner.descriptorAt plan.nodes i)) = some b

theorem stored_node {k : Nat} {node : NodeInstance} (hp : plannedOrder plan = .ok order)
    (hn : (plannedNodes plan order)[k]? = some node) :
    ∃ i n, order[k]? = some i ∧ plan.nodes[i]? = some n ∧ node = nodeInstance n := by
  rw [Load.plannedNodes_get (Load.plannedOrder_bound hp)] at hn
  obtain ⟨i, hi, hn⟩ := Option.bind_eq_some_iff.mp hn
  obtain ⟨n, hget, rfl⟩ := Option.map_eq_some_iff.mp hn
  exact ⟨i, n, hi, hget, rfl⟩

theorem stored_lt {n : PrecisionGraphNode} (hn : plan.nodes[i]? = some n) :
    i ∈ List.range plan.nodes.length :=
  List.mem_range.mpr (List.getElem?_eq_some_iff.mp hn).1

theorem firstOut_mem {desc : DescPtr} (h : nodeHasOutput desc = true) :
    firstOut desc ∈ outNames desc := by
  unfold firstOut outNames
  cases hp : portsOf desc .output with
  | nil => simp [nodeHasOutput, hp] at h
  | cons port rest => simp

/-- A run makes of its inputs what the graph makes of them. -/
theorem produce_made {f : Nat → NodeFunction D} {n : PrecisionGraphNode}
    {format : PixelFormat} (hi : order[k]? = some i) (hn : plan.nodes[i]? = some n)
    (hout : nodeHasOutput n.descriptor = true)
    (hf : outputFormat n.descriptor n.params = .ok format) (current : Buffer D) :
    produce plan f i (handedInputs (nodeInstance n) current) (firstOut n.descriptor) =
      some (made output (nodeInstance n) (purePlugins plan order f k) format current) := by
  obtain ⟨rest, hin⟩ := List.head?_eq_some_iff.mp (handedInputs_head (nodeInstance n) current)
  have hdesc : PrecisionPlanner.descriptorAt plan.nodes i = n.descriptor := by
    simp [PrecisionPlanner.descriptorAt, hn]
  have hget : order.getD k 0 = i := by simp [List.getD, hi]
  simp only [produce, hn, hin, if_pos (firstOut_mem hout), hf, Except.toOption, Option.map_some,
    made, purePlugins, hget, purePlugin, hdesc]

/-- The buffer a run holds before node `k` is the one the feeder put on its
first out-port. -/
def Holds (plan : PrecisionPlan) (order : List Nat) (nodes : List NodeInstance) (start : Buffer D)
    (den : Nat → String → Option (Buffer D)) (k : Nat) (current : Buffer D) : Prop :=
  match feeder nodes k with
  | none => current = start
  | some j => ∃ i, order[j]? = some i ∧
      den i (firstOut (PrecisionPlanner.descriptorAt plan.nodes i)) = some current

theorem WiredAt.inputs {start current : Buffer D} {den : Nat → String → Option (Buffer D)}
    {n : PrecisionGraphNode} (hw : WiredAt plan order nodes k i)
    (hn : plan.nodes[i]? = some n) (hold : Holds plan order nodes start den k current) :
    Dataflow.Inputs (graph plan) start den i (handedInputs (nodeInstance n) current) := by
  have hports : (graph plan).inPorts i = (portsOf n.descriptor .input).map Port.name := by
    simp [graph, PrecisionPlanner.descriptorAt, hn]
  have hstart : feeder nodes k = none → current = start := by
    intro hnone
    simpa [Holds, hnone] using hold
  have hcount : handedInputs (nodeInstance n) current =
      List.replicate (max ((graph plan).inPorts i).length 1) current := by
    simp [handedInputs, nodeInputCount, hports, nodeInstance]
  rw [hcount]
  refine Dataflow.inputs_replicate.mpr ⟨fun hb => hstart (hw.bare hb), ?_⟩
  intro p hp
  constructor
  · intro w hm hdst hport
    obtain ⟨e, he, rfl⟩ := List.mem_map.mp hm
    obtain ⟨j, hj, hsrc, hfirst⟩ := hw.edge p hp e he hdst hport
    simp only [Holds, hj] at hold
    obtain ⟨i', hi', hden⟩ := hold
    obtain rfl := Option.some.inj (hsrc.symm.trans hi')
    simpa [hfirst] using hden
  · intro hfree
    refine hstart (hw.free p hp ?_)
    intro e he hdst
    exact hfree ⟨e.src, e.dst, e.srcPort, e.dstPort⟩ (List.mem_map.mpr ⟨e, he, rfl⟩) hdst

/-- On a wired list every visit of a trace sees the meaning of the graph. -/
theorem Wired.follows (hp : plannedOrder plan = .ok order)
    (hw : Wired plan order (plannedNodes plan order)) {f : Nat → NodeFunction D}
    {start last : Buffer D} {den : Nat → String → Option (Buffer D)}
    (hden : Meaning plan f start den) {vs : List (Visit D)}
    (h : Trace output (plannedNodes plan order) (purePlugins plan order f) start vs last) :
    Holds plan order (plannedNodes plan order) start den vs.length last ∧
    ∀ v ∈ vs, ∃ i, order[v.index]? = some i ∧
      Dataflow.Inputs (graph plan) start den i v.inputs ∧
      ∀ b, v.output = some b →
        den i (firstOut (PrecisionPlanner.descriptorAt plan.nodes i)) = some b := by
  induction h with
  | start => exact ⟨rfl, by simp⟩
  | @sink vs current node h hnode hout ih =>
    obtain ⟨hold, hall⟩ := ih
    have hreach := (Trace.sink h hnode hout).length_le_reach
    rw [List.length_append, List.length_singleton] at hreach
    obtain ⟨i, n, hi, hn, rfl⟩ := stored_node hp hnode
    have hin := (hw _ hreach i hi).inputs hn hold
    constructor
    · simpa [Holds, feeder_succ hnode, hout]
        using hold
    · intro v hv
      rcases List.mem_append.mp hv with hv | hv
      · exact hall v hv
      · obtain rfl := List.mem_singleton.mp hv
        exact ⟨i, hi, hin, by simp⟩
  | @into vs current node format h hnode hout hf ih =>
    obtain ⟨hold, hall⟩ := ih
    have hreach := (Trace.into h hnode hout hf).length_le_reach
    rw [List.length_append, List.length_singleton] at hreach
    obtain ⟨i, n, hi, hn, rfl⟩ := stored_node hp hnode
    have hin := (hw _ hreach i hi).inputs hn hold
    have hdesc : PrecisionPlanner.descriptorAt plan.nodes i = n.descriptor := by
      simp [PrecisionPlanner.descriptorAt, hn]
    have hmade : den i (firstOut n.descriptor) =
        some (made output (nodeInstance n) (purePlugins plan order f vs.length) format current) :=
      (hden i (stored_lt hn) _ hin _).trans (produce_made hi hn hout hf current)
    constructor
    · rw [List.length_append, List.length_singleton]
      simp only [Holds, feeder_succ hnode, if_pos hout]
      exact ⟨i, hi, by rw [hdesc, hmade]⟩
    · intro v hv
      rcases List.mem_append.mp hv with hv | hv
      · exact hall v hv
      · obtain rfl := List.mem_singleton.mp hv
        refine ⟨i, hi, hin, ?_⟩
        intro b hb
        obtain rfl := Option.some.inj hb
        rw [hdesc, hmade]

/-- The node functions that tell all out-ports apart: each writes its own name. -/
def label (i : Nat) : NodeFunction (Nat × String) := fun _ q => ([], (i+1, q))

/-- Their meaning: the layout stays that of the source, up to the format. -/
def labelled (plan : PrecisionPlan) (start : BufferLayout) (i : Nat) (q : String) :
    Option (Buffer (Nat × String)) :=
  match plan.nodes[i]? with
  | some node =>
    if q ∈ outNames node.descriptor then
      (outputFormat node.descriptor node.params).toOption.map (fun format =>
        ⟨{ start with format := format }, [], (i+1, q)⟩)
    else none
  | none => none

theorem labelled_some {start : BufferLayout} (h : labelled plan start i q = some b) :
    b.content = (i+1, q) ∧ ∃ format, b.layout = { start with format := format } := by
  unfold labelled at h
  split at h
  · split at h
    · obtain ⟨format, _, rfl⟩ := Option.map_eq_some_iff.mp h
      exact ⟨rfl, format, rfl⟩
    · cases h
  · cases h

theorem fed_layout {start b : Buffer (Nat × String)} {i : Nat} {p : String}
    (h : Dataflow.Fed (graph plan) start (labelled plan start.layout) i p b) :
    ∃ format, b.layout = { start.layout with format := format } := by
  by_cases hfree : ∀ w ∈ (graph plan).wires, w.dst = i → w.dstPort ≠ p
  · rw [h.2 hfree]
    exact ⟨start.layout.format, rfl⟩
  · simp only [not_forall, not_not] at hfree
    obtain ⟨w, hw, hi, hp⟩ := hfree
    exact (labelled_some (h.1 w hw hi hp)).2

theorem labelled_meaning (start : Buffer (Nat × String)) :
    Meaning plan label start (labelled plan start.layout) := by
  intro i _ vs hin q
  have hfirst : ∃ first rest format, vs = first :: rest ∧
      first.layout = { start.layout with format := format } := by
    unfold Dataflow.Inputs at hin
    split at hin
    · exact ⟨start, [], start.layout.format, hin, rfl⟩
    · rename_i hne
      generalize (graph plan).inPorts i = ports at hin hne
      cases hin with
      | nil => exact absurd rfl hne
      | cons hp _ =>
        obtain ⟨format, hl⟩ := fed_layout hp
        exact ⟨_, _, format, rfl, hl⟩
  obtain ⟨first, rest, format, rfl, hl⟩ := hfirst
  unfold labelled produce
  cases plan.nodes[i]? with
  | none => rfl
  | some n => simp [hl, label]

/-- The name on the buffer a run holds is that of the feeder's first out-port. -/
def Named (plan : PrecisionPlan) (order : List Nat) (nodes : List NodeInstance)
    (start : Buffer (Nat × String)) (k : Nat) (current : Buffer (Nat × String)) : Prop :=
  match feeder nodes k with
  | none => current = start
  | some j => ∃ i, order[j]? = some i ∧
      current.content = (i+1, firstOut (PrecisionPlanner.descriptorAt plan.nodes i))

theorem trace_named (hp : plannedOrder plan = .ok order) {start last : Buffer (Nat × String)}
    {vs : List (Visit (Nat × String))}
    (h : Trace output (plannedNodes plan order) (purePlugins plan order label) start vs last) :
    Named plan order (plannedNodes plan order) start vs.length last := by
  induction h with
  | start => exact rfl
  | @sink vs current node h hnode hout ih =>
    obtain ⟨i, n, hi, hn, rfl⟩ := stored_node hp hnode
    simpa [Named, feeder_succ hnode, hout] using ih
  | @into vs current node format h hnode hout hf ih =>
    obtain ⟨i, n, hi, hn, rfl⟩ := stored_node hp hnode
    rw [List.length_append, List.length_singleton]
    simp only [Named, feeder_succ hnode, if_pos hout]
    exact ⟨i, hi, by simp [made, purePlugins, purePlugin, label, List.getD, hi]⟩

theorem Named.feeder_of_content {start current : Buffer (Nat × String)} {i : Nat} {q : String}
    (h : Named plan order nodes start k current) (hs : start.content.1 = 0)
    (hc : current.content = (i+1, q)) :
    ∃ j, feeder nodes k = some j ∧ order[j]? = some i ∧
      q = firstOut (PrecisionPlanner.descriptorAt plan.nodes i) := by
  unfold Named at h
  split at h
  · subst h
    simp [hc] at hs
  · rename_i j hj
    obtain ⟨i', hi', hc'⟩ := h
    rw [hc] at hc'
    obtain ⟨hi, hq⟩ := Prod.mk.inj hc'
    obtain rfl : i = i' := by omega
    exact ⟨j, hj, hi', hq⟩

theorem Named.feeder_of_start {start : Buffer (Nat × String)}
    (h : Named plan order nodes start k start) (hs : start.content.1 = 0) :
    feeder nodes k = none := by
  unfold Named at h
  split at h
  · assumption
  · obtain ⟨i, _, hc⟩ := h
    simp [hc] at hs

/-- Graphs a run follows are wired: the names tell where each buffer came from. -/
theorem FollowsGraph.wired (hp : plannedOrder plan = .ok order)
    (hnodes : pl.nodes = plannedNodes plan order) (hinput : pl.inputs = [input])
    (h : FollowsGraph pl plan order) : Wired plan order (plannedNodes plan order) := by
  intro k hk i hi
  let start : Buffer (Nat × String) := ⟨input.layout, [], (0, "")⟩
  have hbegun := begun_filler hinput [] (0, "")
  have hrun := h (Nat × String) label none _ _ _ start _ _ hbegun (labelled_meaning start)
  have hwilling : ∀ j, Willing (purePlugins plan order label j) :=
    fun j => purePlugin_willing _ _
  obtain ⟨v, hv, vs, current, node, rfl, htrace, hnode, hindex, hin⟩ :=
    run_visit none hbegun hwilling (hnodes ▸ hk)
  rw [show ({ pl with sources := bindInput input } : Pipeline).nodes = plannedNodes plan order
    from hnodes] at htrace hnode
  have hnamed := trace_named hp htrace
  obtain ⟨i', hi', hinputs, _⟩ := hrun v hv
  rw [hindex, hi] at hi'
  obtain rfl := Option.some.inj hi'
  obtain ⟨i', n, hi', hn, rfl⟩ := stored_node hp hnode
  obtain rfl := Option.some.inj (hi.symm.trans hi')
  have hcount : v.inputs = List.replicate (max ((graph plan).inPorts i).length 1) current := by
    simp [hin, handedInputs, nodeInputCount, graph, PrecisionPlanner.descriptorAt, hn,
      nodeInstance]
  rw [hcount] at hinputs
  obtain ⟨hbare, hfed⟩ := Dataflow.inputs_replicate.mp hinputs
  constructor
  · intro hb
    have hc := hbare hb
    subst hc
    exact hnamed.feeder_of_start rfl
  · intro q hq e he hdst hport
    have hvalue := (hfed q hq).1 ⟨e.src, e.dst, e.srcPort, e.dstPort⟩
      (List.mem_map.mpr ⟨e, he, rfl⟩) hdst hport
    exact hnamed.feeder_of_content rfl (labelled_some hvalue).1
  · intro q hq hfree
    have hc : current = start := by
      apply (hfed q hq).2
      intro w hw hdst
      obtain ⟨e, he, rfl⟩ := List.mem_map.mp hw
      exact hfree e he hdst
    subst hc
    exact hnamed.feeder_of_start rfl

theorem meaning_exists (hp : plannedOrder plan = .ok order) (f : Nat → NodeFunction D)
    (start : Buffer D) : ∃ den, Meaning plan f start den := by
  have hperm := Load.plannedOrder_perm hp
  have hmem : ∀ i, i ∈ order ↔ i < plan.nodes.length := by
    intro i
    rw [hperm.mem_iff, List.mem_range]
  have hden := @Dataflow.evaluate_denotes String (Buffer D) _ (graph plan) (produce plan f) start
    order (hperm.nodup_iff.mpr List.nodup_range) (by
      intro w hw _
      obtain ⟨e, he, rfl⟩ := List.mem_map.mp hw
      have hlt := (Load.plannedOrder_ok hp).1 (e.src, e.dst) (List.mem_map.mpr ⟨e, he, rfl⟩)
      exact ⟨(hmem _).mpr hlt.1, Load.plannedOrder_before hp he⟩)
  exact ⟨_, fun i hi => hden i ((hmem i).mpr (List.mem_range.mp hi))⟩

/-- The buffer a run holds is the last one a visit made. -/
theorem trace_last {plugins : Nat → Plugin D} {start last : Buffer D} {vs : List (Visit D)}
    (h : Trace output nodes plugins start vs last) :
    last = ((vs.filterMap Visit.output).getLast?).getD start := by
  induction h with
  | start => rfl
  | sink h hn hout ih => simpa using ih
  | into h hn hout hf ih => simp

/-- A run calls the nodes one at a time and hands each the buffer of the nearest node before
it that made one. That is the meaning of the document's graph for all node functions when,
and for the one input a run supports only when, the stored list is wired so. -/
theorem run_hands_over_linearly (out : Pipeline) (registry : Registry) (document : Document)
    (pl : Pipeline) (h : load out registry document = .ok pl) :
    ∃ nodes edges sorted plan order,
      Load.Stages registry document nodes edges sorted plan order ∧
      pl.nodes = plannedNodes plan order ∧
      (∀ (D : Type) (output : Option String) (source : SourcePlugin D)
        (sources : List (String × SourceBinding)) (plugins : Nat → Plugin D)
        (held : List BufferLayout) (start : Buffer D) (frames : List (List BufferLayout)),
        Begun { pl with sources := sources } source held start frames →
        ∀ (before : List (Visit D)) (v : Visit D) (after : List (Visit D)),
          (runBound { pl with sources := sources } output source plugins).visits =
            before ++ v :: after →
          v.index = before.length ∧ ∃ node, pl.nodes[v.index]? = some node ∧
            v.inputs = List.replicate (nodeInputCount node.descriptor)
              (((before.filterMap Visit.output).getLast?).getD start)) ∧
      (∀ t, Scheduler.Reachable (scheduledNodes pl.nodes) t → Scheduler.Sequential t.log) ∧
      (∀ (D : Type) (f : Nat → NodeFunction D) (start : Buffer D),
        ∃ den, Meaning plan f start den) ∧
      (Wired plan order pl.nodes → FollowsGraph pl plan order) ∧
      (document.inputs.length = 1 → FollowsGraph pl plan order → Wired plan order pl.nodes) := by
  obtain ⟨nodes, edges, sorted, plan, order, hs, _, rfl⟩ := Load.load_ok h
  refine ⟨nodes, edges, sorted, plan, order, hs, rfl, ?_,
    fun _ ht => scheduledNodes_sequential ht, fun D f start => meaning_exists hs.planned f start, ?_, ?_⟩
  · intro D output source sources plugins held start frames hbegun before v after hvisits
    obtain ⟨last, htrace⟩ := run_trace output plugins hbegun
    rw [hvisits] at htrace
    have hv : (before ++ v :: after)[before.length]? = some v := by simp
    obtain ⟨current, node, hcut, hnode, hindex, hin, _⟩ := htrace.visit hv
    rw [List.take_left] at hcut
    exact ⟨hindex, node, hindex ▸ hnode, by rw [hin, trace_last hcut]; rfl⟩
  · intro hw D f output source sources held start frames den hbegun hden
    obtain ⟨last, htrace⟩ := run_trace output (purePlugins plan order f) hbegun
    exact (hw.follows hs.planned hden htrace).2
  · intro hone hfollows
    obtain ⟨input, hinput⟩ := List.length_eq_one_iff.mp hone
    have hport : (store out registry document plan order).inputs = [inputPort input] := by
      simp [store, hinput]
    exact hfollows.wired hs.planned rfl hport

theorem run_hands_over_linearly_converted :
    ∃ pl, load {} Load.convertedRegistry Load.convertedDocument = .ok pl ∧
      ∃ nodes edges sorted plan order,
        Load.Stages Load.convertedRegistry Load.convertedDocument nodes edges sorted plan order ∧
        (FollowsGraph pl plan order → Wired plan order pl.nodes) := by
  obtain ⟨nodes, edges, sorted, plan, order, hs, _, _, _, _, _, hwired⟩ :=
    run_hands_over_linearly {} Load.convertedRegistry Load.convertedDocument _ rfl
  exact ⟨_, rfl, nodes, edges, sorted, plan, order, hs, hwired rfl⟩

/-- One node feeding two others. -/
def fanOutDocument : Document where
  id := "fan-out"
  inputs := [⟨"raw", "Image2D", "R8G8B8A8_UNORM", some 4, some 4⟩]
  nodes := [⟨"a", "com.cpipe.builtin.passthrough", []⟩,
    ⟨"b", "com.cpipe.builtin.passthrough", []⟩, ⟨"c", "com.cpipe.builtin.passthrough", []⟩]
  edges := [⟨"a.out", "b.in"⟩, ⟨"a.out", "c.in"⟩]

/-- The third node is fed by the first but gets what the second made. -/
theorem fan_out_not_followed :
    ∃ pl nodes edges sorted plan order,
      load {} [Nodes.builtinPassthrough] fanOutDocument = .ok pl ∧
      Load.Stages [Nodes.builtinPassthrough] fanOutDocument nodes edges sorted plan order ∧
      ¬ FollowsGraph pl plan order := by
  refine ⟨_, _, _, _, _, [0, 1, 2], rfl,
    ⟨rfl, rfl, rfl, Checked.forM_ok_iff.mp rfl, rfl, rfl⟩, ?_⟩
  intro hfollows
  have hwired := hfollows.wired rfl rfl rfl
  obtain ⟨j, hj, hsrc, _⟩ := (hwired 2 (by decide) 2 rfl).edge "in" (by decide)
    ⟨0, 2, "out", "in"⟩ (by decide) rfl rfl
  obtain rfl := Option.some.inj hj
  cases hsrc

end Cpipe.Proofs.Graph
