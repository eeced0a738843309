import Cpipe.Proofs.Run

namespace Cpipe.Proofs.Metadata
open Cpipe.Runtime Cpipe.Runtime.Pipeline Cpipe.Compute Cpipe.Proofs.Run Library

variable {D : Type} {output : Option String} {registry : Registry} {document : Document}
  {nodes : List NodeInstance} {edges : List GraphEdge} {sorted order : List Nat}
  {plan : PrecisionPlan} {out pl : Pipeline}

theorem mem_appendUniqueSteps {out steps : List String} {step : String} :
    step ∈ appendUniqueSteps out steps ↔ step ∈ out ∨ step ∈ steps := by
  unfold appendUniqueSteps
  induction steps generalizing out with
  | nil => simp
  | cons s steps ih =>
    rw [List.foldl_cons, ih]
    split
    · rename_i hc
      have hs : s ∈ out := by simpa [containsStep] using hc
      constructor
      · rintro (h | h)
        · exact .inl h
        · exact .inr (by simp [h])
      · rintro (h | h)
        · exact .inl h
        · rcases List.mem_cons.mp h with rfl | h
          · exact .inl hs
          · exact .inr h
    · simp [or_assoc]

/-- `a` has an out-port some edge leaves from that declares `step`. -/
def Sets (nodes : List NodeInstance) (edges : List GraphEdge) (a : Nat) (step : String) : Prop :=
  ∃ e ∈ edges, e.src = a ∧ step ∈ manifestMetadataSteps (instanceDescriptor nodes a) .output
    e.srcPort Port.setsStepsApplied

/-- Some node at or above `i` in the document's graph sets `step`. -/
def SetAbove (nodes : List NodeInstance) (edges : List GraphEdge) (i : Nat) (step : String) :
    Prop :=
  ∃ a, Relation.ReflTransGen (Kahn.Edge (adjacent edges)) a i ∧ Sets nodes edges a step

/-- A scan over the edges that appends for some of them collects just that. -/
theorem mem_foldl_appendUniqueSteps {p : GraphEdge → Prop} [DecidablePred p]
    {steps : GraphEdge → List String} {before : List String} {step : String} :
    step ∈ edges.foldl (fun out e => if p e then appendUniqueSteps out (steps e) else out) before ↔
      step ∈ before ∨ ∃ e ∈ edges, p e ∧ step ∈ steps e := by
  induction edges generalizing before with
  | nil => simp
  | cons e edges ih =>
    rw [List.foldl_cons, ih]
    by_cases hp : p e
    · simp [hp, mem_appendUniqueSteps, or_assoc]
    · simp [hp]

theorem mem_inheritedSteps {cumulative : Nat → List String} {index : Nat} {step : String} :
    step ∈ inheritedSteps edges cumulative index ↔
      step ∈ cumulative index ∨ ∃ e ∈ edges, e.dst = index ∧ step ∈ cumulative e.src :=
  mem_foldl_appendUniqueSteps

theorem mem_ownSteps {index : Nat} {before : List String} {step : String} :
    step ∈ ownSteps nodes edges index before ↔ step ∈ before ∨ Sets nodes edges index step :=
  mem_foldl_appendUniqueSteps

/-- Whatever the load's pass collects for a node was declared above it. -/
theorem cumulativeSteps_above :
    ∀ i, ∀ step ∈ cumulativeSteps nodes edges sorted i, SetAbove nodes edges i step := by
  unfold cumulativeSteps
  refine List.foldlRecOn
    (motive := fun c : Nat → List String => ∀ i, ∀ step ∈ c i, SetAbove nodes edges i step)
    sorted _ (by simp) ?_
  intro cumulative hc index _ i step hstep
  by_cases hi : i = index
  · subst hi
    rw [Function.update_self, mem_ownSteps, mem_inheritedSteps] at hstep
    rcases hstep with (hstep | ⟨e, he, rfl, hstep⟩) | hsets
    · exact hc _ step hstep
    · obtain ⟨a, ha, hsets⟩ := hc e.src step hstep
      exact ⟨a, ha.tail (List.mem_map.mpr ⟨e, he, rfl⟩), hsets⟩
    · exact ⟨_, .refl, hsets⟩
  · rw [Function.update_of_ne hi] at hstep
    exact hc i step hstep

theorem checkEdge_steps {cumulative : Nat → List String} {e : GraphEdge}
    (h : checkEdge nodes cumulative e = .ok ()) :
    ∀ step ∈ manifestMetadataSteps (instanceDescriptor nodes e.dst) .input e.dstPort
      Port.requiresStepsApplied, step ∈ cumulative e.src := by
  obtain ⟨_, hsteps, _⟩ := Checked.bind_ok.mp h
  intro step hstep
  have := Checked.forM_ok_iff.mp hsteps step hstep
  split at this
  · rename_i hc
    simpa [containsStep] using hc
  · cases this

/-- The document's order among nodes survives the planning. -/
theorem raw_before (hs : Load.Stages registry document nodes edges sorted plan order)
    (h : Relation.TransGen (Kahn.Edge (adjacent edges)) a b) :
    order.idxOf a < order.idxOf b := by
  have hplanned : Relation.TransGen (Kahn.Edge (adjacent plan.edges)) a b := by
    have hinsert := hs.insert
    cases hconv : registry.find precisionConvertId with
    | none =>
      rw [hconv] at hinsert
      rw [PrecisionPlanner.autoInsert_none hinsert]
      exact h
    | some conv =>
      rw [hconv] at hinsert
      exact (PrecisionPlanner.autoInsert_rewritten hinsert).subdivided.expand_trans h
  have hedge : ∀ a b, Kahn.Edge (adjacent plan.edges) a b → order.idxOf a < order.idxOf b := by
    intro a b hab
    obtain ⟨e, he, hpair⟩ := List.mem_map.mp hab
    obtain ⟨rfl, rfl⟩ := Prod.mk.inj hpair
    exact Load.plannedOrder_before hs.planned he
  clear h
  induction hplanned with
  | single he => exact hedge _ _ he
  | tail _ he ih => exact Nat.lt_trans ih (hedge _ _ he)

/-- A node of the document stands in the stored list where the order puts it. -/
theorem stored_raw (hs : Load.Stages registry document nodes edges sorted plan order)
    (ha : a < nodes.length) :
    (plannedNodes plan order)[order.idxOf a]? = nodes[a]? := by
  obtain ⟨converters, hplan, _⟩ := PrecisionPlanner.autoInsert_kept hs.insert
  have hmem : a ∈ order := by
    rw [(Load.plannedOrder_perm hs.planned).mem_iff, List.mem_range, hplan]
    simp
    omega
  have hget : order[order.idxOf a]? = some a := by
    rw [List.getElem?_eq_getElem (List.idxOf_lt_length_iff.mpr hmem)]
    simp
  rw [Load.plannedNodes_get (Load.plannedOrder_bound hs.planned), hget, Option.bind_some, hplan,
    List.getElem?_append_left (by simpa using ha), List.getElem?_map, Option.map_map,
    show nodeInstance ∘ precisionNode = id from rfl, Option.map_id]
  rfl

/-- The steps all out-ports of a node declare. -/
def declaredSteps (desc : DescPtr) : List String :=
  (portsOf desc .output).flatMap Port.setsStepsApplied

/-- The steps declared before position `k` of the stored list. -/
def earlierSteps (nodes : List NodeInstance) (k : Nat) : List String :=
  (nodes.take k).flatMap (fun node => declaredSteps node.descriptor)

theorem mem_earlierSteps {step : String} {k : Nat} :
    step ∈ earlierSteps nodes k ↔
      ∃ j < k, ∃ node, nodes[j]? = some node ∧ step ∈ declaredSteps node.descriptor := by
  unfold earlierSteps
  rw [List.mem_flatMap]
  constructor
  · intro hx
    obtain ⟨node, hn, hstep⟩ := hx
    obtain ⟨j, hj⟩ := List.mem_iff_getElem?.mp hn
    rw [List.getElem?_take] at hj
    split at hj
    · rename_i hlt
      exact ⟨j, hlt, node, hj, hstep⟩
    · cases hj
  · intro hx
    obtain ⟨j, hj, node, hn, hstep⟩ := hx
    refine ⟨node, List.mem_iff_getElem?.mpr ⟨j, ?_⟩, hstep⟩
    rw [List.getElem?_take, if_pos hj, hn]

theorem earlierSteps_succ {node : NodeInstance} {k : Nat} (hn : nodes[k]? = some node) :
    earlierSteps nodes (k+1) = earlierSteps nodes k ++ declaredSteps node.descriptor := by
  simp [earlierSteps, List.take_add_one, hn]

theorem declaredSteps_sink {desc : DescPtr} (h : nodeHasOutput desc = false) :
    declaredSteps desc = [] := by
  have : portsOf desc .output = [] := by simpa [nodeHasOutput] using h
  simp [declaredSteps, this]

/-- Nodes that add exactly the steps their out-ports declare and remove none. -/
def Honest (nodes : List NodeInstance) (plugins : Nat → Plugin D) : Prop :=
  ∀ k node, nodes[k]? = some node → ∀ params (inputs : List (Buffer D)) layout base,
    inputs.head? = some base → ∀ step,
      step ∈ ((plugins k).process params inputs (some layout)).appliedSteps ↔
        step ∈ base.appliedSteps ∨ step ∈ declaredSteps node.descriptor

/-- The metadata a run threads through its nodes collects what they declare. -/
theorem trace_steps {plugins : Nat → Plugin D} {start last : Buffer D} {vs : List (Visit D)}
    (hh : Honest nodes plugins) (hs : start.appliedSteps = [])
    (h : Trace output nodes plugins start vs last) :
    ∀ step, step ∈ last.appliedSteps ↔ step ∈ earlierSteps nodes vs.length := by
  induction h with
  | start => simp [hs, earlierSteps]
  | sink h hn hout ih =>
    intro step
    rw [List.length_append, List.length_singleton, earlierSteps_succ hn, declaredSteps_sink hout,
      List.append_nil]
    exact ih step
  | @into vs current node format h hn hout hf ih =>
    intro step
    rw [List.length_append, List.length_singleton, earlierSteps_succ hn, List.mem_append,
      ← ih step]
    exact hh _ node hn _ _ _ current (handedInputs_head node current) step

/-- Some edge of the document leads to this in-port of the node at position `k`:
the load looked the port up and checked it. -/
def Examined (edges : List GraphEdge) (order : List Nat) (k : Nat) (node : NodeInstance)
    (port : Port) : Prop :=
  ∃ e ∈ edges, order[k]? = some e.dst ∧
    findPort node.descriptor .input e.dstPort = some port

/-- What the load checked on an edge holds of every run. -/
theorem examined_steps (hs : Load.Stages registry document nodes edges sorted plan order)
    {k : Nat} {node : NodeInstance} {port : Port}
    (hn : (plannedNodes plan order)[k]? = some node) (he : Examined edges order k node port) :
    ∀ step ∈ port.requiresStepsApplied, step ∈ earlierSteps (plannedNodes plan order) k := by
  obtain ⟨e, he, hk, hport⟩ := he
  obtain ⟨hsrc, hdst⟩ := Load.resolveGraph_bound hs.graph he
  have hidx : order.idxOf e.dst = k := by
    have hlt := (List.getElem?_eq_some_iff.mp hk).1
    have hnodup := (Load.plannedOrder_perm hs.planned).nodup_iff.mpr List.nodup_range
    have hget : order[k] = e.dst := (List.getElem?_eq_some_iff.mp hk).2
    rw [← hget]
    exact hnodup.idxOf_getElem k hlt
  have hdesc : instanceDescriptor nodes e.dst = node.descriptor := by
    have hraw := stored_raw hs hdst
    rw [hidx, hn] at hraw
    simp [instanceDescriptor, ← hraw]
  intro step hstep
  have hrequired : step ∈ manifestMetadataSteps (instanceDescriptor nodes e.dst) .input e.dstPort
      Port.requiresStepsApplied := by
    simp only [manifestMetadataSteps, hdesc, hport]
    exact hstep
  obtain ⟨a, ha, e', he', rfl, hsets⟩ :=
    cumulativeSteps_above _ _ (checkEdge_steps (hs.checks e he) step hrequired)
  have hlt := raw_before hs (Relation.TransGen.tail' ha
    (List.mem_map.mpr ⟨e, he, rfl⟩ : Kahn.Edge (adjacent edges) e.src e.dst))
  rw [hidx] at hlt
  have ha' := (Load.resolveGraph_bound hs.graph he').1
  refine mem_earlierSteps.mpr ⟨order.idxOf e'.src, hlt, nodes[e'.src], ?_, ?_⟩
  · rw [stored_raw hs ha', List.getElem?_eq_getElem ha']
  · have hd : instanceDescriptor nodes e'.src = nodes[e'.src].descriptor := by
      simp [instanceDescriptor, ha']
    rw [hd] at hsets
    unfold manifestMetadataSteps at hsets
    split at hsets
    · simp at hsets
    · rename_i p hp
      exact List.mem_flatMap.mpr ⟨p, (findPort_some hp).1, hsets⟩

/-- The promise made before any node executes, over all runs: a node that is
processed finds the steps its in-ports require. -/
def Guaranteed (pl : Pipeline) : Prop :=
  ∀ (D : Type) (output : Option String) (source : SourcePlugin D)
    (sources : List (String × SourceBinding)) (plugins : Nat → Plugin D)
    (held : List BufferLayout) (start : Buffer D) (frames : List (List BufferLayout)),
    Begun { pl with sources := sources } source held start frames → start.appliedSteps = [] →
    Honest pl.nodes plugins →
    ∀ v ∈ (runBound { pl with sources := sources } output source plugins).visits,
      ∀ node, pl.nodes[v.index]? = some node → ∀ port ∈ portsOf node.descriptor .input,
        ∀ step ∈ port.requiresStepsApplied, ∀ b ∈ v.inputs, step ∈ b.appliedSteps

/-- In-ports no edge leads to find their steps declared earlier in the list. -/
def UnexaminedSupplied (edges : List GraphEdge) (order : List Nat) (nodes : List NodeInstance) :
    Prop :=
  ∀ k < reach nodes, ∀ node, nodes[k]? = some node → ∀ port ∈ portsOf node.descriptor .input,
    ¬ Examined edges order k node port →
      ∀ step ∈ port.requiresStepsApplied, step ∈ earlierSteps nodes k

theorem begun_one_input {p : Pipeline} {source : SourcePlugin D} {held : List BufferLayout}
    {start : Buffer D} {frames : List (List BufferLayout)}
    (h : Begun p source held start frames) : ∃ input, p.inputs = [input] := by
  obtain ⟨input, binding, hbound, _⟩ := h
  exact ⟨input, boundSource_input hbound⟩

theorem guaranteed_of_supplied
    (hs : Load.Stages registry document nodes edges sorted plan order)
    (hnodes : pl.nodes = plannedNodes plan order)
    (hc : (∃ input, pl.inputs = [input]) → UnexaminedSupplied edges order pl.nodes) :
    Guaranteed pl := by
  intro D output source sources plugins held start frames hbegun hstart hh v hv node hnode port
    hport step hstep b hb
  obtain ⟨last, htrace⟩ := run_trace output plugins hbegun
  obtain ⟨k, hk⟩ := List.mem_iff_getElem?.mp hv
  obtain ⟨current, node', hcut, hnode', hindex, hin, _⟩ := htrace.visit hk
  rw [hindex] at hnode
  obtain rfl := Option.some.inj (hnode'.symm.trans hnode)
  obtain rfl : b = current := by
    rw [hin] at hb
    exact List.eq_of_mem_replicate hb
  have hlen := (List.getElem?_eq_some_iff.mp hk).1
  have hcurrent := trace_steps hh hstart hcut step
  rw [List.length_take_of_le (Nat.le_of_lt hlen)] at hcurrent
  rw [hcurrent]
  by_cases hex : Examined edges order k node' port
  · simp only [hnodes] at hnode ⊢
    exact examined_steps hs hnode hex step hstep
  · have hreach : k < reach pl.nodes := Nat.lt_of_lt_of_le hlen htrace.length_le_reach
    have hone : ∃ input, pl.inputs = [input] := by simpa using begun_one_input hbegun
    exact hc hone k hreach node' hnode port hport hex step hstep

/-- The plugin that does nothing but add the declared steps. -/
def declaring (desc : DescPtr) : Plugin Unit where
  process _ inputs _ := ⟨.ok, (inputs.head?.map Buffer.appliedSteps).getD [] ++ declaredSteps desc,
    ()⟩

theorem declaring_willing (desc : DescPtr) : Willing (declaring desc) :=
  ⟨fun _ => rfl, fun _ _ _ => rfl, rfl⟩

theorem declaring_honest (nodes : List NodeInstance) :
    Honest nodes (fun k => declaring (instanceDescriptor nodes k)) := by
  intro k node hn params inputs layout base hbase step
  simp [declaring, hbase, instanceDescriptor, hn]

theorem supplied_of_guaranteed {input : InputPort} (hinput : pl.inputs = [input])
    (h : Guaranteed pl) : UnexaminedSupplied edges order pl.nodes := by
  intro k hk node hnode port hport _ step hstep
  have hbegun := begun_filler hinput [] ()
  obtain ⟨v, hv, vs, current, node', rfl, htrace, hnode', hindex, hin⟩ :=
    run_visit none hbegun (fun j => declaring_willing (instanceDescriptor pl.nodes j)) hk
  have hcurrent : current ∈ v.inputs :=
    List.mem_of_mem_head? (by rw [hin, handedInputs_head]; rfl)
  have hfound := h Unit none _ _ _ _ _ _ hbegun rfl (declaring_honest pl.nodes) v hv node
    (by rw [hindex]; exact hnode) port hport step hstep current hcurrent
  exact (trace_steps (declaring_honest pl.nodes) rfl htrace step).mp hfound

/-- The load keeps its promise about metadata exactly for the pipelines whose
unconnected in-ports happen to be supplied by the nodes stored before them. A
pipeline with more than one input never runs. -/
theorem metadata_guaranteed_iff (out : Pipeline) (registry : Registry) (document : Document)
    (pl : Pipeline) (h : load out registry document = .ok pl) :
    ∃ nodes edges sorted plan order,
      Load.Stages registry document nodes edges sorted plan order ∧
      pl.nodes = plannedNodes plan order ∧
      (Guaranteed pl ↔
        (document.inputs.length = 1 → UnexaminedSupplied edges order pl.nodes)) := by
  obtain ⟨nodes, edges, sorted, plan, order, hs, _, rfl⟩ := Load.load_ok h
  refine ⟨nodes, edges, sorted, plan, order, hs, rfl, ?_, ?_⟩
  · intro hg hone
    obtain ⟨input, hinput⟩ := List.length_eq_one_iff.mp hone
    have hport : (store out registry document plan order).inputs = [inputPort input] := by
      simp [store, hinput]
    exact supplied_of_guaranteed hport hg
  · intro hc
    refine guaranteed_of_supplied hs rfl ?_
    intro hx
    obtain ⟨input, hinput⟩ := hx
    refine hc ?_
    have := congrArg List.length hinput
    simpa [store] using this

theorem metadata_guaranteed_iff_converted :
    ∃ pl, load {} Load.convertedRegistry Load.convertedDocument = .ok pl ∧
      ∃ nodes edges sorted plan order,
        Load.Stages Load.convertedRegistry Load.convertedDocument nodes edges sorted plan order ∧
        (Guaranteed pl → UnexaminedSupplied edges order pl.nodes) := by
  obtain ⟨nodes, edges, sorted, plan, order, hs, _, hiff⟩ :=
    metadata_guaranteed_iff {} Load.convertedRegistry Load.convertedDocument _ rfl
  exact ⟨_, rfl, nodes, edges, sorted, plan, order, hs, fun hg => hiff.mp hg rfl⟩

/-- A single node that requires linearised data and is fed by nothing. -/
def unconnectedDocument : Document where
  id := "unconnected"
  inputs := [⟨"raw", "Image2D", "R32_SFLOAT", some 4, some 4⟩]
  nodes := [⟨"black", "com.cpipe.blacklevel.dng_levels", []⟩]
  edges := []

theorem unconnected_not_guaranteed :
    ∃ pl, load {} [Nodes.blacklevelDngLevels] unconnectedDocument = .ok pl ∧ ¬ Guaranteed pl := by
  refine ⟨_, rfl, ?_⟩
  intro hg
  have hsupplied : UnexaminedSupplied [] [0] _ := supplied_of_guaranteed rfl hg
  have hport : (⟨"bayer", .input, ["r"], ["f32"], ["linearization"], []⟩ : Port) ∈
      portsOf (some Nodes.blacklevelDngLevels) .input := by decide
  have := hsupplied 0 (by decide) _ rfl _ hport (by rintro ⟨e, he, _⟩; cases he) "linearization"
    (by decide)
  exact absurd this (by decide)

end Cpipe.Proofs.Metadata
