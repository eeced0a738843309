import Cpipe.Proofs.MemoryPlanner
import Cpipe.Proofs.PrecisionPlanner
import Cpipe.Runtime.Load

namespace Cpipe.Proofs.Load
open Cpipe.Runtime Cpipe.Runtime.Pipeline Library

variable {registry : Registry} {document : Document} {nodes : List NodeInstance}
  {edges : List GraphEdge} {sorted order : List Nat} {plan : PrecisionPlan} {out pl : Pipeline}

/-- The intermediate results of a load that reached its memory check. -/
structure Stages (registry : Registry) (document : Document) (nodes : List NodeInstance)
    (edges : List GraphEdge) (sorted : List Nat) (plan : PrecisionPlan) (order : List Nat) :
    Prop where
  schema : validatePipelineSchema document = .ok ()
  graph : resolveGraph registry document = .ok (nodes, edges)
  sort : sortedIndices nodes edges = .ok sorted
  checks : ∀ e ∈ edges, checkEdge nodes (cumulativeSteps nodes edges sorted) e = .ok ()
  insert : PrecisionPlanner.autoInsert (nodes.map precisionNode) edges
    (registry.find precisionConvertId) = .ok plan
  planned : plannedOrder plan = .ok order

theorem planGraph_ok (h : planGraph registry nodes edges sorted = .ok (plan, order)) :
    (∀ e ∈ edges, checkEdge nodes (cumulativeSteps nodes edges sorted) e = .ok ()) ∧
    PrecisionPlanner.autoInsert (nodes.map precisionNode) edges
      (registry.find precisionConvertId) = .ok plan ∧ plannedOrder plan = .ok order := by
  obtain ⟨_, hchecks, h⟩ := Checked.bind_ok.mp h
  obtain ⟨plan', hplan, h⟩ := Checked.bind_ok.mp h
  obtain ⟨order', horder, h⟩ := Checked.bind_ok.mp h
  cases h
  exact ⟨Checked.forM_ok_iff.mp hchecks, hplan, horder⟩

/-- A successful load went through every stage and stored what they computed. -/
theorem load_ok (h : load out registry document = .ok pl) :
    ∃ nodes edges sorted plan order,
      Stages registry document nodes edges sorted plan order ∧
      (memoryPlan document plan).peakBytes ≤ out.deviceMemoryCapBytes ∧
      pl = store out registry document plan order := by
  obtain ⟨_, hschema, h⟩ := Checked.bind_ok.mp h
  obtain ⟨⟨nodes, edges⟩, hgraph, h⟩ := Checked.bind_ok.mp h
  obtain ⟨sorted, hsort, h⟩ := Checked.bind_ok.mp h
  obtain ⟨⟨plan, order⟩, hplan, h⟩ := Checked.bind_ok.mp h
  obtain ⟨hchecks, hinsert, hplanned⟩ := planGraph_ok hplan
  dsimp only at h
  split at h
  · cases h
  · rename_i hcap
    obtain rfl := Except.ok.inj h
    refine ⟨nodes, edges, sorted, plan, order,
      ⟨hschema, hgraph, hsort, hchecks, hinsert, hplanned⟩, ?_, rfl⟩
    rw [UInt64.lt_iff_toNat_lt] at hcap
    rw [UInt64.le_iff_toNat_le]
    omega

theorem loadNode_ok (h : loadNode registry node = .ok inst) :
    ∃ desc, registry.find node.type = some desc ∧ node.type ≠ precisionConvertId ∧
      validateNodeParams (some desc) node.params = .ok () ∧
      inst = ⟨node.id, some desc, node.params⟩ := by
  unfold loadNode at h
  split at h
  · cases h
  · rename_i hne
    split at h
    · cases h
    · rename_i desc hfind
      obtain ⟨_, hparams, h⟩ := Checked.bind_ok.mp h
      cases h
      exact ⟨desc, hfind, hne, hparams, rfl⟩

theorem resolveEdge_ok (h : resolveEdge nodes edge = .ok e) :
    nodeIndex nodes (splitEndpoint edge.src).nodeId = some e.src ∧
    nodeIndex nodes (splitEndpoint edge.dst).nodeId = some e.dst ∧
    e.srcPort = (splitEndpoint edge.src).port ∧ e.dstPort = (splitEndpoint edge.dst).port := by
  unfold resolveEdge at h
  dsimp only at h
  split at h
  · rename_i i j hi hj
    obtain rfl := Except.ok.inj h
    exact ⟨hi, hj, rfl, rfl⟩
  · cases h

theorem nodeIndex_lt {name : String} (h : nodeIndex nodes name = some i) : i < nodes.length := by
  obtain ⟨hlt, _⟩ := List.findIdx?_eq_some_iff_getElem.mp h
  exact hlt

theorem resolveGraph_ok (h : resolveGraph registry document = .ok (nodes, edges)) :
    document.nodes.mapM (loadNode registry) = .ok nodes ∧
    document.edges.mapM (resolveEdge nodes) = .ok edges := by
  obtain ⟨nodes', hnodes, h⟩ := Checked.bind_ok.mp h
  obtain ⟨edges', hedges, h⟩ := Checked.bind_ok.mp h
  cases h
  exact ⟨hnodes, hedges⟩

/-- Each node of the document is stored with its own id, descriptor and params. -/
theorem resolveGraph_nodes (h : resolveGraph registry document = .ok (nodes, edges)) :
    nodes = document.nodes.map (fun n => ⟨n.id, registry.find n.type, n.params⟩) := by
  have hn := Checked.mapM_forall₂ (resolveGraph_ok h).1
  clear h
  generalize document.nodes = given at hn
  induction hn with
  | nil => rfl
  | cons hx _ ih =>
    obtain ⟨desc, hfind, _, _, rfl⟩ := loadNode_ok hx
    rw [List.map_cons, hfind, ← ih]

/-- Every edge comes from an edge of the document whose ends name its nodes. -/
theorem resolveGraph_edge (h : resolveGraph registry document = .ok (nodes, edges))
    (he : e ∈ edges) : ∃ d ∈ document.edges, resolveEdge nodes d = .ok e :=
  Checked.mapM_mem (resolveGraph_ok h).2 he

theorem resolveGraph_bound (h : resolveGraph registry document = .ok (nodes, edges))
    (he : e ∈ edges) : e.src < nodes.length ∧ e.dst < nodes.length := by
  obtain ⟨d, _, hd⟩ := resolveGraph_edge h he
  obtain ⟨hsrc, hdst, _⟩ := resolveEdge_ok hd
  exact ⟨nodeIndex_lt hsrc, nodeIndex_lt hdst⟩

theorem resolveGraph_inRange (h : resolveGraph registry document = .ok (nodes, edges)) :
    Kahn.InRange nodes.length (adjacent edges) := by
  intro p hp
  obtain ⟨e, he, rfl⟩ := List.mem_map.mp hp
  exact resolveGraph_bound h he

theorem sortedIndices_error_iff (hr : Kahn.InRange nodes.length (adjacent edges)) :
    sortedIndices nodes edges = .error cycleError ↔ ¬ Kahn.Acyclic (adjacent edges) := by
  rw [← Kahn.sort_length_iff hr]
  unfold sortedIndices
  dsimp only
  split <;> simp_all

/-- The planned graph is in range, so its sort meets the raw graph's conditions. -/
theorem plannedOrder_ok (h : plannedOrder plan = .ok order) :
    Kahn.InRange plan.nodes.length (adjacent plan.edges) ∧
    order = Kahn.sort plan.nodes.length (adjacent plan.edges) ∧
    order.length = plan.nodes.length := by
  unfold plannedOrder at h
  split at h
  · cases h
  · rename_i hr
    dsimp only at h
    split at h
    · cases h
    · rename_i hl
      obtain rfl := Except.ok.inj h
      refine ⟨?_, rfl, by simpa using hl⟩
      intro p hp
      obtain ⟨e, he, rfl⟩ := List.mem_map.mp hp
      have hbound : ∀ e ∈ plan.edges, e.src < plan.nodes.length ∧ e.dst < plan.nodes.length := by
        simpa using hr
      exact hbound e he

theorem plannedEdges_memoryEdges {n : Nat} (hr : Kahn.InRange n (adjacent edges)) :
    MemoryPlanner.plannedEdges n (memoryEdges edges) = adjacent edges := by
  have hall : (memoryEdges edges).filter
      (fun e => decide (e.src < n) && decide (e.dst < n)) = memoryEdges edges := by
    apply List.filter_eq_self.mpr
    intro e he
    obtain ⟨g, hg, rfl⟩ := List.mem_map.mp he
    have := hr (g.src,g.dst) (List.mem_map.mpr ⟨g, hg, rfl⟩)
    simp [this.1, this.2]
  rw [MemoryPlanner.plannedEdges, hall]
  simp [memoryEdges, adjacent, Function.comp_def]

/-- The stored order is the order the memory planner computes for itself. -/
theorem plannedOrder_topological (h : plannedOrder plan = .ok order) :
    order = MemoryPlanner.topologicalOrder plan.nodes.length (memoryEdges plan.edges) := by
  obtain ⟨hr, rfl, hl⟩ := plannedOrder_ok h
  simp [MemoryPlanner.topologicalOrder, plannedEdges_memoryEdges hr, hl]

theorem plannedOrder_perm (h : plannedOrder plan = .ok order) :
    order.Perm (List.range plan.nodes.length) := by
  obtain ⟨hr, rfl, hl⟩ := plannedOrder_ok h
  exact Kahn.sort_perm hr hl

theorem plannedOrder_before (h : plannedOrder plan = .ok order) {e : GraphEdge}
    (he : e ∈ plan.edges) : order.idxOf e.src < order.idxOf e.dst := by
  obtain ⟨hr, rfl, hl⟩ := plannedOrder_ok h
  have hedge : Kahn.Edge (adjacent plan.edges) e.src e.dst := List.mem_map.mpr ⟨e, he, rfl⟩
  refine Kahn.sort_before hr ?_ hedge
  exact (Kahn.sort_perm hr hl).mem_iff.mpr (List.mem_range.mpr (hr _ hedge).2)

theorem checkEdge_error {cumulative : Nat → List String} {e : GraphEdge}
    (h : checkEdge nodes cumulative e = .error err) : err.status = .needMetadata := by
  rcases Checked.bind_error.mp h with h | ⟨_, _, h⟩
  · obtain ⟨step, _, hstep⟩ := Checked.forM_error h
    split at hstep
    · cases hstep
    · obtain rfl := Except.error.inj hstep
      rfl
  · dsimp only at h
    split at h
    · cases h
    · obtain rfl := Except.error.inj h
      rfl

theorem insertEdge_error {given : List PrecisionGraphNode} {conv : DescPtr} {e : GraphEdge}
    (h : PrecisionPlanner.insertEdge given conv plan e = .error err) :
    err.status = .badIndex ∨ err.status = .badPrecision := by
  unfold PrecisionPlanner.insertEdge at h
  dsimp only at h
  repeat' split at h
  all_goals
    cases h <;> simp [PrecisionPlanner.mismatch]

/-- Only the first sort reports the cycle error. -/
theorem planGraph_error (h : planGraph registry nodes edges sorted = .error err) :
    err ≠ cycleError := by
  rintro rfl
  rcases Checked.bind_error.mp h with h | ⟨_, _, h⟩
  · obtain ⟨e, _, he⟩ := Checked.forM_error h
    cases checkEdge_error he
  rcases Checked.bind_error.mp h with h | ⟨plan, _, h⟩
  · obtain ⟨_, e, _, he⟩ := Checked.foldlM_error _ _ h
    rcases insertEdge_error he with he | he <;> cases he
  rcases Checked.bind_error.mp h with h | ⟨_, _, h⟩
  · unfold plannedOrder at h
    dsimp only at h
    repeat' split at h
    all_goals simp [cycleError] at h
  · cases h

/-- The document's own edge relation, between node ids. -/
def documentEdge (document : Document) (a b : String) : Prop :=
  ∃ e ∈ document.edges, (splitEndpoint e.src).nodeId = a ∧ (splitEndpoint e.dst).nodeId = b

theorem nodeIndex_id {name : String} (h : nodeIndex nodes name = some i) :
    ∃ n, nodes[i]? = some n ∧ n.id = name := by
  obtain ⟨hlt, hid, _⟩ := List.findIdx?_eq_some_iff_getElem.mp h
  exact ⟨nodes[i], List.getElem?_eq_getElem hlt, by simpa using hid⟩

/-- A cycle among ids is a cycle among positions. -/
theorem cyclic_iff (h : resolveGraph registry document = .ok (nodes, edges)) :
    ¬ Kahn.Acyclic (adjacent edges) ↔ ∃ a, Relation.TransGen (documentEdge document) a a := by
  simp only [Kahn.Acyclic, not_forall, not_not]
  constructor
  · intro hx
    obtain ⟨v, hv⟩ := hx
    refine ⟨((nodes[v]?).map NodeInstance.id).getD "", ?_⟩
    refine Relation.TransGen.lift (fun i => ((nodes[i]?).map NodeInstance.id).getD "") ?_ v v hv
    intro i j hij
    obtain ⟨e, he, hpair⟩ := List.mem_map.mp hij
    obtain ⟨d, hd, hres⟩ := resolveGraph_edge h he
    obtain ⟨hsrc, hdst, _⟩ := resolveEdge_ok hres
    obtain ⟨rfl, rfl⟩ := Prod.mk.inj hpair
    obtain ⟨n, hn, hid⟩ := nodeIndex_id hsrc
    obtain ⟨m, hm, hid'⟩ := nodeIndex_id hdst
    exact ⟨d, hd, by simp [hn, hid], by simp [hm, hid']⟩
  · intro hx
    obtain ⟨a, ha⟩ := hx
    refine ⟨(nodeIndex nodes a).getD 0, ?_⟩
    refine Relation.TransGen.lift (fun a => (nodeIndex nodes a).getD 0) ?_ a a ha
    intro _ _ hx
    obtain ⟨d, hd, rfl, rfl⟩ := hx
    obtain ⟨e, he, hres⟩ := Checked.mapM_image (resolveGraph_ok h).2 hd
    obtain ⟨hsrc, hdst, _⟩ := resolveEdge_ok hres
    simp only [Function.onFun, hsrc, hdst, Option.getD_some]
    exact List.mem_map.mpr ⟨e, he, rfl⟩

theorem load_cycle_iff (hschema : validatePipelineSchema document = .ok ())
    (hgraph : resolveGraph registry document = .ok (nodes, edges)) :
    load out registry document = .error cycleError ↔
      sortedIndices nodes edges = .error cycleError := by
  constructor
  · intro h
    rcases Checked.bind_error.mp h with h | ⟨_, _, h⟩
    · rw [hschema] at h
      cases h
    rcases Checked.bind_error.mp h with h | ⟨_, hg, h⟩
    · rw [hgraph] at h
      cases h
    obtain rfl := Except.ok.inj (hgraph.symm.trans hg)
    rcases Checked.bind_error.mp h with h | ⟨sorted, _, h⟩
    · exact h
    rcases Checked.bind_error.mp h with h | ⟨_, _, h⟩
    · exact absurd rfl (planGraph_error h)
    · dsimp only at h
      split at h <;> cases h
  · intro h
    refine Checked.bind_error.mpr (.inr ⟨(), hschema, ?_⟩)
    refine Checked.bind_error.mpr (.inr ⟨_, hgraph, ?_⟩)
    exact Checked.bind_error.mpr (.inl h)

theorem plannedNodes_get (hlt : ∀ i ∈ order, i < plan.nodes.length) (k : Nat) :
    (plannedNodes plan order)[k]? =
      (order[k]?).bind (fun i => (plan.nodes[i]?).map nodeInstance) := by
  unfold plannedNodes
  induction order generalizing k with
  | nil => simp
  | cons i order ih =>
    have hi := hlt i (by simp)
    have hrest := fun j hj => hlt j (List.mem_cons_of_mem i hj)
    cases k with
    | zero => simp [hi]
    | succ k => simpa [hi] using ih hrest k

theorem plannedNodes_range (plan : PrecisionPlan) :
    plannedNodes plan (List.range plan.nodes.length) = plan.nodes.map nodeInstance := by
  apply List.ext_getElem?
  intro k
  rw [plannedNodes_get (fun i hi => List.mem_range.mp hi)]
  rcases Nat.lt_or_ge k plan.nodes.length with hk | hk
  · simp [hk]
  · simp [hk]

theorem plannedNodes_perm (h : plannedOrder plan = .ok order) :
    (plannedNodes plan order).Perm (plan.nodes.map nodeInstance) := by
  rw [← plannedNodes_range]
  exact (plannedOrder_perm h).filterMap _

theorem plannedOrder_bound (h : plannedOrder plan = .ok order) :
    ∀ i ∈ order, i < plan.nodes.length :=
  fun _ hi => List.mem_range.mp ((plannedOrder_perm h).mem_iff.mp hi)

/-- What `load` promises about a document whose graph resolves: it reports a
cycle exactly when there is one, and on success it stores the document's nodes
and the inserted converters in the order the memory planner worked with. -/
theorem load_postcondition (out : Pipeline) (registry : Registry) (document : Document)
    (nodes : List NodeInstance) (edges : List GraphEdge)
    (hschema : validatePipelineSchema document = .ok ())
    (hgraph : resolveGraph registry document = .ok (nodes, edges)) :
    (load out registry document = .error cycleError ↔
      ∃ a, Relation.TransGen (documentEdge document) a a) ∧
    ∀ pl, load out registry document = .ok pl →
      ∃ plan order converters,
        nodes = document.nodes.map (fun n => ⟨n.id, registry.find n.type, n.params⟩) ∧
        PrecisionPlanner.autoInsert (nodes.map precisionNode) edges
          (registry.find precisionConvertId) = .ok plan ∧
        plan.nodes = nodes.map precisionNode ++ converters ∧
        (∀ c ∈ converters, c.descriptor = registry.find precisionConvertId ∧
          c.implicit = true) ∧
        order.Perm (List.range plan.nodes.length) ∧
        (∀ k : Nat, pl.nodes[k]? = (order[k]?).bind (fun i => (plan.nodes[i]?).map nodeInstance)) ∧
        pl.nodes.Perm (nodes ++ converters.map nodeInstance) ∧
        (∀ e ∈ plan.edges, order.idxOf e.src < order.idxOf e.dst) ∧
        order = MemoryPlanner.topologicalOrder (plan.nodes.map PrecisionGraphNode.descriptor).length
          (memoryEdges plan.edges) ∧
        pl.memoryPeakBytes = (MemoryPlanner.planGraph pl.layout
          (plan.nodes.map PrecisionGraphNode.descriptor) (memoryEdges plan.edges)).peakBytes := by
  constructor
  · rw [load_cycle_iff hschema hgraph, sortedIndices_error_iff (resolveGraph_inRange hgraph),
      cyclic_iff hgraph]
  · intro pl h
    obtain ⟨nodes', edges', sorted, plan, order, hs, _, rfl⟩ := load_ok h
    obtain ⟨rfl, rfl⟩ := Prod.mk.inj (Except.ok.inj (hgraph.symm.trans hs.graph))
    obtain ⟨converters, hplan, hconv⟩ := Proofs.PrecisionPlanner.autoInsert_kept hs.insert
    refine ⟨plan, order, converters, resolveGraph_nodes hgraph, hs.insert, hplan, hconv,
      plannedOrder_perm hs.planned, plannedNodes_get (plannedOrder_bound hs.planned), ?_,
      fun e he => plannedOrder_before hs.planned he, ?_, rfl⟩
    · have hp := plannedNodes_perm hs.planned
      rwa [hplan, List.map_append, List.map_map, show nodeInstance ∘ precisionNode = id from rfl,
        List.map_id] at hp
    · rw [List.length_map]
      exact plannedOrder_topological hs.planned

/-- A raw image demosaiced and passed through: the edge needs a converter. -/
def convertedDocument : Document where
  id := "converted"
  inputs := [⟨"raw", "Image2D", "R32_SFLOAT", some 4, some 4⟩]
  nodes := [⟨"demosaic", "com.cpipe.demosaic.rcd", []⟩,
    ⟨"view", "com.cpipe.builtin.passthrough", []⟩]
  edges := [⟨"demosaic.rgba", "view.in"⟩]

def convertedRegistry : Registry :=
  [Nodes.demosaicRcd, Nodes.builtinPassthrough, Nodes.precisionConvert]

theorem load_postcondition_converted :
    (∃ pl, load {} convertedRegistry convertedDocument = .ok pl ∧ pl.nodes.length = 3) ∧
    (load {} convertedRegistry convertedDocument = .error cycleError ↔
      ∃ a, Relation.TransGen (documentEdge convertedDocument) a a) :=
  ⟨⟨_, rfl, rfl⟩, (load_postcondition {} convertedRegistry convertedDocument _ _ rfl rfl).1⟩

end Cpipe.Proofs.Load
