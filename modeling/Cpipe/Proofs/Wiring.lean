import Cpipe.Proofs.Metadata

namespace Cpipe.Proofs.Wiring
open Cpipe.Runtime Cpipe.Runtime.Pipeline Cpipe.Proofs.Metadata Library

variable {registry : Registry} {document : Document} {nodes : List NodeInstance}
  {edges : List GraphEdge} {sorted order : List Nat} {plan : PrecisionPlan} {out pl : Pipeline}

/-- The wiring a reader of the document would expect of it. -/
structure WellWired (document : Document) (nodes : List NodeInstance) (edges : List GraphEdge) :
    Prop where
  ids : (document.nodes.map NodeJson.id).Nodup
  ports : ∀ e ∈ edges, (findPort (instanceDescriptor nodes e.src) .output e.srcPort).isSome ∧
    (findPort (instanceDescriptor nodes e.dst) .input e.dstPort).isSome
  targets : (edges.map (fun e => (e.dst, e.dstPort))).Nodup

/-- An endpoint names the first node with its id. -/
def Names (nodes : List NodeInstance) (endpoint : Endpoint) (i : Nat) (port : String) : Prop :=
  port = endpoint.port ∧ (∃ node, nodes[i]? = some node ∧ node.id = endpoint.nodeId) ∧
    ∀ j < i, ∀ node, nodes[j]? = some node → node.id ≠ endpoint.nodeId

theorem nodeIndex_names {endpoint : Endpoint} {i : Nat}
    (h : nodeIndex nodes endpoint.nodeId = some i) :
    Names nodes endpoint i endpoint.port := by
  obtain ⟨hlt, hid, hfirst⟩ := List.findIdx?_eq_some_iff_getElem.mp h
  refine ⟨rfl, ⟨nodes[i], List.getElem?_eq_getElem hlt, by simpa using hid⟩, ?_⟩
  intro j hj node hn
  obtain ⟨hjlt, rfl⟩ := List.getElem?_eq_some_iff.mp hn
  simpa using hfirst j hj

/-- The precision check on one edge: its lists meet, or a converter the host
knows is put between. -/
def PrecisionChecked (nodes : List NodeInstance) (conv : DescPtr) (e : GraphEdge) : Prop :=
  let produced := PrecisionPlanner.portCaps (instanceDescriptor nodes e.src) .output e.srcPort
  let required := PrecisionPlanner.portCaps (instanceDescriptor nodes e.dst) .input e.dstPort
  PrecisionPlanner.intersects produced.precisions required.precisions = true ∨
    conv.isSome ∧ ∃ src dst, PrecisionPlanner.formatFromCaps produced = some src ∧
      PrecisionPlanner.formatFromCaps required = some dst ∧
      PrecisionPlanner.directConversionSupported src dst = true

theorem descriptorAt_precisionNode (nodes : List NodeInstance) (i : Nat) :
    PrecisionPlanner.descriptorAt (nodes.map precisionNode) i = instanceDescriptor nodes i := by
  unfold PrecisionPlanner.descriptorAt instanceDescriptor
  rw [List.getElem?_map]
  cases nodes[i]? <;> rfl

theorem autoInsert_checked {conv : DescPtr}
    (h : PrecisionPlanner.autoInsert (nodes.map precisionNode) edges conv = .ok plan) :
    ∀ e ∈ edges, PrecisionChecked nodes conv e := by
  unfold PrecisionPlanner.autoInsert at h
  refine Checked.foldlM_invariant
    (fun done (_ : PrecisionPlan) => ∀ e ∈ done, PrecisionChecked nodes conv e) ?_ edges [] _ plan
    (by simp) h
  intro done s e s' hdone hi f hf
  rcases List.mem_append.mp hf with hf | hf
  · exact hdone f hf
  · obtain rfl := List.mem_singleton.mp hf
    unfold PrecisionPlanner.insertEdge at hi
    simp only [PrecisionPlanner.producedCaps, PrecisionPlanner.requiredCaps,
      descriptorAt_precisionNode] at hi
    split at hi
    · cases hi
    · split at hi
      · rename_i hfit
        exact .inl hfit
      · split at hi
        · rename_i src dst hsrc hdst
          split at hi
          · rename_i hdirect
            cases conv with
            | none => cases hi
            | some conv => exact .inr ⟨rfl, src, dst, hsrc, hdst, hdirect⟩
          · cases hi
        · cases hi

theorem checkEdge_roles {cumulative : Nat → List String} {e : GraphEdge}
    (h : checkEdge nodes cumulative e = .ok ()) :
    colorRolesCompatible (manifestColorRole (instanceDescriptor nodes e.src) Manifest.outputRole)
      (manifestColorRole (instanceDescriptor nodes e.dst) Manifest.inputRole) = true := by
  obtain ⟨_, _, h⟩ := Checked.bind_ok.mp h
  dsimp only at h
  split at h
  · assumption
  · cases h

/-- What the checks of the load amount to on one edge. -/
structure EdgeChecked (registry : Registry) (nodes : List NodeInstance) (edges : List GraphEdge)
    (e : GraphEdge) : Prop where
  steps : ∀ port, findPort (instanceDescriptor nodes e.dst) .input e.dstPort = some port →
    ∀ step ∈ port.requiresStepsApplied, SetAbove nodes edges e.src step
  precision : ∀ p q, findPort (instanceDescriptor nodes e.src) .output e.srcPort = some p →
    findPort (instanceDescriptor nodes e.dst) .input e.dstPort = some q →
    p.precision = [] ∨ q.precision = [] ∨ (∃ item ∈ p.precision, item ∈ q.precision) ∨
      (registry.find precisionConvertId).isSome ∧ ∃ src dst,
        PrecisionPlanner.formatFromCaps ⟨p.channels, p.precision⟩ = some src ∧
        PrecisionPlanner.formatFromCaps ⟨q.channels, q.precision⟩ = some dst ∧
        PrecisionPlanner.directConversionSupported src dst = true
  roles : colorRolesCompatible
    (manifestColorRole (instanceDescriptor nodes e.src) Manifest.outputRole)
    (manifestColorRole (instanceDescriptor nodes e.dst) Manifest.inputRole) = true

theorem intersects_iff {lhs rhs : List String} :
    PrecisionPlanner.intersects lhs rhs = true ↔
      lhs = [] ∨ rhs = [] ∨ ∃ item ∈ lhs, item ∈ rhs := by
  unfold PrecisionPlanner.intersects
  split
  · rename_i h
    simp only [Bool.or_eq_true, List.isEmpty_iff] at h
    rcases h with h | h <;> simp [h]
  · rename_i h
    simp only [Bool.or_eq_true, List.isEmpty_iff, not_or] at h
    simp [h.1, h.2]

theorem edge_checked (hs : Load.Stages registry document nodes edges sorted plan order)
    {e : GraphEdge} (he : e ∈ edges) : EdgeChecked registry nodes edges e where
  steps := by
    intro port hport step hstep
    refine cumulativeSteps_above _ _ (checkEdge_steps (hs.checks e he) step ?_)
    simp only [manifestMetadataSteps, hport]
    exact hstep
  precision := by
    intro p q hp hq
    have hchecked := autoInsert_checked hs.insert e he
    simp only [PrecisionChecked, PrecisionPlanner.portCaps, hp, hq, intersects_iff] at hchecked
    rcases hchecked with (h | h | h) | h
    · exact .inl h
    · exact .inr (.inl h)
    · exact .inr (.inr (.inl h))
    · exact .inr (.inr (.inr h))
  roles := checkEdge_roles (hs.checks e he)

/-- The load resolves every edge to nodes it knows and checks it as far as the
manifests declare its ports. It does not ask that ids differ or that an in-port
has one edge. -/
theorem load_checks_edges (out : Pipeline) (registry : Registry) (document : Document)
    (pl : Pipeline) (h : load out registry document = .ok pl) :
    ∃ nodes edges sorted plan order,
      Load.Stages registry document nodes edges sorted plan order ∧
      List.Forall₂ (fun (d : NodeJson) n => ∃ desc, registry.find d.type = some desc ∧
        d.type ≠ precisionConvertId ∧ validateNodeParams (some desc) d.params = .ok () ∧
        n = ⟨d.id, some desc, d.params⟩) document.nodes nodes ∧
      List.Forall₂ (fun (d : EdgeJson) e =>
        Names nodes (splitEndpoint d.src) e.src e.srcPort ∧
        Names nodes (splitEndpoint d.dst) e.dst e.dstPort) document.edges edges ∧
      ∀ e ∈ edges, EdgeChecked registry nodes edges e := by
  obtain ⟨nodes, edges, sorted, plan, order, hs, _, _⟩ := Load.load_ok h
  obtain ⟨hnodes, hedges⟩ := Load.resolveGraph_ok hs.graph
  refine ⟨nodes, edges, sorted, plan, order, hs, ?_, ?_, fun e he => edge_checked hs he⟩
  · exact (Checked.mapM_forall₂ hnodes).imp (fun _ _ hx => Load.loadNode_ok hx)
  · refine (Checked.mapM_forall₂ hedges).imp ?_
    intro d e hx
    obtain ⟨hsrc, hdst, hsp, hdp⟩ := Load.resolveEdge_ok hx
    rw [hsp, hdp]
    exact ⟨nodeIndex_names hsrc, nodeIndex_names hdst⟩

theorem load_checks_edges_converted :
    ∃ pl nodes edges, load {} Load.convertedRegistry Load.convertedDocument = .ok pl ∧
      resolveGraph Load.convertedRegistry Load.convertedDocument = .ok (nodes, edges) ∧
      ∀ e ∈ edges, EdgeChecked Load.convertedRegistry nodes edges e := by
  obtain ⟨nodes, edges, sorted, plan, order, hs, _, _, hall⟩ :=
    load_checks_edges {} Load.convertedRegistry Load.convertedDocument _ rfl
  exact ⟨_, nodes, edges, rfl, hs.graph, hall⟩

/-- A repeated id, a port nobody declares and an in-port with two edges. -/
def tangledDocument : Document where
  id := "tangled"
  inputs := [⟨"raw", "Image2D", "R8G8B8A8_UNORM", some 4, some 4⟩]
  nodes := [⟨"a", "com.cpipe.builtin.passthrough", []⟩,
    ⟨"a", "com.cpipe.builtin.passthrough", []⟩, ⟨"b", "com.cpipe.builtin.passthrough", []⟩]
  edges := [⟨"a.out", "b.in"⟩, ⟨"a.typo", "b.in"⟩]

theorem tangled_accepted :
    ∃ pl nodes edges, load {} [Nodes.builtinPassthrough] tangledDocument = .ok pl ∧
      resolveGraph [Nodes.builtinPassthrough] tangledDocument = .ok (nodes, edges) ∧
      ¬ (tangledDocument.nodes.map NodeJson.id).Nodup ∧
      ¬ (∀ e ∈ edges, (findPort (instanceDescriptor nodes e.src) .output e.srcPort).isSome) ∧
      ¬ (edges.map (fun e => (e.dst, e.dstPort))).Nodup ∧
      ¬ WellWired tangledDocument nodes edges := by
  refine ⟨_, _, _, rfl, rfl, by decide, by decide, by decide, ?_⟩
  intro hw
  exact absurd hw.ids (by decide)

end Cpipe.Proofs.Wiring
