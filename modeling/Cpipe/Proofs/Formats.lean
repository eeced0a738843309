import Cpipe.Proofs.Graph
import Cpipe.Proofs.Wiring

namespace Cpipe.Proofs.Formats
open Cpipe.Runtime Cpipe.Runtime.Pipeline Cpipe.Compute Cpipe.Proofs.Run Library

variable {D : Type} {output : Option String} {document : Document} {nodes : List NodeInstance}
  {edges : List GraphEdge} {sorted order : List Nat} {plan : PrecisionPlan} {pl : Pipeline}
  {node : NodeInstance} {desc : PluginDesc} {p q : Port} {format : PixelFormat}

/-- The channel set and the precision of a format, in the words of the manifests. -/
def formatCaps : PixelFormat → String × String
  | .r16Uint => ("r", "u16")
  | .r32Sfloat => ("r", "f32")
  | .r16g16b16a16Sfloat => ("rgba", "f16")
  | .r8g8b8a8Unorm => ("rgba", "u8")
  | .r16g16b16a16Unorm => ("rgba", "u16")
  | _ => ("", "")

/-- The caps of a port declare a buffer of this format. -/
def Declares (port : Port) (format : PixelFormat) : Prop :=
  (formatCaps format).1 ∈ port.channels ∧ (formatCaps format).2 ∈ port.precision

instance (port : Port) (format : PixelFormat) : Decidable (Declares port format) :=
  inferInstanceAs (Decidable (_ ∧ _))

/-- Ports for buffers of this one format. -/
def Only (port : Port) (format : PixelFormat) : Prop :=
  port.channels = [(formatCaps format).1] ∧ port.precision = [(formatCaps format).2]

instance (port : Port) (format : PixelFormat) : Decidable (Only port format) :=
  inferInstanceAs (Decidable (_ ∧ _))

theorem Only.declares (h : Only q format) : Declares q format := by
  simp [Declares, h.1, h.2]

theorem formatFromCaps_format {caps : PrecisionPlanner.PortCaps} {name : String}
    (h : PrecisionPlanner.formatFromCaps caps = some name) :
    ∃ format, pixelFormatFromString name = some format ∧
      caps = ⟨[(formatCaps format).1], [(formatCaps format).2]⟩ := by
  rcases PrecisionPlanner.formatFromCaps_some h with h | h | h | h | h
  all_goals obtain ⟨rfl, rfl⟩ := h
  · exact ⟨.r16Uint, rfl, rfl⟩
  · exact ⟨.r32Sfloat, rfl, rfl⟩
  · exact ⟨.r16g16b16a16Sfloat, rfl, rfl⟩
  · exact ⟨.r8g8b8a8Unorm, rfl, rfl⟩
  · exact ⟨.r16g16b16a16Unorm, rfl, rfl⟩

/-- Nodes whose output has the one format of their out-port. -/
def plain (desc : PluginDesc) : Bool :=
  desc.nodeId != precisionConvertId && desc.nodeId != sceneLinearToDisplayId

theorem outputFormat_plain (h : plain desc = true) (params : Params) :
    outputFormat (some desc) params = outputFormat (some desc) [] := by
  simp only [plain, Bool.and_eq_true, bne_iff_ne, ne_eq] at h
  obtain ⟨nodeId, manifest⟩ := desc
  cases manifest with
  | none => rfl
  | some m => simp only [outputFormat, if_neg h.1, if_neg h.2]

/-- What holds of every manifest in the repository: an out-port of a plain node
is for the one format the node writes. -/
def outputDeclared (a : PluginDesc) : Bool :=
  (portsOf (some a) .output).all (fun p =>
    match outputFormat (some a) [] with
    | .ok format => decide (Only p format)
    | .error _ => false)

theorem builtin_outputs_declared : ∀ a ∈ Nodes.builtinNodes, plain a = true →
    outputDeclared a = true := by
  decide +kernel

theorem plain_format (hm : desc ∈ Nodes.builtinNodes) (hplain : plain desc = true)
    (hp : p ∈ portsOf (some desc) .output) (params : Params) :
    ∃ format, outputFormat (some desc) params = .ok format ∧ Only p format := by
  have hall := List.all_eq_true.mp (builtin_outputs_declared desc hm hplain) p hp
  rw [outputFormat_plain hplain]
  split at hall
  · rename_i format hf
    exact ⟨format, hf, of_decide_eq_true hall⟩
  · cases hall

/-- What holds of every two manifests: where precisions meet and roles agree,
the in-port declares the format of a plain producer. -/
def edgeDeclared (a b : PluginDesc) : Bool :=
  (portsOf (some a) .output).all (fun p => (portsOf (some b) .input).all (fun q =>
    !PrecisionPlanner.intersects p.precision q.precision ||
    !colorRolesCompatible (manifestColorRole (some a) Manifest.outputRole)
      (manifestColorRole (some b) Manifest.inputRole) ||
    match outputFormat (some a) [] with
    | .ok format => decide (Declares q format)
    | .error _ => false))

theorem builtin_edges_declared : ∀ a ∈ Nodes.builtinNodes, plain a = true →
    ∀ b ∈ Nodes.builtinNodes, edgeDeclared a b = true := by
  decide +kernel

/-- The in-ports of one node all have the same caps. -/
theorem builtin_inputs_alike : ∀ b ∈ Nodes.builtinNodes, ∀ p ∈ portsOf (some b) .input,
    ∀ q ∈ portsOf (some b) .input, p.channels = q.channels ∧ p.precision = q.precision := by
  decide +kernel

/-- A node of the document: its type is registered, and the schema holds its
target when it is the display node. -/
inductive Given (node : NodeInstance) : Prop
  | plain (desc : PluginDesc) (hd : node.descriptor = some desc)
      (hm : desc ∈ Nodes.builtinNodes) (hplain : plain desc = true)
  | display (target : String) (hd : node.descriptor = some Nodes.colorSceneLinearToDisplay)
      (ht : Params.text node.params "target" "sRGB" = target)
      (hm : target ∈ ["sRGB","BT2020-PQ","DisplayP3","BT2020-HLG"])

/-- A node of the plan: one of the document or a converter. -/
inductive Origin (node : NodeInstance) : Prop
  | given (h : Given node)
  | converter (caps : PrecisionPlanner.PortCaps) (target : String)
      (hd : node.descriptor = some Nodes.precisionConvert)
      (hp : node.params = [("target_format", .string target)])
      (hf : PrecisionPlanner.formatFromCaps caps = some target)

theorem schema_target {n : NodeJson} (h : paramsSchema n = true)
    (ht : n.type = sceneLinearToDisplayId) :
    Params.text n.params "target" "sRGB" ∈ ["sRGB","BT2020-PQ","DisplayP3","BT2020-HLG"] := by
  unfold sceneLinearToDisplayId at ht
  unfold paramsSchema at h
  rw [if_pos ht, Bool.and_eq_true] at h
  obtain ⟨_, h⟩ := h
  unfold Params.text
  split at h
  · rename_i t hl
    simpa [hl] using h
  · cases h

theorem loadNode_given {n : NodeJson} (hs : nodeSchema n = true)
    (h : loadNode Nodes.builtinNodes n = .ok node) : Given node := by
  obtain ⟨desc, hfind, hne, _, rfl⟩ := Load.loadNode_ok h
  obtain ⟨hid, hm⟩ := Registry.find_nodeId hfind
  simp only [nodeSchema, Bool.and_eq_true] at hs
  by_cases ht : n.type = sceneLinearToDisplayId
  · have hdisplay : some desc = some Nodes.colorSceneLinearToDisplay := by
      rw [← hfind, ht]
      rfl
    exact .display _ hdisplay rfl (schema_target hs.2 ht)
  · exact .plain desc rfl hm (by simp [plain, hid, hne, ht])

section Stages

variable (hs : Load.Stages Nodes.builtinNodes document nodes edges sorted plan order)
include hs

theorem stages_schema : document.nodes.all nodeSchema = true := by
  have h := hs.schema
  unfold validatePipelineSchema at h
  split at h
  · cases h
  · split at h
    · rename_i hp
      simp only [pipelineSchema, Bool.and_eq_true] at hp
      exact hp.1.2
    · cases h

theorem stages_given : ∀ node ∈ nodes, Given node := by
  intro node hn
  obtain ⟨n, hm, hload⟩ := Checked.mapM_mem (Load.resolveGraph_ok hs.graph).1 hn
  exact loadNode_given (List.all_eq_true.mp (stages_schema hs) n hm) hload

theorem stages_rewritten :
    PrecisionPlanner.Rewritten (nodes.map precisionNode) Nodes.precisionConvert edges plan :=
  PrecisionPlanner.autoInsert_rewritten hs.insert

theorem stages_origin : ∀ n ∈ plan.nodes, Origin (nodeInstance n) := by
  intro n hn
  rcases (stages_rewritten hs).node_cases n hn with hn | ⟨caps, target, hf, hd, hp⟩
  · obtain ⟨node, hm, rfl⟩ := List.mem_map.mp hn
    exact .given (stages_given hs node hm)
  · exact .converter caps target hd hp hf

/-- The plan's first nodes are the document's. -/
theorem stages_old {i : Nat} {n : PrecisionGraphNode} (hi : i < (nodes.map precisionNode).length)
    (hn : plan.nodes[i]? = some n) :
    PrecisionPlanner.descriptorAt (nodes.map precisionNode) i = n.descriptor ∧
      Given (nodeInstance n) := by
  obtain ⟨added, hplan, _⟩ := (stages_rewritten hs).shape.kept
  rw [hplan, List.getElem?_append_left hi] at hn
  refine ⟨by simp [PrecisionPlanner.descriptorAt, hn], ?_⟩
  rw [List.getElem?_map] at hn
  obtain ⟨node, hnode, rfl⟩ := Option.map_eq_some_iff.mp hn
  exact stages_given hs node (List.mem_of_getElem? hnode)

end Stages

theorem Given.builtin (h : Given node) :
    ∃ desc ∈ Nodes.builtinNodes, node.descriptor = some desc := by
  cases h with
  | plain desc hd hm hplain => exact ⟨desc, hm, hd⟩
  | display target hd ht hm => exact ⟨_, by simp [Nodes.builtinNodes], hd⟩

theorem Origin.builtin (h : Origin node) :
    ∃ desc ∈ Nodes.builtinNodes, node.descriptor = some desc := by
  cases h with
  | given h => exact h.builtin
  | converter caps target hd hp hf => exact ⟨_, by simp [Nodes.builtinNodes], hd⟩

/-- Display nodes set to a target the manifest lists for a later version. -/
def Reserved (node : NodeInstance) : Prop :=
  node.descriptor = some Nodes.colorSceneLinearToDisplay ∧
    Params.text node.params "target" "sRGB" ∈ ["DisplayP3","BT2020-HLG"]

theorem display_format (params : Params) :
    outputFormat (some Nodes.colorSceneLinearToDisplay) params =
      if Params.text params "target" "sRGB" = "sRGB" then .ok .r8g8b8a8Unorm
      else if Params.text params "target" "sRGB" = "BT2020-PQ" then .ok .r16g16b16a16Unorm
      else .error ⟨.failed, "unsupported scene_linear_to_display target"⟩ := by
  rfl

theorem Reserved.refused (h : Reserved node) (input : BufferLayout) :
    outputLayoutForNode node.descriptor node.params input =
      .error ⟨.failed, "unsupported scene_linear_to_display target"⟩ := by
  obtain ⟨hd, ht⟩ := h
  rw [outputLayoutForNode, hd, display_format]
  simp only [List.mem_cons, List.not_mem_nil, or_false] at ht
  rcases ht with ht | ht
  all_goals
    rw [ht]
    rfl

/-- A converter made for some caps writes their format. -/
theorem converter_format {target : String} (hp : node.params = [("target_format", .string target)])
    (hd : node.descriptor = some Nodes.precisionConvert)
    (hf : pixelFormatFromString target = some format) :
    outputFormat node.descriptor node.params = .ok format := by
  have htext : Params.text [("target_format", .string target)] "target_format" "" = target := rfl
  rw [hd, hp]
  simp [outputFormat, Nodes.precisionConvert, precisionConvertId, htext, hf]

theorem Origin.defined (h : Origin node) (hout : nodeHasOutput node.descriptor = true)
    (hr : ¬ Reserved node) : ∃ format, outputFormat node.descriptor node.params = .ok format := by
  cases h with
  | given h =>
    cases h with
    | plain desc hd hm hplain =>
      rw [hd] at hout ⊢
      obtain ⟨p, hp⟩ : ∃ p, p ∈ portsOf (some desc) .output := by
        simpa [nodeHasOutput, List.isEmpty_iff, List.eq_nil_iff_forall_not_mem] using hout
      obtain ⟨format, hf, _⟩ := plain_format hm hplain hp node.params
      exact ⟨format, hf⟩
    | display target hd ht hm =>
      rw [hd, display_format, ht]
      simp only [List.mem_cons, List.not_mem_nil, or_false] at hm
      rcases hm with rfl | rfl | rfl | rfl
      · exact ⟨_, rfl⟩
      · exact ⟨_, rfl⟩
      · exact absurd ⟨hd, by simp [ht]⟩ hr
      · exact absurd ⟨hd, by simp [ht]⟩ hr
  | converter caps target hd hp hf =>
    obtain ⟨format, hname, _⟩ := formatFromCaps_format hf
    exact ⟨format, converter_format hp hd hname⟩

/-- The buffer a run holds has the format of the node that made it. -/
theorem trace_format {plugins : Nat → Plugin D} {start last : Buffer D} {vs : List (Visit D)}
    (h : Trace output nodes plugins start vs last) :
    ∀ j, feeder nodes vs.length = some j → ∃ node, nodes[j]? = some node ∧
      outputFormat node.descriptor node.params = .ok last.layout.format := by
  induction h with
  | start => exact fun j hj => by cases hj
  | @sink vs current node h hn hout ih =>
    intro j hj
    rw [List.length_append, List.length_singleton, feeder_succ hn, hout] at hj
    exact ih j hj
  | @into vs current node format h hn hout hf ih =>
    intro j hj
    rw [List.length_append, List.length_singleton, feeder_succ hn, hout] at hj
    obtain rfl := Option.some.inj hj
    exact ⟨node, hn, hf⟩

theorem portCaps_some {desc : DescPtr} {kind : PortKind} {name : String}
    (h : findPort desc kind name = some p) :
    PrecisionPlanner.portCaps desc kind name = ⟨p.channels, p.precision⟩ := by
  simp [PrecisionPlanner.portCaps, h]

/-- What the planner's caps say about a plain producer's format. -/
theorem plain_caps (hm : desc ∈ Nodes.builtinNodes) (hplain : plain desc = true) {name : String}
    (hp : findPort (some desc) .output name = some p) {params : Params}
    (hf : outputFormat (some desc) params = .ok format) :
    PrecisionPlanner.portCaps (some desc) .output name =
      ⟨[(formatCaps format).1], [(formatCaps format).2]⟩ := by
  obtain ⟨format', hf', honly⟩ := plain_format hm hplain (findPort_some hp).1 params
  obtain rfl := Except.ok.inj (hf.symm.trans hf')
  rw [portCaps_some hp, honly.1, honly.2]

/-- An edge the load kept as it is. -/
theorem kept_declares (hm : desc ∈ Nodes.builtinNodes) (hplain : plain desc = true)
    {consumer : PluginDesc} (hc : consumer ∈ Nodes.builtinNodes) {src dst : String}
    (hp : findPort (some desc) .output src = some p)
    (hq : findPort (some consumer) .input dst = some q) {params : Params}
    (hf : outputFormat (some desc) params = .ok format)
    (hfit : PrecisionPlanner.intersects p.precision q.precision = true)
    (hroles : colorRolesCompatible (manifestColorRole (some desc) Manifest.outputRole)
      (manifestColorRole (some consumer) Manifest.inputRole) = true) : Declares q format := by
  have hall := builtin_edges_declared desc hm hplain consumer hc
  rw [outputFormat_plain hplain] at hf
  have hone := List.all_eq_true.mp (List.all_eq_true.mp hall p (findPort_some hp).1) q
    (findPort_some hq).1
  simpa [hfit, hroles, hf] using hone

/-- An edge into a converter: it reads what the caps before it name. -/
theorem intoConverter_declares {src dst : String}
    (hq : findPort (some Nodes.precisionConvert) .input "in" = some q)
    (hfrom : PrecisionPlanner.formatFromCaps
      ⟨[(formatCaps format).1], [(formatCaps format).2]⟩ = some src)
    (hc : PrecisionPlanner.directConversionSupported src dst = true) : Declares q format := by
  have hcaps := PrecisionPlanner.converter_in
  rw [portCaps_some hq] at hcaps
  obtain ⟨hchannels, hprecision⟩ := PrecisionPlanner.PortCaps.mk.inj hcaps
  unfold Declares
  rw [hchannels, hprecision]
  rcases PrecisionPlanner.formatFromCaps_some hfrom with h | h | h | h | h
  all_goals
    obtain ⟨h, rfl⟩ := h
    simp only [PrecisionPlanner.PortCaps.mk.injEq, List.cons.injEq, and_true] at h
    rw [h.1, h.2]
  · decide
  · decide
  · decide
  · simp [PrecisionPlanner.directConversionSupported] at hc
  · decide

/-- An edge out of a converter: the port before which it was put names its format. -/
theorem outOfConverter_declares {consumer : DescPtr} {target dst : String}
    (hd : node.descriptor = some Nodes.precisionConvert)
    (hp : node.params = [("target_format", .string target)])
    (hto : PrecisionPlanner.formatFromCaps (PrecisionPlanner.portCaps consumer .input dst) =
      some target)
    (hq : findPort consumer .input dst = some q)
    (hf : outputFormat node.descriptor node.params = .ok format) : Declares q format := by
  obtain ⟨format', hname, hcaps⟩ := formatFromCaps_format hto
  obtain rfl := Except.ok.inj (hf.symm.trans (converter_format hp hd hname))
  rw [portCaps_some hq] at hcaps
  obtain ⟨hchannels, hprecision⟩ := PrecisionPlanner.PortCaps.mk.inj hcaps
  exact Only.declares ⟨hchannels, hprecision⟩

theorem planned_edge_declares
    (hs : Load.Stages Nodes.builtinNodes document nodes edges sorted plan order)
    {e : GraphEdge} (he : e ∈ plan.edges) {a b : PrecisionGraphNode}
    (ha : plan.nodes[e.src]? = some a) (hb : plan.nodes[e.dst]? = some b)
    (hp : findPort a.descriptor .output e.srcPort = some p)
    (hq : findPort b.descriptor .input e.dstPort = some q)
    (hf : outputFormat a.descriptor a.params = .ok format)
    (hd : a.descriptor ≠ some Nodes.colorSceneLinearToDisplay) : Declares q format := by
  cases (stages_rewritten hs).edge_cases e he with
  | kept hm hsrc hdst hfit =>
    obtain ⟨hsrc', hgiven⟩ := stages_old hs hsrc ha
    obtain ⟨hdst', hgiven'⟩ := stages_old hs hdst hb
    obtain ⟨consumer, hconsumer, hcd⟩ := hgiven'.builtin
    have hroles := Wiring.checkEdge_roles (hs.checks e hm)
    rw [← Wiring.descriptorAt_precisionNode, ← Wiring.descriptorAt_precisionNode, hsrc', hdst']
      at hroles
    rw [PrecisionPlanner.fits, PrecisionPlanner.producedCaps, PrecisionPlanner.requiredCaps,
      hsrc', hdst', portCaps_some hp, portCaps_some hq] at hfit
    cases hgiven with
    | plain desc hpd hm hplain =>
      simp only [nodeInstance] at hpd hcd
      rw [hpd] at hp hf hroles
      rw [hcd] at hq hroles
      exact kept_declares hm hplain hconsumer hp hq hf hfit hroles
    | display target hpd ht hm => exact absurd hpd hd
  | intoConverter o k node src dst hm hsrc hn hnode hfrom hc hedge =>
    subst hedge
    obtain ⟨hsrc', hgiven⟩ := stages_old hs hsrc ha
    obtain rfl := Option.some.inj (hn.symm.trans hb)
    rw [hnode.1] at hq
    rw [PrecisionPlanner.producedCaps, hsrc'] at hfrom
    cases hgiven with
    | plain desc hpd hm hplain =>
      simp only [nodeInstance] at hpd
      rw [hpd] at hp hf hfrom
      rw [plain_caps hm hplain hp hf] at hfrom
      exact intoConverter_declares hq hfrom hc
    | display target hpd ht hm => exact absurd hpd hd
  | outOfConverter o k node dst hm hdst hn hnode hto hedge =>
    subst hedge
    obtain ⟨hdst', _⟩ := stages_old hs hdst hb
    obtain rfl := Option.some.inj (hn.symm.trans ha)
    rw [PrecisionPlanner.requiredCaps, hdst'] at hto
    have hf' : outputFormat (nodeInstance node).descriptor (nodeInstance node).params =
      .ok format := hf
    exact outOfConverter_declares hnode.1 hnode.2 hto hq hf'

/-- A planned edge along which a run does hand a buffer: its source is the node
that made what position `k` is given, and both ports are declared. -/
structure Carries (plan : PrecisionPlan) (order : List Nat) (nodes : List NodeInstance) (k : Nat)
    (e : GraphEdge) (a b : NodeInstance) : Prop where
  edge : e ∈ plan.edges
  source : ∃ j, feeder nodes k = some j ∧ order[j]? = some e.src ∧ nodes[j]? = some a
  target : order[k]? = some e.dst ∧ nodes[k]? = some b
  srcPort : (findPort a.descriptor .output e.srcPort).isSome
  dstPort : (findPort b.descriptor .input e.dstPort).isSome

theorem Carries.declares
    (hs : Load.Stages Nodes.builtinNodes document nodes edges sorted plan order)
    {e : GraphEdge} {a b : NodeInstance} {k : Nat}
    (h : Carries plan order (plannedNodes plan order) k e a b)
    (hf : outputFormat a.descriptor a.params = .ok format)
    (hd : a.descriptor ≠ some Nodes.colorSceneLinearToDisplay) :
    ∀ q ∈ portsOf b.descriptor .input, Declares q format := by
  obtain ⟨j, _, hsrc, hja⟩ := h.source
  obtain ⟨hdst, hkb⟩ := h.target
  obtain ⟨i, n, hi, hn, rfl⟩ := Graph.stored_node hs.planned hja
  obtain ⟨i', n', hi', hn', rfl⟩ := Graph.stored_node hs.planned hkb
  obtain rfl := Option.some.inj (hsrc.symm.trans hi)
  obtain rfl := Option.some.inj (hdst.symm.trans hi')
  obtain ⟨p, hp⟩ := Option.isSome_iff_exists.mp h.srcPort
  obtain ⟨q, hq⟩ := Option.isSome_iff_exists.mp h.dstPort
  have hdeclares := planned_edge_declares hs h.edge hn hn' hp hq hf hd
  obtain ⟨consumer, hconsumer, hcd⟩ := (stages_origin hs n' (List.mem_of_getElem? hn')).builtin
  rw [hcd] at hq
  intro q' hq'
  rw [hcd] at hq'
  obtain ⟨hchannels, hprecision⟩ :=
    builtin_inputs_alike consumer hconsumer q (findPort_some hq).1 q' hq'
  exact ⟨hchannels ▸ hdeclares.1, hprecision ▸ hdeclares.2⟩

theorem display_format_ok {params : Params}
    (h : outputFormat (some Nodes.colorSceneLinearToDisplay) params = .ok format) :
    (Params.text params "target" "sRGB" = "sRGB" ∧ format = .r8g8b8a8Unorm) ∨
    (Params.text params "target" "sRGB" = "BT2020-PQ" ∧ format = .r16g16b16a16Unorm) := by
  rw [display_format] at h
  split at h
  · rename_i ht
    exact .inl ⟨ht, (Except.ok.inj h).symm⟩
  · split at h
    · rename_i ht
      exact .inr ⟨ht, (Except.ok.inj h).symm⟩
    · cases h

/-- The buffers of a visit have the format of the node that fed it. -/
theorem visit_format {p : Pipeline} {source : SourcePlugin D} {plugins : Nat → Plugin D}
    {v : Visit D} (hv : v ∈ (runBound p output source plugins).visits) {j : Nat}
    (hj : feeder p.nodes v.index = some j) :
    ∃ node, p.nodes[j]? = some node ∧
      ∀ x ∈ v.inputs, outputFormat node.descriptor node.params = .ok x.layout.format := by
  by_cases hbegun : ∃ held start frames, Begun p source held start frames
  · obtain ⟨held, start, frames, hbegun⟩ := hbegun
    obtain ⟨last, htrace⟩ := run_trace output plugins hbegun
    obtain ⟨k, hk⟩ := List.mem_iff_getElem?.mp hv
    obtain ⟨current, node, hcut, hnode, rfl, hin, _⟩ := htrace.visit hk
    have hlen : ((runBound p output source plugins).visits.take v.index).length = v.index := by
      have := (List.getElem?_eq_some_iff.mp hk).1
      rw [List.length_take]
      omega
    obtain ⟨producer, hproducer, hf⟩ := trace_format hcut j (by rw [hlen]; exact hj)
    refine ⟨producer, hproducer, ?_⟩
    intro x hx
    rw [hin, handedInputs] at hx
    rw [List.eq_of_mem_replicate hx]
    exact hf
  · rw [runBound_not_begun hbegun] at hv
    cases hv

/-- Formats in the runs of an accepted document. A node that fills a buffer has
a format for it unless it is a display node with a reserved target. A buffer
handed along an edge between declared ports fits them, except that a display
node's buffer goes by its target. -/
theorem formats_of_accepted (out : Pipeline) (document : Document) (pl : Pipeline)
    (h : load out Nodes.builtinNodes document = .ok pl) :
    (∀ node ∈ pl.nodes, nodeHasOutput node.descriptor = true → ∀ input,
      (Reserved node → outputLayoutForNode node.descriptor node.params input =
        .error ⟨.failed, "unsupported scene_linear_to_display target"⟩) ∧
      (¬ Reserved node → ∃ layout,
        outputLayoutForNode node.descriptor node.params input = .ok layout)) ∧
    ∃ nodes edges sorted plan order,
      Load.Stages Nodes.builtinNodes document nodes edges sorted plan order ∧
      pl.nodes = plannedNodes plan order ∧
      ∀ (D : Type) (output : Option String) (source : SourcePlugin D)
        (sources : List (String × SourceBinding)) (plugins : Nat → Plugin D),
        ∀ v ∈ (runBound { pl with sources := sources } output source plugins).visits,
        ∀ e a b, Carries plan order pl.nodes v.index e a b → ∀ x ∈ v.inputs,
          (a.descriptor ≠ some Nodes.colorSceneLinearToDisplay →
            ∀ q ∈ portsOf b.descriptor .input, Declares q x.layout.format) ∧
          (a.descriptor = some Nodes.colorSceneLinearToDisplay →
            (Params.text a.params "target" "sRGB" = "sRGB" ∧
              x.layout.format = .r8g8b8a8Unorm) ∨
            (Params.text a.params "target" "sRGB" = "BT2020-PQ" ∧
              x.layout.format = .r16g16b16a16Unorm)) := by
  obtain ⟨nodes, edges, sorted, plan, order, hs, _, rfl⟩ := Load.load_ok h
  refine ⟨?_, nodes, edges, sorted, plan, order, hs, rfl, ?_⟩
  · intro node hn hout input
    refine ⟨fun hr => hr.refused input, ?_⟩
    intro hr
    obtain ⟨k, hk⟩ := List.mem_iff_getElem?.mp hn
    obtain ⟨i, n, _, hi, rfl⟩ := Graph.stored_node hs.planned hk
    obtain ⟨format, hf⟩ := (stages_origin hs n (List.mem_of_getElem? hi)).defined hout hr
    exact ⟨_, by rw [outputLayoutForNode, hf]; rfl⟩
  · intro D output source sources plugins v hv e a b hc x hx
    obtain ⟨j, hj, _, hja⟩ := hc.source
    obtain ⟨producer, hproducer, hformat⟩ := visit_format hv hj
    obtain rfl := Option.some.inj (hja.symm.trans hproducer)
    constructor
    · exact hc.declares hs (hformat x hx)
    · intro hd
      have hf := hformat x hx
      rw [hd] at hf
      exact display_format_ok hf

theorem formats_of_accepted_converted :
    ∃ pl, load {} Nodes.builtinNodes Load.convertedDocument = .ok pl ∧ pl.nodes.length = 3 ∧
      ∀ node ∈ pl.nodes, nodeHasOutput node.descriptor = true → ∀ input,
        ¬ Reserved node → ∃ layout,
          outputLayoutForNode node.descriptor node.params input = .ok layout :=
  ⟨_, rfl, rfl, fun node hn hout input =>
    ((formats_of_accepted {} Load.convertedDocument _ rfl).1 node hn hout input).2⟩

/-- Every node that fills a buffer has a layout for it. -/
def LayoutsDefined (pl : Pipeline) : Prop :=
  ∀ node ∈ pl.nodes, nodeHasOutput node.descriptor = true → ∀ input,
    ∃ layout, outputLayoutForNode node.descriptor node.params input = .ok layout

/-- At position `k` every run hands over buffers that the in-ports declare. -/
def HandedDeclared (pl : Pipeline) (k : Nat) : Prop :=
  ∀ (source : SourcePlugin Unit) (sources : List (String × SourceBinding))
    (plugins : Nat → Plugin Unit),
    ∀ v ∈ (runBound { pl with sources := sources } none source plugins).visits, v.index = k →
    ∀ node, pl.nodes[k]? = some node → ∀ x ∈ v.inputs, ∀ q ∈ portsOf node.descriptor .input,
      Declares q x.layout.format

/-- An 8-bit image shown for a PQ display and passed on. -/
def shownDocument : Document where
  id := "shown"
  inputs := [⟨"raw", "Image2D", "R8G8B8A8_UNORM", some 4, some 4⟩]
  nodes := [⟨"show", "com.cpipe.color.scene_linear_to_display", [("target", .string "BT2020-PQ")]⟩,
    ⟨"view", "com.cpipe.builtin.passthrough", []⟩]
  edges := [⟨"show.display", "view.in"⟩]

/-- Three nodes in a row, the last one set to a reserved target. -/
def looseDocument (edges : List EdgeJson) : Document where
  id := "loose"
  inputs := [⟨"raw", "Image2D", "R16_UINT", some 4, some 4⟩]
  nodes := [⟨"lut", "com.cpipe.linearize.dng_lut", []⟩,
    ⟨"view", "com.cpipe.builtin.passthrough", []⟩,
    ⟨"show", "com.cpipe.color.scene_linear_to_display", [("target", .string "DisplayP3")]⟩]
  edges := edges

/-- A run of idle plugins hands position `k` a buffer some in-port does not declare. -/
def handsUndeclared (pl : Pipeline) (input : InputPort) (k : Nat) : Bool :=
  (runBound { pl with sources := bindInput input } none (filler [] ()) (fun _ => idle)).visits.any
    (fun v => v.index == k && (pl.nodes[k]?).any (fun node => v.inputs.any (fun x =>
      (portsOf node.descriptor .input).any (fun q => !decide (Declares q x.layout.format)))))

theorem not_handedDeclared (input : InputPort) {k : Nat} (h : handsUndeclared pl input k = true) :
    ¬ HandedDeclared pl k := by
  intro hall
  obtain ⟨v, hv, h⟩ := List.any_eq_true.mp h
  obtain ⟨hk, h⟩ := (Bool.and_eq_true _ _).mp h
  obtain ⟨node, hnode, h⟩ := (Option.any_eq_true _ _).mp h
  obtain ⟨x, hx, h⟩ := List.any_eq_true.mp h
  obtain ⟨q, hq, h⟩ := List.any_eq_true.mp h
  simp only [Bool.not_eq_true', decide_eq_false_iff_not] at h
  exact h (hall _ _ _ v hv (by simpa using hk) node hnode x hx q hq)

/-- The input of a document with one. -/
def onlyInput (document : Document) : InputPort :=
  match document.inputs with
  | input :: _ => inputPort input
  | [] => ⟨"", {}⟩

/-- Accepted documents whose runs hand over undeclared buffers: to the first
node and to one fed by the display node, along an edge to a port that is not
declared, and to a node no edge leads to. The last node of the second and the
third has no layout. -/
theorem formats_not_safe :
    (∃ pl, load {} Nodes.builtinNodes shownDocument = .ok pl ∧
      ¬ HandedDeclared pl 0 ∧ ¬ HandedDeclared pl 1) ∧
    (∃ pl, load {} Nodes.builtinNodes
      (looseDocument [⟨"lut.bayer", "view.image"⟩, ⟨"view.out", "show.image"⟩]) = .ok pl ∧
      ¬ HandedDeclared pl 1 ∧ ¬ LayoutsDefined pl) ∧
    (∃ pl, load {} Nodes.builtinNodes (looseDocument []) = .ok pl ∧
      ¬ HandedDeclared pl 1 ∧ ¬ LayoutsDefined pl) := by
  refine ⟨⟨_, rfl, ?_, ?_⟩, ⟨_, rfl, ?_, ?_⟩, _, rfl, ?_, ?_⟩
  · exact not_handedDeclared (onlyInput shownDocument) (by decide +kernel)
  · exact not_handedDeclared (onlyInput shownDocument) (by decide +kernel)
  · exact not_handedDeclared (onlyInput (looseDocument [])) (by decide +kernel)
  · intro h
    obtain ⟨layout, hl⟩ := h _ (List.mem_of_getElem? (i := 2) rfl) rfl {}
    cases hl
  · exact not_handedDeclared (onlyInput (looseDocument [])) (by decide +kernel)
  · intro h
    obtain ⟨layout, hl⟩ := h _ (List.mem_of_getElem? (i := 2) rfl) rfl {}
    cases hl

end Cpipe.Proofs.Formats
