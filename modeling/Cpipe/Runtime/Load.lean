import Cpipe.Runtime.Document
import Cpipe.Runtime.MemoryPlanner
import Cpipe.Runtime.PrecisionPlanner

namespace Cpipe.Runtime
open Compute Library

structure NodeInstance where
  id : String
  descriptor : DescPtr
  params : Params

structure InputPort where
  name : String
  layout : BufferLayout

structure SourceBinding where
  pluginId : String
  descriptor : DescPtr
  params : Params

structure Pipeline where
  inputs : List InputPort := []
  layout : BufferLayout := {}
  nodes : List NodeInstance := []
  sources : List (String × SourceBinding) := []
  registry : Option Registry := none
  deviceMemoryCapBytes : UInt64 := 0xffffffffffffffff
  memoryPeakBytes : UInt64 := 0

/-- An edge of the document with its ends resolved to positions in the node list. -/
abbrev GraphEdge := PrecisionGraphEdge

namespace Pipeline

def precisionConvertId : String := "com.cpipe.precision_convert"

def loadNode (registry : Registry) (node : NodeJson) : Except Error NodeInstance :=
  if node.type = precisionConvertId then
    .error ⟨.badIndex, "reserved implicit node type: " ++ node.type⟩
  else
    match registry.find node.type with
    | none => .error ⟨.badIndex, "unknown node type: " ++ node.type⟩
    | some desc => do
      validateNodeParams (some desc) node.params
      return ⟨node.id, some desc, node.params⟩

/-- `node_index`: a repeated id keeps the position of its first node. -/
def nodeIndex (nodes : List NodeInstance) (id : String) : Option Nat :=
  nodes.findIdx? (fun n => n.id == id)

def resolveEdge (nodes : List NodeInstance) (edge : EdgeJson) : Except Error GraphEdge :=
  let src := splitEndpoint edge.src
  let dst := splitEndpoint edge.dst
  match nodeIndex nodes src.nodeId, nodeIndex nodes dst.nodeId with
  | some i, some j => .ok ⟨i, j, src.port, dst.port⟩
  | _, _ => .error ⟨.badIndex, "dangling edge in pipeline"⟩

def adjacent (edges : List GraphEdge) : Kahn.Edges := edges.map (fun e => (e.src,e.dst))

def cycleError : Error := ⟨.failed, "cycle in pipeline graph"⟩

/-- The raw graph's sort; a list shorter than the nodes means a cycle. -/
def sortedIndices (nodes : List NodeInstance) (edges : List GraphEdge) : Except Error (List Nat) :=
  let sorted := Kahn.sort nodes.length (adjacent edges)
  if sorted.length ≠ nodes.length then .error cycleError else .ok sorted

def manifestMetadataSteps (desc : DescPtr) (kind : PortKind) (portName : String)
    (field : Port → List String) : List String :=
  match findPort desc kind portName with
  | none => []
  | some port => field port

def manifestColorRole (desc : DescPtr) (field : Manifest → String) : String :=
  match DescPtr.manifest desc with
  | none => "any"
  | some manifest => field manifest

def containsStep (steps : List String) (step : String) : Bool := steps.contains step

def appendUniqueSteps (out steps : List String) : List String :=
  steps.foldl (fun out step => if containsStep out step then out else out ++ [step]) out

def colorRolesCompatible (produced required : String) : Bool :=
  produced.isEmpty || required.isEmpty || produced == "any" || required == "any" ||
    produced == required

def instanceDescriptor (nodes : List NodeInstance) (i : Nat) : DescPtr :=
  (nodes[i]?).bind NodeInstance.descriptor

/-- Steps on the way into `index`: those of every producer feeding it. -/
def inheritedSteps (edges : List GraphEdge) (cumulative : Nat → List String) (index : Nat) :
    List String :=
  edges.foldl (fun out e =>
    if e.dst = index then appendUniqueSteps out (cumulative e.src) else out) (cumulative index)

/-- Steps `index` adds: those of every out-port an edge leaves from. -/
def ownSteps (nodes : List NodeInstance) (edges : List GraphEdge) (index : Nat)
    (out : List String) : List String :=
  edges.foldl (fun out e =>
    if e.src = index then
      appendUniqueSteps out (manifestMetadataSteps (instanceDescriptor nodes index) .output
        e.srcPort Port.setsStepsApplied)
    else out) out

/-- One pass over the sorted nodes. -/
def cumulativeSteps (nodes : List NodeInstance) (edges : List GraphEdge) (sorted : List Nat) :
    Nat → List String :=
  sorted.foldl (fun cumulative index => Function.update cumulative index
    (ownSteps nodes edges index (inheritedSteps edges cumulative index))) (fun _ => [])

def checkEdge (nodes : List NodeInstance) (cumulative : Nat → List String) (e : GraphEdge) :
    Except Error Unit := do
  let required := manifestMetadataSteps (instanceDescriptor nodes e.dst) .input e.dstPort
    Port.requiresStepsApplied
  required.forM (fun step =>
    if containsStep (cumulative e.src) step then .ok ()
    else .error ⟨.needMetadata,
      "metadata step required by pipeline edge is not produced: " ++ step⟩)
  let producedRole := manifestColorRole (instanceDescriptor nodes e.src) Manifest.outputRole
  let requiredRole := manifestColorRole (instanceDescriptor nodes e.dst) Manifest.inputRole
  if colorRolesCompatible producedRole requiredRole then .ok ()
  else .error ⟨.needMetadata, "color role mismatch on pipeline edge: " ++ producedRole ++ " -> " ++
    requiredRole⟩

def precisionNode (n : NodeInstance) : PrecisionGraphNode := ⟨n.id, n.descriptor, n.params, false⟩

def nodeInstance (n : PrecisionGraphNode) : NodeInstance := ⟨n.id, n.descriptor, n.params⟩

def memoryEdges (edges : List GraphEdge) : List MemoryGraphEdge :=
  edges.map (fun e => ⟨e.src, e.dst⟩)

/-- The precision-planned graph's sort. -/
def plannedOrder (plan : PrecisionPlan) : Except Error (List Nat) :=
  if plan.edges.any (fun e => plan.nodes.length ≤ e.src || plan.nodes.length ≤ e.dst) then
    .error ⟨.badIndex, "precision edge index out of range"⟩
  else
    let order := Kahn.sort plan.nodes.length (adjacent plan.edges)
    if order.length ≠ plan.nodes.length then
      .error ⟨.failed, "cycle in precision-planned pipeline graph"⟩
    else .ok order

def plannedNodes (plan : PrecisionPlan) (order : List Nat) : List NodeInstance :=
  order.filterMap (fun i => (plan.nodes[i]?).map nodeInstance)

/-- Node loop and edge loop: the document's graph over node positions. -/
def resolveGraph (registry : Registry) (document : Document) :
    Except Error (List NodeInstance × List GraphEdge) := do
  let nodes ← document.nodes.mapM (loadNode registry)
  let edges ← document.edges.mapM (resolveEdge nodes)
  return (nodes, edges)

/-- Everything `load` checks and computes after the cycle check, up to the
sorted precision-planned nodes. -/
def planGraph (registry : Registry) (nodes : List NodeInstance) (edges : List GraphEdge)
    (sorted : List Nat) : Except Error (PrecisionPlan × List Nat) := do
  edges.forM (checkEdge nodes (cumulativeSteps nodes edges sorted))
  let plan ← PrecisionPlanner.autoInsert (nodes.map precisionNode) edges
    (registry.find precisionConvertId)
  let order ← plannedOrder plan
  return (plan, order)

def inputPort (input : InputJson) : InputPort := ⟨input.port, layoutFromJson input⟩

def primaryLayout (inputs : List InputPort) : BufferLayout :=
  match inputs with
  | [] => {}
  | input :: _ => input.layout

def memoryPlan (document : Document) (plan : PrecisionPlan) : MemoryPlan :=
  MemoryPlanner.planGraph (primaryLayout (document.inputs.map inputPort))
    (plan.nodes.map PrecisionGraphNode.descriptor) (memoryEdges plan.edges)

def store (out : Pipeline) (registry : Registry) (document : Document) (plan : PrecisionPlan)
    (order : List Nat) : Pipeline :=
  { out with
    inputs := document.inputs.map inputPort
    layout := primaryLayout (document.inputs.map inputPort)
    nodes := plannedNodes plan order
    sources := []
    registry := some registry
    memoryPeakBytes := (memoryPlan document plan).peakBytes }

/-- `Pipeline::load` on a document that was read and parsed. `out` keeps its
memory cap. -/
def load (out : Pipeline) (registry : Registry) (document : Document) : Except Error Pipeline := do
  validatePipelineSchema document
  let (nodes, edges) ← resolveGraph registry document
  let sorted ← sortedIndices nodes edges
  let (plan, order) ← planGraph registry nodes edges sorted
  if out.deviceMemoryCapBytes < (memoryPlan document plan).peakBytes then
    .error ⟨.oom, "memory peak exceeds device cap"⟩
  else
    .ok (store out registry document plan order)

def setSource (p : Pipeline) (portName pluginId : String) (params : Params) :
    Except Status Pipeline :=
  if p.inputs.any (fun input => input.name == portName) then
    match p.registry.bind (fun r => r.find pluginId) with
    | none => .error .badIndex
    | some desc =>
      .ok { p with sources := (portName, ⟨pluginId, some desc, params⟩) ::
        p.sources.filter (fun s => s.1 != portName) }
  else .error .badIndex

end Pipeline
end Cpipe.Runtime
