import Cpipe.Core.Manifest

namespace Cpipe.Web

/-! ### Values of the editor -/

/-- `value.key` of a parsed document. `undefined` is none. -/
def property : Json → String → Option Json
  | .object fields, key => Params.lookup fields key
  | _, _ => none

/-- The units of a text. Half of a surrogate pair is no text of its own and stands as the
replacement character. -/
def codeUnits (text : String) : List String :=
  text.toList.flatMap (fun c =>
    if c.toNat < 0x10000 then [String.singleton c] else ["\uFFFD","\uFFFD"])

/-- The properties that `...value` copies. -/
def spread : Json → Params
  | .object fields => fields
  | .array items => items.zipIdx.map (fun p => (toString p.2,p.1))
  | .string text => (codeUnits text).zipIdx.map (fun p => (toString p.2,.string p.1))
  | _ => []

/-- `value ?? {}`. -/
def orEmpty : Option Json → Json
  | none => .object []
  | some .null => .object []
  | some value => value

/-- `{ ...value, [key]: field }`. -/
def withField (value : Json) (key : String) (field : Json) : Json :=
  .object (Params.assign (spread value) key field)

/-! ### The store -/

/-- A node of the canvas with what an update reads. -/
structure FlowNode where
  id : Option Json
  params : Json

structure PipelineStore where
  nodes : List FlowNode := []
  pipeline : Option Json := none

/-- `type.split(".")` throws unless the type is a text. -/
def flowNode (node : Json) : Option FlowNode :=
  match property node "type" with
  | some (.string _) => some ⟨property node "id",orEmpty (property node "params")⟩
  | _ => none

/-- Reading `edge.from` throws on null only. -/
def flowEdge : Json → Option Unit
  | .null => none
  | _ => some ()

/-- The canvas of a document, or none where the conversion throws. -/
def pipelineToFlow (pipeline : Json) : Option (List FlowNode) :=
  match property pipeline "nodes", property pipeline "edges" with
  | some (.array nodes), some (.array edges) => do
    let flow ← nodes.mapM flowNode
    let _ ← edges.mapM flowEdge
    return flow
  | _, _ => none

def loadPipeline (pipeline : Json) : Option PipelineStore :=
  (pipelineToFlow pipeline).map (fun nodes => ⟨nodes,some pipeline⟩)

def updateFlowNode (nodeId key : String) (value : Json) (node : FlowNode) : FlowNode :=
  match node.id with
  | some (.string id) =>
    if id = nodeId then { node with params := withField node.params key value } else node
  | _ => node

def updatePipelineNode (nodeId key : String) (value : Json) (node : Json) : Json :=
  match property node "id" with
  | some (.string id) =>
    if id = nodeId then
      withField node "params" (withField (orEmpty (property node "params")) key value)
    else node
  | _ => node

/-- `nodes.map` exists on the array a loaded document has. -/
def updatePipeline (nodeId key : String) (value : Json) (pipeline : Json) : Json :=
  match property pipeline "nodes" with
  | some (.array nodes) =>
    withField pipeline "nodes" (.array (nodes.map (updatePipelineNode nodeId key value)))
  | _ => pipeline

def updateNodeParam (nodeId key : String) (value : Json) (store : PipelineStore) :
    PipelineStore where
  nodes := store.nodes.map (updateFlowNode nodeId key value)
  pipeline := store.pipeline.map (updatePipeline nodeId key value)

/-- The control frame of `updateParam`. -/
def updateParam (nodeId key : String) (value : Json) : Json :=
  .object [("type",.string "node.update_param"),("node_id",.string nodeId),
    ("key",.string key),("value",value)]

/-- The store after the update and the frame that is sent. -/
def sendParamUpdate (nodeId key : String) (value : Json) (store : PipelineStore) :
    PipelineStore × Json :=
  (updateNodeParam nodeId key value store,updateParam nodeId key value)

end Cpipe.Web
