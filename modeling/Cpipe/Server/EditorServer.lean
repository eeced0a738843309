import Cpipe.Core.Manifest
import Mathlib.Data.List.AList

namespace Cpipe.Server

/-! ### Access to JSON values -/

/-- Why a request changes nothing: a status with its text, or an exception of the JSON
library, whose text is its own. -/
inductive Refusal where
  | status (error : Error)
  | thrown
deriving DecidableEq, Repr

def refuse (message : String) : Refusal := .status ⟨.badIndex,message⟩

/-- `json.contains(key)`. -/
def containsKey : Json → String → Bool
  | .object fields, key => (Params.lookup fields key).isSome
  | _, _ => false

/-- `json.value(key, "")`: throws on a value that is no object and on a field that is no
text. -/
def textValue : Json → String → Except Refusal String
  | .object fields, key =>
    match Params.lookup fields key with
    | none => .ok ""
    | some (.string text) => .ok text
    | some _ => .error .thrown
  | _, _ => .error .thrown

/-- `json.value(key, fallback)` for an unsigned field. -/
def unsignedValue (fields : Params) (key : String) (fallback : UInt32) : Except Refusal UInt32 :=
  match Params.lookup fields key with
  | none => .ok fallback
  | some (.number v) => .ok (UInt32.ofInt (v.num.tdiv v.den))
  | some (.bool b) => .ok (if b then 1 else 0)
  | some _ => .error .thrown

/-- `json.at(key).get<std::string>()`. -/
def textAt (fields : Params) (key : String) : Except Refusal String :=
  match Params.lookup fields key with
  | some (.string text) => .ok text
  | _ => .error .thrown

/-! ### The server's state -/

/-- A finished run. `serial` is no field of the source: it says which run of the server's
lifetime made the record. -/
structure RunRecord where
  status : String
  outputPaths : List String
  serial : Nat
deriving DecidableEq, Repr

structure ThumbnailSubscription where
  nodeId : String
  port : String
  maxSize : UInt32 := 256
  fps : UInt32 := 5
deriving DecidableEq, Repr

/-- A connection. The source uses its address, which a later connection may get again. -/
abbrev Client := Nat

/-- The members the handlers share. `created` counts the runs for `RunRecord.serial`.
Times are in nanoseconds. -/
structure EditorServer where
  activePipeline : Json := .null
  nextRunId : UInt64 := 1
  runs : AList (fun _ : UInt64 => RunRecord) := ∅
  wsClients : List Client := []
  thumbnailSubscriptions : AList (fun _ : Client => ThumbnailSubscription) := ∅
  thumbnailLastEmit : AList (fun _ : String => Nat) := ∅
  created : Nat := 0

namespace EditorServer

/-! ### Pipeline and runs -/

def replaceActivePipeline (s : EditorServer) (pipeline : Json) : Except Refusal EditorServer :=
  match pipeline with
  | .object _ =>
    match textValue pipeline "version" with
    | .error e => .error e
    | .ok version =>
      if version ≠ "0.4" ∨ !containsKey pipeline "nodes" ∨ !containsKey pipeline "edges" then
        .error (refuse "expected pipeline-v0.4 JSON object")
      else
        .ok { s with
          activePipeline := pipeline
          runs := ∅
          nextRunId := 1
          thumbnailLastEmit := ∅ }
  | _ => .error (refuse "expected pipeline-v0.4 JSON object")

/-- The reply to a run request and what a debounced run broadcasts its id from. -/
structure RunReply where
  runId : UInt64
  record : RunRecord
deriving DecidableEq, Repr

/-- The counter wraps, and `emplace` keeps a record that is there. -/
def createRunRecord (s : EditorServer) : EditorServer × RunReply :=
  let runId := s.nextRunId
  let record : RunRecord := ⟨"completed",[],s.created⟩
  ({ s with
      nextRunId := s.nextRunId+1
      runs := if runId ∈ s.runs then s.runs else s.runs.insert runId record
      created := s.created+1 }, ⟨runId,record⟩)

def runRecord (s : EditorServer) (runId : UInt64) : Option RunReply :=
  (s.runs.lookup runId).map (fun record => ⟨runId,record⟩)

/-! ### Parameter updates -/

/-- `node["params"][key] = value`. -/
def setParam (node : Params) (key : String) (value : Json) : Except Refusal Params :=
  match Params.lookup node "params" with
  | none => .ok (Params.assign node "params" (.object [(key,value)]))
  | some .null => .ok (Params.assign node "params" (.object [(key,value)]))
  | some (.object params) =>
    .ok (Params.assign node "params" (.object (Params.assign params key value)))
  | some _ => .error .thrown

/-- The loop over the nodes, up to the first with this id. -/
def updateNodes (nodeId key : String) (value : Json) : List Json → Except Refusal (List Json)
  | [] => .error (refuse ("node not found: " ++ nodeId))
  | node :: rest =>
    match textValue node "id", node with
    | .ok id, .object fields =>
      if id ≠ nodeId then (updateNodes nodeId key value rest).map (node :: ·)
      else (setParam fields key value).map (fun changed => .object changed :: rest)
    | _, _ => .error .thrown

/-- A loop over a JSON value sees the items of an array, the values of an object, nothing
in null and any other value itself. -/
def updateIn (nodeId key : String) (value : Json) : Json → Except Refusal Json
  | .array nodes => (updateNodes nodeId key value nodes).map .array
  | .object fields =>
    (updateNodes nodeId key value (fields.map Prod.snd)).map
      (fun nodes => .object ((fields.map Prod.fst).zip nodes))
  | .null => .error (refuse ("node not found: " ++ nodeId))
  | _ => .error .thrown

/-- The part of `applyParamDelta` under the lock. -/
def updateActive (s : EditorServer) (nodeId key : String) (value : Json) :
    Except Refusal EditorServer :=
  match s.activePipeline with
  | .null => .error (refuse "no active pipeline")
  | .object pipeline =>
    match Params.lookup pipeline "nodes" with
    | none => .error .thrown
    | some nodes =>
      (updateIn nodeId key value nodes).map (fun changed =>
        { s with activePipeline := .object (Params.assign pipeline "nodes" changed) })
  | _ => .error .thrown

def applyParamDelta (s : EditorServer) (delta : Json) : Except Refusal EditorServer :=
  match delta with
  | .object fields =>
    match Params.lookup fields "value" with
    | some value =>
      if !containsKey delta "node_id" ∨ !containsKey delta "key" then
        .error (refuse "expected \x7bnode_id,key,value\x7d")
      else do
        let nodeId ← textAt fields "node_id"
        let key ← textAt fields "key"
        s.updateActive nodeId key value
    | none => .error (refuse "expected \x7bnode_id,key,value\x7d")
  | _ => .error (refuse "expected \x7bnode_id,key,value\x7d")

/-! ### Thumbnails -/

def clamp (value low high : UInt32) : UInt32 :=
  if value < low then low else if high < value then high else value

/-- The subscription a control frame asks for. -/
def requestedSubscription (fields : Params) : Except Refusal ThumbnailSubscription := do
  let nodeId ← textAt fields "node_id"
  let port ← textAt fields "port"
  let maxSize ← unsignedValue fields "max_size" 256
  let fps ← unsignedValue fields "fps" 5
  return ⟨nodeId,port,clamp maxSize 1 256,clamp fps 1 60⟩

def applyThumbnailControl (s : EditorServer) (client : Client) (payload : Json) :
    Except Refusal EditorServer := do
  let type ← textValue payload "type"
  if type = "node.unsubscribe_thumbnail" then
    return { s with thumbnailSubscriptions := s.thumbnailSubscriptions.erase client }
  else if type ≠ "node.subscribe_thumbnail" ∨ !containsKey payload "node_id" ∨
      !containsKey payload "port" then
    .error (refuse "expected thumbnail subscribe/unsubscribe control")
  else
    match payload with
    | .object fields =>
      let subscription ← requestedSubscription fields
      return { s with
        thumbnailSubscriptions := s.thumbnailSubscriptions.insert client subscription }
    | _ => .error .thrown

/-- The `open` and `close` handlers of the socket. -/
def openClient (s : EditorServer) (client : Client) : EditorServer :=
  { s with wsClients := s.wsClients.insert client }

def closeClient (s : EditorServer) (client : Client) : EditorServer :=
  { s with
    wsClients := s.wsClients.filter (fun c => c ≠ client)
    thumbnailSubscriptions := s.thumbnailSubscriptions.erase client }

/-- The `message` handler on a control frame. `schedule_param_rerun` is not part of this
state. -/
def onControl (s : EditorServer) (client : Client) (payload : Json) :
    Except Refusal EditorServer := do
  let type ← textValue payload "type"
  if type = "node.update_param" then s.applyParamDelta payload
  else if type = "node.subscribe_thumbnail" ∨ type = "node.unsubscribe_thumbnail" then
    s.applyThumbnailControl client payload
  else return s

structure Target where
  client : Client
  subscription : ThumbnailSubscription
deriving DecidableEq, Repr

def thumbnailKey (nodeId port : String) : String := nodeId ++ "\n" ++ port

/-- The targets of connected clients, in the order the subscriptions are held. -/
def targets (s : EditorServer) : List Target :=
  (s.thumbnailSubscriptions.entries.map (fun e => ⟨e.1,e.2⟩)).filter
    (fun t => decide (t.client ∈ s.wsClients))

def groupKey (t : Target) : String := thumbnailKey t.subscription.nodeId t.subscription.port

/-- `groups[key].push_back(target)`. -/
def addTarget (groups : AList (fun _ : String => List Target)) (t : Target) :
    AList (fun _ : String => List Target) :=
  groups.insert (groupKey t) ((groups.lookup (groupKey t)).getD [] ++ [t])

def groups (s : EditorServer) : AList (fun _ : String => List Target) :=
  s.targets.foldl addTarget ∅

def greatest (values : List UInt32) : UInt32 := values.foldl max 0

def effectiveFps (group : List Target) : UInt32 :=
  if 4 < group.length then 2 else greatest (group.map (fun t => t.subscription.fps))

/-- One group: nothing within the interval of its key, else a frame for every target. The
placeholder image is the work of libwebp. -/
def pushGroup (encode : UInt32 → List UInt8) (now : Nat)
    (state : AList (fun _ : String => Nat) × List (Client × List UInt8)) (key : String)
    (group : List Target) : AList (fun _ : String => Nat) × List (Client × List UInt8) :=
  let interval := 1000 / (effectiveFps group).toNat * 1000000
  match state.1.lookup key with
  | some last =>
    if now - last < interval then state
    else emit
  | none => emit
where
  emit : AList (fun _ : String => Nat) × List (Client × List UInt8) :=
    let image := encode (greatest (group.map (fun t => t.subscription.maxSize)))
    (state.1.insert key now,
      if image.isEmpty then state.2 else state.2 ++ group.map (fun t => (t.client,image)))

def pushThumbnailFrames (encode : UInt32 → List UInt8) (now : Nat) (s : EditorServer) :
    EditorServer × List (Client × List UInt8) :=
  let result := s.groups.entries.foldl (fun state e => pushGroup encode now state e.1 e.2)
    (s.thumbnailLastEmit,[])
  ({ s with thumbnailLastEmit := result.1 }, result.2)

/-! ### Requests in any order -/

/-- What a handler or a deferred callback is called for. A run is a run request or the
debounced run after a parameter update. -/
inductive Event where
  | run (now : Nat)
  | replace (pipeline : Json)
  | get (runId : UInt64)
  | opened (client : Client)
  | closed (client : Client)
  | control (client : Client) (payload : Json)

/-- The state after a request that may be refused. -/
def orSame (s : EditorServer) : Except Refusal EditorServer → EditorServer
  | .ok t => t
  | .error _ => s

def step (encode : UInt32 → List UInt8) (s : EditorServer) : Event → EditorServer
  | .run now => (pushThumbnailFrames encode now s.createRunRecord.1).1
  | .replace pipeline => s.orSame (s.replaceActivePipeline pipeline)
  | .get _ => s
  | .opened client => s.openClient client
  | .closed client => s.closeClient client
  | .control client payload => s.orSame (s.onControl client payload)

end EditorServer
end Cpipe.Server
