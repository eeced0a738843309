import Mathlib.Data.List.AList
import Cpipe.Web.Frames
import Cpipe.Web.PipelineStore

namespace Cpipe.Web

/-! ### The device store -/

/-- What the runtime reported last. A thumbnail stands for the URL of its blob. -/
structure DeviceStore where
  lastAck : Option Json := none
  lastLog : Option Json := none
  lastProfile : Option Json := none
  thumbnailUrls : AList (fun _ : String => List UInt8) := ∅

namespace DeviceStore

def recordAck (d : DeviceStore) (payload : Json) : DeviceStore :=
  { d with lastAck := some payload }

def recordLog (d : DeviceStore) (payload : Json) : DeviceStore :=
  { d with lastLog := some payload }

def recordProfile (d : DeviceStore) (payload : Json) : DeviceStore :=
  { d with lastProfile := some payload }

def recordThumbnail (d : DeviceStore) (nodeId : String) (bytes : List UInt8) : DeviceStore :=
  { d with thumbnailUrls := d.thumbnailUrls.insert nodeId bytes }

end DeviceStore

/-! ### The runtime client -/

/-- The stores a message can change. -/
structure Editor where
  device : DeviceStore := {}
  store : PipelineStore := {}

/-- `typeof value === "object"`. -/
def isObject : Option Json → Bool
  | some .null => true
  | some (.array _) => true
  | some (.object _) => true
  | _ => false

/-- The frame of a control that the server may send: a pipeline to load, or nothing. Reading
a property of null throws. -/
def onControlFrame (editor : Editor) (payload : Json) : Option Editor :=
  match payload with
  | .null => none
  | _ =>
    match property payload "type" with
    | some (.string "pipeline.applied") =>
      if isObject (property payload "pipeline") then
        (property payload "pipeline").bind fun pipeline =>
          (loadPipeline pipeline).map fun store => { editor with store := store }
      else some editor
    | _ => some editor

/-- `socket.onmessage`, or none where it throws. `parse` is the JSON parser of the browser
behind its text decoder. -/
def onMessage (parse : List UInt8 → Option Json) (editor : Editor) (message : List UInt8) :
    Option Editor :=
  match decodeEditorFrame (.buffer message) with
  | .error _ => none
  | .ok frame =>
    if frame.type = EditorFrameTypes.thumbnail then
      some { editor with device := editor.device.recordThumbnail "__latest" frame.payload }
    else
      (parse frame.payload).bind fun payload =>
        if frame.type = EditorFrameTypes.ack then
          some { editor with device := editor.device.recordAck payload }
        else if frame.type = EditorFrameTypes.profile then
          some { editor with device := editor.device.recordProfile payload }
        else if frame.type = EditorFrameTypes.log then
          some { editor with device := editor.device.recordLog payload }
        else onControlFrame editor payload

end Cpipe.Web
