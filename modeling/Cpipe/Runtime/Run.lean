import Cpipe.Runtime.Load
import Cpipe.Runtime.Scheduler

namespace Cpipe.Runtime
open Compute

variable {D : Type}

/-- An image buffer. `content` stands for its pixels and for the metadata no host
function looks at. -/
structure Buffer (D : Type) where
  layout : BufferLayout
  appliedSteps : List String := []
  content : D

/-- What a call of `process` leaves behind: the pixels of the output and the
steps in its metadata builder. -/
structure Reply (D : Type) where
  status : Status := .ok
  appliedSteps : List String
  content : D

/-- The entry point of a node's plugin, one field for each action. `process` is
handed the input buffers and, for a node with an output, the layout of the
buffer to fill. -/
structure Plugin (D : Type) where
  create : Params → Status := fun _ => .ok
  process : Params → List (Buffer D) → Option BufferLayout → Reply D
  destroy : Status := .ok

/-- A source fills the buffer it is given or puts another one in its place. -/
inductive Supply (D : Type)
  | filled (appliedSteps : List String) (content : D)
  | replaced (buffer : Option (Buffer D))

structure SourcePlugin (D : Type) where
  create : Params → Status := fun _ => .ok
  process : Params → BufferLayout → Status × Supply D
  destroy : Status := .ok

namespace Pipeline

def sceneLinearToDisplayId : String := "com.cpipe.color.scene_linear_to_display"

def manifestPixelFormat (port : Port) : Option PixelFormat :=
  if port.channels = ["r"] ∧ port.precision = ["u16"] then some .r16Uint
  else if port.channels = ["r"] ∧ port.precision = ["f32"] then some .r32Sfloat
  else if port.channels = ["rgba"] ∧ port.precision = ["f16"] then some .r16g16b16a16Sfloat
  else if port.channels = ["rgba"] ∧ port.precision = ["u8"] then some .r8g8b8a8Unorm
  else if port.channels = ["rgba"] ∧ port.precision = ["u16"] then some .r16g16b16a16Unorm
  else none

/-- The format half of `output_layout_for_node`: it never looks at the input. -/
def outputFormat (desc : DescPtr) (params : Params) : Except Error PixelFormat :=
  match desc with
  | some ⟨nodeId, some _⟩ =>
    if nodeId = precisionConvertId then
      match pixelFormatFromString (Params.text params "target_format" "") with
      | some format => .ok format
      | none => .error ⟨.failed, "unsupported precision_convert target format"⟩
    else if nodeId = sceneLinearToDisplayId then
      let target := Params.text params "target" "sRGB"
      if target = "sRGB" then .ok .r8g8b8a8Unorm
      else if target = "BT2020-PQ" then .ok .r16g16b16a16Unorm
      else .error ⟨.failed, "unsupported scene_linear_to_display target"⟩
    else
      match portsOf desc .output with
      | [] => .error ⟨.failed, ""⟩
      | port :: _ =>
        match manifestPixelFormat port with
        | some format => .ok format
        | none => .error ⟨.failed, "unsupported output port format"⟩
  | _ => .error ⟨.failed, "missing node manifest"⟩

def outputLayoutForNode (desc : DescPtr) (params : Params) (input : BufferLayout) :
    Except Error BufferLayout :=
  (outputFormat desc params).map (fun format => { input with format := format })

def nodeHasOutput (desc : DescPtr) : Bool := !(portsOf desc .output).isEmpty

/-- A node without in-ports is handed one buffer all the same. -/
def nodeInputCount (desc : DescPtr) : Nat := max (portsOf desc .input).length 1

/-- One call of a node's `process`. -/
structure Visit (D : Type) where
  index : Nat
  inputs : List (Buffer D)
  output : Option (Buffer D)

/-- The locals of `run_bound`. `held` are the layouts of `source_output` and of
a buffer the source put into its handle, both kept to the end; `own` says that
`current` is a further buffer, made for a node. `frames` collects the layouts
of the buffers alive whenever that set changes. -/
structure Session (D : Type) where
  held : List BufferLayout
  own : Bool := false
  current : Buffer D
  visits : List (Visit D) := []
  frames : List (List BufferLayout) := []

def Session.alive (s : Session D) : List BufferLayout :=
  s.held ++ if s.own then [s.current.layout] else []

/-- `params["path"] = output`, for a node that writes a file. -/
def nodeParams (node : NodeInstance) (output : Option String) : Params :=
  match nodeHasOutput node.descriptor, output with
  | false, some path => Params.assign node.params "path" (.string path)
  | _, _ => node.params

def handedInputs (node : NodeInstance) (current : Buffer D) : List (Buffer D) :=
  List.replicate (nodeInputCount node.descriptor) current

/-- What is reported after `process` and `destroy`. -/
def settle (node : NodeInstance) (processed destroyed : Status) : Option Error :=
  if processed ≠ .ok then some ⟨processed, "node process failed: " ++ node.id⟩
  else if destroyed ≠ .ok then some ⟨destroyed, "node destroy failed: " ++ node.id⟩
  else none

/-- The branch of a node with an output, from the allocation of `next` on. -/
def processInto (node : NodeInstance) (plugin : Plugin D) (params : Params) (index : Nat)
    (layout : BufferLayout) (s : Session D) : Session D × Option Error :=
  let inputs := handedInputs node s.current
  let reply := plugin.process params inputs (some layout)
  let next : Buffer D := ⟨layout, reply.appliedSteps, reply.content⟩
  let visited := { s with
    visits := s.visits ++ [⟨index, inputs, some next⟩]
    frames := s.frames ++ [s.alive ++ [layout]] }
  match settle node reply.status plugin.destroy with
  | some e => (visited, some e)
  | none => ({ visited with
      own := true
      current := next
      frames := visited.frames ++ [s.held ++ [layout]] }, none)

def processSink (node : NodeInstance) (plugin : Plugin D) (params : Params) (index : Nat)
    (s : Session D) : Session D × Option Error :=
  let inputs := handedInputs node s.current
  let reply := plugin.process params inputs none
  ({ s with visits := s.visits ++ [⟨index, inputs, none⟩] },
    settle node reply.status plugin.destroy)

/-- The callback scheduled for one node. -/
def nodeTask (output : Option String) (node : NodeInstance) (plugin : Plugin D) (index : Nat)
    (s : Session D) : Session D × Option Error :=
  let params := nodeParams node output
  let created := plugin.create params
  if created ≠ .ok then
    (s, some ⟨created, "node create failed: " ++ node.id⟩)
  else if nodeHasOutput node.descriptor then
    match outputLayoutForNode node.descriptor node.params s.current.layout with
    | .error e => (s, some e)
    | .ok layout => processInto node plugin params index layout s
  else
    processSink node plugin params index s

/-- The nodes as the scheduler gets them, each waiting for the one before. -/
def scheduledNodes (nodes : List NodeInstance) : List ScheduledNode :=
  nodes.zipIdx.map (fun p => ⟨p.1.id, if 0 < p.2 then [p.2 - 1] else []⟩)

/-- The callbacks in the order such a chain runs them. -/
def nodeLoop (output : Option String) (plugins : Nat → Plugin D) :
    Nat → List NodeInstance → Session D → Session D × Option Error
  | _, [], s => (s, none)
  | index, node :: rest, s =>
    match nodeTask output node (plugins index) index s with
    | (s', some e) => (s', some e)
    | (s', none) => nodeLoop output plugins (index+1) rest s'

/-- A run as seen from outside: its error if it failed, the calls it made and
the buffers it kept. -/
structure Run (D : Type) where
  error : Option Error
  visits : List (Visit D) := []
  frames : List (List BufferLayout) := []

/-- The buffer the source's handle holds after `process`. -/
def suppliedBuffer (layout : BufferLayout) : Supply D → Option (Buffer D)
  | .filled steps content => some ⟨layout, steps, content⟩
  | .replaced buffer => buffer

/-- The buffers the source leaves alive. -/
def suppliedHeld (layout : BufferLayout) : Supply D → List BufferLayout
  | .replaced (some buffer) => [layout, buffer.layout]
  | _ => [layout]

/-- The source's three calls, with the frames they go through. -/
def runSource (binding : SourceBinding) (source : SourcePlugin D) (layout : BufferLayout) :
    List (List BufferLayout) × Except Error (List BufferLayout × Buffer D) :=
  let created := source.create binding.params
  if created ≠ .ok then
    ([[layout]], .error ⟨created, "source create failed: " ++ binding.pluginId⟩)
  else
    let (status, supply) := source.process binding.params layout
    let held := suppliedHeld layout supply
    ([[layout], held],
      if status ≠ .ok then
        .error ⟨status, "source process failed: " ++ binding.pluginId⟩
      else if source.destroy ≠ .ok then
        .error ⟨source.destroy, "source destroy failed: " ++ binding.pluginId⟩
      else
        match suppliedBuffer layout supply with
        | none => .error ⟨.failed, "source produced no buffer"⟩
        | some current => .ok (held, current))

/-- The binding of the only input, as `run_bound` checks for it. -/
def boundSource (p : Pipeline) : Except Error (InputPort × SourceBinding) :=
  match p.inputs.find? (fun input => !p.sources.any (fun s => s.1 == input.name)) with
  | some input => .error ⟨.failed, "source not bound for input port: " ++ input.name⟩
  | none =>
    match p.inputs with
    | [input] =>
      match p.sources.find? (fun s => s.1 == input.name) with
      | some (_, ⟨pluginId, some desc, params⟩) => .ok (input, ⟨pluginId, some desc, params⟩)
      | _ => .error ⟨.failed, "source plugin is not bound"⟩
    | _ => .error ⟨.unsupported, "only one pipeline input is supported in P1"⟩

/-- `Pipeline::run_bound`; `run` is the case without an output path. -/
def runBound (p : Pipeline) (output : Option String) (source : SourcePlugin D)
    (plugins : Nat → Plugin D) : Run D :=
  match boundSource p with
  | .error e => { error := some e }
  | .ok (input, binding) =>
    match runSource binding source input.layout with
    | (frames, .error e) => { error := some e, frames := frames }
    | (frames, .ok (held, current)) =>
      let (s, error) := nodeLoop output plugins 0 p.nodes
        { held := held, current := current, frames := frames }
      { error := error, visits := s.visits, frames := s.frames }

end Pipeline
end Cpipe.Runtime
