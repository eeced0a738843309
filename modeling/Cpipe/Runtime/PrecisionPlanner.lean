import Cpipe.Core.Manifest

namespace Cpipe.Runtime

structure PrecisionEdge where
  src : DescPtr
  srcPort : String
  dst : DescPtr
  dstPort : String

structure PrecisionGraphNode where
  id : String
  descriptor : DescPtr
  params : Params := []
  implicit : Bool := false

/-- Edge between node positions, with the port at each end. -/
structure PrecisionGraphEdge where
  src : Nat
  dst : Nat
  srcPort : String
  dstPort : String
  deriving DecidableEq, Repr

structure PrecisionPlan where
  nodes : List PrecisionGraphNode
  edges : List PrecisionGraphEdge
  insertedNodeIndices : List Nat

namespace PrecisionPlanner

def portPrecisions (desc : DescPtr) (kind : PortKind) (name : String) : List String :=
  match findPort desc kind name with
  | none => []
  | some port => port.precision

structure PortCaps where
  channels : List String := []
  precisions : List String := []
  deriving DecidableEq

def portCaps (desc : DescPtr) (kind : PortKind) (name : String) : PortCaps :=
  match findPort desc kind name with
  | none => {}
  | some port => ⟨port.channels, port.precision⟩

def formatFromCaps (caps : PortCaps) : Option String :=
  if caps.channels = ["r"] ∧ caps.precisions = ["u16"] then some "R16_UINT"
  else if caps.channels = ["r"] ∧ caps.precisions = ["f32"] then some "R32_SFLOAT"
  else if caps.channels = ["rgba"] ∧ caps.precisions = ["f16"] then some "R16G16B16A16_SFLOAT"
  else if caps.channels = ["rgba"] ∧ caps.precisions = ["u8"] then some "R8G8B8A8_UNORM"
  else if caps.channels = ["rgba"] ∧ caps.precisions = ["u16"] then some "R16G16B16A16_UNORM"
  else none

def directConversionSupported (src dst : String) : Bool :=
  (src == "R16_UINT" && dst == "R32_SFLOAT") ||
  (src == "R32_SFLOAT" && dst == "R16G16B16A16_SFLOAT") ||
  (src == "R16G16B16A16_SFLOAT" && dst == "R8G8B8A8_UNORM") ||
  (src == "R16G16B16A16_SFLOAT" && dst == "R16G16B16A16_UNORM")

/-- An empty list is no requirement: it meets every other list. -/
def intersects (lhs rhs : List String) : Bool :=
  if lhs.isEmpty || rhs.isEmpty then true
  else lhs.any (fun item => rhs.contains item)

def mismatch : Error := ⟨.badPrecision, "precision mismatch on pipeline edge"⟩

def validateEdge (e : PrecisionEdge) : Except Error Unit :=
  if intersects (portPrecisions e.src .output e.srcPort) (portPrecisions e.dst .input e.dstPort)
  then .ok () else .error mismatch

def validate (edges : List PrecisionEdge) : Except Error Unit := edges.forM validateEdge

/-- `nodes[i].descriptor`. -/
def descriptorAt (nodes : List PrecisionGraphNode) (i : Nat) : DescPtr :=
  (nodes[i]?).bind PrecisionGraphNode.descriptor

def producedCaps (nodes : List PrecisionGraphNode) (e : PrecisionGraphEdge) : PortCaps :=
  portCaps (descriptorAt nodes e.src) .output e.srcPort

def requiredCaps (nodes : List PrecisionGraphNode) (e : PrecisionGraphEdge) : PortCaps :=
  portCaps (descriptorAt nodes e.dst) .input e.dstPort

/-- The converter spliced into an edge, named after the edge and its sequence
number. -/
def convertNode (precisionConvert : PluginDesc) (e : PrecisionGraphEdge) (sequence : Nat)
    (target : String) : PrecisionGraphNode where
  id := "__precision_convert_" ++ toString e.src ++ "_" ++ toString e.dst ++ "_" ++
    toString sequence
  descriptor := some precisionConvert
  params := [("target_format", .string target)]
  implicit := true

/-- Replace an edge by the two-edge path through a new converter. -/
def splice (precisionConvert : PluginDesc) (plan : PrecisionPlan) (e : PrecisionGraphEdge)
    (target : String) : PrecisionPlan where
  nodes := plan.nodes ++
    [convertNode precisionConvert e plan.insertedNodeIndices.length target]
  edges := plan.edges ++ [⟨e.src, plan.nodes.length, e.srcPort, "in"⟩,
    ⟨plan.nodes.length, e.dst, "out", e.dstPort⟩]
  insertedNodeIndices := plan.insertedNodeIndices ++ [plan.nodes.length]

/-- One round of the planning loop. The caps are always read from the original
nodes. -/
def insertEdge (nodes : List PrecisionGraphNode) (precisionConvert : DescPtr)
    (plan : PrecisionPlan) (e : PrecisionGraphEdge) : Except Error PrecisionPlan :=
  if nodes.length ≤ e.src ∨ nodes.length ≤ e.dst then
    .error ⟨.badIndex, "precision edge index out of range"⟩
  else
    let produced := producedCaps nodes e
    let required := requiredCaps nodes e
    if intersects produced.precisions required.precisions then
      .ok { plan with edges := plan.edges ++ [e] }
    else
      match formatFromCaps produced, formatFromCaps required with
      | some src, some dst =>
        if directConversionSupported src dst then
          match precisionConvert with
          | none => .error ⟨.badPrecision, "precision_convert node unavailable"⟩
          | some desc => .ok (splice desc plan e dst)
        else .error mismatch
      | _, _ => .error mismatch

def autoInsert (nodes : List PrecisionGraphNode) (edges : List PrecisionGraphEdge)
    (precisionConvert : DescPtr) : Except Error PrecisionPlan :=
  edges.foldlM (insertEdge nodes precisionConvert) ⟨nodes, [], []⟩

end PrecisionPlanner
end Cpipe.Runtime
