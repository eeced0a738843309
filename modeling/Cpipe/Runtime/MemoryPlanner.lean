import Cpipe.Core.Layout
import Cpipe.Core.Manifest
import Cpipe.Library.Kahn
import Mathlib.Logic.Function.Basic

namespace Cpipe.Runtime
open Compute Library

/-- Edge of the planner's graph. The ends are the `from` and `to` of the source. -/
structure MemoryGraphEdge where
  src : Nat
  dst : Nat
  deriving DecidableEq, Repr

structure MemoryAssignment where
  bufferId : Nat
  nodeIndex : Nat
  physicalSlot : Nat
  sizeBytes : UInt64
  deriving DecidableEq, Repr

structure MemoryPlan where
  peakBytes : UInt64
  physicalSlotCount : Nat
  assignments : List MemoryAssignment
  deriving DecidableEq, Repr

namespace MemoryPlanner

def pixelCount (layout : BufferLayout) : UInt64 :=
  if layout.ndim < 2 then 0
  else (layout.dims.toList.getD 0 0).toUInt64 * (layout.dims.toList.getD 1 0).toUInt64

def outputBytesPerPixel (desc : DescPtr) : UInt64 :=
  match DescPtr.manifest desc with
  | none => 0
  | some m => m.outPixelBytes

/-- The edges the planner looks at: those with both ends in range. -/
def plannedEdges (nodeCount : Nat) (edges : List MemoryGraphEdge) : Kahn.Edges :=
  (edges.filter (fun e => e.src < nodeCount && e.dst < nodeCount)).map (fun e => (e.src,e.dst))

/-- A cyclic graph has no order, and the planner falls back to the given one. -/
def topologicalOrder (nodeCount : Nat) (edges : List MemoryGraphEdge) : List Nat :=
  let order := Kahn.sort nodeCount (plannedEdges nodeCount edges)
  if order.length = nodeCount then order else List.range nodeCount

structure LiveBuffer where
  nodeIndex : Nat := 0
  start : Nat := 0
  stop : Nat := 0
  sizeBytes : UInt64 := 0
  physicalSlot : Nat := 0
  deriving DecidableEq, Repr

abbrev InterferenceGraph := Nat → Nat → Bool

/-- Intervals are half open: a buffer that starts where another one stops does
not overlap it. -/
def overlaps (lhs rhs : LiveBuffer) : Bool :=
  decide (lhs.start < rhs.stop) && decide (rhs.start < lhs.stop)

def topologicalPositions (order : List Nat) : Nat → Nat :=
  order.zipIdx.foldl (fun positions p => Function.update positions p.1 p.2) (fun _ => 0)

def makeLiveBuffers (nodes : List DescPtr) (order : List Nat) (pixels : UInt64) :
    Nat → LiveBuffer :=
  order.zipIdx.foldl (fun buffers p => Function.update buffers p.1
    { nodeIndex := p.1, start := p.2, stop := p.2 + 1,
      sizeBytes := pixels * outputBytesPerPixel (nodes.getD p.1 none) }) (fun _ => {})

def extendLiveRanges (nodeCount : Nat) (buffers : Nat → LiveBuffer) (topoPosition : Nat → Nat)
    (edges : List MemoryGraphEdge) : Nat → LiveBuffer :=
  edges.foldl (fun buffers e =>
    if nodeCount ≤ e.src ∨ nodeCount ≤ e.dst then buffers
    else Function.update buffers e.src
      { buffers e.src with stop := max (buffers e.src).stop (topoPosition e.dst) }) buffers

/-- The matrix is filled above the diagonal and mirrored below it. -/
def buildInterferenceGraph (buffers : Nat → LiveBuffer) : InterferenceGraph := fun i j =>
  if i < j then overlaps (buffers i) (buffers j)
  else if j < i then overlaps (buffers j) (buffers i)
  else false

def slotAvailable (assigned : List LiveBuffer) (interference : InterferenceGraph)
    (current : LiveBuffer) (slot : Nat) : Bool :=
  assigned.all (fun other =>
    !(other.physicalSlot == slot && interference current.nodeIndex other.nodeIndex))

/-- One round of the colouring loop over the topological order. -/
def colorBuffer (buffers : Nat → LiveBuffer) (interference : InterferenceGraph)
    (s : List LiveBuffer × List UInt64) (node : Nat) : List LiveBuffer × List UInt64 :=
  let current := buffers node
  match (List.range (s.2.length + 1)).find? (slotAvailable s.1 interference current) with
  | none => s
  | some slot =>
    let sizes := if slot = s.2.length then s.2 ++ [current.sizeBytes]
      else s.2.modify slot (fun size => max size current.sizeBytes)
    (s.1 ++ [{ current with physicalSlot := slot }], sizes)

def colorBuffers (buffers : Nat → LiveBuffer) (order : List Nat)
    (interference : InterferenceGraph) : List LiveBuffer × List UInt64 :=
  order.foldl (colorBuffer buffers interference) ([],[])

def makePlan (inputBytes : UInt64) (slotSizes : List UInt64) (assigned : List LiveBuffer) :
    MemoryPlan where
  peakBytes := slotSizes.foldl (· + ·) inputBytes
  physicalSlotCount := slotSizes.length
  assignments := assigned.map (fun b => ⟨b.nodeIndex, b.nodeIndex, b.physicalSlot, b.sizeBytes⟩)

/-- Live buffers of a graph, with every interval extended to its last reader. -/
def liveBuffers (inputLayout : BufferLayout) (nodes : List DescPtr)
    (edges : List MemoryGraphEdge) : Nat → LiveBuffer :=
  let order := topologicalOrder nodes.length edges
  extendLiveRanges nodes.length (makeLiveBuffers nodes order (pixelCount inputLayout))
    (topologicalPositions order) edges

/-- The coloured buffers and slot sizes `plan_graph` turns into its plan. -/
def coloring (inputLayout : BufferLayout) (nodes : List DescPtr)
    (edges : List MemoryGraphEdge) : List LiveBuffer × List UInt64 :=
  let buffers := liveBuffers inputLayout nodes edges
  colorBuffers buffers (topologicalOrder nodes.length edges) (buildInterferenceGraph buffers)

def planGraph (inputLayout : BufferLayout) (nodes : List DescPtr)
    (edges : List MemoryGraphEdge) : MemoryPlan :=
  if nodes.isEmpty then
    ⟨inputLayout.sizeBytes, 0, []⟩
  else
    let colored := coloring inputLayout nodes edges
    makePlan inputLayout.sizeBytes colored.2 colored.1

/-- The linear planner: node `k` feeds node `k+1`. -/
def plan (inputLayout : BufferLayout) (nodes : List DescPtr) : MemoryPlan :=
  planGraph inputLayout nodes ((List.range (nodes.length - 1)).map (fun k => ⟨k,k+1⟩))

end MemoryPlanner
end Cpipe.Runtime
