import Cpipe.Nodes.Process
import Cpipe.Runtime.Calls

namespace Cpipe.Runtime
open Compute Nodes.Process

variable {D : Type}

/-- The buffers of a run: the one made before any node runs, those the DNG reader makes,
and those made for the nodes. -/
inductive BufferId
  | given
  | decoded (callee : Callee)
  | made (index : Nat)
  deriving DecidableEq, Repr

namespace Pipeline

def dngInputId : String := "com.cpipe.builtin.dng_input"

/-- The id of the plugin that is called. -/
def pluginIdOf (p : Pipeline) : Callee → String
  | .source =>
    match boundSource p with
    | .ok (_, binding) => (binding.descriptor.map PluginDesc.nodeId).getD ""
    | .error _ => ""
  | .node index => ((instanceDescriptor p.nodes index).map PluginDesc.nodeId).getD ""

def outputId : Callee → BufferId
  | .source => .given
  | .node index => .made index

/-- A call of `process` as the locks see it: every input handle holds the current buffer. -/
def request (choices : Callee → Choice) (current : BufferId) (callee : Callee) (params : Params)
    (inputs : List (Buffer D)) (output : Option BufferLayout) : Request BufferId where
  params := params
  inputs := inputs.map (fun input => ⟨current, input.layout⟩)
  outputs := output.toList.map (fun layout => ⟨outputId callee, layout⟩)
  own := .decoded callee
  choice := choices callee

/-- The current buffer after a call that went well. -/
def handOver (p : Pipeline) (current : BufferId) (callee : Callee)
    (output : Option BufferLayout) : BufferId :=
  match callee with
  | .source => if pluginIdOf p .source = dngInputId then .decoded .source else .given
  | .node index => if output.isSome then .made index else current

/-- The locks the calls take and release, and the current buffer after them. -/
def locksOf (p : Pipeline) (choices : Callee → Choice) :
    BufferId → List (Call D) → List (LockCall BufferId) × BufferId
  | current, [] => ([], current)
  | current, .process callee params inputs output _ :: calls =>
    let later := locksOf p choices (handOver p current callee output) calls
    (process (pluginIdOf p callee) (request choices current callee params inputs output) ++
      later.1, later.2)
  | current, _ :: calls => locksOf p choices current calls

def boundLocks (p : Pipeline) (output : Option String) (source : SourcePlugin D)
    (plugins : Nat → Plugin D) (choices : Callee → Choice) : List (LockCall BufferId) :=
  (locksOf p choices .given (boundCalls p output source plugins)).1

/-- `run_file` itself locks the first buffer to fill it and the last one to write it out. -/
def fileLocks (p : Pipeline) (fill : List UInt8 → D) (files : Files) (plugins : Nat → Plugin D)
    (choices : Callee → Choice) : List (LockCall BufferId) :=
  match files.input with
  | none => []
  | some bytes =>
    if bytes.length ≠ p.layout.sizeBytes.toNat then []
    else
      let (calls, result) := fileLoop p.layout plugins 0 p.nodes ⟨p.layout, [], fill bytes⟩
      let (locks, last) := locksOf p choices .given calls
      [.lockCpu .given, .unlockCpu .given] ++ locks ++
        match result with
        | .ok _ => if files.outputOpens then [.lockCpu last, .unlockCpu last] else []
        | .error _ => []

end Pipeline
end Cpipe.Runtime
