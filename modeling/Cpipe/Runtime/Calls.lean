import Cpipe.Runtime.Run

namespace Cpipe.Runtime
open Compute

variable {D : Type}

/-! ### The calls of a run -/

/-- Whose plugin is called: that of the source or of the node at a position. -/
inductive Callee
  | source
  | node (index : Nat)
  deriving DecidableEq, Repr

/-- One call of `main_entry` with what it is handed and the status it returns. The
parameters are those that can be read through the handle. -/
inductive Call (D : Type)
  | create (callee : Callee) (params : Params) (status : Status)
  | process (callee : Callee) (params : Params) (inputs : List (Buffer D))
      (output : Option BufferLayout) (status : Status)
  | destroy (callee : Callee) (status : Status)

def Call.callee : Call D → Callee
  | .create callee _ _ => callee
  | .process callee _ _ _ _ => callee
  | .destroy callee _ => callee

def Call.ofNode (c : Call D) : Bool := c.callee != .source

namespace Pipeline

/-- The calls of an instance that is created and given something to process. -/
def fullCalls (callee : Callee) (params : Params) (inputs : List (Buffer D))
    (output : Option BufferLayout) (processed destroyed : Status) : List (Call D) :=
  [.create callee params .ok, .process callee params inputs output processed,
    .destroy callee destroyed]

/-! ### Calls of `run_bound` -/

def sourceCalls (binding : SourceBinding) (source : SourcePlugin D) (layout : BufferLayout) :
    List (Call D) :=
  let created := source.create binding.params
  if created ≠ .ok then
    [.create .source binding.params created]
  else
    fullCalls .source binding.params [] (some layout) (source.process binding.params layout).1
      source.destroy

/-- The calls of the callback scheduled for one node. -/
def nodeCalls (output : Option String) (node : NodeInstance) (plugin : Plugin D) (index : Nat)
    (s : Session D) : List (Call D) :=
  let params := nodeParams node output
  let inputs := handedInputs node s.current
  let created := plugin.create params
  if created ≠ .ok then
    [.create (.node index) params created]
  else if nodeHasOutput node.descriptor then
    match outputLayoutForNode node.descriptor node.params s.current.layout with
    | .error _ => [.create (.node index) params .ok]
    | .ok layout =>
      fullCalls (.node index) params inputs (some layout)
        (plugin.process params inputs (some layout)).status plugin.destroy
  else
    fullCalls (.node index) params inputs none (plugin.process params inputs none).status
      plugin.destroy

def loopCalls (output : Option String) (plugins : Nat → Plugin D) :
    Nat → List NodeInstance → Session D → List (Call D)
  | _, [], _ => []
  | index, node :: rest, s =>
    nodeCalls output node (plugins index) index s ++
      match nodeTask output node (plugins index) index s with
      | (_, some _) => []
      | (s', none) => loopCalls output plugins (index+1) rest s'

def boundCalls (p : Pipeline) (output : Option String) (source : SourcePlugin D)
    (plugins : Nat → Plugin D) : List (Call D) :=
  match boundSource p with
  | .error _ => []
  | .ok (input, binding) =>
    sourceCalls binding source input.layout ++
      match runSource binding source input.layout with
      | (_, .error _) => []
      | (frames, .ok (held, current)) =>
        loopCalls output plugins 0 p.nodes { held := held, current := current, frames := frames }

/-! ### `run_file` -/

/-- What the two files of `run_file` are good for: the input's bytes if it opens, and
whether the output opens and takes what is written. -/
structure Files where
  input : Option (List UInt8)
  outputOpens : Bool := true
  outputWrites : Bool := true

/-- Nothing can be read through the null handle that `run_file` passes. -/
def nullParams : Params := []

/-- One round of the loop over the nodes: every node gets a buffer of the pipeline's
own layout to fill. -/
def fileTask (layout : BufferLayout) (node : NodeInstance) (plugin : Plugin D) (index : Nat)
    (current : Buffer D) : List (Call D) × Except Error (Buffer D) :=
  let created := plugin.create nullParams
  if created ≠ .ok then
    ([.create (.node index) nullParams created],
      .error ⟨created, "node create failed: " ++ node.id⟩)
  else
    let inputs := handedInputs node current
    let reply := plugin.process nullParams inputs (some layout)
    (fullCalls (.node index) nullParams inputs (some layout) reply.status plugin.destroy,
      match settle node reply.status plugin.destroy with
      | some e => .error e
      | none => .ok ⟨layout, reply.appliedSteps, reply.content⟩)

def fileLoop (layout : BufferLayout) (plugins : Nat → Plugin D) :
    Nat → List NodeInstance → Buffer D → List (Call D) × Except Error (Buffer D)
  | _, [], current => ([], .ok current)
  | index, node :: rest, current =>
    match fileTask layout node (plugins index) index current with
    | (calls, .error e) => (calls, .error e)
    | (calls, .ok next) =>
      let (later, result) := fileLoop layout plugins (index+1) rest next
      (calls ++ later, result)

/-- The calls of `run_file` and its error if it failed. `fill` is a buffer's content
after the bytes of the file are copied into it. -/
def runFile (p : Pipeline) (fill : List UInt8 → D) (files : Files) (plugins : Nat → Plugin D) :
    List (Call D) × Option Error :=
  match files.input with
  | none => ([], some ⟨.failed, "failed to open input file"⟩)
  | some bytes =>
    if bytes.length ≠ p.layout.sizeBytes.toNat then
      ([], some ⟨.failed, "input size does not match pipeline layout"⟩)
    else
      match fileLoop p.layout plugins 0 p.nodes ⟨p.layout, [], fill bytes⟩ with
      | (calls, .error e) => (calls, some e)
      | (calls, .ok _) =>
        if !files.outputOpens then
          (calls, some ⟨.failed, "failed to open output file"⟩)
        else if !files.outputWrites then
          (calls, some ⟨.failed, "failed to write output file"⟩)
        else
          (calls, none)

end Pipeline
end Cpipe.Runtime
