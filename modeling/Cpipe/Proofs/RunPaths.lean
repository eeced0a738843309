import Cpipe.Cli.Run
import Cpipe.Nodes.Manifests
import Cpipe.Proofs.Run

namespace Cpipe.Proofs.RunPaths
open Cpipe.Cli Cpipe.Runtime Cpipe.Runtime.Pipeline Cpipe.Compute Cpipe.Proofs.Run

variable {D : Type} {path : String} {node : NodeInstance} {nodes : List NodeInstance}
  {plugin : Plugin D} {plugins : Nat → Plugin D} {index : Nat} {s : Session D}
  {layout : BufferLayout} {current : Buffer D}

/-! ### Nodes both paths treat alike -/

/-- A node without parameters that makes a buffer of the given layout out of one. -/
structure Plain (layout : BufferLayout) (node : NodeInstance) : Prop where
  output : nodeHasOutput node.descriptor = true
  params : node.params = []
  format : outputFormat node.descriptor node.params = .ok layout.format

theorem Plain.nodeParams (h : Plain layout node) :
    nodeParams node (some path) = nullParams := by
  simp [Pipeline.nodeParams, h.output, h.params, nullParams]

theorem Plain.outputLayout (h : Plain layout node) :
    outputLayoutForNode node.descriptor node.params layout = .ok layout := by
  rw [outputLayoutForNode, h.format]
  rfl

def statusOfResult (result : Except Error (Buffer D)) : Status :=
  match result with
  | .ok _ => .ok
  | .error e => e.status

/-- One node: the same calls, and both paths go on with the same buffer or stop. -/
theorem plain_task (h : Plain layout node) (hs : s.current.layout = layout) :
    nodeCalls (some path) node plugin index s = (fileTask layout node plugin index s.current).1 ∧
      ((∃ s' next, nodeTask (some path) node plugin index s = (s', none) ∧
          (fileTask layout node plugin index s.current).2 = .ok next ∧ s'.current = next ∧
          next.layout = layout) ∨
        ∃ s' e, nodeTask (some path) node plugin index s = (s', some e) ∧
          (fileTask layout node plugin index s.current).2 = .error e) := by
  unfold nodeCalls fileTask nodeTask
  dsimp only
  rw [h.nodeParams, hs, h.outputLayout]
  dsimp only
  by_cases hc : plugin.create nullParams = .ok
  · simp only [hc, ne_eq, not_true_eq_false, if_false, h.output, if_true, true_and]
    unfold processInto
    dsimp only
    cases hsettle : settle node
        (plugin.process nullParams (handedInputs node s.current) (some layout)).status
        plugin.destroy with
    | none => exact .inl ⟨_,_,rfl,rfl,rfl,rfl⟩
    | some e => exact .inr ⟨_,e,rfl,rfl⟩
  · simp only [hc, ne_eq, not_false_eq_true, if_true, true_and]
    exact .inr ⟨_,_,rfl,rfl⟩

theorem plain_loop (h : ∀ node ∈ nodes, Plain layout node) (hs : s.current.layout = layout) :
    loopCalls (some path) plugins index nodes s =
        (fileLoop layout plugins index nodes s.current).1 ∧
      statusOf (nodeLoop (some path) plugins index nodes s).2 =
        statusOfResult (fileLoop layout plugins index nodes s.current).2 := by
  induction nodes generalizing index s with
  | nil => exact ⟨rfl,rfl⟩
  | cons node rest ih =>
    obtain ⟨hcalls,hrest⟩ := @plain_task D path node (plugins index) index s layout
      (h node List.mem_cons_self) hs
    cases hfile : fileTask layout node (plugins index) index s.current with
    | mk calls result =>
      rw [hfile] at hcalls hrest
      dsimp only at hcalls hrest
      rw [loopCalls, nodeLoop, fileLoop, hcalls, hfile]
      rcases hrest with ⟨s',next,hgo,rfl,rfl,hlayout⟩ | ⟨s',e,hstop,rfl⟩
      · rw [hgo]
        obtain ⟨hlater,hstatus⟩ := @ih (index+1) s'
          (fun other hother => h other (List.mem_cons_of_mem node hother)) hlayout
        exact ⟨congrArg (calls ++ ·) hlater,hstatus⟩
      · rw [hstop]
        exact ⟨List.append_nil calls,rfl⟩

/-! ### Runs of both paths -/

theorem ofNode_sourceCalls (binding : SourceBinding) (source : SourcePlugin D)
    (layout : BufferLayout) : (sourceCalls binding source layout).filter Call.ofNode = [] := by
  unfold sourceCalls
  dsimp only
  split <;> rfl

theorem ofNode_nodeCalls {output : Option String} :
    ∀ c ∈ nodeCalls output node plugin index s, c.ofNode = true := by
  unfold nodeCalls
  dsimp only
  split
  · simp [Call.ofNode, Call.callee]
  · split
    · split <;> simp [fullCalls, Call.ofNode, Call.callee]
    · simp [fullCalls, Call.ofNode, Call.callee]

theorem ofNode_loopCalls {output : Option String} :
    ∀ c ∈ loopCalls output plugins index nodes s, c.ofNode = true := by
  induction nodes generalizing index s with
  | nil => exact fun _ hc => absurd hc List.not_mem_nil
  | cons node rest ih =>
    intro c hc
    rw [loopCalls] at hc
    rcases List.mem_append.mp hc with hnode | hrest
    · exact ofNode_nodeCalls c hnode
    · split at hrest
      · cases hrest
      · exact ih c hrest

/-- Behind the source the calls of a bound run are those of its loop. -/
theorem boundCalls_begun {p : Pipeline} {output : Option String} {source : SourcePlugin D}
    {held : List BufferLayout} {frames : List (List BufferLayout)}
    (h : Begun p source held current frames) :
    (boundCalls p output source plugins).filter Call.ofNode =
        loopCalls output plugins 0 p.nodes ⟨held, false, current, [], frames⟩ ∧
      (runBound p output source plugins).error =
        (nodeLoop output plugins 0 p.nodes ⟨held, false, current, [], frames⟩).2 := by
  obtain ⟨input,binding,hbound,hsource⟩ := h
  constructor
  · rw [boundCalls, hbound]
    dsimp only
    rw [hsource, List.filter_append, ofNode_sourceCalls, List.nil_append]
    exact List.filter_eq_self.mpr ofNode_loopCalls
  · simp [runBound, hbound, hsource]

/-- A run on a file that fits and can be written is the loop over the nodes. -/
theorem runFile_fits {p : Pipeline} {fill : List UInt8 → D} {bytes : List UInt8}
    (h : bytes.length = p.layout.sizeBytes.toNat) :
    (runFile p fill ⟨some bytes, true, true⟩ plugins).1 =
        (fileLoop p.layout plugins 0 p.nodes ⟨p.layout, [], fill bytes⟩).1 ∧
      statusOf (runFile p fill ⟨some bytes, true, true⟩ plugins).2 =
        statusOfResult (fileLoop p.layout plugins 0 p.nodes ⟨p.layout, [], fill bytes⟩).2 := by
  unfold runFile
  dsimp only
  rw [if_neg (not_not_intro h)]
  cases fileLoop p.layout plugins 0 p.nodes ⟨p.layout, [], fill bytes⟩ with
  | mk calls result => cases result <;> exact ⟨rfl,rfl⟩

/-! ### Agreement -/

/-- `run_file` on a file of the input's size and `run_to_file` from a source that hands
over those bytes without metadata call the nodes alike and return the same status, for
every choice of plugins. Both files are ones that can be opened and written. -/
def PathsAgree (p : Pipeline) (input : InputPort) : Prop :=
  ∀ (D : Type) (fill : List UInt8 → D) (bytes : List UInt8) (plugins : Nat → Plugin D)
    (path : String) (sources : List (String × SourceBinding)) (source : SourcePlugin D)
    (held : List BufferLayout) (frames : List (List BufferLayout)),
    bytes.length = input.layout.sizeBytes.toNat →
    Begun { p with sources := sources } source held ⟨input.layout, [], fill bytes⟩ frames →
      (boundCalls { p with sources := sources } (some path) source plugins).filter Call.ofNode =
          (runFile p fill ⟨some bytes, true, true⟩ plugins).1 ∧
        statusOf (runBound { p with sources := sources } (some path) source plugins).error =
          statusOf (runFile p fill ⟨some bytes, true, true⟩ plugins).2

/-- The command calls the nodes alike and exits alike on a file of the input's size and on a DNG
whose source hands over those bytes without metadata. -/
def CommandsAgree (p : Pipeline) (input : InputPort) : Prop :=
  ∀ (D : Type) (fill : List UInt8 → D) (bytes : List UInt8) (plugins : Nat → Plugin D)
    (raw dng output : String) (bound : Pipeline) (source : SourcePlugin D)
    (held : List BufferLayout) (frames : List (List BufferLayout)),
    hasDngExtension raw = false → hasDngExtension dng = true →
    bytes.length = input.layout.sizeBytes.toNat →
    p.setSource "raw" "com.cpipe.builtin.dng_input" [("path",.string dng)] = .ok bound →
    Begun bound source held ⟨input.layout, [], fill bytes⟩ frames →
      (Cli.run p dng output fill ⟨some bytes, true, true⟩ source plugins).1.filter Call.ofNode =
          (Cli.run p raw output fill ⟨some bytes, true, true⟩ source plugins).1 ∧
        (Cli.run p dng output fill ⟨some bytes, true, true⟩ source plugins).2 =
          (Cli.run p raw output fill ⟨some bytes, true, true⟩ source plugins).2

theorem setSource_sources {p bound : Pipeline} {port plugin : String} {params : Params}
    (h : p.setSource port plugin params = .ok bound) :
    ∃ sources, bound = { p with sources := sources } := by
  unfold setSource at h
  split at h
  · split at h
    · cases h
    · exact ⟨_,(Except.ok.inj h).symm⟩
  · cases h

theorem commands_of_paths {p : Pipeline} {input : InputPort} (h : PathsAgree p input) :
    CommandsAgree p input := by
  intro D fill bytes plugins raw dng output bound source held frames hraw hdng hbytes hbound hbegun
  obtain ⟨sources,rfl⟩ := setSource_sources hbound
  have hagree := h D fill bytes plugins output sources source held frames hbytes hbegun
  simpa [Cli.run, hraw, hdng, hbound] using hagree

theorem idle_fileTask {current : Buffer Unit} :
    fileTask layout node idle index current =
      (fullCalls (.node index) nullParams (handedInputs node current) (some layout) .ok .ok,
        .ok ⟨layout, [], ()⟩) :=
  rfl

theorem idle_sink {s : Session Unit} (hout : nodeHasOutput node.descriptor = false) :
    nodeCalls (some path) node idle index s =
      fullCalls (.node index) (nodeParams node (some path)) (handedInputs node s.current) none
        .ok .ok := by
  simp [nodeCalls, idle, hout]

theorem idle_refused {s : Session Unit} {e : Error} (hout : nodeHasOutput node.descriptor = true)
    (hl : outputLayoutForNode node.descriptor node.params s.current.layout = .error e) :
    nodeCalls (some path) node idle index s =
        [.create (.node index) (nodeParams node (some path)) .ok] ∧
      nodeTask (some path) node idle index s = (s, some e) := by
  simp [nodeCalls, nodeTask, idle, hout, hl]

theorem idle_into {s : Session Unit} {made : BufferLayout}
    (hout : nodeHasOutput node.descriptor = true)
    (hl : outputLayoutForNode node.descriptor node.params s.current.layout = .ok made) :
    nodeCalls (some path) node idle index s =
        fullCalls (.node index) node.params (handedInputs node s.current) (some made) .ok .ok ∧
      ∃ s', nodeTask (some path) node idle index s = (s', none) ∧
        s'.current = ⟨made, [], ()⟩ := by
  have hparams : nodeParams node (some path) = node.params := by
    simp [nodeParams, hout]
  constructor
  · simp [nodeCalls, idle, hout, hl, hparams]
  · simp [nodeTask, processInto, settle, idle, hout, hl]

/-- Idle plugins that are called alike on both paths belong to plain nodes. -/
theorem plain_of_loop {s : Session Unit} (hs : s.current.layout = layout)
    (h : loopCalls (some path) (fun _ => idle) index nodes s =
      (fileLoop layout (fun _ => idle) index nodes s.current).1) :
    ∀ node ∈ nodes, Plain layout node := by
  induction nodes generalizing index s with
  | nil => exact fun _ hmem => absurd hmem List.not_mem_nil
  | cons node rest ih =>
    rw [loopCalls, fileLoop, idle_fileTask] at h
    dsimp only at h
    cases hout : nodeHasOutput node.descriptor with
    | false =>
      rw [idle_sink hout] at h
      simp [fullCalls] at h
    | true =>
      cases hl : outputLayoutForNode node.descriptor node.params s.current.layout with
      | error e =>
        obtain ⟨hcalls,htask⟩ := @idle_refused path node index s e hout hl
        rw [hcalls, htask] at h
        simp [fullCalls] at h
      | ok made =>
        obtain ⟨hcalls,s',htask,hcurrent⟩ := @idle_into path node index s made hout hl
        rw [hcalls, htask] at h
        simp only [fullCalls, List.cons_append, List.nil_append, List.cons.injEq,
          Call.create.injEq, Call.process.injEq, Option.some.injEq, true_and, and_true] at h
        obtain ⟨hparams,⟨_,hmade⟩,hrest⟩ := h
        subst hmade
        obtain ⟨format,hformat,hlayout⟩ := outputLayoutForNode_ok hl
        have hplain : Plain made node := {
          output := hout
          params := hparams
          format := by rw [hformat, hlayout] }
        intro other hother
        rcases List.mem_cons.mp hother with rfl | hmem
        · exact hplain
        · exact ih (by rw [hcurrent]) (by rw [hcurrent]; exact hrest) other hmem

/-- The layout of a loaded pipeline is that of its input. -/
theorem loaded_layout {out p : Pipeline} {registry : Registry} {document : Document}
    {input : InputPort} (h : load out registry document = .ok p) (hinput : p.inputs = [input]) :
    p.layout = input.layout := by
  obtain ⟨nodes,edges,sorted,plan,order,_,_,rfl⟩ := Load.load_ok h
  have hprimary : primaryLayout (document.inputs.map inputPort) = input.layout := by
    rw [show document.inputs.map inputPort = [input] from hinput]
    rfl
  exact hprimary

theorem plain_of_agree {p : Pipeline} {input : InputPort} (hinput : p.inputs = [input])
    (hlayout : p.layout = input.layout) (h : PathsAgree p input) :
    ∀ node ∈ p.nodes, Plain input.layout node := by
  let bytes : List UInt8 := List.replicate input.layout.sizeBytes.toNat 0
  have hbytes : bytes.length = input.layout.sizeBytes.toNat := List.length_replicate
  have hbegun := begun_filler hinput [] ()
  have hcalls := (h Unit (fun _ => ()) bytes (fun _ => idle) "" _ _ _ _ hbytes hbegun).1
  rw [(boundCalls_begun hbegun).1, (runFile_fits (by rw [hlayout, hbytes])).1, hlayout] at hcalls
  exact plain_of_loop rfl hcalls

/-- The two ways of running a loaded pipeline with one input agree exactly when every
node is plain: no parameters, an output, and in the format of the input. The command takes the one
or the other by the name of its input alone. -/
theorem paths_agree_iff {out p : Pipeline} {registry : Registry} {document : Document}
    {input : InputPort} (h : load out registry document = .ok p) (hinput : p.inputs = [input]) :
    (PathsAgree p input ↔ ∀ node ∈ p.nodes, Plain input.layout node) ∧
      (PathsAgree p input → CommandsAgree p input) := by
  have hlayout := loaded_layout h hinput
  refine ⟨⟨plain_of_agree hinput hlayout,?_⟩,commands_of_paths⟩
  intro hplain D fill bytes plugins path sources source held frames hbytes hbegun
  obtain ⟨hcalls,herror⟩ := @boundCalls_begun D plugins _ _ (some path) source held frames hbegun
  obtain ⟨hfile,hstatus⟩ := @runFile_fits D plugins p fill bytes (by rw [hlayout, hbytes])
  obtain ⟨hsame,hresult⟩ := @plain_loop D path p.nodes plugins 0
    ⟨held, false, ⟨input.layout, [], fill bytes⟩, [], frames⟩ input.layout hplain rfl
  rw [hcalls, herror, hfile, hstatus, hlayout]
  exact ⟨hsame,hresult⟩

/-- Two copies in a row of an 8-bit image. -/
def copiedDocument : Document where
  id := "copied"
  inputs := [⟨"raw", "Image2D", "R8G8B8A8_UNORM", some 4, some 4⟩]
  nodes := [⟨"first", "com.cpipe.builtin.passthrough", []⟩,
    ⟨"second", "com.cpipe.builtin.passthrough", []⟩]
  edges := [⟨"first.out", "second.in"⟩]

theorem paths_agree_iff_copied :
    ∃ p input, load {} Nodes.builtinNodes copiedDocument = .ok p ∧ p.inputs = [input] ∧
      PathsAgree p input := by
  have hload : load {} Nodes.builtinNodes copiedDocument = .ok _ := rfl
  refine ⟨_,_,hload,rfl,(paths_agree_iff hload rfl).1.mpr ?_⟩
  intro node hnode
  have hcopy : node.descriptor = some Nodes.builtinPassthrough ∧ node.params = [] := by
    rcases List.mem_cons.mp hnode with rfl | hrest
    · exact ⟨rfl,rfl⟩
    · rw [List.mem_singleton.mp hrest]
      exact ⟨rfl,rfl⟩
  exact {
    output := by rw [hcopy.1]; rfl
    params := hcopy.2
    format := by rw [hcopy.1]; rfl }

/-- One display node, set to what it would do anyway. -/
def displayedDocument : Document where
  id := "displayed"
  inputs := [⟨"raw", "Image2D", "R16G16B16A16_SFLOAT", some 4, some 4⟩]
  nodes := [⟨"show", "com.cpipe.color.scene_linear_to_display", [("target", .string "sRGB")]⟩]
  edges := []

/-- Run on a file, the display node gets no target and a buffer of the input's format. -/
theorem paths_differ :
    ∃ p input, load {} Nodes.builtinNodes displayedDocument = .ok p ∧ p.inputs = [input] ∧
      ¬ PathsAgree p input := by
  refine ⟨_,_,rfl,rfl,fun h => ?_⟩
  have hplain := plain_of_agree rfl rfl h _ List.mem_cons_self
  exact absurd hplain.params (List.cons_ne_nil _ _)

end Cpipe.Proofs.RunPaths
