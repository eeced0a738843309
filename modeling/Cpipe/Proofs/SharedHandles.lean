import Cpipe.Proofs.BufferLocks

namespace Cpipe.Proofs.SharedHandles
open Cpipe.Runtime Cpipe.Runtime.Pipeline Cpipe.Nodes.Process Cpipe.Compute
open Cpipe.Proofs.ProcessLocks Cpipe.Proofs.BufferLocks Cpipe.Proofs.Run
open Library.Ledger (about allow)
open Library.Trace (run)

variable {D : Type} {p : Pipeline} {choices : Callee → Choice} {index : Nat}
  {node : NodeInstance} {desc : PluginDesc}

/-! ### Three handles on one buffer -/

/-- A call of the node with three in-ports as both kinds of run make it. -/
def Stacked (p : Pipeline) : Call D → Prop
  | .process callee _ inputs output _ => pluginIdOf p callee = mertensLocalId → inputs = [] ∨
      ∃ cur layout, inputs = List.replicate 3 cur ∧ output = some layout ∧
        layout = { cur.layout with format := layout.format } ∧
        (cur.layout.format = .r16g16b16a16Sfloat → layout.format = .r16g16b16a16Sfloat)
  | _ => True

theorem locksOf_call (p : Pipeline) (choices : Callee → Choice) (current : BufferId)
    {callee : Callee} {params : Params} {inputs : List (Buffer D)} {output : Option BufferLayout}
    {status : Status} {calls : List (Call D)}
    (h : .process callee params inputs output status ∈ calls) :
    ∃ before cur later, (locksOf p choices current calls).1 = before ++
      (process (pluginIdOf p callee) (request choices cur callee params inputs output) ++
        later) := by
  induction calls generalizing current with
  | nil => cases h
  | cons call calls ih =>
    rcases List.mem_cons.mp h with rfl | hrest
    · exact ⟨[],current,_,rfl⟩
    · cases call with
      | create => exact ih current hrest
      | destroy => exact ih current hrest
      | process callee' params' inputs' output' status' =>
        obtain ⟨before,cur,later,hlocks⟩ := ih (handOver p current callee' output') hrest
        refine ⟨process (pluginIdOf p callee') (request choices current callee' params' inputs'
          output') ++ before,cur,later,?_⟩
        rw [locksOf, hlocks, List.append_assoc]

/-- Such a call on a buffer it submits locks it twice. -/
theorem clash_not_kept (choices : Callee → Choice) (current : BufferId) {calls : List (Call D)}
    {call : Call D} (hmem : call ∈ calls)
    (hc : Clashes p call) (hs : Stacked p call) (before later : List (LockCall BufferId)) :
    ¬ Kept (before ++ ((locksOf p choices current calls).1 ++ later)) := by
  cases call with
  | create => cases hc
  | destroy => cases hc
  | process callee params inputs output status =>
    obtain ⟨hid,input,hinput,hf⟩ := hc
    rcases hs hid with rfl | ⟨cur,layout,rfl,rfl,hlayout,hformat⟩
    · cases hinput
    · obtain rfl := List.eq_of_mem_replicate hinput
      obtain ⟨first,b,rest,hlocks⟩ := locksOf_call p choices current hmem
      have hprocess : ∀ r : Request BufferId, process mertensLocalId r = toneMertensLocal r :=
        fun _ => rfl
      obtain ⟨more,hmore⟩ := toneMertensLocal_twice
        (request choices b callee params (List.replicate 3 input) (some layout))
        ⟨b,input.layout⟩ ⟨outputId callee,layout⟩ rfl rfl hf (hformat hf)
        (by rw [Ref.dims, Ref.dims, hlayout])
      have hlog : before ++ ((locksOf p choices current calls).1 ++ later) =
          (before ++ first) ++ .lockCpu b :: .lockCpu b :: (more ++ (rest ++ later)) := by
        rw [hlocks, hid, hprocess, hmore]
        simp [Ref.lockCpu]
      rw [hlog]
      exact not_kept_twice _ _ b

/-! ### Every run -/

section Runs
variable {output : Option String} {plugins : Nat → Plugin D} {nodes : List NodeInstance}
  {s : Session D}

/-- What an accepted pipeline's call of that node looks like. -/
theorem placed_stacked (h : Placed p index node desc) {params : Params} {cur : Buffer D}
    {made : Option BufferLayout} {status : Status}
    (hsink : made = none → nodeHasOutput node.descriptor = false)
    (hsame : ∀ layout, made = some layout → layout = { cur.layout with format := layout.format })
    (hformat : node.descriptor = some Nodes.toneMertensLocal → ∀ layout, made = some layout →
      cur.layout.format = .r16g16b16a16Sfloat → layout.format = .r16g16b16a16Sfloat) :
    Stacked p (.process (.node index) params (handedInputs node cur) made status) := by
  intro hid
  have hdesc := h.mertens hid
  cases made with
  | none =>
    have hnone := hsink rfl
    rw [hdesc] at hnone
    cases hnone
  | some layout =>
    refine .inr ⟨cur,layout,?_,rfl,hsame layout rfl,hformat hdesc layout rfl⟩
    rw [handedInputs, hdesc]
    rfl

theorem fullCalls_stacked {callee : Callee} {params : Params} {inputs : List (Buffer D)}
    {made : Option BufferLayout} {processed destroyed : Status}
    (h : Stacked p (.process callee params inputs made processed)) :
    ∀ call ∈ fullCalls callee params inputs made processed destroyed, Stacked p call := by
  simp only [fullCalls, List.mem_cons, List.not_mem_nil, or_false]
  rintro call (rfl | rfl | rfl)
  · trivial
  · exact h
  · trivial

variable (hbuiltin : ∀ i node, p.nodes[i]? = some node → ∃ desc, Placed p i node desc)
include hbuiltin

theorem loop_stacked (hat : ∀ (j : Nat), nodes[j]? = p.nodes[index+j]?) :
    ∀ call ∈ loopCalls output plugins index nodes s, Stacked p call := by
  induction nodes generalizing index s with
  | nil => simp [loopCalls]
  | cons node rest ih =>
    obtain ⟨desc,hplaced⟩ := hbuiltin index node (hat 0).symm
    intro call hmem
    rw [loopCalls] at hmem
    rcases List.mem_append.mp hmem with hmem | hmem
    · rcases nodeCalls_cases output node (plugins index) index s with
        ⟨params,status,s',e,hcalls,ht⟩ | ⟨params,made,processed,destroyed,hfull⟩
      · rw [hcalls, List.mem_singleton] at hmem
        subst hmem
        trivial
      · rw [hfull.calls] at hmem
        refine fullCalls_stacked (placed_stacked hplaced hfull.sink ?_ ?_) call hmem
        · intro layout hl
          exact outputLayout_format (hfull.layout layout hl)
        · intro hdesc layout hl _
          have hlayout := hfull.layout layout hl
          rw [hdesc] at hlayout
          obtain ⟨format,hf,rfl⟩ := outputLayoutForNode_ok hlayout
          rw [Formats.outputFormat_plain (by decide) node.params] at hf
          exact (Except.ok.inj hf).symm
    · cases ht : nodeTask output node (plugins index) index s with
      | mk s' err =>
        rw [ht] at hmem
        cases err with
        | some e => cases hmem
        | none => exact ih (rest_at hat) call hmem

theorem bound_stacked (source : SourcePlugin D) :
    ∀ call ∈ boundCalls p output source plugins, Stacked p call := by
  intro call hmem
  unfold boundCalls at hmem
  cases hbound : boundSource p with
  | error e =>
    rw [hbound] at hmem
    cases hmem
  | ok bound =>
    obtain ⟨input,binding⟩ := bound
    rw [hbound] at hmem
    rcases List.mem_append.mp hmem with hmem | hmem
    · unfold sourceCalls at hmem
      dsimp only at hmem
      split at hmem
      · rw [List.mem_singleton] at hmem
        subst hmem
        trivial
      · exact fullCalls_stacked (fun _ => .inl rfl) call hmem
    · cases hsource : runSource binding source input.layout with
      | mk frames result =>
        rw [hsource] at hmem
        cases result with
        | error e => cases hmem
        | ok start => exact loop_stacked hbuiltin (by simp) call hmem

theorem file_stacked {layout : BufferLayout} {cur : Buffer D} (hcur : cur.layout = layout)
    (hat : ∀ (j : Nat), nodes[j]? = p.nodes[index+j]?) :
    ∀ call ∈ (fileLoop layout plugins index nodes cur).1, Stacked p call := by
  induction nodes generalizing index cur with
  | nil => simp [fileLoop]
  | cons node rest ih =>
    subst hcur
    obtain ⟨desc,hplaced⟩ := hbuiltin index node (hat 0).symm
    have hcall : ∀ status, Stacked p (.process (.node index) nullParams (handedInputs node cur)
        (some cur.layout) status) := by
      intro status
      apply placed_stacked hplaced
      · simp
      · intro layout hl
        cases hl
        rfl
      · intro _ layout hl hf
        cases hl
        exact hf
    intro call hmem
    rcases fileLoop_cases cur.layout plugins index node rest cur with
      ⟨status,e,hloop⟩ | ⟨processed,destroyed,⟨e,hloop⟩ | ⟨next,hnext,hloop⟩⟩
    · rw [hloop, List.mem_singleton] at hmem
      subst hmem
      trivial
    · rw [hloop] at hmem
      exact fullCalls_stacked (hcall processed) call hmem
    · rw [hloop] at hmem
      rcases List.mem_append.mp hmem with hmem | hmem
      · exact fullCalls_stacked (hcall processed) call hmem
      · exact ih hnext (rest_at hat) call hmem

theorem bound_clash {source : SourcePlugin D} {call : Call D}
    (hmem : call ∈ boundCalls p output source plugins) (hc : Clashes p call) :
    ¬ Kept (boundLocks p output source plugins choices) := by
  have h := clash_not_kept choices .given hmem hc
    (bound_stacked hbuiltin source call hmem) [] []
  rwa [List.nil_append, List.append_nil] at h

theorem file_clash {fill : List UInt8 → D} {files : Files} {call : Call D}
    (hmem : call ∈ (runFile p fill files plugins).1) (hc : Clashes p call) :
    ¬ Kept (fileLocks p fill files plugins choices) := by
  rcases file_split p fill files plugins choices with ⟨hnone,_⟩ | ⟨first,hfirst,hcalls,hlocks⟩
  · rw [hnone] at hmem
    cases hmem
  · rw [hcalls] at hmem
    rw [hlocks]
    have hstacked := file_stacked hbuiltin hfirst (by simp) call hmem
    exact clash_not_kept choices .given hmem hc hstacked _ _

end Runs

/-- The nodes and inputs of an accepted pipeline. -/
theorem load_placed {out pl : Pipeline} {document : Document}
    (h : load out Nodes.builtinNodes document = .ok pl)
    (sources : List (String × SourceBinding)) :
    (∀ i node, pl.nodes[i]? = some node →
      ∃ desc, Placed { pl with sources := sources } i node desc) ∧
    ∀ input ∈ pl.inputs, IsImageLayout input.layout := by
  obtain ⟨nodes,edges,sorted,plan,order,hs,_,rfl⟩ := Load.load_ok h
  constructor
  · intro i node hi
    obtain ⟨j,n,_,hj,rfl⟩ := Graph.stored_node hs.planned hi
    obtain ⟨desc,hmem,hdesc⟩ := (Formats.stages_origin hs n (List.mem_of_getElem? hj)).builtin
    exact ⟨desc,hi,hdesc,hmem⟩
  · intro input hmem
    obtain ⟨json,_,rfl⟩ := List.mem_map.mp hmem
    exact ⟨_,_,_,rfl⟩

/-- In the runs of an accepted pipeline the locks are kept unless the node with three
in-ports is handed a buffer it submits, and then they are not. The one other call that
leaves a buffer locked is that of a sink on an image whose size wraps to zero. -/
theorem locks_kept (out : Pipeline) (document : Document) (pl : Pipeline)
    (h : load out Nodes.builtinNodes document = .ok pl) :
    (∀ (D : Type) (output : Option String) (source : SourcePlugin D)
      (sources : List (String × SourceBinding)) (plugins : Nat → Plugin D)
      (choices : Callee → Choice), FromRepository source →
      ((∀ call ∈ boundCalls { pl with sources := sources } output source plugins,
          ¬ Clashes { pl with sources := sources } call ∧
          ¬ Wraps { pl with sources := sources } call) →
        Kept (boundLocks { pl with sources := sources } output source plugins choices)) ∧
      ((∃ call ∈ boundCalls { pl with sources := sources } output source plugins,
          Clashes { pl with sources := sources } call) →
        ¬ Kept (boundLocks { pl with sources := sources } output source plugins choices))) ∧
    ∀ (D : Type) (fill : List UInt8 → D) (files : Files) (plugins : Nat → Plugin D)
      (choices : Callee → Choice),
      Kept (fileLocks pl fill files plugins choices) ↔
        ∀ call ∈ (runFile pl fill files plugins).1, ¬ Clashes pl call := by
  constructor
  · intro D output source sources plugins choices hs
    obtain ⟨hbuiltin,hinputs⟩ := load_placed h sources
    constructor
    · exact bound_kept hs hbuiltin hinputs
    · rintro ⟨call,hmem,hc⟩
      exact bound_clash hbuiltin hmem hc
  · intro D fill files plugins choices
    obtain ⟨hbuiltin,_⟩ := load_placed h pl.sources
    constructor
    · intro hkept call hmem hc
      exact file_clash hbuiltin hmem hc hkept
    · exact file_kept

/-! ### Two documents -/

/-- A source that decodes a small image. -/
def decodedSource : SourcePlugin Unit :=
  supplier (fun _ => .replaced (some ⟨Ingest.DngReader.rawLayout ⟨4, 4, 0, 32⟩, [], ()⟩))

theorem decodedSource_fromRepository : FromRepository decodedSource := by
  intro params layout status buffer hp
  cases hp
  exact ⟨_,rfl⟩

/-- The first two steps of a development. -/
def scaledDocument : Document where
  id := "scaled"
  inputs := [⟨"raw", "Image2D", "R16_UINT", some 4, some 4⟩]
  nodes := [⟨"lut", "com.cpipe.linearize.dng_lut", []⟩,
    ⟨"levels", "com.cpipe.blacklevel.dng_levels", []⟩]
  edges := [⟨"lut.bayer", "levels.bayer"⟩]

theorem locks_kept_scaled :
    ∃ loaded bound, load {} Nodes.builtinNodes scaledDocument = .ok loaded ∧
      setSource loaded "raw" "com.cpipe.builtin.dng_input" [] = .ok bound ∧
      (boundLocks bound none decodedSource (fun _ => idle) (fun _ => .work)).length = 10 ∧
      Kept (boundLocks bound none decodedSource (fun _ => idle) (fun _ => .work)) := by
  have hload : load {} Nodes.builtinNodes scaledDocument = .ok _ := rfl
  refine ⟨_,_,hload,rfl,by decide +kernel,?_⟩
  exact ((locks_kept {} scaledDocument _ hload).1 Unit none decodedSource _ (fun _ => idle)
    (fun _ => .work) decodedSource_fromRepository).1 (by decide +kernel)

/-- A development that fuses three exposures, all taken from the denoised image. -/
def fusedDocument : Document where
  id := "fused"
  inputs := [⟨"raw", "Image2D", "R16_UINT", some 4, some 4⟩]
  nodes := [⟨"lut", "com.cpipe.linearize.dng_lut", []⟩,
    ⟨"levels", "com.cpipe.blacklevel.dng_levels", []⟩,
    ⟨"demosaic", "com.cpipe.demosaic.bilinear", []⟩,
    ⟨"wb", "com.cpipe.wb.dual_illuminant", []⟩,
    ⟨"matrix", "com.cpipe.colormatrix.dng_to_working", []⟩,
    ⟨"denoise", "com.cpipe.denoise.wavelet_bayes_shrink", []⟩,
    ⟨"fuse", "com.cpipe.tone.mertens_local", []⟩]
  edges := [⟨"lut.bayer", "levels.bayer"⟩, ⟨"levels.bayer", "demosaic.bayer"⟩,
    ⟨"demosaic.rgba", "wb.rgb"⟩, ⟨"wb.rgb", "matrix.rgb"⟩, ⟨"matrix.rgb", "denoise.rgb"⟩,
    ⟨"denoise.rgb", "fuse.under"⟩, ⟨"denoise.rgb", "fuse.normal"⟩, ⟨"denoise.rgb", "fuse.over"⟩]

/-- A run of idle plugins locks or unlocks this buffer out of turn. -/
def outOfTurn (document : Document) (b : BufferId) : Bool :=
  match load {} Nodes.builtinNodes document with
  | .error _ => false
  | .ok loaded =>
    match setSource loaded "raw" "com.cpipe.builtin.dng_input" [] with
    | .error _ => false
    | .ok bound => (run allow false (about b ((boundLocks bound none decodedSource (fun _ => idle)
        (fun _ => .work)).map act))).isNone

/-- The fusing node locks the denoised image three times. -/
theorem fused_locked_again :
    ∃ loaded bound, load {} Nodes.builtinNodes fusedDocument = .ok loaded ∧
      setSource loaded "raw" "com.cpipe.builtin.dng_input" [] = .ok bound ∧
      ¬ Kept (boundLocks bound none decodedSource (fun _ => idle) (fun _ => .work)) := by
  have h : outOfTurn fusedDocument (.made 5) = true := by decide +kernel
  unfold outOfTurn at h
  cases hload : load {} Nodes.builtinNodes fusedDocument with
  | error e =>
    rw [hload] at h
    cases h
  | ok loaded =>
    rw [hload] at h
    dsimp only at h
    cases hbound : setSource loaded "raw" "com.cpipe.builtin.dng_input" [] with
    | error e =>
      rw [hbound] at h
      cases h
    | ok bound =>
      rw [hbound] at h
      refine ⟨loaded,bound,rfl,hbound,fun hkept => ?_⟩
      obtain ⟨state,hstate⟩ := hkept (.made 5)
      dsimp only at h
      rw [hstate] at h
      cases h

end Cpipe.Proofs.SharedHandles
