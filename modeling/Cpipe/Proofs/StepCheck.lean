import Cpipe.Proofs.Metadata

namespace Cpipe.Proofs.StepCheck
open Cpipe.Runtime Cpipe.Runtime.Pipeline Cpipe.Proofs.Metadata Library

variable {registry : Registry} {document : Document} {nodes : List NodeInstance}
  {edges : List GraphEdge} {sorted : List Nat} {cumulative : Nat → List String} {out : Pipeline}

/-! ### What the pass collects -/

/-- Every node stands behind all nodes with an edge to it. -/
def Sorted (edges : List GraphEdge) (sorted : List Nat) : Prop :=
  ∀ before i after, sorted = before ++ i :: after →
    ∀ d, Kahn.Edge (adjacent edges) d i → d ∈ before

theorem sortedIndices_ok (h : sortedIndices nodes edges = .ok sorted) :
    sorted = Kahn.sort nodes.length (adjacent edges) ∧ sorted.length = nodes.length := by
  unfold sortedIndices at h
  dsimp only at h
  split at h
  · cases h
  · rename_i hlen
    obtain rfl := Except.ok.inj h
    exact ⟨rfl,not_not.mp hlen⟩

theorem sorted_of_sortedIndices (hr : Kahn.InRange nodes.length (adjacent edges))
    (h : sortedIndices nodes edges = .ok sorted) : Sorted edges sorted := by
  obtain ⟨rfl,_⟩ := sortedIndices_ok h
  intro before i after hsplit d hd
  have hmem : i ∈ Kahn.sort nodes.length (adjacent edges) := by
    rw [hsplit]
    exact List.mem_append_right _ List.mem_cons_self
  have hlt := Kahn.sort_before hr hmem hd
  have hnodup := Kahn.sort_nodup hr
  rw [hsplit] at hlt hnodup
  have hi : i ∉ before := fun hi =>
    (List.nodup_append.mp hnodup).2.2 i hi i List.mem_cons_self rfl
  rw [List.idxOf_append_of_notMem hi, List.idxOf_cons_self, Nat.add_zero] at hlt
  by_contra hd'
  rw [List.idxOf_append_of_notMem hd'] at hlt
  omega

/-- A step set at or above a node that the pass has come by is in its list. -/
theorem cumulativeSteps_complete (h : Sorted edges sorted) :
    ∀ i ∈ sorted, ∀ step, SetAbove nodes edges i step →
      step ∈ cumulativeSteps nodes edges sorted i := by
  induction sorted using List.reverseRecOn with
  | nil => simp
  | append_singleton sorted index ih =>
    have hbefore : Sorted edges sorted := by
      intro before i after hsplit
      exact h before i (after ++ [index]) (by rw [hsplit]; simp)
    intro i hi step hstep
    have hlast : cumulativeSteps nodes edges (sorted ++ [index]) =
        Function.update (cumulativeSteps nodes edges sorted) index
          (ownSteps nodes edges index
            (inheritedSteps edges (cumulativeSteps nodes edges sorted) index)) := by
      rw [cumulativeSteps, List.foldl_append]
      rfl
    rw [hlast]
    by_cases hne : i = index
    · subst hne
      rw [Function.update_self, mem_ownSteps, mem_inheritedSteps]
      obtain ⟨a,ha,hsets⟩ := hstep
      -- the last edge on the way down comes from a node that is done
      rcases Relation.ReflTransGen.cases_tail ha with rfl | ⟨d,had,hd⟩
      · exact .inr hsets
      · obtain ⟨e,he,hpair⟩ := List.mem_map.mp hd
        obtain ⟨rfl,rfl⟩ := Prod.mk.inj hpair
        have hsrc := h sorted e.dst [] rfl e.src hd
        exact .inl (.inr ⟨e,he,rfl,ih hbefore e.src hsrc step ⟨a,had,hsets⟩⟩)
    · rw [Function.update_of_ne hne]
      have hi' : i ∈ sorted := by simpa [hne] using hi
      exact ih hbefore i hi' step hstep

/-- The pass computes the union over a node and all its ancestors. -/
theorem mem_cumulativeSteps (hr : Kahn.InRange nodes.length (adjacent edges))
    (h : sortedIndices nodes edges = .ok sorted) {i : Nat} (hi : i < nodes.length) {step : String} :
    step ∈ cumulativeSteps nodes edges sorted i ↔ SetAbove nodes edges i step := by
  refine ⟨cumulativeSteps_above i step,?_⟩
  refine cumulativeSteps_complete (sorted_of_sortedIndices hr h) i ?_ step
  obtain ⟨rfl,hlen⟩ := sortedIndices_ok h
  exact (Kahn.sort_perm hr hlen).mem_iff.mpr (List.mem_range.mpr hi)

/-! ### The check of an edge -/

def missingStepError (step : String) : Error :=
  ⟨.needMetadata,"metadata step required by pipeline edge is not produced: " ++ step⟩

/-- The steps the in-port of an edge asks for. -/
def required (nodes : List NodeInstance) (e : GraphEdge) : List String :=
  manifestMetadataSteps (instanceDescriptor nodes e.dst) .input e.dstPort
    Port.requiresStepsApplied

/-- The in-port of an edge asks for a step that no connected out-port at or above its
source sets. -/
def Missing (nodes : List NodeInstance) (edges : List GraphEdge) (e : GraphEdge)
    (step : String) : Prop :=
  step ∈ required nodes e ∧ ¬ SetAbove nodes edges e.src step

def RolesMatch (nodes : List NodeInstance) (e : GraphEdge) : Prop :=
  colorRolesCompatible (manifestColorRole (instanceDescriptor nodes e.src) Manifest.outputRole)
    (manifestColorRole (instanceDescriptor nodes e.dst) Manifest.inputRole) = true

/-- The step check of an edge, before its roles are looked at. -/
def stepCheck (nodes : List NodeInstance) (cumulative : Nat → List String) (e : GraphEdge) :
    Except Error Unit :=
  (required nodes e).forM (fun step =>
    if containsStep (cumulative e.src) step then .ok () else .error (missingStepError step))

def roleError (nodes : List NodeInstance) (e : GraphEdge) : Error :=
  ⟨.needMetadata,"color role mismatch on pipeline edge: " ++
    manifestColorRole (instanceDescriptor nodes e.src) Manifest.outputRole ++ " -> " ++
    manifestColorRole (instanceDescriptor nodes e.dst) Manifest.inputRole⟩

theorem checkEdge_eq (e : GraphEdge) : checkEdge nodes cumulative e =
    (stepCheck nodes cumulative e >>= fun _ =>
      if colorRolesCompatible
          (manifestColorRole (instanceDescriptor nodes e.src) Manifest.outputRole)
          (manifestColorRole (instanceDescriptor nodes e.dst) Manifest.inputRole) then .ok ()
      else .error (roleError nodes e)) := rfl

theorem containsStep_iff {steps : List String} {step : String} :
    containsStep steps step = true ↔ step ∈ steps := by
  simp [containsStep]

theorem stepCheck_ok_iff {e : GraphEdge} : stepCheck nodes cumulative e = .ok () ↔
    ∀ step ∈ required nodes e, step ∈ cumulative e.src := by
  rw [stepCheck, Checked.forM_ok_iff]
  refine forall₂_congr (fun step _ => ?_)
  rw [← containsStep_iff]
  split <;> simp_all

theorem stepCheck_error {e : GraphEdge} {err : Error}
    (h : stepCheck nodes cumulative e = .error err) :
    ∃ step ∈ required nodes e, step ∉ cumulative e.src ∧ err = missingStepError step := by
  obtain ⟨step,hmem,hstep⟩ := Checked.forM_error h
  by_cases hc : containsStep (cumulative e.src) step = true
  · rw [if_pos hc] at hstep
    cases hstep
  · rw [if_neg hc] at hstep
    exact ⟨step,hmem,fun hs => hc (containsStep_iff.mpr hs),(Except.error.inj hstep).symm⟩

theorem roleError_ne (e : GraphEdge) (step : String) :
    roleError nodes e ≠ missingStepError step := by
  intro h
  have hmessage := congrArg (fun err => err.message.toList.head?) h
  simp [roleError, missingStepError] at hmessage

theorem checkEdge_ok_iff {e : GraphEdge} : checkEdge nodes cumulative e = .ok () ↔
    (∀ step ∈ required nodes e, step ∈ cumulative e.src) ∧ RolesMatch nodes e := by
  rw [checkEdge_eq, Checked.bind_ok]
  constructor
  · rintro ⟨_,hsteps,hroles⟩
    refine ⟨stepCheck_ok_iff.mp hsteps,?_⟩
    split at hroles
    · assumption
    · cases hroles
  · rintro ⟨hsteps,hroles⟩
    exact ⟨(),stepCheck_ok_iff.mpr hsteps,if_pos hroles⟩

/-- An edge is refused for a step when one is not there. -/
theorem checkEdge_missing {e : GraphEdge} {step : String}
    (h : checkEdge nodes cumulative e = .error (missingStepError step)) :
    step ∈ required nodes e ∧ step ∉ cumulative e.src := by
  rw [checkEdge_eq] at h
  rcases Checked.bind_error.mp h with h | ⟨_,_,h⟩
  · obtain ⟨other,hmem,hnot,herr⟩ := stepCheck_error h
    have htext : step = other := by simpa [missingStepError] using herr
    rw [htext]
    exact ⟨hmem,hnot⟩
  · split at h
    · cases h
    · exact absurd (Except.error.inj h) (roleError_ne e step)

theorem checkEdge_error_of_missing {e : GraphEdge}
    (h : ∃ step ∈ required nodes e, step ∉ cumulative e.src) :
    ∃ step, checkEdge nodes cumulative e = .error (missingStepError step) := by
  cases hs : stepCheck nodes cumulative e with
  | error err =>
    obtain ⟨step,_,_,rfl⟩ := stepCheck_error hs
    exact ⟨step,by rw [checkEdge_eq, hs]; rfl⟩
  | ok _ =>
    obtain ⟨step,hmem,hnot⟩ := h
    exact absurd (stepCheck_ok_iff.mp hs step hmem) hnot

/-- When an edge lacks a step and no edge before it has roles that do not match, the first
edge to be refused is refused for a step. -/
theorem first_missing {before : List GraphEdge} {e : GraphEdge} {after : List GraphEdge}
    (hroles : ∀ f ∈ before, RolesMatch nodes f)
    (he : ∃ step ∈ required nodes e, step ∉ cumulative e.src) :
    ∃ step, (before ++ e :: after).forM (checkEdge nodes cumulative) =
      .error (missingStepError step) := by
  induction before with
  | nil =>
    obtain ⟨step,hstep⟩ := checkEdge_error_of_missing he
    exact ⟨step,Checked.forM_error_iff.mpr ⟨[],e,after,rfl,by simp,hstep⟩⟩
  | cons f before ih =>
    rw [List.cons_append]
    by_cases hf : ∃ step ∈ required nodes f, step ∉ cumulative f.src
    · obtain ⟨step,hstep⟩ := checkEdge_error_of_missing hf
      exact ⟨step,Checked.forM_error_iff.mpr ⟨[],f,_,rfl,by simp,hstep⟩⟩
    · obtain ⟨step,hstep⟩ := ih (fun g hg => hroles g (List.mem_cons_of_mem _ hg))
      have hok : checkEdge nodes cumulative f = .ok () :=
        checkEdge_ok_iff.mpr ⟨by simpa using hf,hroles f List.mem_cons_self⟩
      refine ⟨step,Checked.bind_error.mpr (.inr ⟨(),hok,hstep⟩)⟩

/-! ### The load -/

/-- No later stage reports a missing step. -/
theorem planGraph_missing {step : String} :
    planGraph registry nodes edges sorted = .error (missingStepError step) ↔
      edges.forM (checkEdge nodes (cumulativeSteps nodes edges sorted)) =
        .error (missingStepError step) := by
  constructor
  · intro h
    rcases Checked.bind_error.mp h with h | ⟨_,_,h⟩
    · exact h
    rcases Checked.bind_error.mp h with h | ⟨plan,_,h⟩
    · obtain ⟨_,e,_,he⟩ := Checked.foldlM_error _ _ h
      rcases Load.insertEdge_error he with he | he <;> cases he
    rcases Checked.bind_error.mp h with h | ⟨_,_,h⟩
    · unfold plannedOrder at h
      dsimp only at h
      repeat' split at h
      all_goals simp [missingStepError] at h
    · cases h
  · intro h
    exact Checked.bind_error.mpr (.inl h)

theorem load_missing (hschema : validatePipelineSchema document = .ok ())
    (hgraph : resolveGraph registry document = .ok (nodes,edges))
    (hsort : sortedIndices nodes edges = .ok sorted) {step : String} :
    load out registry document = .error (missingStepError step) ↔
      edges.forM (checkEdge nodes (cumulativeSteps nodes edges sorted)) =
        .error (missingStepError step) := by
  rw [← planGraph_missing]
  constructor
  · intro h
    rcases Checked.bind_error.mp h with h | ⟨_,_,h⟩
    · rw [hschema] at h
      cases h
    rcases Checked.bind_error.mp h with h | ⟨_,hg,h⟩
    · rw [hgraph] at h
      cases h
    obtain rfl := Except.ok.inj (hgraph.symm.trans hg)
    rcases Checked.bind_error.mp h with h | ⟨_,hs,h⟩
    · rw [hsort] at h
      cases h
    obtain rfl := Except.ok.inj (hsort.symm.trans hs)
    rcases Checked.bind_error.mp h with h | ⟨_,_,h⟩
    · exact h
    · dsimp only at h
      split at h <;> cases h
  · intro h
    refine Checked.bind_error.mpr (.inr ⟨(),hschema,?_⟩)
    refine Checked.bind_error.mpr (.inr ⟨_,hgraph,?_⟩)
    refine Checked.bind_error.mpr (.inr ⟨_,hsort,?_⟩)
    exact Checked.bind_error.mpr (.inl h)

/-- On a graph without cycles the pass computes, for every node, the union over the node and
its ancestors. The load reports a missing step only when an edge asks for a step that is not
set there, and does so when no edge before such an edge has roles that do not match. -/
theorem missing_step_exact (out : Pipeline) (registry : Registry) (document : Document)
    (nodes : List NodeInstance) (edges : List GraphEdge) (sorted : List Nat)
    (hschema : validatePipelineSchema document = .ok ())
    (hgraph : resolveGraph registry document = .ok (nodes,edges))
    (hsort : sortedIndices nodes edges = .ok sorted) :
    (∀ i < nodes.length, ∀ step,
      step ∈ cumulativeSteps nodes edges sorted i ↔ SetAbove nodes edges i step) ∧
    (∀ step, load out registry document = .error (missingStepError step) →
      ∃ e ∈ edges, Missing nodes edges e step) ∧
    ((∃ step, load out registry document = .error (missingStepError step)) ↔
      ∃ before e after, edges = before ++ e :: after ∧ (∀ f ∈ before, RolesMatch nodes f) ∧
        ∃ step, Missing nodes edges e step) := by
  have hr := Load.resolveGraph_inRange hgraph
  have hmem : ∀ e ∈ edges, ∀ step,
      step ∈ cumulativeSteps nodes edges sorted e.src ↔ SetAbove nodes edges e.src step :=
    fun e he step => mem_cumulativeSteps hr hsort (Load.resolveGraph_bound hgraph he).1
  simp only [load_missing hschema hgraph hsort]
  refine ⟨fun i hi step => mem_cumulativeSteps hr hsort hi,?_,?_⟩
  · intro step hstep
    obtain ⟨before,e,after,rfl,_,he⟩ := Checked.forM_error_iff.mp hstep
    obtain ⟨hrequired,hnot⟩ := checkEdge_missing he
    have hedge : e ∈ before ++ e :: after := List.mem_append_right _ List.mem_cons_self
    exact ⟨e,hedge,hrequired,fun habove => hnot ((hmem e hedge step).mpr habove)⟩
  · constructor
    · rintro ⟨step,hstep⟩
      obtain ⟨before,e,after,rfl,hbefore,he⟩ := Checked.forM_error_iff.mp hstep
      obtain ⟨hrequired,hnot⟩ := checkEdge_missing he
      have hedge : e ∈ before ++ e :: after := List.mem_append_right _ List.mem_cons_self
      refine ⟨before,e,after,rfl,fun f hf => (checkEdge_ok_iff.mp (hbefore f hf)).2,step,
        hrequired,fun habove => hnot ((hmem e hedge step).mpr habove)⟩
    · rintro ⟨before,e,after,rfl,hroles,step,hrequired,habove⟩
      have hedge : e ∈ before ++ e :: after := List.mem_append_right _ List.mem_cons_self
      exact first_missing hroles
        ⟨step,hrequired,fun hstep => habove ((hmem e hedge step).mp hstep)⟩

/-- A demosaiced image whose white balance was left out. -/
def unbalancedDocument : Document where
  id := "unbalanced"
  inputs := [⟨"raw","Image2D","R32_SFLOAT",some 4,some 4⟩]
  nodes := [⟨"demosaic","com.cpipe.demosaic.rcd",[]⟩,
    ⟨"matrix","com.cpipe.colormatrix.dng_to_working",[]⟩]
  edges := [⟨"demosaic.rgba","matrix.rgb"⟩]

def unbalancedRegistry : Registry :=
  [Nodes.demosaicRcd,Nodes.colormatrixDngToWorking]

theorem missing_step_exact_unbalanced :
    load {} unbalancedRegistry unbalancedDocument = .error (missingStepError "white_balance") ∧
    ∃ nodes edges, resolveGraph unbalancedRegistry unbalancedDocument = .ok (nodes,edges) ∧
      ∃ e ∈ edges, Missing nodes edges e "white_balance" :=
  ⟨rfl,_,_,rfl,(missing_step_exact {} unbalancedRegistry unbalancedDocument _ _ _
    rfl rfl rfl).2.1 "white_balance" rfl⟩

end Cpipe.Proofs.StepCheck
