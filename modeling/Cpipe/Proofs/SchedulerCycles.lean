import Cpipe.Proofs.Scheduler

namespace Cpipe.Proofs.SchedulerCycles
open Cpipe.Runtime Cpipe.Runtime.Scheduler Cpipe.Proofs.Scheduler Library

variable {nodes : List ScheduledNode} {phase : Nat → Phase} {first status : Status}
  {log : List Event} {s t : State} {outcome : Nat → Status} {i : Nat}

/-- A dependency names no node of the list. -/
def OutOfRange (nodes : List ScheduledNode) : Prop :=
  ∃ node ∈ nodes, ∃ d ∈ node.dependencies, nodes.length ≤ d

def Cyclic (nodes : List ScheduledNode) : Prop :=
  ∃ i, Relation.TransGen (Dependency nodes) i i

/-- The node stands on a cycle or depends on one. -/
def Behind (nodes : List ScheduledNode) (i : Nat) : Prop :=
  ∃ c, Relation.TransGen (Dependency nodes) c c ∧ Relation.ReflTransGen (Dependency nodes) c i

/-- Node `i` answers a call with `outcome i`. -/
def Answers (outcome : Nat → Status) (log : List Event) : Prop :=
  ∀ i status, .returned i status ∈ log → status = outcome i

/-! ### What stands behind a cycle waits -/

theorem Behind.pred (h : Behind nodes i) : ∃ d, Dependency nodes d i ∧ Behind nodes d := by
  obtain ⟨c,hc,hci⟩ := h
  rcases Relation.ReflTransGen.cases_tail hci with rfl | ⟨d,hcd,hd⟩
  · obtain ⟨d,hcd,hd⟩ := Relation.TransGen.tail'_iff.mp hc
    exact ⟨d,hd,i,hc,hcd⟩
  · exact ⟨d,hd,c,hc,hcd⟩

/-- No task behind a cycle leaves its place. -/
def Blocked (nodes : List ScheduledNode) (s : State) : Prop :=
  ∀ phase, s.control = .tasks phase → ∀ i, Behind nodes i → phase i = .waiting

theorem not_ready (h : ∀ i, Behind nodes i → phase i = .waiting) (hi : Behind nodes i) :
    ¬ ready nodes phase i := by
  intro hr
  obtain ⟨d,hd,hb⟩ := hi.pred
  have hfinished := hr.2.2 d (edge_precedence.mpr hd)
  simp [h d hb, Phase.isFinished] at hfinished

theorem waiting_update {p : Phase} (h : ∀ i, Behind nodes i → phase i = .waiting)
    (hi : ¬ Behind nodes i) : ∀ j, Behind nodes j → Function.update phase i p j = .waiting := by
  intro j hj
  have hne : j ≠ i := fun hji => hi (hji ▸ hj)
  simpa [hne] using h j hj

theorem step_blocked (h : Blocked nodes s) (hs : Step nodes s t) : Blocked nodes t := by
  have hmoved : ∀ {phase : Nat → Phase} {i : Nat}, (∀ i, Behind nodes i → phase i = .waiting) →
      phase i ≠ .waiting → ¬ Behind nodes i := fun h hw hb => hw (h _ hb)
  intro phase' hphase
  cases hs with
  | exit | dispatch | pass | abort | join => cases hphase
  | skip hr _ | enter hr =>
    obtain rfl := Control.tasks.inj hphase
    exact waiting_update (h _ rfl) (fun hb => not_ready (h _ rfl) hb hr)
  | call hp | reply hp | finish hp | record hp =>
    obtain rfl := Control.tasks.inj hphase
    exact waiting_update (h _ rfl) (hmoved (h _ rfl) (by simp [hp]))

/-! ### Runs of a list with dependencies -/

structure Waits (nodes : List ScheduledNode) (phase : Nat → Phase) (first : Status)
    (log : List Event) : Prop where
  tasks : Tasks nodes phase first log
  blocked : ∀ i, Behind nodes i → phase i = .waiting

/-- What the executor leaves behind when it completes a run. -/
structure Drained (nodes : List ScheduledNode) (phase : Nat → Phase) (first : Status)
    (log : List Event) : Prop extends Waits nodes phase first log where
  idle : ∀ i < nodes.length, phase i = .waiting ∨ (phase i).isFinished = true
  noReady : ∀ i, ¬ ready nodes phase i

/-- The invariant of `Scheduler::run` on a list with dependencies, cyclic or not. -/
def RunInv (nodes : List ScheduledNode) (s : State) : Prop :=
  match s.control with
  | .tasks phase => Waits nodes phase s.firstStatus s.log
  | .done status => ∃ phase, Drained nodes phase status s.log
  | _ => False

theorem tasks_step_inv (h : Waits nodes phase first log)
    (hs : Step nodes ⟨.tasks phase,first,log⟩ t) (ht : t.control = .tasks phase') :
    RunInv nodes t := by
  have hinv := step_inv (s := ⟨.tasks phase,first,log⟩) h.tasks hs
  have hblocked : Blocked nodes ⟨.tasks phase,first,log⟩ := by
    intro phase' hphase
    obtain rfl := Control.tasks.inj hphase
    exact h.blocked
  have hnext := step_blocked hblocked hs phase' ht
  unfold RunInv
  unfold Scheduler.Inv at hinv
  rw [ht] at hinv ⊢
  exact ⟨hinv,hnext⟩

theorem run_inv (h : RunInv nodes s) (hs : Run nodes s t) : RunInv nodes t := by
  cases hs with
  | complete hidle hready => exact ⟨_,⟨h,hidle,hready⟩⟩
  | step hs =>
    obtain ⟨control,first,log⟩ := s
    cases control with
    | loop | calling => exact h.elim
    | done => cases hs
    | tasks phase =>
      cases hs with
      | join hall =>
        refine ⟨phase,⟨h,fun i hi => .inr (hall i hi),?_⟩⟩
        intro i hr
        have hfinished := hall i hr.1
        simp [hr.2.1, Phase.isFinished] at hfinished
      | skip hr hf => exact tasks_step_inv h (.skip hr hf) rfl
      | enter hr => exact tasks_step_inv h (.enter hr) rfl
      | call hp => exact tasks_step_inv h (.call hp) rfl
      | reply hp => exact tasks_step_inv h (.reply hp) rfl
      | finish hp => exact tasks_step_inv h (.finish hp) rfl
      | record hp hs => exact tasks_step_inv h (.record hp hs) rfl

theorem hasDependencies_of (hd : Dependency nodes d i) : hasDependencies nodes = true := by
  obtain ⟨node,hi,hdep⟩ := hd
  refine List.any_eq_true.mpr ⟨node,List.mem_of_getElem? hi,?_⟩
  cases hnode : node.dependencies with
  | nil => simp [hnode] at hdep
  | cons => rfl

theorem start_tasks (hin : ¬ OutOfRange nodes) (hd : Dependency nodes d i) :
    start nodes = { control := .tasks (fun _ => .waiting) } := by
  have hrange : ¬ (precedence nodes).any (fun e => decide (nodes.length ≤ e.1)) = true := by
    intro hany
    obtain ⟨⟨d,j⟩,he,hlarge⟩ := List.any_eq_true.mp hany
    obtain ⟨node,hj,hdep⟩ := edge_precedence.mp he
    exact hin ⟨node,List.mem_of_getElem? hj,d,hdep,of_decide_eq_true hlarge⟩
  rw [start, if_pos (hasDependencies_of hd), if_neg hrange]

theorem reached_inv (hin : ¬ OutOfRange nodes) (hd : Dependency nodes d i)
    (h : Reached nodes s) : RunInv nodes s := by
  induction h with
  | refl =>
    rw [start_tasks hin hd]
    exact ⟨.start nodes,fun _ _ => rfl⟩
  | tail _ hs ih => exact run_inv ih hs

/-! ### What a completed run has done -/

/-- Every task that is not behind a cycle has its turn. -/
theorem Drained.finished (h : Drained nodes phase first log) (hin : ¬ OutOfRange nodes)
    (hi : i < nodes.length) (hb : ¬ Behind nodes i) : (phase i).isFinished = true := by
  by_contra hu
  let Free := {v : Fin nodes.length // ¬ Behind nodes v}
  let below : Free → Free → Prop := fun a b => Relation.TransGen (Dependency nodes) a.1 b.1
  have htrans : IsTrans Free below := ⟨fun _ _ _ => Relation.TransGen.trans⟩
  have hirrefl : Std.Irrefl below := ⟨fun a ha => a.2 ⟨a.1,ha,.refl⟩⟩
  have hwf := Finite.wellFounded_of_trans_of_irrefl below
  obtain ⟨j,hj,hmin⟩ := hwf.has_min {v : Free | ¬ (phase v.1).isFinished = true}
    ⟨⟨⟨i,hi⟩,hb⟩,hu⟩
  have hwaiting := (h.idle j.1 j.1.isLt).resolve_right hj
  refine h.noReady j.1 ⟨j.1.isLt,hwaiting,?_⟩
  intro d hd
  have hdep := edge_precedence.mp hd
  by_contra hunfinished
  have hdlt : d < nodes.length := by
    by_contra hlarge
    obtain ⟨node,hnode,hmem⟩ := hdep
    exact hin ⟨node,List.mem_of_getElem? hnode,d,hmem,Nat.le_of_not_lt hlarge⟩
  have hfree : ¬ Behind nodes d := fun ⟨c,hc,hcd⟩ => j.2 ⟨c,hc,hcd.tail hdep⟩
  exact hmin ⟨⟨d,hdlt⟩,hfree⟩ hunfinished (.single hdep)

/-- A failing answer of a node that is not behind a cycle is all that can be reported. -/
theorem Drained.status_iff (h : Drained nodes phase first log) (hin : ¬ OutOfRange nodes)
    (ha : Answers outcome log) :
    first ≠ .ok ↔ ∃ i < nodes.length, ¬ Behind nodes i ∧ outcome i ≠ .ok := by
  constructor
  · intro hf
    obtain ⟨i,hi⟩ := h.tasks.blame hf
    have hmoved : phase i ≠ .waiting := by
      rcases (h.tasks.returned i first).mp hi with hp | hp <;> simp [hp]
    refine ⟨i,h.tasks.bound i hmoved,fun hb => hmoved (h.blocked i hb),?_⟩
    rwa [← ha i first hi]
  · rintro ⟨i,hi,hb,ho⟩ hf
    have hfinished := h.finished hin hi hb
    cases hp : phase i with
    | finished result =>
      obtain rfl := h.tasks.clear hf i result hp
      have hreturned : .returned i .ok ∈ log := (h.tasks.returned i .ok).mpr (.inr hp)
      exact ho (ha i .ok hreturned).symm
    | _ => simp [hp, Phase.isFinished] at hfinished

/-! ### Every run completes -/

theorem run_rank (h : RunInv nodes s) (hs : Run nodes s t) : rank nodes t < rank nodes s := by
  cases hs with
  | complete => simp [rank]
  | step hs =>
    obtain ⟨control,first,log⟩ := s
    cases control with
    | loop | calling => exact h.elim
    | done => cases hs
    | tasks phase => exact step_rank (s := ⟨.tasks phase,first,log⟩) h.tasks hs

theorem Answers.snoc (h : Answers outcome log) (i : Nat) :
    Answers outcome (log ++ [.returned i (outcome i)]) := by
  intro j status hj
  rcases List.mem_append.mp hj with hj | hj
  · exact h j status hj
  · obtain ⟨rfl,rfl⟩ := Event.returned.inj (List.mem_singleton.mp hj)
    rfl

theorem Answers.called (h : Answers outcome log) (i : Nat) :
    Answers outcome (log ++ [.called i]) := by
  intro j status hj
  exact h j status (by simpa using hj)

/-- A run goes on, with the answers the nodes give, until it is done. -/
theorem run_progress (h : RunInv nodes s) (ha : Answers outcome s.log) :
    (∃ status, s.control = .done status) ∨ ∃ t, Run nodes s t ∧ Answers outcome t.log := by
  obtain ⟨control,first,log⟩ := s
  cases control with
  | loop | calling => exact h.elim
  | done status => exact .inl ⟨status,rfl⟩
  | tasks phase =>
    refine .inr ?_
    by_cases hready : ∃ i, ready nodes phase i
    · obtain ⟨i,hr⟩ := hready
      by_cases hf : first = .ok
      · subst hf
        exact ⟨_,.step (.enter hr),ha⟩
      · exact ⟨_,.step (.skip hr hf),ha⟩
    by_cases hidle : ∀ i < nodes.length, phase i = .waiting ∨ (phase i).isFinished = true
    · exact ⟨_,.complete hidle (not_exists.mp hready),ha⟩
    · simp only [not_forall, not_or] at hidle
      obtain ⟨i,_,hwaiting,hfinished⟩ := hidle
      cases hp : phase i with
      | waiting => exact absurd hp hwaiting
      | finished result => simp [hp, Phase.isFinished] at hfinished
      | admitted => exact ⟨_,.step (.call hp),ha.called i⟩
      | calling =>
        exact ⟨⟨.tasks (Function.update phase i (.returned (outcome i))),_,_⟩,.step (.reply hp),
          ha.snoc i⟩
      | returned status =>
        by_cases hs : status = .ok
        · subst hs
          exact ⟨_,.step (.finish hp),ha⟩
        · exact ⟨_,.step (.record hp hs),ha⟩

theorem run_returns (h : RunInv nodes s) (ha : Answers outcome s.log) :
    ∃ t status, Relation.ReflTransGen (Run nodes) s t ∧ t.control = .done status ∧
      Answers outcome t.log := by
  generalize he : rank nodes s = k
  induction k using Nat.strongRecOn generalizing s with
  | ind k ih =>
    rcases run_progress h ha with ⟨status,hs⟩ | ⟨t,hs,ht⟩
    · exact ⟨s,status,.refl,hs,ha⟩
    · have hlt := run_rank h hs
      obtain ⟨u,status,hu,hdone,hu'⟩ := ih (rank nodes t) (by omega) (run_inv h hs) ht rfl
      exact ⟨u,status,.head hs hu,hdone,hu'⟩

/-! ### Malformed lists -/

/-- A dependency out of range ends the run before any call. -/
theorem reached_outOfRange (h : OutOfRange nodes) (hs : Reached nodes s) :
    s = { control := .done .badIndex } := by
  obtain ⟨node,hmem,d,hd,hlarge⟩ := h
  obtain ⟨i,hi⟩ := List.mem_iff_getElem?.mp hmem
  have hdep : Dependency nodes d i := ⟨node,hi,hd⟩
  have hany : (precedence nodes).any (fun e => decide (nodes.length ≤ e.1)) = true :=
    List.any_eq_true.mpr ⟨(d,i),edge_precedence.mpr hdep,decide_eq_true hlarge⟩
  have hstart : start nodes = { control := .done .badIndex } := by
    rw [start, if_pos (hasDependencies_of hdep), if_pos hany]
  have hend : ∀ t, ¬ Run nodes { control := .done .badIndex } t := by
    rintro t (hs | _)
    cases hs
  rcases Relation.ReflTransGen.cases_head hs with hs | ⟨t,ht,_⟩
  · exact hs.symm.trans hstart
  · exact absurd (hstart ▸ ht) (hend t)

theorem RunInv.not_called (h : RunInv nodes s) (hb : Behind nodes i) : .called i ∉ s.log := by
  obtain ⟨control,first,log⟩ := s
  intro hcalled
  have hwaits : ∃ phase status, Waits nodes phase status log := by
    cases control with
    | loop | calling => exact h.elim
    | tasks phase => exact ⟨phase,first,h⟩
    | done status =>
      obtain ⟨phase,hd⟩ := h
      exact ⟨phase,status,hd.toWaits⟩
  obtain ⟨phase,status,hw⟩ := hwaits
  have hphase := (hw.tasks.called i).mp hcalled
  simp [hw.blocked i hb, Called] at hphase

/-- No run of the list ends in `CPIPE_OK`, and none calls a node that depends on what is
malformed. -/
def Refused (nodes : List ScheduledNode) (outcome : Nat → Status) : Prop :=
  ∀ s, Reached nodes s →
    (∀ i, OutOfRange nodes ∨ Behind nodes i → .called i ∉ s.log) ∧
    ∀ status, Answers outcome s.log → s.control = .done status → status ≠ .ok

/-- A list with a dependency out of range is refused. One with a cycle is when a node that is
not behind the cycle fails; otherwise the run completes with `CPIPE_OK` although the nodes
behind the cycle were never called. -/
theorem malformed_refused_iff (nodes : List ScheduledNode) (outcome : Nat → Status)
    (malformed : OutOfRange nodes ∨ Cyclic nodes) :
    (Refused nodes outcome ↔
      OutOfRange nodes ∨ ∃ i < nodes.length, ¬ Behind nodes i ∧ outcome i ≠ .ok) ∧
    (∀ s, Reached nodes s →
      (∀ i, OutOfRange nodes ∨ Behind nodes i → .called i ∉ s.log) ∧
      (∀ t, Run nodes s t → rank nodes t < rank nodes s) ∧
      (Answers outcome s.log → ∃ t status, Relation.ReflTransGen (Run nodes) s t ∧
        t.control = .done status ∧ Answers outcome t.log)) := by
  by_cases hout : OutOfRange nodes
  · have hstate : ∀ s, Reached nodes s → s = { control := .done .badIndex } :=
      fun s hs => reached_outOfRange hout hs
    refine ⟨iff_of_true ?_ (.inl hout),?_⟩
    · intro s hs
      obtain rfl := hstate s hs
      refine ⟨by simp,?_⟩
      intro status _ hdone
      obtain rfl := Control.done.inj hdone
      simp
    · intro s hs
      obtain rfl := hstate s hs
      refine ⟨by simp,?_,fun ha => ⟨_,.badIndex,.refl,rfl,ha⟩⟩
      rintro t (hs | _)
      cases hs
  · obtain ⟨c,hc⟩ := malformed.resolve_left hout
    obtain ⟨d,_,hd⟩ := Relation.TransGen.tail'_iff.mp hc
    have hinv : ∀ s, Reached nodes s → RunInv nodes s := fun s hs => reached_inv hout hd hs
    have hnever : ∀ s, Reached nodes s → ∀ i, OutOfRange nodes ∨ Behind nodes i →
        .called i ∉ s.log :=
      fun s hs i hi => (hinv s hs).not_called (hi.resolve_left hout)
    refine ⟨?_,fun s hs => ⟨hnever s hs,fun t ht => run_rank (hinv s hs) ht,
      run_returns (hinv s hs)⟩⟩
    constructor
    · intro hrefused
      have hstart : Answers outcome (start nodes).log := by
        simp [start_tasks hout hd, Answers]
      obtain ⟨t,status,hrun,hdone,ha⟩ := run_returns (hinv _ .refl) hstart
      have hfinal := hinv t hrun
      unfold RunInv at hfinal
      rw [hdone] at hfinal
      obtain ⟨phase,hdrained⟩ := hfinal
      exact .inr ((hdrained.status_iff hout ha).mp ((hrefused t hrun).2 status ha hdone))
    · intro hfails
      refine fun s hs => ⟨hnever s hs,?_⟩
      intro status ha hdone
      have hfinal := hinv s hs
      unfold RunInv at hfinal
      rw [hdone] at hfinal
      obtain ⟨phase,hdrained⟩ := hfinal
      exact (hdrained.status_iff hout ha).mpr (hfails.resolve_left hout)

/-- A node that waits for itself, next to one that fails: the failure is reported. -/
theorem malformed_refused_beside :
    Refused [⟨"a",[0]⟩,⟨"b",[]⟩] (fun _ => .failed) := by
  have hself : Dependency [⟨"a",[0]⟩,⟨"b",[]⟩] 0 0 := ⟨⟨"a",[0]⟩,rfl,by decide⟩
  have hfree : ¬ Behind [⟨"a",[0]⟩,⟨"b",[]⟩] 1 := by
    intro hb
    obtain ⟨d,⟨node,hnode,hd⟩,_⟩ := hb.pred
    obtain rfl := Option.some.inj hnode
    simp at hd
  exact (malformed_refused_iff _ _ (.inr ⟨0,.single hself⟩)).1.mpr
    (.inr ⟨1,by decide,hfree,by decide⟩)

/-- A node that depends on itself is never called, and the run reports success. -/
theorem self_dependency_ok :
    Cyclic [⟨"a",[0]⟩] ∧ Reached [⟨"a",[0]⟩] ⟨.done .ok,.ok,[]⟩ ∧
      ¬ Refused [⟨"a",[0]⟩] (fun _ => .ok) := by
  have hself : Dependency [⟨"a",[0]⟩] 0 0 := ⟨⟨"a",[0]⟩,rfl,by decide⟩
  have hrun : Reached [⟨"a",[0]⟩] ⟨.done .ok,.ok,[]⟩ := by
    refine .single (Run.complete (fun _ _ => .inl rfl) ?_)
    intro i hr
    obtain rfl : i = 0 := by simpa using hr.1
    have hfinished := hr.2.2 0 (edge_precedence.mpr hself)
    simp [Phase.isFinished] at hfinished
  exact ⟨⟨0,.single hself⟩,hrun,fun h => (h _ hrun).2 .ok (by simp [Answers]) rfl rfl⟩

end Cpipe.Proofs.SchedulerCycles
