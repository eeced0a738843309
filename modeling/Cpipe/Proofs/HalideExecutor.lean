import Cpipe.Runtime.HalideExecutor

namespace Cpipe.Proofs.HalideExecutor
open Cpipe.Runtime.HalideExecutor Library

/-- Every call that has not returned has an executor that is not destroyed, or none. -/
def Alive (s : State) : Prop :=
  ∀ call ∈ s.calls, call.phase ≠ .done → ∀ e, call.executor = some e →
    ∃ o, s.objects[e]? = some o ∧ o.life ≠ .destroyed

/-- A task loads the pointer where it is null or its own scheduler's. -/
def Own (s : State) : Event → Prop
  | .load i => s.gHalideExecutor = none ∨ s.gHalideExecutor = some i
  | _ => True

/-- A step of a call keeps its scheduler and its pointer. -/
theorem step_call {s t : State} {c : Nat} {e : Event}
    (he : e = .submit c ∨ e = .loop c ∨ e = .wait c) (hs : step s e = some t) :
    ∃ old new, s.calls[c]? = some old ∧ old.phase ≠ .done ∧ new.owner = old.owner ∧
      new.executor = old.executor ∧ t = s.putCall c new := by
  rcases he with rfl | rfl | rfl
  all_goals
    simp only [step] at hs
    split at hs
    · rename_i hc
      obtain rfl := Option.some.inj hs
      refine ⟨_,_,hc,by simp,?_,?_,rfl⟩ <;> rfl
    · cases hs

/-! ### Calls under a run -/

/-- A call that has not returned belongs to a scheduler inside `run` and holds its
executor or none. -/
def Held (s : State) : Prop :=
  ∀ call ∈ s.calls, call.phase ≠ .done →
    s.objects[call.owner]? = some ⟨.published,true⟩ ∧
    (call.executor = none ∨ call.executor = some call.owner)

theorem Held.alive {s : State} (h : Held s) : Alive s := by
  intro call hm hp e he
  obtain ⟨hobj,hexec⟩ := h call hm hp
  rcases hexec with hnone | hown
  · rw [hnone] at he
    cases he
  · rw [hown] at he
    obtain rfl := Option.some.inj he
    exact ⟨_,hobj,by decide⟩

/-- Changing a scheduler outside `run` leaves every call as it was. -/
theorem Held.put {s t : State} {i : Nat} {old new : Object} (h : Held s)
    (hc : t.calls = s.calls) (ho : t.objects = s.objects.set i new)
    (hi : s.objects[i]? = some old) (hidle : old ≠ ⟨.published,true⟩) : Held t := by
  intro call hm hp
  rw [hc] at hm
  obtain ⟨hobj,hexec⟩ := h call hm hp
  refine ⟨?_,hexec⟩
  have hne : i ≠ call.owner := by
    rintro rfl
    rw [hi] at hobj
    exact hidle (Option.some.inj hobj)
  rw [ho, List.getElem?_set_ne hne]
  exact hobj

/-- A call keeps its scheduler and its pointer. -/
theorem Held.putCall {s : State} {c : Nat} {old new : Call} (h : Held s)
    (hc : s.calls[c]? = some old) (howner : new.owner = old.owner)
    (hexec : new.executor = old.executor) (hp : old.phase ≠ .done) : Held (s.putCall c new) := by
  intro call hm hpending
  rcases List.mem_or_eq_of_mem_set hm with hm | rfl
  · exact h call hm hpending
  · obtain ⟨hobj,hown⟩ := h old (List.mem_of_getElem? hc) hp
    rw [howner, hexec]
    exact ⟨hobj,hown⟩

theorem held_step {s t : State} {e : Event} (h : Held s) (hown : Own s e)
    (hs : step s e = some t) : Held t := by
  cases e with
  | build =>
    obtain rfl := Option.some.inj hs
    intro call hm hp
    obtain ⟨hobj,hexec⟩ := h call hm hp
    refine ⟨?_,hexec⟩
    rw [List.getElem?_append_left (List.getElem?_eq_some_iff.mp hobj).1]
    exact hobj
  | publish i =>
    obtain ⟨hi,hs⟩ := Option.ite_none_right_eq_some.mp hs
    obtain rfl := Option.some.inj hs
    exact h.put rfl rfl hi (by decide)
  | beginRun i =>
    obtain ⟨hi,hs⟩ := Option.ite_none_right_eq_some.mp hs
    obtain rfl := Option.some.inj hs
    exact h.put rfl rfl hi (by decide)
  | load i =>
    obtain ⟨hi,hs⟩ := Option.ite_none_right_eq_some.mp hs
    obtain rfl := Option.some.inj hs
    intro call hm hp
    rcases List.mem_append.mp hm with hm | hm
    · exact h call hm hp
    · obtain rfl := List.mem_singleton.mp hm
      exact ⟨hi,hown⟩
  | submit c =>
    obtain ⟨old,new,hc,hphase,howner,hexec,rfl⟩ := step_call (.inl rfl) hs
    exact h.putCall hc howner hexec hphase
  | loop c =>
    obtain ⟨old,new,hc,hphase,howner,hexec,rfl⟩ := step_call (.inr (.inl rfl)) hs
    exact h.putCall hc howner hexec hphase
  | wait c =>
    obtain ⟨old,new,hc,hphase,howner,hexec,rfl⟩ := step_call (.inr (.inr rfl)) hs
    exact h.putCall hc howner hexec hphase
  | endRun i =>
    obtain ⟨⟨hi,hdone⟩,hs⟩ := Option.ite_none_right_eq_some.mp hs
    obtain rfl := Option.some.inj hs
    intro call hm hp
    obtain ⟨hobj,hexec⟩ := h call hm hp
    have hne : i ≠ call.owner := fun he => hp (hdone call hm he.symm)
    refine ⟨?_,hexec⟩
    rw [State.put, List.getElem?_set_ne hne]
    exact hobj
  | retract i =>
    obtain ⟨hi,hs⟩ := Option.ite_none_right_eq_some.mp hs
    obtain rfl := Option.some.inj hs
    exact h.put rfl rfl hi (by decide)
  | destroy i =>
    obtain ⟨⟨hi,_⟩,hs⟩ := Option.ite_none_right_eq_some.mp hs
    obtain rfl := Option.some.inj hs
    exact h.put rfl rfl hi (by decide)

theorem held_start : Held {} := by
  intro call hm
  cases hm

/-- While every task loads its own scheduler's pointer, no executor is destroyed under a
call. -/
theorem own_loads_alive (events : List Event) (h : Trace.Throughout step Own {} events)
    (past later : List Event) (s : State) (hsplit : events = past ++ later)
    (hrun : run past = some s) : Alive s := by
  subst hsplit
  exact (Trace.run_guarded (fun _ _ _ => held_step) held_start h.init hrun).alive

instance decidableOwn (s : State) : ∀ e, Decidable (Own s e)
  | .load _ => inferInstanceAs (Decidable (_ ∨ _))
  | .build => isTrue trivial
  | .publish _ => isTrue trivial
  | .beginRun _ => isTrue trivial
  | .submit _ => isTrue trivial
  | .loop _ => isTrue trivial
  | .wait _ => isTrue trivial
  | .endRun _ => isTrue trivial
  | .retract _ => isTrue trivial
  | .destroy _ => isTrue trivial

/-- Two schedulers that are alive together. The first has submitted its tasks when the second is
published, and is destroyed while the second runs. -/
def twoSchedulers : List Event :=
  [.build,.build,.publish 0,.beginRun 0,.load 0,.submit 0,.publish 1,.beginRun 1,.load 1,.submit 1,
    .wait 0,.endRun 0,.retract 0,.destroy 0]

theorem own_loads_alive_two :
    Trace.Throughout step Own {} twoSchedulers ∧
    (∃ s, run (twoSchedulers.take 10) = some s ∧ Alive s) ∧
    ∃ s, run twoSchedulers = some s ∧ Alive s := by
  have hown : Trace.Throughout step Own {} twoSchedulers :=
    Trace.throughout_of_check (fun _ _ => of_decide_eq_true) (by decide)
  exact ⟨hown,⟨_,rfl,own_loads_alive _ hown (twoSchedulers.take 10) (twoSchedulers.drop 10) _ rfl rfl⟩,
    _,rfl,own_loads_alive _ hown _ [] _ (List.append_nil _).symm rfl⟩

/-! ### One scheduler at a time -/

/-- A scheduler is built where no other is alive. -/
def Alone (s : State) : Event → Prop
  | .build => ∀ o ∈ s.objects, o.life = .destroyed
  | _ => True

/-- At most one scheduler is alive, and the pointer is null or a published scheduler's. -/
structure Single (s : State) : Prop where
  one : ∀ (i j : Nat) o q, s.objects[i]? = some o → s.objects[j]? = some q → o.life ≠ .destroyed →
    q.life ≠ .destroyed → i = j
  pointer : ∀ e, s.gHalideExecutor = some e → ∃ r, s.objects[e]? = some ⟨.published,r⟩

theorem Single.put {s t : State} {i : Nat} {old new : Object} (h : Single s)
    (ho : t.objects = s.objects.set i new) (hi : s.objects[i]? = some old)
    (hold : old.life ≠ .destroyed)
    (hp : ∀ e, t.gHalideExecutor = some e → ∃ r, t.objects[e]? = some ⟨.published,r⟩) :
    Single t := by
  have hback : ∀ (j : Nat) o, t.objects[j]? = some o → o.life ≠ .destroyed →
      ∃ q, s.objects[j]? = some q ∧ q.life ≠ .destroyed := by
    intro j o hj hlife
    rw [ho] at hj
    by_cases hij : i = j
    · subst hij
      exact ⟨old,hi,hold⟩
    · rw [List.getElem?_set_ne hij] at hj
      exact ⟨o,hj,hlife⟩
  refine ⟨?_,hp⟩
  intro a b o q ha hb hlo hlq
  obtain ⟨o',ha',hlo'⟩ := hback a o ha hlo
  obtain ⟨q',hb',hlq'⟩ := hback b q hb hlq
  exact h.one a b o' q' ha' hb' hlo' hlq'

theorem Single.sameObjects {s t : State} (h : Single s) (ho : t.objects = s.objects)
    (hg : t.gHalideExecutor = s.gHalideExecutor) : Single t := by
  refine ⟨?_,?_⟩
  · rw [ho]
    exact h.one
  · rw [hg, ho]
    exact h.pointer

/-- The pointer survives a change to an object that stays published or is not its own. -/
theorem Single.pointer_put {s : State} {i : Nat} {old new : Object} (h : Single s)
    (hi : s.objects[i]? = some old) (hlife : old.life = .published → new.life = .published)
    (e : Nat) (he : s.gHalideExecutor = some e) :
    ∃ r, (s.objects.set i new)[e]? = some ⟨.published,r⟩ := by
  obtain ⟨r,hr⟩ := h.pointer e he
  by_cases hie : i = e
  · subst hie
    rw [hi] at hr
    obtain rfl := Option.some.inj hr
    obtain ⟨life,running⟩ := new
    obtain rfl : life = .published := hlife rfl
    exact ⟨running,List.getElem?_set_self (List.getElem?_eq_some_iff.mp hi).1⟩
  · rw [List.getElem?_set_ne hie]
    exact ⟨r,hr⟩

theorem single_step {s t : State} {e : Event} (h : Single s) (halone : Alone s e)
    (hs : step s e = some t) : Single t := by
  cases e with
  | build =>
    obtain rfl := Option.some.inj hs
    have hdead : ∀ (j : Nat) o, (s.objects ++ [⟨.built,false⟩])[j]? = some o → o.life ≠ .destroyed →
        j = s.objects.length := by
      intro j o hj hlife
      rcases Nat.lt_or_ge j s.objects.length with hlt | hge
      · rw [List.getElem?_append_left hlt] at hj
        exact absurd (halone o (List.mem_of_getElem? hj)) hlife
      · have hlen := (List.getElem?_eq_some_iff.mp hj).1
        rw [List.length_append, List.length_singleton] at hlen
        omega
    refine ⟨fun a b o q ha hb hlo hlq => (hdead a o ha hlo).trans (hdead b q hb hlq).symm,?_⟩
    intro e he
    obtain ⟨r,hr⟩ := h.pointer e he
    refine ⟨r,?_⟩
    rw [List.getElem?_append_left (List.getElem?_eq_some_iff.mp hr).1]
    exact hr
  | publish i =>
    obtain ⟨hi,hs⟩ := Option.ite_none_right_eq_some.mp hs
    obtain rfl := Option.some.inj hs
    refine h.put rfl hi (by decide) (fun e he => ?_)
    obtain rfl := Option.some.inj he
    exact ⟨false,List.getElem?_set_self (List.getElem?_eq_some_iff.mp hi).1⟩
  | beginRun i =>
    obtain ⟨hi,hs⟩ := Option.ite_none_right_eq_some.mp hs
    obtain rfl := Option.some.inj hs
    exact h.put rfl hi (by decide) (h.pointer_put hi (fun _ => rfl))
  | load i =>
    obtain ⟨_,hs⟩ := Option.ite_none_right_eq_some.mp hs
    obtain rfl := Option.some.inj hs
    exact h.sameObjects rfl rfl
  | submit c =>
    obtain ⟨old,new,_,_,_,_,rfl⟩ := step_call (.inl rfl) hs
    exact h.sameObjects rfl rfl
  | loop c =>
    obtain ⟨old,new,_,_,_,_,rfl⟩ := step_call (.inr (.inl rfl)) hs
    exact h.sameObjects rfl rfl
  | wait c =>
    obtain ⟨old,new,_,_,_,_,rfl⟩ := step_call (.inr (.inr rfl)) hs
    exact h.sameObjects rfl rfl
  | endRun i =>
    obtain ⟨⟨hi,_⟩,hs⟩ := Option.ite_none_right_eq_some.mp hs
    obtain rfl := Option.some.inj hs
    exact h.put rfl hi (by decide) (h.pointer_put hi (fun _ => rfl))
  | retract i =>
    obtain ⟨hi,hs⟩ := Option.ite_none_right_eq_some.mp hs
    obtain rfl := Option.some.inj hs
    refine h.put rfl hi (by decide) (fun e he => ?_)
    dsimp only at he
    by_cases hown : s.gHalideExecutor = some i
    · rw [if_pos hown] at he
      cases he
    · rw [if_neg hown] at he
      obtain ⟨r,hr⟩ := h.pointer e he
      have hie : i ≠ e := fun hie => hown (hie ▸ he)
      refine ⟨r,?_⟩
      rw [State.put, List.getElem?_set_ne hie]
      exact hr
  | destroy i =>
    obtain ⟨⟨hi,_⟩,hs⟩ := Option.ite_none_right_eq_some.mp hs
    obtain rfl := Option.some.inj hs
    exact h.put rfl hi (by decide) (h.pointer_put hi nofun)

theorem single_start : Single {} where
  one := by simp
  pointer := by simp

/-- With one executor in the process at a time, every task loads its own scheduler's
pointer. -/
theorem alone_loads_own (events : List Event) (h : Trace.Throughout step Alone {} events)
    (t : State) (ht : run events = some t) : Trace.Throughout step Own {} events := by
  intro past e later s hsplit hrun
  subst hsplit
  have hsingle : Single s :=
    Trace.run_guarded (fun _ _ _ => single_step) single_start h.init hrun
  obtain ⟨m,hm,hrest⟩ := Trace.run_append.mp ht
  obtain rfl : m = s := Option.some.inj (hm.symm.trans hrun)
  obtain ⟨_,hstep,_⟩ := Trace.run_cons.mp hrest
  cases e with
  | load i =>
    obtain ⟨hi,_⟩ := Option.ite_none_right_eq_some.mp hstep
    cases hg : m.gHalideExecutor with
    | none => exact .inl hg
    | some e =>
      obtain ⟨r,hr⟩ := hsingle.pointer e hg
      rw [hsingle.one i e _ _ hi hr (by decide) (by simp)]
      exact .inr hg
  | _ => trivial

/-- A second scheduler is built and destroyed while a task of the first holds the
pointer. -/
theorem executor_destroyed_under_call :
    ∃ s, run [.build,.publish 0,.beginRun 0,.build,.publish 1,.load 0,.retract 1,.destroy 1] =
      some s ∧ ¬ Alive s ∧ ∃ t, step s (.submit 0) = some t := by
  refine ⟨_,rfl,fun h => ?_,_,rfl⟩
  obtain ⟨o,ho,hlife⟩ := h ⟨0,some 1,.loaded⟩ (by decide) (by decide) 1 rfl
  obtain rfl := Option.some.inj ho
  exact hlife rfl

end Cpipe.Proofs.HalideExecutor
