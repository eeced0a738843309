import Cpipe.Proofs.VulkanDevicePlane
import Mathlib.Data.List.Perm.Basic

namespace Cpipe.Proofs.VulkanPlaneRuns
open Cpipe.Runtime.VulkanDevicePlane Cpipe.Proofs.VulkanDevicePlane Library
open Holders (holds holds_insert holds_lookup holds_erase_of_notMem)

variable {s t : State} {plane : Plane} {thread : Thread} {call : Call} {result : VkResult}
  {mine others : List Handle} {event : Event}

/-! ### Who holds what -/

def pools (plane : Plane) : List Handle := plane.commandPools.entries.map Sigma.snd

def Plane.handles (plane : Plane) : List Handle := pools plane ++ roots plane

/-- The handles of the calls that are under way. -/
def callHandles (s : State) : List Handle := holds Call.handles s.calls

/-- All that is open. -/
def held (s : State) : List Handle :=
  s.lost ++ s.plane.elim [] Plane.handles ++ callHandles s ++ s.objectHandles

/-- All but what a thread's call holds. -/
def heldBesides (s : State) (thread : Thread) : List Handle :=
  held { s with calls := s.calls.erase thread }

theorem held_lookup (h : s.calls.lookup thread = some call) :
    (held s).Perm (call.handles ++ heldBesides s thread) := by
  have hcalls := holds_lookup (f := Call.handles) h
  refine List.perm_iff_count.mpr (fun k => ?_)
  have hcount := hcalls.count_eq k
  simp only [heldBesides, held, callHandles, State.objectHandles, List.count_append] at hcount ⊢
  omega

theorem heldBesides_of_notMem (h : thread ∉ s.calls) : heldBesides s thread = held s := by
  rw [heldBesides, held, held, callHandles, callHandles, holds_erase_of_notMem h]
  rfl

theorem held_setCall : (held (s.setCall thread call)).Perm (call.handles ++ heldBesides s thread) := by
  refine List.perm_iff_count.mpr (fun k => ?_)
  simp only [heldBesides, held, callHandles, State.setCall, State.objectHandles, holds_insert,
    List.count_append]
  omega

theorem held_throwCall : held (s.throwCall thread call) = call.handles ++ heldBesides s thread := by
  simp only [held, heldBesides, State.throwCall, callHandles, State.objectHandles,
    List.append_assoc]

theorem pools_insert {pool : Handle} (h : thread ∉ plane.commandPools) :
    pools { plane with commandPools := plane.commandPools.insert thread pool } =
      pool :: pools plane := by
  rw [pools, AList.entries_insert_of_notMem h]
  rfl

/-! ### A plane that is alive and one that is gone -/

/-- The variables of a call that are filled at a stage. -/
structure Shaped (call : Call) : Prop where
  commandBuffer : ∀ h ∈ call.commandBuffer, h.kind = .commandBuffer
  fence : ∀ h ∈ call.fence, h.kind = .fence
  fenced : call.fence.isSome ↔
    call.stage = .submit ∨ call.stage = .wait ∨ call.stage = .destroyFence
  buffered : call.commandBuffer.isSome ↔ call.stage ≠ .commandPool ∧ call.stage ≠ .allocate

/-- What can be lost. -/
def Losable (handle : Handle) : Prop :=
  handle.kind = .commandBuffer ∨ handle.kind = .fence ∨ handle.kind = .buffer

structure Sound (s : State) : Prop where
  kept : Kept s.driver (held s)
  shaped : ∀ thread call, s.calls.lookup thread = some call → Shaped call
  lost : ∀ h ∈ s.lost, Losable h

/-- The plane has its three handles. -/
structure Alive (base : List Handle) (s : State) : Prop where
  sound : Sound s
  plane : ∃ plane, s.plane = some plane ∧ roots plane = base

/-- Nothing points to the plane, and its three handles were closed last. -/
structure Gone (base : List Handle) (s : State) : Prop where
  sound : Sound s
  plane : s.plane = none
  calls : s.calls = ∅
  users : s.users = 0
  last : ∃ before, s.driver.log = before ++ Ledger.closes base
  lost : ∀ h ∈ s.lost, h.kind ≠ .commandBuffer

def Inv (base : List Handle) (s : State) : Prop :=
  Alive base s ∧ 0 < s.users ∨ Gone base s

variable {base : List Handle}

/-! ### The end of the plane -/

theorem filter_partition (p : Handle → Bool) (hs : List Handle) :
    hs.Perm (hs.filter p ++ hs.filter (fun h => !p h)) :=
  (List.filter_append_perm p hs).symm

theorem tearDown_gone (h : Alive base s) (hplane : s.plane = some plane) (hcalls : s.calls.entries = [])
    (husers : s.users = 0) : Gone base (s.tearDown plane) := by
  obtain ⟨hsound,other,hother,hroots⟩ := h
  rw [hplane] at hother
  cases hother
  have hempty : s.calls = ∅ := AList.ext hcalls
  have hobjects : s.objectHandles = [] := by
    refine List.eq_nil_of_length_eq_zero ?_
    rw [State.users] at husers
    omega
  have hheld : (held s).Perm ((s.lost.filter State.isCommandBuffer ++ pools plane ++ base) ++
      s.lost.filter (fun h => !State.isCommandBuffer h)) := by
    refine List.perm_iff_count.mpr (fun k => ?_)
    have hcount := (filter_partition State.isCommandBuffer s.lost).count_eq k
    simp only [held, callHandles, hempty, hplane, hobjects, Plane.handles, holds, hroots,
      AList.empty_entries, List.flatMap_nil, Option.elim_some, List.count_append,
      List.count_nil] at hcount ⊢
    omega
  have hkept : Kept (s.tearDown plane).driver (s.lost.filter (fun h => !State.isCommandBuffer h)) := by
    rw [← hroots] at hheld
    exact destroy_kept (hsound.kept.perm hheld)
  refine ⟨⟨?_,?_,?_⟩,rfl,hempty,husers,?_,?_⟩
  · have hend : held (s.tearDown plane) = s.lost.filter (fun h => !State.isCommandBuffer h) := by
      rw [held, callHandles]
      simp only [State.tearDown, State.objectHandles] at hobjects ⊢
      rw [hempty, hobjects]
      simp [holds]
    rw [hend]
    exact hkept
  · exact hsound.shaped
  · intro h hh
    exact hsound.lost h (List.mem_of_mem_filter hh)
  · refine ⟨s.driver.log ++ Ledger.closes (s.lost.filter State.isCommandBuffer ++ pools plane),?_⟩
    rw [List.append_assoc, ← Ledger.closes_append, ← hroots]
    rfl
  · intro h hh
    have hnot := (List.mem_filter.mp hh).2
    simpa [State.isCommandBuffer] using hnot

theorem expire_inv (h : Alive base s) (ht : s.expire = some t) : Inv base t := by
  obtain ⟨plane,hplane,hroots⟩ := h.plane
  rw [State.expire, hplane] at ht
  simp only at ht
  split at ht
  · rename_i husers
    cases ht
    exact .inl ⟨h,husers⟩
  rename_i husers
  split at ht
  · rename_i hcalls
    cases ht
    exact .inr (tearDown_gone h hplane hcalls (Nat.eq_zero_of_not_pos husers))
  · cases ht

/-! ### A call that is taken out -/

/-- A thread's call is taken out of the table with what it holds. -/
structure Taken (base : List Handle) (s : State) (thread : Thread) (mine : List Handle) : Prop where
  kept : Kept s.driver (mine ++ heldBesides s thread)
  shaped : ∀ other call, other ≠ thread → s.calls.lookup other = some call → Shaped call
  lost : ∀ h ∈ s.lost, Losable h
  plane : ∃ plane, s.plane = some plane ∧ roots plane = base

theorem Alive.take (h : Alive base s) (hcall : s.calls.lookup thread = some call) :
    Taken base s thread call.handles :=
  ⟨h.sound.kept.perm (held_lookup hcall),fun other call _ => h.sound.shaped other call,
    h.sound.lost,h.plane⟩

theorem Alive.enter (h : Alive base s) (hnew : thread ∉ s.calls) : Taken base s thread [] := by
  refine ⟨?_,fun other call _ => h.sound.shaped other call,h.sound.lost,h.plane⟩
  rw [List.nil_append, heldBesides_of_notMem hnew]
  exact h.sound.kept

theorem Taken.driver {mine' : List Handle} {d : Driver} (h : Taken base s thread mine)
    (hd : Kept d (mine' ++ heldBesides s thread)) : Taken base { s with driver := d } thread mine' :=
  ⟨hd,h.shaped,h.lost,h.plane⟩

theorem Taken.setCall (h : Taken base s thread call.handles) (hshaped : Shaped call) :
    Alive base (s.setCall thread call) := by
  refine ⟨⟨h.kept.perm held_setCall.symm,fun other call' hother => ?_,h.lost⟩,h.plane⟩
  by_cases hsame : other = thread
  · subst hsame
    rw [State.setCall, AList.lookup_insert] at hother
    cases hother
    exact hshaped
  · rw [State.setCall, AList.lookup_insert_ne hsame] at hother
    exact h.shaped other call' hsame hother

theorem lookup_erased (h : Taken base s thread mine) (other : Thread) (call : Call)
    (hother : (s.calls.erase thread).lookup other = some call) : Shaped call := by
  by_cases hsame : other = thread
  · subst hsame
    rw [AList.lookup_erase] at hother
    cases hother
  · rw [AList.lookup_erase_ne hsame] at hother
    exact h.shaped other call hsame hother

theorem Shaped.losable (hshaped : Shaped call) : ∀ h ∈ call.handles, Losable h := by
  intro h hh
  rcases List.mem_append.mp hh with hh | hh
  · exact .inr (.inl (hshaped.fence h (Option.mem_toList.mp hh)))
  · exact .inl (hshaped.commandBuffer h (Option.mem_toList.mp hh))

theorem Taken.throwCall (h : Taken base s thread call.handles) (hshaped : Shaped call) :
    Alive base (s.throwCall thread call) := by
  refine ⟨⟨?_,lookup_erased h,fun k hk => ?_⟩,h.plane⟩
  · rw [held_throwCall]
    exact h.kept
  · rcases List.mem_append.mp hk with hk | hk
    · exact hshaped.losable k hk
    · exact h.lost k hk

theorem Taken.leave (h : Taken base s thread []) :
    Alive base { s with calls := s.calls.erase thread } :=
  ⟨⟨h.kept,lookup_erased h,h.lost⟩,h.plane⟩

/-! ### The driver's calls -/

theorem used_all {handles : List Handle} {driver : Driver} {held : List Handle}
    (h : Kept driver held) (hin : ∀ k ∈ handles, k ∈ held) :
    Kept (handles.foldl (fun d k => d.record k .used) driver) held := by
  induction handles generalizing driver with
  | nil => exact h
  | cons k handles ih =>
    exact ih (h.used (hin k List.mem_cons_self)) (fun j hj => hin j (List.mem_cons_of_mem k hj))

theorem useLocals_alive {handles : List Handle} {next : Stage} (h : Taken base s thread call.handles)
    (hshaped : Shaped call) (hnext : Shaped { call with stage := next })
    (hin : ∀ k ∈ handles, k ∈ call.handles) :
    Alive base (s.useLocals thread call handles result next) := by
  have hused : Taken base
      { s with driver := handles.foldl (fun d k => d.record k .used) s.driver } thread call.handles :=
    h.driver (used_all h.kept (fun k hk => List.mem_append_left _ (hin k hk)))
  rw [State.useLocals]
  split
  · exact Taken.setCall hused hnext
  · exact hused.throwCall hshaped

theorem makeLocal_alive {kind : Kind} {keep : Handle → Call} (h : Taken base s thread call.handles)
    (hshaped : Shaped call)
    (hkeep : ∀ k : Handle, k.kind = kind → Shaped (keep k) ∧ (k :: call.handles).Perm (keep k).handles) :
    Alive base (s.makeLocal thread call kind result keep) := by
  rw [State.makeLocal]
  split
  · rename_i failed driver hcreate
    exact (h.driver (create_error hcreate h.kept).1).throwCall hshaped
  · rename_i k driver hcreate
    obtain ⟨hnew,hperm⟩ := hkeep k (create_kind hcreate).1
    have hmade : Kept driver ((keep k).handles ++ heldBesides s thread) :=
      (create_ok hcreate h.kept).perm (hperm.append_right _)
    exact (h.driver hmade).setCall hnew

/-- The pool of a thread is made on its first call and stays in the plane's table. -/
theorem commandPool_spec (thread : Thread) (result : VkResult) (hplane : s.plane = some plane) :
    ∃ driver plane', (s.commandPoolForCurrentThread plane thread result).2 =
        { s with driver, plane := some plane' } ∧ roots plane' = roots plane ∧
      ∀ others, Kept s.driver (Plane.handles plane ++ others) →
        Kept driver (Plane.handles plane' ++ others) := by
  rw [State.commandPoolForCurrentThread]
  split
  · exact ⟨s.driver,plane,by rw [← hplane],rfl,fun _ h => h⟩
  · rename_i hnone
    split
    · rename_i failed driver hcreate
      exact ⟨driver,plane,by rw [← hplane],rfl,fun _ h => (create_error hcreate h).1⟩
    · rename_i pool driver hcreate
      refine ⟨driver,_,rfl,rfl,fun others h => ?_⟩
      rw [Plane.handles, pools_insert (AList.lookup_eq_none.mp hnone)]
      exact create_ok hcreate h

theorem pool_rest {mine rest : List Handle} {driver : Driver} {plane' : Plane}
    (h : ∀ others, Kept s.driver (Plane.handles plane ++ others) →
      Kept driver (Plane.handles plane' ++ others))
    (hk : Kept s.driver (mine ++ (s.lost ++ Plane.handles plane ++ rest))) :
    Kept driver (mine ++ (s.lost ++ Plane.handles plane' ++ rest)) := by
  have hperm : ∀ handles : List Handle, (mine ++ (s.lost ++ handles ++ rest)).Perm
      (handles ++ (mine ++ s.lost ++ rest)) := by
    intro handles
    refine List.perm_iff_count.mpr (fun k => ?_)
    simp only [List.count_append]
    omega
  exact (h _ (hk.perm (hperm _))).perm (hperm _).symm

theorem commandPool_taken (result : VkResult) (h : Taken base s thread mine)
    (hplane : s.plane = some plane) :
    Taken base (s.commandPoolForCurrentThread plane thread result).2 thread mine := by
  obtain ⟨driver,plane',hstate,hroots,hkept⟩ := commandPool_spec thread result hplane
  obtain ⟨other,hother,hbase⟩ := h.plane
  rw [hplane] at hother
  cases hother
  rw [hstate]
  refine ⟨?_,h.shaped,h.lost,plane',rfl,hroots.trans hbase⟩
  have hk := h.kept
  simp only [heldBesides, held, hplane, Option.elim_some, List.append_assoc] at hk ⊢
  have hpool := pool_rest hkept (by simpa only [List.append_assoc] using hk)
  simp only [List.append_assoc] at hpool
  exact hpool

/-! ### One step of a call -/

theorem Shaped.next {stage next : Stage} {commandBuffer fence : Option Handle}
    (h : Shaped ⟨stage,commandBuffer,fence⟩)
    (hfenced : (stage = .submit ∨ stage = .wait ∨ stage = .destroyFence) ↔
      (next = .submit ∨ next = .wait ∨ next = .destroyFence))
    (hbuffered : (stage ≠ .commandPool ∧ stage ≠ .allocate) ↔
      (next ≠ .commandPool ∧ next ≠ .allocate)) : Shaped ⟨next,commandBuffer,fence⟩ :=
  ⟨h.commandBuffer,h.fence,h.fenced.trans hfenced,h.buffered.trans hbuffered⟩

theorem advance_alive (h : Alive base s) (hplane : s.plane = some plane)
    (hcall : s.calls.lookup thread = some call) : Alive base (s.advance plane thread call result) := by
  have htaken := h.take hcall
  have hshaped := h.sound.shaped thread call hcall
  obtain ⟨stage,commandBuffer,fence⟩ := call
  have hbuffer := hshaped.commandBuffer
  have hfence := hshaped.fence
  have hfenced := hshaped.fenced
  have hbuffered := hshaped.buffered
  rw [State.advance]
  cases stage with
  | commandPool =>
    have hpool := commandPool_taken result htaken hplane
    simp only
    split
    · rename_i hstate
      rw [hstate] at hpool
      exact hpool.throwCall hshaped
    · rename_i hstate
      rw [hstate] at hpool
      have hnext : Shaped ⟨.allocate,commandBuffer,fence⟩ := hshaped.next (by simp) (by simp)
      exact Taken.setCall hpool hnext
  | allocate =>
    refine makeLocal_alive htaken hshaped (fun k hk => ?_)
    obtain rfl : commandBuffer = none := by simpa using hbuffered
    obtain rfl : fence = none := by simpa using hfenced
    refine ⟨⟨?_,?_,?_,?_⟩,.refl _⟩ <;> simp [hk]
  | begin =>
    exact useLocals_alive htaken hshaped (hshaped.next (by simp) (by simp))
      (fun k hk => List.mem_append_right _ hk)
  | record =>
    exact useLocals_alive htaken hshaped (hshaped.next (by simp) (by simp))
      (fun k hk => List.mem_append_right _ hk)
  | finish =>
    exact useLocals_alive htaken hshaped (hshaped.next (by simp) (by simp))
      (fun k hk => List.mem_append_right _ hk)
  | createFence =>
    refine makeLocal_alive htaken hshaped (fun k hk => ?_)
    obtain rfl : fence = none := by simpa using hfenced
    refine ⟨⟨hbuffer,?_,?_,?_⟩,.refl _⟩
    · simp [hk]
    · simp
    · simpa using hbuffered
  | submit =>
    exact useLocals_alive htaken hshaped (hshaped.next (by simp) (by simp))
      (fun k hk => List.perm_append_comm.mem_iff.mp hk)
  | wait =>
    exact useLocals_alive htaken hshaped (hshaped.next (by simp) (by simp))
      (fun k hk => List.mem_append_left _ hk)
  | destroyFence =>
    have hk := htaken.kept
    rw [Call.handles, List.append_assoc] at hk
    have hnext : Shaped ⟨.free,commandBuffer,none⟩ :=
      ⟨hbuffer,by simp,by simp,hbuffered.trans (by simp)⟩
    exact Taken.setCall (htaken.driver (destroy_kept hk)) hnext
  | free =>
    obtain rfl : fence = none := by simpa using hfenced
    exact (htaken.driver (destroy_kept htaken.kept)).leave

theorem commandPool_frame (s : State) (plane : Plane) (thread : Thread) (result : VkResult) :
    (s.commandPoolForCurrentThread plane thread result).2.owners = s.owners ∧
      (s.commandPoolForCurrentThread plane thread result).2.objects = s.objects ∧
      (s.commandPoolForCurrentThread plane thread result).2.lost = s.lost ∧
      (s.commandPoolForCurrentThread plane thread result).2.calls = s.calls := by
  rw [State.commandPoolForCurrentThread]
  split
  · exact ⟨rfl,rfl,rfl,rfl⟩
  split <;> exact ⟨rfl,rfl,rfl,rfl⟩

theorem makeLocal_users {kind : Kind} {keep : Handle → Call} :
    (s.makeLocal thread call kind result keep).users = s.users := by
  rw [State.makeLocal]
  split <;> rfl

theorem useLocals_users {handles : List Handle} {next : Stage} :
    (s.useLocals thread call handles result next).users = s.users := by
  rw [State.useLocals]
  split <;> rfl

/-- A call has no pointer of its own. -/
theorem advance_users : (s.advance plane thread call result).users = s.users := by
  rw [State.advance]
  split
  · obtain ⟨howners,hobjects,-⟩ := commandPool_frame s plane thread result
    split <;> rename_i t hpool <;> rw [hpool] at howners hobjects
    · rw [State.users, State.users, State.objectHandles, State.objectHandles, State.throwCall,
        howners, hobjects]
    · rw [State.users, State.users, State.objectHandles, State.objectHandles, State.setCall,
        howners, hobjects]
  all_goals first | exact makeLocal_users | exact useLocals_users | rfl

/-! ### Objects -/

theorem construct_object {d : Driver} {object : Nat} {k : Handle} (h : Alive base s)
    (hobject : object ∉ s.objects) (hd : Kept d (k :: held s)) {t : State}
    (ht : t = { s with driver := d, objects := s.objects.insert object (some k) }) :
    Alive base t ∧ 0 < t.users := by
  subst ht
  have hinsert : holds Option.toList (s.objects.insert object (some k)) =
      k :: holds Option.toList s.objects := by
    rw [holds_insert, holds_erase_of_notMem hobject]
    rfl
  refine ⟨⟨⟨hd.perm (List.perm_iff_count.mpr (fun j => ?_)),h.sound.shaped,h.sound.lost⟩,h.plane⟩,?_⟩
  · have hcount := congrArg (List.count j) hinsert
    simp only [held, callHandles, State.objectHandles, holds, List.count_append,
      List.count_cons] at hcount ⊢
    omega
  · have hlength := congrArg List.length hinsert
    rw [List.length_cons] at hlength
    refine Nat.lt_of_lt_of_eq (Nat.succ_pos (s.owners + s.objectHandles.length)) ?_
    exact (congrArg (s.owners + ·) hlength).symm

theorem Alive.driver {d : Driver} (h : Alive base s) (hd : Kept d (held s)) :
    Alive base { s with driver := d } := ⟨⟨hd,h.sound.shaped,h.sound.lost⟩,h.plane⟩

/-- A constructor that throws behind the making of a buffer leaves its buffer behind. -/
theorem lose_alive {d : Driver} {k : Handle} (h : Alive base s) (hk : Losable k)
    (hd : Kept d (k :: held s)) : Alive base { s with driver := d, lost := k :: s.lost } := by
  refine ⟨⟨hd,h.sound.shaped,fun j hj => ?_⟩,h.plane⟩
  rcases List.mem_cons.mp hj with rfl | hj
  · exact hk
  · exact h.sound.lost j hj

theorem construct_alive {object : Nat} (h : Alive base s) (husers : 0 < s.users)
    (hplane : s.plane = some plane) (hobject : object ∉ s.objects) (what : Construction) :
    Alive base (s.construct plane object what) ∧ 0 < (s.construct plane object what).users := by
  cases what with
  | commandBuffer thread pool allocate =>
    obtain ⟨d,plane',hstate,hroots,hkept⟩ :=
      commandPool_spec thread pool hplane
    have halive : Alive base { s with driver := d, plane := some plane' } := by
      obtain ⟨other,hother,hbase⟩ := h.plane
      rw [hplane] at hother
      cases hother
      have hk := h.sound.kept
      refine ⟨⟨?_,h.sound.shaped,h.sound.lost⟩,plane',rfl,hroots.trans hbase⟩
      simp only [held, hplane, Option.elim_some, List.append_assoc] at hk ⊢
      rw [← List.nil_append (s.lost ++ _)] at hk ⊢
      have hpool := pool_rest hkept (by simpa only [List.append_assoc] using hk)
      simp only [List.append_assoc] at hpool
      exact hpool
    rw [State.construct]
    split
    · rename_i after hpool
      have hafter : after = { s with driver := d, plane := some plane' } := by
        rw [hpool] at hstate
        exact hstate
      subst hafter
      exact ⟨halive,husers⟩
    · rename_i after hpool
      have hafter : after = { s with driver := d, plane := some plane' } := by
        rw [hpool] at hstate
        exact hstate
      subst hafter
      split
      · rename_i hcreate
        exact ⟨halive.driver (create_error hcreate halive.sound.kept).1,husers⟩
      · rename_i hcreate
        exact construct_object halive hobject (create_ok hcreate halive.sound.kept) rfl
  | image create =>
    rw [State.construct]
    split
    · rename_i hcreate
      exact ⟨h.driver (create_error hcreate h.sound.kept).1,husers⟩
    · rename_i hcreate
      exact construct_object h hobject (create_ok hcreate h.sound.kept) rfl
  | buffer create map =>
    rw [State.construct]
    split
    · rename_i hcreate
      exact ⟨h.driver (create_error hcreate h.sound.kept).1,husers⟩
    · rename_i hcreate
      have hmade := create_ok hcreate h.sound.kept
      split
      · exact construct_object h hobject hmade rfl
      · exact ⟨lose_alive h (.inr (.inr (create_kind hcreate).1)) hmade,husers⟩

/-- Where an object's handle is destroyed and its entry goes. -/
theorem freeObject_alive {object : Nat} {handle : Option Handle} (h : Alive base s)
    (hobject : s.objects.lookup object = some handle) : Alive base (s.freeObject object handle) := by
  refine ⟨⟨?_,h.sound.shaped,h.sound.lost⟩,h.plane⟩
  have hobjects := holds_lookup (f := Option.toList) hobject
  refine destroy_kept (h.sound.kept.perm (List.perm_iff_count.mpr (fun j => ?_)))
  have hcount := hobjects.count_eq j
  simp only [held, callHandles, State.freeObject, State.objectHandles, holds,
    List.count_append] at hcount ⊢
  omega

/-- A move fills the target with what the source held. -/
theorem holds_move {objects : AList (fun _ : Nat => Option Handle)} {target source : Nat}
    {other : Option Handle} (hne : target ≠ source) (htarget : target ∉ objects)
    (hsource : objects.lookup source = some other) :
    (holds Option.toList ((objects.insert source none).insert target other)).Perm
      (holds Option.toList objects) := by
  have hnot : target ∉ objects.insert source none := by
    rw [AList.mem_insert, not_or]
    exact ⟨hne,htarget⟩
  have hpair := holds_lookup (f := Option.toList) hsource
  refine List.perm_iff_count.mpr (fun j => ?_)
  have hcount := hpair.count_eq j
  rw [holds_insert, holds_erase_of_notMem hnot, holds_insert]
  simp only [List.count_append, Option.toList_none, List.count_nil] at hcount ⊢
  omega

theorem move_alive {target source : Nat} {other : Option Handle} (h : Alive base s)
    (hne : target ≠ source) (htarget : target ∉ s.objects)
    (hsource : s.objects.lookup source = some other) :
    Alive base { s with objects := (s.objects.insert source none).insert target other } := by
  refine ⟨⟨h.sound.kept.perm (List.perm_iff_count.mpr (fun j => ?_)),h.sound.shaped,
    h.sound.lost⟩,h.plane⟩
  have hcount := (holds_move hne htarget hsource).count_eq j
  simp only [held, callHandles, State.objectHandles, holds, List.count_append] at hcount ⊢
  omega

/-! ### Behind the end -/

theorem Gone.empty (h : Gone base s) : s.objectHandles = [] := by
  have husers := h.users
  rw [State.users] at husers
  exact List.eq_nil_of_length_eq_zero (Nat.eq_zero_of_add_eq_zero_left husers)

theorem Gone.handle {object : Nat} {handle : Option Handle} (h : Gone base s)
    (hobject : s.objects.lookup object = some handle) : handle = none := by
  have hperm := holds_lookup (f := Option.toList) hobject
  have hempty : holds Option.toList s.objects = [] := h.empty
  rw [hempty] at hperm
  have hnil := List.append_eq_nil_iff.mp hperm.nil_eq.symm
  exact Option.toList_eq_nil_iff.mp hnil.1

/-- What is left of the objects has nothing to give back. -/
theorem Gone.objects {objects : AList (fun _ : Nat => Option Handle)} (h : Gone base s)
    (hempty : holds Option.toList objects = []) : Gone base { s with objects } := by
  have hsame : State.objectHandles { s with objects } = s.objectHandles := hempty.trans h.empty.symm
  refine ⟨⟨?_,h.sound.shaped,h.sound.lost⟩,h.plane,h.calls,?_,h.last,h.lost⟩
  · have hk := h.sound.kept
    rw [held] at hk ⊢
    rw [hsame]
    exact hk
  · have husers := h.users
    rw [State.users] at husers ⊢
    rw [hsame]
    exact husers

theorem Gone.freeObject {object : Nat} {handle : Option Handle} (h : Gone base s)
    (hobject : s.objects.lookup object = some handle) : Gone base (s.freeObject object handle) ∧
      s.freeObject object handle = { s with objects := s.objects.erase object } := by
  have hnone := h.handle hobject
  subst hnone
  have hperm := holds_lookup (f := Option.toList) hobject
  have hempty : holds Option.toList s.objects = [] := h.empty
  rw [hempty, Option.toList_none, List.nil_append] at hperm
  have hsame : s.freeObject object none = { s with objects := s.objects.erase object } := by
    rw [State.freeObject, Driver.destroy]
    simp [Ledger.closes]
  refine ⟨?_,hsame⟩
  rw [hsame]
  exact h.objects hperm.nil_eq.symm

/-! ### One event -/

theorem Alive.owners {n : Nat} (h : Alive base s) : Alive base { s with owners := n } :=
  ⟨⟨h.sound.kept,h.sound.shaped,h.sound.lost⟩,h.plane⟩

theorem Gone.held (h : Gone base s) : held s = s.lost := by
  rw [VulkanPlaneRuns.held, callHandles, h.plane, h.calls, h.empty]
  simp [holds]

theorem Gone.expire (h : Gone base s) : s.expire = some s := by
  rw [State.expire, h.plane]

/-- The event has a plane to happen to, or is about objects that were moved from. -/
theorem step_inv (h : Inv base s) (hstep : s.step event = some t) : Inv base t := by
  cases event with
  | share =>
    rw [State.step] at hstep
    split at hstep
    · rename_i howners
      cases hstep
      rcases h with ⟨halive,husers⟩ | hgone
      · refine .inl ⟨halive.owners,?_⟩
        rw [State.users]
        exact Nat.lt_of_lt_of_le (Nat.succ_pos s.owners) (Nat.le_add_right _ _)
      · have husers := hgone.users
        rw [State.users] at husers
        omega
    · cases hstep
  | release =>
    rw [State.step] at hstep
    split at hstep
    · rename_i howners
      rcases h with ⟨halive,husers⟩ | hgone
      · exact expire_inv halive.owners hstep
      · have husers := hgone.users
        rw [State.users] at husers
        omega
    · cases hstep
  | enter thread =>
    rw [State.step] at hstep
    split at hstep
    · rename_i hnew
      cases hstep
      rcases h with ⟨halive,husers⟩ | hgone
      · have hshaped : Shaped {} := ⟨by simp,by simp,by simp,by simp⟩
        exact .inl ⟨Taken.setCall (halive.enter hnew.2) hshaped,husers⟩
      · rw [hgone.plane] at hnew
        cases hnew.1
    · cases hstep
  | advance thread result =>
    rw [State.step] at hstep
    split at hstep
    · rename_i plane call hplane hcall
      cases hstep
      rcases h with ⟨halive,husers⟩ | hgone
      · refine .inl ⟨advance_alive halive hplane hcall,?_⟩
        rw [advance_users]
        exact husers
      · rw [hgone.plane] at hplane
        cases hplane
    · cases hstep
  | construct object what =>
    rw [State.step] at hstep
    split at hstep
    · rename_i plane hplane
      split at hstep
      · cases hstep
      rename_i hobject
      cases hstep
      rcases h with ⟨halive,husers⟩ | hgone
      · exact .inl (construct_alive halive husers hplane hobject what)
      · rw [hgone.plane] at hplane
        cases hplane
    · cases hstep
  | moveAssign target source =>
    rw [State.step] at hstep
    split at hstep
    · rename_i mine other htarget hsource
      split at hstep
      · cases hstep
      split at hstep
      · cases hstep
        exact h
      rename_i hne
      have hnot : target ∉ (s.freeObject target mine).objects := by
        rw [State.freeObject, AList.mem_erase]
        exact fun hmem => hmem.1 rfl
      have hfreed : (s.freeObject target mine).objects.lookup source = some other := by
        rw [State.freeObject]
        exact (AList.lookup_erase_ne (Ne.symm hne)).trans hsource
      rcases h with ⟨halive,husers⟩ | hgone
      · exact expire_inv (move_alive (freeObject_alive halive htarget) hne hnot hfreed) hstep
      · have hmoved : Gone base { s.freeObject target mine with
            objects := ((s.freeObject target mine).objects.insert source none).insert target other } := by
          have hempty := (hgone.freeObject htarget).1
          refine hempty.objects ?_
          have hperm := holds_move hne hnot hfreed
          have hnone : holds Option.toList (s.freeObject target mine).objects = [] := hempty.empty
          rw [hnone] at hperm
          exact hperm.eq_nil
        have hsame := hmoved.expire
        simp only at hstep hsame
        rw [hsame] at hstep
        cases hstep
        exact .inr hmoved
    · cases hstep
  | destroy object =>
    rw [State.step] at hstep
    split at hstep
    · rename_i handle hobject
      rcases h with ⟨halive,husers⟩ | hgone
      · exact expire_inv (freeObject_alive halive hobject) hstep
      · have hfreed := (hgone.freeObject hobject).1
        rw [hfreed.expire] at hstep
        cases hstep
        exact .inr hfreed
    · cases hstep

theorem run_inv {events : List Event} (h : Inv base s)
    (hrun : Trace.run State.step s events = some t) : Inv base t :=
  Trace.run_invariant (fun _ _ _ => step_inv) h hrun

/-! ### What is lost -/

theorem start_inv {l : Loader} {driver : Driver} (hfresh : Fresh l plane)
    (hkept : Kept driver (roots plane)) : Inv (roots plane) (start plane driver) := by
  refine .inl ⟨⟨⟨?_,?_,?_⟩,plane,rfl,rfl⟩,Nat.one_pos⟩
  · have hheld : held (start plane driver) = roots plane := by
      rw [held, callHandles, start, State.objectHandles]
      simp [holds, Plane.handles, pools, hfresh.pools]
    rw [hheld]
    exact hkept
  · intro thread call hcall
    cases hcall
  · intro k hk
    cases hk

end Cpipe.Proofs.VulkanPlaneRuns
