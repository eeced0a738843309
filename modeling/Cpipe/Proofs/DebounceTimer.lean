import Cpipe.Server.DebounceTimer
import Mathlib.Data.List.Chain

namespace Cpipe.Proofs.DebounceTimer
open Cpipe.Server.DebounceTimer Library

variable {s t : State} {e : Event} {log : List Mark}

/-! ### What a log looks like -/

def Mark.time : Mark → Nat
  | .updated time => time
  | .decided time => time

/-- A mark and a later one: a decision waits for the delay. -/
def Apart : Mark → Mark → Prop
  | .updated u, .decided t => u + delay ≤ t
  | a, b => Mark.time a ≤ Mark.time b

/-- Two marks in a row. -/
def Alternate : Mark → Mark → Prop
  | .decided _, .decided _ => False
  | _, _ => True

/-- The log ends with an update, which no decision has answered. -/
def Open (log : List Mark) : Prop := ∃ u, .updated u ∈ log.getLast?

structure Inv (s : State) : Prop where
  past : ∀ m ∈ s.log, Mark.time m ≤ s.clock
  bound : s.deadline ≤ s.clock + delay
  waits : ∀ u, .updated u ∈ s.log → u + delay ≤ s.deadline
  apart : s.log.Pairwise Apart
  alternate : s.log.IsChain Alternate
  answered : s.pending = true ↔ Open s.log
  timed : ∀ deadline, s.loop = .timed deadline → s.pending = true ∧ deadline ≤ s.deadline
  woken : s.loop = .waiting → s.pending = true → s.notified = true ∨ 0 < s.owed

theorem open_updated (log : List Mark) (u : Nat) : Open (log ++ [.updated u]) :=
  ⟨u,by simp⟩

theorem not_open_decided (log : List Mark) (t : Nat) : ¬ Open (log ++ [.decided t]) := by
  rintro ⟨u,hu⟩
  simp at hu

theorem enterInner_inv (h : Inv s) : Inv (enterInner s) := by
  refine ⟨h.past,h.bound,h.waits,h.apart,h.alternate,h.answered,?_,?_⟩
  · intro deadline hloop
    simp only [enterInner] at hloop
    split at hloop
    · rename_i hpending
      obtain rfl := Loop.timed.inj hloop
      exact ⟨hpending,Nat.le_refl _⟩
    · cases hloop
  · intro hloop hpending
    simp only [enterInner, if_pos (show s.pending = true from hpending)] at hloop
    cases hloop

theorem scheduled_inv (h : Inv s) : Inv { s with
    pending := true
    deadline := s.clock+delay
    owed := s.owed+1
    log := s.log ++ [.updated s.clock] } := by
  refine ⟨?_,Nat.le_refl _,?_,?_,?_,?_,?_,fun _ _ => .inr (Nat.succ_pos _)⟩
  · intro m hm
    rcases List.mem_append.mp hm with hm | hm
    · exact h.past m hm
    · rw [List.mem_singleton.mp hm]
      exact Nat.le_refl _
  · intro u hu
    have hu' : u ≤ s.clock := by
      rcases List.mem_append.mp hu with hu | hu
      · exact h.past _ hu
      · exact Nat.le_of_eq (Mark.updated.inj (List.mem_singleton.mp hu))
    exact Nat.add_le_add_right hu' delay
  · refine List.pairwise_append.mpr ⟨h.apart,List.pairwise_singleton _ _,?_⟩
    intro a ha b hb
    obtain rfl := List.mem_singleton.mp hb
    have hpast := h.past a ha
    cases a <;> exact hpast
  · refine List.isChain_append.mpr ⟨h.alternate,List.isChain_singleton _,?_⟩
    intro a _ b hb
    obtain rfl : Mark.updated s.clock = b := by simpa using hb
    cases a <;> trivial
  · exact iff_of_true rfl (open_updated _ _)
  · intro deadline hloop
    exact ⟨rfl,Nat.le_trans (h.timed deadline hloop).2 h.bound⟩

theorem decided_inv (h : Inv s) (hloop : s.loop = .timed s.deadline)
    (htime : s.deadline ≤ s.clock) : Inv { s with
      pending := false
      loop := .unlocked
      notified := false
      log := s.log ++ [.decided s.clock] } := by
  refine ⟨?_,h.bound,?_,?_,?_,?_,by simp,by simp⟩
  · intro m hm
    rcases List.mem_append.mp hm with hm | hm
    · exact h.past m hm
    · rw [List.mem_singleton.mp hm]
      exact Nat.le_refl _
  · intro u hu
    exact h.waits u (by simpa using hu)
  · refine List.pairwise_append.mpr ⟨h.apart,List.pairwise_singleton _ _,?_⟩
    intro a ha b hb
    obtain rfl := List.mem_singleton.mp hb
    cases a with
    | updated u => exact Nat.le_trans (h.waits u ha) htime
    | decided t => exact h.past _ ha
  · refine List.isChain_append.mpr ⟨h.alternate,List.isChain_singleton _,?_⟩
    intro a ha b hb
    obtain rfl : Mark.decided s.clock = b := by simpa using hb
    -- an update is pending, so the log ends with one
    obtain ⟨u,hu⟩ := h.answered.mp (h.timed _ hloop).1
    obtain rfl := Option.mem_unique ha hu
    trivial
  · exact iff_of_false (by simp) (not_open_decided _ _)

theorem step_inv (h : Inv s) (hs : step s e = some t) : Inv t := by
  cases e with
  | elapse span =>
    obtain rfl := Option.some.inj hs
    refine ⟨?_,?_,h.waits,h.apart,h.alternate,h.answered,h.timed,h.woken⟩
    · intro m hm
      exact Nat.le_trans (h.past m hm) (Nat.le_add_right _ _)
    · exact Nat.le_trans h.bound (Nat.add_le_add_right (Nat.le_add_right _ _) _)
  | scheduleParamRerun =>
    obtain rfl := Option.some.inj hs
    exact scheduled_inv h
  | notifyOne =>
    simp only [step] at hs
    split at hs
    · obtain rfl := Option.some.inj hs
      refine ⟨h.past,h.bound,h.waits,h.apart,h.alternate,h.answered,h.timed,?_⟩
      intro hloop _
      have hwaiting : s.loop = .waiting := hloop
      exact .inl (by simp [hwaiting])
    · cases hs
  | wake =>
    simp only [step] at hs
    split at hs
    · cases hs
    · obtain rfl := Option.some.inj hs
      exact enterInner_inv h
    · rename_i deadline hloop
      split at hs
      · obtain rfl := Option.some.inj hs
        exact enterInner_inv h
      · obtain rfl := Option.some.inj hs
        refine ⟨h.past,h.bound,h.waits,h.apart,h.alternate,h.answered,h.timed,?_⟩
        intro hwaiting
        exact absurd (hloop.symm.trans hwaiting) (by simp)
  | timeout =>
    simp only [step] at hs
    split at hs
    · rename_i deadline hloop
      split at hs
      · rename_i htime
        split at hs
        · obtain rfl := Option.some.inj hs
          exact enterInner_inv h
        · rename_i heq
          obtain rfl := not_not.mp heq
          obtain rfl := Option.some.inj hs
          exact decided_inv h hloop htime
      · cases hs
    · cases hs
  | relock =>
    simp only [step] at hs
    split at hs
    · obtain rfl := Option.some.inj hs
      exact enterInner_inv h
    · cases hs

theorem start_inv : Inv {} := by
  refine ⟨by simp,Nat.zero_le _,by simp,.nil,.nil,?_,by simp,by simp⟩
  simp [Open]

theorem run_inv {events : List Event} (h : run events = some s) : Inv s :=
  Trace.run_invariant (fun _ _ _ => step_inv) start_inv h

/-! ### Bursts -/

def updates (log : List Mark) : List Nat :=
  log.filterMap (fun m => match m with
    | .updated u => some u
    | .decided _ => none)

def decisions (log : List Mark) : List Nat :=
  log.filterMap (fun m => match m with
    | .updated _ => none
    | .decided t => some t)

/-- A part of the log that begins with an update and has its updates less than the delay
apart. -/
structure Burst (log : List Mark) : Prop where
  first : ∃ u, .updated u ∈ log.head?
  close : (updates log).IsChain (fun u v => v < u + delay)

/-- A decision ends a burst. -/
theorem burst_decisions (hb : Burst log) (hapart : log.Pairwise Apart)
    (halternate : log.IsChain Alternate) :
    (decisions log).length ≤ 1 ∧ (¬ Open log → (decisions log).length = 1) := by
  obtain ⟨⟨u,hfirst⟩,hclose⟩ := hb
  cases log with
  | nil => simp at hfirst
  | cons m rest =>
    obtain rfl : m = .updated u := by simpa using hfirst
    induction rest generalizing u with
    | nil => exact ⟨Nat.zero_le _,fun h => absurd (open_updated [] u) h⟩
    | cons m rest ih =>
      obtain ⟨hfrom,hapart⟩ := List.pairwise_cons.mp hapart
      obtain ⟨_,halternate⟩ := List.isChain_cons_cons.mp halternate
      cases m with
      | updated v =>
        have hclose' := (List.isChain_cons_cons.mp hclose).2
        obtain ⟨hle,heq⟩ := ih v hapart halternate hclose' (by simp)
        exact ⟨hle,fun h => heq (fun ho => h (by simpa [Open] using ho))⟩
      | decided t =>
        cases rest with
        | nil => exact ⟨Nat.le_refl _,fun _ => rfl⟩
        | cons m rest =>
          cases m with
          | decided t' => exact absurd (List.isChain_cons_cons.mp halternate).1 (fun h => h)
          | updated v =>
            -- the next update comes behind the decision and is too late for the burst
            have hwait : u + delay ≤ t := hfrom _ List.mem_cons_self
            have hafter : t ≤ v := (List.pairwise_cons.mp hapart).1 _ List.mem_cons_self
            have hsoon : v < u + delay := (List.isChain_cons_cons.mp hclose).1
            omega

/-- Between two decisions there is an update. -/
theorem update_between {before mid after : List Mark} {t t' : Nat}
    (h : (before ++ .decided t :: mid ++ .decided t' :: after).IsChain Alternate) :
    ∃ u, .updated u ∈ mid := by
  rw [List.append_assoc] at h
  have hrest := (List.isChain_append.mp h).2.1
  cases mid with
  | nil => exact absurd (List.isChain_cons_cons.mp hrest).1 (fun h => h)
  | cons m mid =>
    cases m with
    | updated u => exact ⟨u,List.mem_cons_self⟩
    | decided t => exact absurd (List.isChain_cons_cons.mp hrest).1 (fun h => h)

/-! ### The loop comes to rest -/

/-- What the loop and the calls have to do without a spurious wake-up. -/
def owing (s : State) : Event → Bool
  | .notifyOne => true
  | .wake => s.notified
  | .timeout => true
  | .relock => true
  | _ => false

/-- Nothing is left to do and the last deadline is over. -/
structure AtRest (s : State) : Prop where
  late : s.deadline ≤ s.clock
  idle : ∀ e, owing s e = true → step s e = none

theorem AtRest.answered (hi : Inv s) (h : AtRest s) : ¬ Open s.log := by
  rw [← hi.answered]
  intro hpending
  cases hl : s.loop with
  | unlocked => simpa [step, hl] using h.idle .relock rfl
  | timed deadline =>
    have hle := Nat.le_trans (hi.timed deadline hl).2 h.late
    have htimeout := h.idle .timeout rfl
    simp only [step, hl, if_pos hle] at htimeout
    split at htimeout <;> cases htimeout
  | waiting =>
    rcases hi.woken hl hpending with hn | ho
    · simpa [step, hl] using h.idle .wake hn
    · simpa [step, ho] using h.idle .notifyOne rfl

/-- What the loop has left to do for the updates so far. -/
def stage (s : State) : Nat :=
  match s.loop, s.pending with
  | .unlocked, true => 4
  | .waiting, true => 4
  | .timed deadline, _ => if s.deadline = deadline then 2 else 3
  | .unlocked, false => 1
  | .waiting, false => 0

def rank (s : State) : Nat := 3 * s.owed + (if s.notified then 1 else 0) + stage s

def Owed (s t : State) : Prop := ∃ e, owing s e = true ∧ step s e = some t

theorem stage_enterInner (s : State) : stage (enterInner s) = if s.pending then 2 else 0 := by
  cases hp : s.pending <;> simp [stage, enterInner, hp]

theorem owed_rank (h : Owed s t) : rank t < rank s := by
  obtain ⟨e,howing,hs⟩ := h
  cases e with
  | elapse | scheduleParamRerun => cases howing
  | notifyOne =>
    simp only [step] at hs
    split at hs
    · obtain rfl := Option.some.inj hs
      have hstage : stage { s with
          owed := s.owed-1, notified := s.notified || s.loop ≠ .unlocked } = stage s := rfl
      simp only [rank, hstage]
      split <;> split <;> omega
    · cases hs
  | wake =>
    have hnotified : s.notified = true := howing
    have henter : rank (enterInner s) ≤ 3 * s.owed + stage s → rank (enterInner s) < rank s := by
      intro hle
      simp only [rank, hnotified, if_true] at hle ⊢
      omega
    simp only [step] at hs
    split at hs
    · cases hs
    · rename_i hloop
      obtain rfl := Option.some.inj hs
      refine henter ?_
      rw [rank, stage_enterInner]
      cases hp : s.pending <;> simp [stage, hloop, hp, enterInner]
    · rename_i deadline hloop
      split at hs
      · rename_i hne
        obtain rfl := Option.some.inj hs
        refine henter ?_
        rw [rank, stage_enterInner]
        cases hp : s.pending <;> simp [stage, hloop, hne, enterInner]
      · obtain rfl := Option.some.inj hs
        have hstage : stage { s with notified := false } = stage s := rfl
        simp only [rank, hstage, hnotified, if_true, Bool.false_eq_true, if_false]
        omega
  | timeout =>
    simp only [step] at hs
    split at hs
    · rename_i deadline hloop
      split at hs
      · split at hs
        · rename_i hne
          obtain rfl := Option.some.inj hs
          have hstage : stage s = 3 := by simp [stage, hloop, hne]
          rw [rank, rank, stage_enterInner, hstage]
          cases hp : s.pending <;> simp [enterInner] <;> omega
        · rename_i heq
          obtain rfl := Option.some.inj hs
          have hstage : stage s = 2 := by simp [stage, hloop, not_not.mp heq]
          change 3 * s.owed + 0 + 1 < rank s
          rw [rank, hstage]
          omega
      · cases hs
    · cases hs
  | relock =>
    simp only [step] at hs
    split at hs
    · rename_i hloop
      obtain rfl := Option.some.inj hs
      rw [rank, rank, stage_enterInner]
      cases hp : s.pending <;> simp [enterInner, stage, hloop, hp] <;> omega
    · cases hs

theorem owed_keeps (h : Owed s t) :
    t.clock = s.clock ∧ t.deadline = s.deadline ∧ updates t.log = updates s.log := by
  obtain ⟨e,howing,hs⟩ := h
  cases e with
  | elapse | scheduleParamRerun => cases howing
  | notifyOne | wake | timeout | relock =>
    simp only [step] at hs
    repeat' split at hs
    all_goals cases hs
    all_goals simp [enterInner, updates]

theorem comes_to_rest (h : s.deadline ≤ s.clock) :
    ∃ t, Relation.ReflTransGen Owed s t ∧ AtRest t ∧ updates t.log = updates s.log := by
  obtain ⟨t,hrun,hfinal⟩ := Trace.exists_final rank (fun _ _ => owed_rank) s
  have hkeeps : t.clock = s.clock ∧ t.deadline = s.deadline ∧ updates t.log = updates s.log := by
    clear hfinal
    induction hrun with
    | refl => exact ⟨rfl,rfl,rfl⟩
    | tail _ hstep ih =>
      obtain ⟨hclock,hdeadline,hlog⟩ := owed_keeps hstep
      exact ⟨hclock.trans ih.1,hdeadline.trans ih.2.1,hlog.trans ih.2.2⟩
  obtain ⟨hclock,hdeadline,hlog⟩ := hkeeps
  refine ⟨t,hrun,⟨by rw [hclock, hdeadline]; exact h,?_⟩,hlog⟩
  intro e howing
  by_contra hstep
  obtain ⟨u,hu⟩ := Option.ne_none_iff_exists'.mp hstep
  exact hfinal u ⟨e,howing,hu⟩

/-- A decision comes the delay behind every update before it, and no decision without an
update. A burst has one decision at most, and has it when the loop has come to rest, which it
does once the deadline is over. -/
theorem debounce_timing (events : List Event) (s : State) (h : run events = some s) :
    (∀ before t after, s.log = before ++ .decided t :: after →
      ∀ u, .updated u ∈ before → u + delay ≤ t) ∧
    (∀ before t mid t' after, s.log = before ++ .decided t :: mid ++ .decided t' :: after →
      ∃ u, .updated u ∈ mid) ∧
    (∀ before burst, s.log = before ++ burst → Burst burst →
      (decisions burst).length ≤ 1 ∧ (AtRest s → (decisions burst).length = 1)) ∧
    (s.deadline ≤ s.clock →
      ∃ t, Relation.ReflTransGen Owed s t ∧ AtRest t ∧ updates t.log = updates s.log) := by
  have hi := run_inv h
  refine ⟨?_,?_,?_,comes_to_rest⟩
  · intro before t after hlog u hu
    have hapart := hi.apart
    rw [hlog] at hapart
    exact (List.pairwise_append.mp hapart).2.2 _ hu _ List.mem_cons_self
  · intro before t mid t' after hlog
    exact update_between (hlog ▸ hi.alternate)
  · intro before burst hlog hburst
    have hapart := hi.apart
    have halternate := hi.alternate
    rw [hlog] at hapart halternate
    obtain ⟨hle,heq⟩ := burst_decisions hburst (List.pairwise_append.mp hapart).2.1
      (List.isChain_append.mp halternate).2.1
    refine ⟨hle,fun hrest => heq (fun hopen => hrest.answered hi ?_)⟩
    obtain ⟨u,hu⟩ := hopen
    refine ⟨u,?_⟩
    rw [hlog, List.getLast?_append, hu]
    rfl

/-- Two updates 100 ms apart and a wake-up at the first deadline. -/
def pairEvents : List Event :=
  [.relock,.scheduleParamRerun,.notifyOne,.wake,.elapse 100000000,.scheduleParamRerun,.notifyOne,
    .elapse 100000000,.timeout,.elapse 100000000,.timeout,.relock]

theorem debounce_timing_pair :
    ∃ s, run pairEvents = some s ∧
      s.log = [.updated 0,.updated 100000000,.decided 300000000] ∧
      (decisions s.log).length ≤ 1 := by
  refine ⟨_,rfl,rfl,?_⟩
  have hburst : Burst [.updated 0,.updated 100000000,.decided 300000000] :=
    ⟨⟨0,rfl⟩,by simp [updates, delay]⟩
  exact ((debounce_timing pairEvents _ rfl).2.2.1 [] _ rfl hburst).1

end Cpipe.Proofs.DebounceTimer
