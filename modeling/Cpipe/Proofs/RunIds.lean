import Cpipe.Proofs.EditorServer
import Mathlib.Algebra.Group.Nat.Defs

namespace Cpipe.Proofs.RunIds
open Cpipe.Server Cpipe.Server.EditorServer Cpipe.Proofs.EditorServer

/-! ### The runs of a server's lifetime -/

/-- A run id as it was handed out, with the number of pipelines accepted before it. -/
structure Issued where
  runId : UInt64
  pipeline : Nat
deriving DecidableEq, Repr

/-- The server with the runs it was asked for, in their order. -/
structure History where
  server : EditorServer := {}
  replacements : Nat := 0
  issued : List Issued := []

def accepts (s : EditorServer) (pipeline : Json) : Bool :=
  (s.replaceActivePipeline pipeline).isOk

def record (encode : UInt32 → List UInt8) (h : History) (e : Event) : History where
  server := h.server.step encode e
  replacements := match e with
    | .replace pipeline => if accepts h.server pipeline then h.replacements+1 else h.replacements
    | _ => h.replacements
  issued := match e with
    | .run _ => h.issued ++ [⟨h.server.createRunRecord.2.runId,h.replacements⟩]
    | _ => h.issued

def history (encode : UInt32 → List UInt8) (events : List Event) : History :=
  events.foldl (record encode) {}

/-! ### What a request does to the runs -/

/-- Nothing about the runs changes. -/
structure SameRuns (s t : EditorServer) : Prop where
  nextRunId : t.nextRunId = s.nextRunId
  runs : t.runs = s.runs
  created : t.created = s.created

theorem control_sameRuns (s : EditorServer) (client : Client) (payload : Json) :
    SameRuns s (s.orSame (s.onControl client payload)) := by
  rcases control_cases s client payload with ⟨pipeline,h,_⟩ | h
  · rw [h]
    exact ⟨rfl,rfl,rfl⟩
  · rw [h]
    cases readControl payload with
    | subscribe sub => exact ⟨rfl,rfl,rfl⟩
    | unsubscribe named => exact ⟨rfl,rfl,rfl⟩
    | other => exact ⟨rfl,rfl,rfl⟩

/-- A request either makes a run, accepts a pipeline or leaves the runs alone. -/
theorem record_cases (encode : UInt32 → List UInt8) (h : History) (e : Event) :
    (SameRuns h.server.createRunRecord.1 (record encode h e).server ∧
      (record encode h e).replacements = h.replacements ∧
      (record encode h e).issued = h.issued ++ [⟨h.server.nextRunId,h.replacements⟩]) ∨
    ((record encode h e).server.runs = ∅ ∧ (record encode h e).server.nextRunId = 1 ∧
      (record encode h e).server.created = h.server.created ∧
      (record encode h e).replacements = h.replacements+1 ∧
      (record encode h e).issued = h.issued) ∨
    (SameRuns h.server (record encode h e).server ∧
      (record encode h e).replacements = h.replacements ∧
      (record encode h e).issued = h.issued) := by
  cases e with
  | run now => exact .inl ⟨⟨rfl,rfl,rfl⟩,rfl,rfl⟩
  | replace pipeline =>
    cases hr : h.server.replaceActivePipeline pipeline with
    | ok t =>
      have haccepts : accepts h.server pipeline = true := by rw [accepts, hr]; rfl
      have hserver : (record encode h (.replace pipeline)).server = t := by
        simp only [record, step, hr, orSame]
      rw [hserver, replace_ok hr]
      exact .inr (.inl ⟨rfl,rfl,rfl,if_pos haccepts,rfl⟩)
    | error e =>
      have haccepts : accepts h.server pipeline = false := by rw [accepts, hr]; rfl
      have hserver : (record encode h (.replace pipeline)).server = h.server := by
        simp only [record, step, hr, orSame]
      rw [hserver]
      exact .inr (.inr ⟨⟨rfl,rfl,rfl⟩,if_neg (by simp [haccepts]),rfl⟩)
  | get runId => exact .inr (.inr ⟨⟨rfl,rfl,rfl⟩,rfl,rfl⟩)
  | opened client => exact .inr (.inr ⟨⟨rfl,rfl,rfl⟩,rfl,rfl⟩)
  | closed client => exact .inr (.inr ⟨⟨rfl,rfl,rfl⟩,rfl,rfl⟩)
  | control client payload =>
    exact .inr (.inr ⟨control_sameRuns h.server client payload,rfl,rfl⟩)

/-! ### What holds of every history -/

/-- How many of some runs were for a pipeline. -/
def runsOf (pipeline : Nat) (issued : List Issued) : Nat :=
  issued.countP (fun r => r.pipeline = pipeline)

/-- Runs for one pipeline have consecutive ids from one, and a record belongs to the first run of
the current pipeline that got its id. -/
structure Numbered (h : History) : Prop where
  counter : h.server.nextRunId = 1 + UInt64.ofNat (runsOf h.replacements h.issued)
  number : ∀ i r, h.issued[i]? = some r →
    r.runId = 1 + UInt64.ofNat (runsOf r.pipeline (h.issued.take i))
  created : h.server.created = h.issued.length
  past : ∀ r ∈ h.issued, r.pipeline ≤ h.replacements
  next : ∀ i r, h.issued[i]? = some r → r.pipeline = h.replacements →
    h.server.nextRunId = r.runId + UInt64.ofNat (h.issued.length - i)
  apart : ∀ i j r q, i < j → h.issued[i]? = some r → h.issued[j]? = some q →
    r.pipeline = q.pipeline → q.runId = r.runId + UInt64.ofNat (j - i)
  found : ∀ id (rec : RunRecord), h.server.runs.lookup id = some rec →
    rec = ⟨"completed",[],rec.serial⟩ ∧ h.issued[rec.serial]? = some ⟨id,h.replacements⟩ ∧
    ∀ i : Nat, h.issued[i]? = some ⟨id,h.replacements⟩ → rec.serial ≤ i
  kept : ∀ (i : Nat) id, h.issued[i]? = some ⟨id,h.replacements⟩ → id ∈ h.server.runs

theorem getElem?_concat_cases {xs : List Issued} {x r : Issued} {i : Nat}
    (h : (xs ++ [x])[i]? = some r) : xs[i]? = some r ∨ (i = xs.length ∧ r = x) := by
  rcases Nat.lt_or_ge i xs.length with hi | hi
  · rw [List.getElem?_append_left hi] at h
    exact .inl h
  · rw [List.getElem?_append_right hi] at h
    obtain ⟨hi',hx⟩ := List.getElem?_eq_some_iff.mp h
    simp only [List.length_singleton] at hi'
    refine .inr ⟨by omega,?_⟩
    simpa using hx.symm

theorem advance (a : UInt64) (k : Nat) : a + UInt64.ofNat k + 1 = a + UInt64.ofNat (k+1) := by
  rw [UInt64.ofNat_add, UInt64.add_assoc]
  rfl

/-- The counter comes back to a value after a full turn only. -/
theorem full_turn {a : UInt64} {k : Nat} (hk : 0 < k) (h : a + UInt64.ofNat k = a) : 2^64 ≤ k := by
  have hnat := congrArg UInt64.toNat h
  rw [UInt64.toNat_add, UInt64.toNat_ofNat'] at hnat
  have := a.toNat_lt
  omega

/-- A record is there from before, or it is the new run's and its id was free. -/
theorem lookup_created {s : EditorServer} {id : UInt64} {rec : RunRecord}
    (h : s.createRunRecord.1.runs.lookup id = some rec) :
    s.runs.lookup id = some rec ∨
      (id = s.nextRunId ∧ s.nextRunId ∉ s.runs ∧ rec = ⟨"completed",[],s.created⟩) := by
  simp only [createRunRecord] at h
  by_cases hused : s.nextRunId ∈ s.runs
  · rw [if_pos hused] at h
    exact .inl h
  · rw [if_neg hused] at h
    by_cases hid : id = s.nextRunId
    · subst hid
      rw [AList.lookup_insert] at h
      exact .inr ⟨rfl,hused,(Option.some.inj h).symm⟩
    · rw [AList.lookup_insert_ne hid] at h
      exact .inl h

theorem mem_created {s : EditorServer} {id : UInt64} :
    id ∈ s.createRunRecord.1.runs ↔ id = s.nextRunId ∨ id ∈ s.runs := by
  simp only [createRunRecord]
  by_cases hused : s.nextRunId ∈ s.runs
  · rw [if_pos hused]
    exact ⟨.inr,fun h => h.elim (fun hid => hid ▸ hused) (fun h => h)⟩
  · rw [if_neg hused, AList.mem_insert]

theorem runsOf_concat (pipeline : Nat) (issued : List Issued) (r : Issued) :
    runsOf pipeline (issued ++ [r]) = runsOf pipeline issued +
      if r.pipeline = pipeline then 1 else 0 := by
  simp [runsOf, List.countP_append, List.countP_singleton]

theorem numbered_start : Numbered {} where
  counter := rfl
  number := by simp
  created := rfl
  past := by simp
  next := by simp
  apart := by simp
  found := by simp
  kept := by simp

/-- A run gets the next id of the current pipeline. -/
theorem numbered_run {h h' : History} (hn : Numbered h)
    (hs : SameRuns h.server.createRunRecord.1 h'.server) (hr : h'.replacements = h.replacements)
    (hi : h'.issued = h.issued ++ [⟨h.server.nextRunId,h.replacements⟩]) : Numbered h' := by
  have hnext : h'.server.nextRunId = h.server.nextRunId+1 := hs.nextRunId
  have hlen : h'.issued.length = h.issued.length+1 := by rw [hi, List.length_append]; rfl
  refine ⟨?_,?_,?_,?_,?_,?_,?_,?_⟩
  · rw [hnext, hi, hr, runsOf_concat, if_pos rfl, hn.counter, advance]
  · intro i r hget
    rw [hi] at hget ⊢
    rcases getElem?_concat_cases hget with hget | ⟨rfl,rfl⟩
    · have hlt := (List.getElem?_eq_some_iff.mp hget).1
      rw [List.take_append_of_le_length (Nat.le_of_lt hlt)]
      exact hn.number i r hget
    · rw [List.take_left]
      exact hn.counter
  · rw [hs.created, hlen]
    exact congrArg (· + 1) hn.created
  · intro r hm
    rw [hi, List.mem_append] at hm
    rw [hr]
    rcases hm with hm | hm
    · exact hn.past r hm
    · rw [List.mem_singleton.mp hm]
  · intro i r hget hp
    rw [hi] at hget
    rw [hnext, hlen]
    rcases getElem?_concat_cases hget with hget | ⟨rfl,rfl⟩
    · have hlt := (List.getElem?_eq_some_iff.mp hget).1
      rw [hn.next i r hget (hp.trans hr), advance, Nat.succ_sub (Nat.le_of_lt hlt)]
    · rw [Nat.add_sub_cancel_left]
      rfl
  · intro i j r q hij hri hqj hp
    rw [hi] at hri hqj
    rcases getElem?_concat_cases hqj with hqj | ⟨rfl,rfl⟩
    · have hj := (List.getElem?_eq_some_iff.mp hqj).1
      rw [List.getElem?_append_left (by omega)] at hri
      exact hn.apart i j r q hij hri hqj hp
    · rw [List.getElem?_append_left hij] at hri
      exact hn.next i r hri hp
  · intro id rec hlook
    rw [hs.runs] at hlook
    rw [hi, hr]
    rcases lookup_created hlook with hold | ⟨rfl,hunused,rfl⟩
    · obtain ⟨hrec,hserial,hfirst⟩ := hn.found id rec hold
      have hlt := (List.getElem?_eq_some_iff.mp hserial).1
      refine ⟨hrec,?_,?_⟩
      · rw [List.getElem?_append_left hlt]
        exact hserial
      · intro i hget
        rcases getElem?_concat_cases hget with hget | ⟨rfl,_⟩
        · exact hfirst i hget
        · exact Nat.le_of_lt hlt
    · refine ⟨rfl,?_,?_⟩
      · rw [hn.created]
        exact List.getElem?_concat_length ..
      · intro i hget
        rcases getElem?_concat_cases hget with hget | ⟨rfl,_⟩
        · exact absurd (hn.kept i _ hget) hunused
        · exact Nat.le_of_eq hn.created
  · intro i id hget
    rw [hi, hr] at hget
    rw [hs.runs, mem_created]
    rcases getElem?_concat_cases hget with hget | ⟨_,hid⟩
    · exact .inr (hn.kept i id hget)
    · exact .inl (Issued.mk.inj hid).1

/-- A new pipeline starts without runs. -/
theorem numbered_replace {h h' : History} (hn : Numbered h) (hruns : h'.server.runs = ∅)
    (hnext : h'.server.nextRunId = 1) (hc : h'.server.created = h.server.created) (hr : h'.replacements = h.replacements+1)
    (hi : h'.issued = h.issued) : Numbered h' := by
  have hnone : ∀ (i : Nat) r, h'.issued[i]? = some r → r.pipeline ≠ h'.replacements := by
    intro i r hget
    rw [hi] at hget
    have := hn.past r (List.mem_of_getElem? hget)
    omega
  refine ⟨?_,?_,?_,?_,?_,?_,?_,?_⟩
  · have hzero : runsOf h'.replacements h'.issued = 0 := by
      refine List.countP_eq_zero.mpr fun r hm => ?_
      obtain ⟨i,hget⟩ := List.getElem?_of_mem hm
      simpa using hnone i r hget
    rw [hnext, hzero]
    rfl
  · rw [hi]
    exact hn.number
  · rw [hc, hi]
    exact hn.created
  · intro r hm
    rw [hi] at hm
    have := hn.past r hm
    omega
  · intro i r hget hp
    exact absurd hp (hnone i r hget)
  · rw [hi]
    exact hn.apart
  · intro id rec hlook
    rw [hruns] at hlook
    cases hlook
  · intro i id hget
    exact absurd rfl (hnone i _ hget)

theorem record_numbered (encode : UInt32 → List UInt8) {h : History} (hn : Numbered h)
    (e : Event) : Numbered (record encode h e) := by
  rcases record_cases encode h e with ⟨hs,hr,hi⟩ | ⟨hruns,hnext,hc,hr,hi⟩ | ⟨hs,hr,hi⟩
  · exact numbered_run hn hs hr hi
  · exact numbered_replace hn hruns hnext hc hr hi
  · refine ⟨?_,?_,?_,?_,?_,?_,?_,?_⟩
    · rw [hs.nextRunId, hi, hr]
      exact hn.counter
    · rw [hi]
      exact hn.number
    · rw [hs.created, hi]
      exact hn.created
    · rw [hi, hr]
      exact hn.past
    · rw [hi, hr, hs.nextRunId]
      exact hn.next
    · rw [hi]
      exact hn.apart
    · rw [hi, hr, hs.runs]
      exact hn.found
    · rw [hi, hr, hs.runs]
      exact hn.kept

theorem history_numbered (encode : UInt32 → List UInt8) (events : List Event) :
    Numbered (history encode events) := by
  have hfrom : ∀ (events : List Event) (h : History), Numbered h →
      Numbered (events.foldl (record encode) h) := by
    intro events
    induction events with
    | nil => exact fun h hn => hn
    | cons e events ih => exact fun h hn => ih _ (record_numbered encode hn e)
  exact hfrom events {} numbered_start

theorem record_issued (encode : UInt32 → List UInt8) (h : History) (e : Event) :
    h.issued <+: (record encode h e).issued := by
  rcases record_cases encode h e with ⟨_,_,hi⟩ | ⟨_,_,_,_,hi⟩ | ⟨_,_,hi⟩
  · exact hi ▸ List.prefix_append _ _
  · exact hi ▸ List.prefix_refl _
  · exact hi ▸ List.prefix_refl _

/-- Ids that were handed out stay in the history. -/
theorem history_issued (encode : UInt32 → List UInt8) (events later : List Event) :
    (history encode events).issued <+: (history encode (events ++ later)).issued := by
  rw [history, history, List.foldl_append]
  generalize events.foldl (record encode) {} = h
  induction later generalizing h with
  | nil => exact List.prefix_refl _
  | cons e later ih => exact (record_issued encode h e).trans (ih _)

/-- An id belongs to one run of its pipeline, unless the counter has made a full turn: the runs of
each pipeline are numbered from one. While the pipeline is active a lookup gives that run's record, and once it is replaced
nothing or the record of a run for the active pipeline. -/
theorem run_ids_per_pipeline (encode : UInt32 → List UInt8) (events later : List Event) (i : Nat)
    (r : Issued) (hrun : (history encode events).issued[i]? = some r) :
    let h := history encode (events ++ later)
    h.issued[i]? = some r ∧
    r.runId = 1 + UInt64.ofNat (runsOf r.pipeline (h.issued.take i)) ∧
    (∀ j q, i < j → h.issued[j]? = some q → q.pipeline = r.pipeline → q.runId = r.runId →
      i + 2^64 ≤ j) ∧
    (r.pipeline = h.replacements → ∃ k,
      h.server.runRecord r.runId = some ⟨r.runId,⟨"completed",[],k⟩⟩ ∧ (k = i ∨ k + 2^64 ≤ i)) ∧
    (r.pipeline ≠ h.replacements → ∀ reply, h.server.runRecord r.runId = some reply →
      h.issued[reply.record.serial]? = some ⟨r.runId,h.replacements⟩) := by
  intro h
  have hn : Numbered h := history_numbered encode (events ++ later)
  have hget : h.issued[i]? = some r := by
    obtain ⟨more,hmore⟩ := history_issued encode events later
    rw [← hmore, List.getElem?_append_left (List.getElem?_eq_some_iff.mp hrun).1]
    exact hrun
  have hturn : ∀ i j : Nat, ∀ r q, i < j → h.issued[i]? = some r → h.issued[j]? = some q →
      r.pipeline = q.pipeline → q.runId = r.runId → i + 2^64 ≤ j := by
    intro i j r q hij hi hj hp hid
    have := full_turn (Nat.sub_pos_of_lt hij) ((hn.apart i j r q hij hi hj hp).symm.trans hid)
    omega
  refine ⟨hget,hn.number i r hget,?_,?_,?_⟩
  · intro j q hij hj hp hid
    exact hturn i j r q hij hget hj hp.symm hid
  · intro hp
    have hcurrent : h.issued[i]? = some ⟨r.runId,h.replacements⟩ := by
      rw [hget, ← hp]
    obtain ⟨rec,hlook⟩ := Option.isSome_iff_exists.mp
      (AList.lookup_isSome.mpr (hn.kept i r.runId hcurrent))
    obtain ⟨hrec,hserial,hfirst⟩ := hn.found r.runId rec hlook
    refine ⟨rec.serial,?_,?_⟩
    · rw [runRecord, hlook, ← hrec]
      rfl
    · rcases Nat.eq_or_lt_of_le (hfirst i hcurrent) with heq | hlt
      · exact .inl heq
      · exact .inr (hturn rec.serial i _ _ hlt hserial hcurrent rfl rfl)
  · intro _ reply hreply
    obtain ⟨rec,hlook,rfl⟩ := Option.map_eq_some_iff.mp hreply
    exact (hn.found r.runId rec hlook).2.1

def emptyPipeline : Json :=
  .object [("version",.string "0.4"),("nodes",.array []),("edges",.array [])]

/-- Two runs, of which a replacement forgets, and a run with the first id again, which is looked
up. -/
theorem run_ids_per_pipeline_replaced :
    let events := [.run 0,.run 1,.replace emptyPipeline,.run 2]
    (history (fun _ => []) events).issued = [⟨1,0⟩,⟨2,0⟩,⟨1,1⟩] ∧
    (history (fun _ => []) (events ++ [.get 1])).server.runRecord 1 =
      some ⟨1,⟨"completed",[],2⟩⟩ := by
  intro events
  have hissued : (history (fun _ => []) events).issued = [⟨1,0⟩,⟨2,0⟩,⟨1,1⟩] := by decide
  obtain ⟨_,_,_,hactive,_⟩ := run_ids_per_pipeline (fun _ => []) events [.get 1] 2 ⟨1,1⟩
    (by rw [hissued]; rfl)
  obtain ⟨k,hk,rfl | hle⟩ := hactive rfl
  · exact ⟨hissued,hk⟩
  · omega

/-- After a replacement the next run gets the first run's id, and a lookup of that id
gives the record of the later run. -/
theorem run_id_reused :
    let h := history (fun _ => []) [.run 0,.replace emptyPipeline,.run 1]
    h.issued = [⟨1,0⟩,⟨1,1⟩] ∧ h.server.runRecord 1 = some ⟨1,⟨"completed",[],1⟩⟩ := by
  decide

end Cpipe.Proofs.RunIds
