import Mathlib.Data.Nat.Digits.Defs
import Cpipe.Proofs.EditorConnections
import Cpipe.Proofs.RunIds

namespace Cpipe.Proofs.EditorRuns
open Cpipe.Server Cpipe.Server.EditorServer Cpipe.Server.EditorRequests Library
open Cpipe.Proofs.EditorRequests Cpipe.Proofs.EditorConnections

variable {json : JsonLibrary} {encode : UInt32 → List UInt8} {server : EditorServer}

/-! ### Run ids in a URL -/

def digitByte (d : Nat) : UInt8 := UInt8.ofNat (d + 0x30)

/-- A number as `std::to_string` writes it. -/
def decimal (n : Nat) : List UInt8 :=
  if n = 0 then [0x30] else (Nat.digits 10 n).reverse.map digitByte

theorem digitByte_toNat {d : Nat} (h : d < 10) : (digitByte d).toNat = d + 0x30 := by
  rw [digitByte, UInt8.toNat_ofNat']
  omega

theorem isDigit_digitByte {d : Nat} (h : d < 10) : isDigit (digitByte d) = true := by
  have hnat := digitByte_toNat h
  simp only [isDigit, UInt8.le_iff_toNat_le, hnat, decide_eq_true_eq]
  exact ⟨Nat.le_add_left _ _,by simp; omega⟩

theorem digitsValue_append (digits : List UInt8) (digit : UInt8) :
    digitsValue (digits ++ [digit]) = digitsValue digits * 10 + (digit.toNat - 0x30) := by
  simp [digitsValue]

theorem digitsValue_decimal (digits : List Nat) (h : ∀ d ∈ digits, d < 10) :
    digitsValue (digits.reverse.map digitByte) = Nat.ofDigits 10 digits := by
  induction digits with
  | nil => rfl
  | cons d digits ih =>
    rw [List.reverse_cons, List.map_append, List.map_singleton, digitsValue_append,
      ih (fun x hx => h x (List.mem_cons_of_mem _ hx)), digitByte_toNat (h d List.mem_cons_self),
      Nat.ofDigits_cons]
    simp
    omega

theorem decimal_digits (n : Nat) : decimal n ≠ [] ∧ (decimal n).all isDigit = true ∧
    digitsValue (decimal n) = n := by
  unfold decimal
  split
  · subst n
    exact ⟨by simp,by decide,by decide⟩
  · have hlt : ∀ d ∈ Nat.digits 10 n, d < 10 := fun d hd => Nat.digits_lt_base (by omega) hd
    refine ⟨?_,?_,?_⟩
    · simpa using Nat.digits_ne_nil_iff_ne_zero.mpr ‹n ≠ 0›
    · rw [List.all_eq_true]
      intro b hb
      obtain ⟨d,hd,rfl⟩ := List.mem_map.mp hb
      exact isDigit_digitByte (hlt d (List.mem_reverse.mp hd))
    · rw [digitsValue_decimal _ hlt, Nat.ofDigits_digits]

/-- Digits are neither blanks nor signs. -/
theorem readUnsigned_digits {digits : List UInt8} (hne : digits ≠ [])
    (hall : digits.all isDigit = true) (hlt : digitsValue digits < 2^64) :
    readUnsigned digits = some (UInt64.ofNat (digitsValue digits)) := by
  cases digits with
  | nil => exact absurd rfl hne
  | cons b digits =>
    have hb : isDigit b = true := by simp_all
    have hrange : 0x30 ≤ b.toNat ∧ b.toNat ≤ 0x39 := by
      simpa [isDigit, UInt8.le_iff_toNat_le] using hb
    have hspace : isSpace b = false := by
      simp only [isSpace, decide_eq_false_iff_not, not_or, not_and, UInt8.le_iff_toNat_le]
      refine ⟨?_,?_⟩
      · rintro rfl
        exact absurd hrange.1 (by decide)
      · intro _
        simp
        omega
    have hminus : b ≠ 0x2d := by
      rintro rfl
      exact absurd hrange.1 (by decide)
    have hplus : b ≠ 0x2b := by
      rintro rfl
      exact absurd hrange.1 (by decide)
    simpa [readUnsigned, List.dropWhile, hspace, hminus, hplus, hall] using hlt

theorem parseRunId_decimal (id : UInt64) :
    parseRunId (runsRoute ++ decimal id.toNat) = some id := by
  obtain ⟨hne,hall,hvalue⟩ := decimal_digits id.toNat
  have hlt : digitsValue (decimal id.toNat) < 2^64 := by
    rw [hvalue]
    exact id.toNat_lt
  rw [parseRunId, if_pos (by simp), List.drop_left, readUnsigned_digits hne hall hlt, hvalue,
    UInt64.ofNat_toNat]

/-! ### The runs of a pipeline -/

/-- A body that replaces the pipeline. -/
def accepts (json : JsonLibrary) (s : EditorServer) (p : Pending) : Bool :=
  match p.route, json.parse p.body with
  | .putActive, .ok document => (s.replaceActivePipeline document).isOk
  | _, _ => false

def replaces (json : JsonLibrary) (s : Session) : LoopEvent → Bool
  | .piece request chunk last =>
    last && (s.pending.lookup request).any fun p =>
      accepts json s.server ⟨p.route,p.body ++ chunk⟩
  | _ => false

/-- The ids handed out since a pipeline was accepted last. -/
def issued (json : JsonLibrary) (encode : UInt32 → List UInt8) (server : EditorServer)
    (events : List LoopEvent) : List UInt64 :=
  Trace.track (loopStep json encode) (fun s e ids =>
    if isRun e then ids ++ [s.server.nextRunId] else if replaces json s e then [] else ids)
    { server } [] events

/-- The records are those of some ids, and all are alike. -/
structure Recorded (ids : List UInt64) (s : EditorServer) : Prop where
  mem : ∀ id, id ∈ s.runs ↔ id ∈ ids
  alike : ∀ id (record : RunRecord), s.runs.lookup id = some record →
    record.status = "completed" ∧ record.outputPaths = []

theorem Recorded.same {ids : List UInt64} {s t : EditorServer} (h : Recorded ids s)
    (hruns : t.runs = s.runs) : Recorded ids t :=
  ⟨by rw [hruns]; exact h.mem,by rw [hruns]; exact h.alike⟩

theorem recorded_none {s : EditorServer} (h : s.runs = ∅) : Recorded [] s := by
  refine ⟨?_,?_⟩
  · intro id
    rw [h]
    exact ⟨fun hid => absurd hid (AList.notMem_empty id),fun hid => absurd hid List.not_mem_nil⟩
  · intro id record hrecord
    rw [h, AList.lookup_empty] at hrecord
    cases hrecord

theorem recorded_run {ids : List UInt64} {s t : EditorServer} {now : Nat} {sent : List Sent}
    {reply : RunReply} (h : Recorded ids s)
    (hrun : completeRun encode now s = some (t,sent,reply)) :
    Recorded (ids ++ [s.nextRunId]) t := by
  obtain ⟨_,_,rfl,_⟩ := completeRun_cases hrun
  refine ⟨?_,?_⟩
  · intro id
    change id ∈ s.createRunRecord.1.runs ↔ _
    rw [RunIds.mem_created, h.mem id, List.mem_append, List.mem_singleton, or_comm]
  · intro id record hrecord
    rcases RunIds.lookup_created hrecord with hold | ⟨_,_,rfl⟩
    · exact h.alike id record hold
    · exact ⟨rfl,rfl⟩

theorem recorded_body {ids : List UInt64} {s t : EditorServer} {route : BodyRoute}
    {request : Nat} {body : List UInt8} {sent : List Sent} (h : Recorded ids s)
    (hh : route.handle json s request body = some (t,sent)) :
    Recorded (if accepts json s ⟨route,body⟩ then [] else ids) t := by
  cases route with
  | putActive =>
    cases haccepts : accepts json s ⟨.putActive,body⟩ with
    | true =>
      rcases onBody_cases hh with ⟨_,_,_,rfl⟩ | ⟨document,hparse,happly,_⟩
      · exfalso
        simp only [accepts] at haccepts
        cases hp : json.parse body with
        | error what => simp [hp] at haccepts
        | ok document =>
          simp only [hp] at haccepts
          cases hr : s.replaceActivePipeline document with
          | error e => simp [hr, Except.isOk, Except.toBool] at haccepts
          | ok u =>
            simp [BodyRoute.handle, EditorRequests.putActive, onBody, hp, hr, ok,
              badRequest] at hh
      · rw [EditorServer.replace_ok happly]
        exact recorded_none rfl
    | false =>
      rcases onBody_cases hh with ⟨rfl,_⟩ | ⟨document,hparse,happly,_⟩
      · exact h
      · simp [accepts, hparse, happly, Except.isOk, Except.toBool] at haccepts
  | postParams =>
    rcases onBody_cases hh with ⟨rfl,_⟩ | ⟨document,_,happly,_⟩
    · exact h
    · obtain ⟨pipeline,rfl⟩ := EditorServer.applyParamDelta_ok happly
      exact h.same rfl

theorem recorded_control {ids : List UInt64} {s t : EditorServer} {c : Client} {payload : Json}
    (h : Recorded ids s) (hcontrol : s.onControl c payload = .ok t) : Recorded ids t := by
  have hruns := (RunIds.control_sameRuns s c payload).runs
  rw [hcontrol] at hruns
  exact h.same hruns

theorem recorded_step {ids : List UInt64} {s t : Session} {e : LoopEvent}
    (h : Recorded ids s.server) (he : Effect json encode s e t) :
    Recorded (if isRun e then ids ++ [s.server.nextRunId]
      else if replaces json s e then [] else ids) t.server := by
  cases he with
  | started => exact h
  | grown => exact h
  | @ended request chunk p server sent hp hh =>
    have hbody := recorded_body h hh
    simpa [isRun, replaces, hp] using hbody
  | aborted => exact h
  | @answered e c server sent hdirect hh =>
    cases e with
    | postRun r now =>
      cases hdirect
      obtain ⟨⟨u,frames,reply⟩,hrun,hr⟩ := Option.map_eq_some_iff.mp hh
      cases hr
      exact recorded_run h hrun
    | getRun r url =>
      cases hdirect
      cases hh
      exact h
    | getActive r =>
      cases hdirect
      cases hh
      exact h
    | _ => cases hdirect
  | @noticed e c server sent hnotice hh =>
    cases e with
    | opened c =>
      cases hnotice
      simp only [handle] at hh
      split at hh
      · cases hh
      · cases hh
        exact h.same rfl
    | closed c =>
      cases hnotice
      simp only [handle] at hh
      split at hh
      · cases hh
        exact h.same rfl
      · cases hh
    | message c binary bytes =>
      cases hnotice
      simp only [handle] at hh
      split at hh
      · rcases onMessage_cases hh with ⟨rfl,_⟩ | ⟨payload,hcontrol,_⟩
        · exact h
        · exact recorded_control h hcontrol
      · cases hh
    | rerun now =>
      cases hnotice
      obtain ⟨⟨u,frames,reply⟩,hrun,hr⟩ := Option.map_eq_some_iff.mp hh
      cases hr
      exact recorded_run h hrun
    | _ => cases hnotice

theorem session_recorded {events : List LoopEvent} {s : Session} (hfresh : server.runs = ∅)
    (h : session json encode server events = some s) :
    Recorded (issued json encode server events) s.server := by
  have hall := Trace.run_history (I := fun past s =>
      Trace.run (loopStep json encode) { server } past = some s ∧
      Recorded (issued json encode server past) s.server) (by
    intro past s e t ⟨hrun,hrecorded⟩ hstep
    refine ⟨Trace.run_append.mpr ⟨s,hrun,Trace.run_cons.mpr ⟨t,hstep,rfl⟩⟩,?_⟩
    rw [issued, Trace.track_concat hrun hstep]
    exact recorded_step hrecorded (step_effect hstep)) ⟨rfl,recorded_none hfresh⟩ h
  exact hall.2

/-- The record of a run, as its own response showed it. -/
def completed (id : UInt64) : Json := recordJson ⟨id,⟨"completed",[],0⟩⟩

/-- The answer to a URL when some ids were handed out. -/
def answerFor (ids : List UInt64) (url : List UInt8) : EditorRequests.Response :=
  match parseRunId url with
  | none => badRequest "bad_run_id" "invalid run id"
  | some id => if id ∈ ids then ok (completed id) else notFound "run id not found"

/-- A request for a run is answered with the record of the id in its URL where that id was
handed out for the active pipeline, and with an error else. An id that was printed into a URL
is read back. -/
theorem run_urls {events : List LoopEvent} {s : Session} (hfresh : server.runs = ∅)
    (h : session json encode server events = some s) :
    (∀ url, EditorRequests.getRun s.server url = answerFor (issued json encode server events) url) ∧
    ∀ id : UInt64, parseRunId (runsRoute ++ decimal id.toNat) = some id := by
  have hrecorded := session_recorded hfresh h
  refine ⟨?_,parseRunId_decimal⟩
  intro url
  unfold EditorRequests.getRun answerFor
  cases parseRunId url with
  | none => rfl
  | some id =>
    simp only [runRecord]
    cases hlookup : s.server.runs.lookup id with
    | none =>
      have hid : id ∉ issued json encode server events := fun hin => by
        have hmem := AList.lookup_isSome.mpr ((hrecorded.mem id).mpr hin)
        simp [hlookup] at hmem
      rw [if_neg hid]
      rfl
    | some record =>
      have hin : id ∈ issued json encode server events :=
        (hrecorded.mem id).mp (AList.lookup_isSome.mp (by simp [hlookup]))
      obtain ⟨hstatus,hpaths⟩ := hrecorded.alike id record hlookup
      rw [if_pos hin]
      simp [completed, recordJson, hstatus, hpaths]

theorem run_urls_one : ∃ s, session bracketJson (fun _ => []) {} [.postRun 0 5] = some s ∧
    (∀ url, EditorRequests.getRun s.server url =
      answerFor (issued bracketJson (fun _ => []) {} [.postRun 0 5]) url) ∧
    ∀ id : UInt64, parseRunId (runsRoute ++ decimal id.toNat) = some id :=
  ⟨_,rfl,run_urls rfl rfl⟩

end Cpipe.Proofs.EditorRuns
