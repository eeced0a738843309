import Cpipe.Proofs.EditorFrames
import Cpipe.Proofs.EditorRequests
import Cpipe.Proofs.EditorServer
import Cpipe.Web.RuntimeClient

namespace Cpipe.Proofs.EditorConnections
open Cpipe.Server Cpipe.Server.EditorServer Cpipe.Server.EditorRequests Library
open Cpipe.Proofs.EditorRequests
open Web (DeviceStore Editor)

variable {json : JsonLibrary} {encode : UInt32 → List UInt8}

/-! ### The clients -/

theorem control_clients {s t : EditorServer} {client : Client} {payload : Json}
    (h : s.onControl client payload = .ok t) : t.wsClients = s.wsClients := by
  have hsame : s.orSame (s.onControl client payload) = t := by rw [h]; rfl
  rcases EditorServer.control_cases s client payload with ⟨pipeline,ht,_⟩ | ht
  · rw [hsame] at ht
    rw [ht]
  · rw [hsame] at ht
    rw [ht]
    cases EditorServer.readControl payload <;> rfl

theorem body_clients {s t : EditorServer} {route : BodyRoute} {request : Nat}
    {body : List UInt8} {sent : List Sent}
    (h : route.handle json s request body = some (t,sent)) : t.wsClients = s.wsClients := by
  cases route with
  | putActive =>
    rcases onBody_cases h with ⟨rfl,_⟩ | ⟨document,_,happly,_⟩
    · rfl
    · rw [EditorServer.replace_ok happly]
  | postParams =>
    rcases onBody_cases h with ⟨rfl,_⟩ | ⟨document,_,happly,_⟩
    · rfl
    · obtain ⟨pipeline,rfl⟩ := EditorServer.applyParamDelta_ok happly
      rfl

theorem completeRun_clients {s t : EditorServer} {now : Nat} {sent : List Sent}
    {reply : RunReply} (h : completeRun encode now s = some (t,sent,reply)) :
    t.wsClients = s.wsClients := by
  obtain ⟨_,_,rfl,_⟩ := completeRun_cases h
  rfl

/-- A client stays connected until it is closed. -/
theorem handle_clients {s t : EditorServer} {c : Call} {sent : List Sent} {client : Client}
    (h : handle json encode s c = some (t,sent)) (hin : client ∈ s.wsClients)
    (hc : c ≠ .closed client) : client ∈ t.wsClients := by
  cases c with
  | body r route body => rwa [body_clients h]
  | postRun r now =>
    obtain ⟨⟨u,frames,reply⟩,hrun,hr⟩ := Option.map_eq_some_iff.mp h
    cases hr
    rwa [completeRun_clients hrun]
  | getRun r url =>
    cases h
    exact hin
  | getActive r =>
    cases h
    exact hin
  | opened c =>
    simp only [handle] at h
    split at h
    · cases h
    · cases h
      exact List.mem_insert_of_mem hin
  | closed c =>
    simp only [handle] at h
    split at h
    · cases h
      refine List.mem_filter.mpr ⟨hin,?_⟩
      have hne : client ≠ c := by
        rintro rfl
        exact hc rfl
      simpa using hne
    · cases h
  | message c binary bytes =>
    simp only [handle] at h
    split at h
    · rcases onMessage_cases h with ⟨rfl,_⟩ | ⟨payload,hcontrol,_⟩
      · exact hin
      · rwa [control_clients hcontrol]
    · cases h
  | rerun now =>
    obtain ⟨⟨u,frames,reply⟩,hrun,hr⟩ := Option.map_eq_some_iff.mp h
    cases hr
    rwa [completeRun_clients hrun]

/-! ### What the editor makes of a frame -/

/-- A JSON frame of the server in the editor's store. -/
def note (d : DeviceStore) : EditorFrameType → Json → DeviceStore
  | .ack, value => d.recordAck value
  | .log, value => d.recordLog value
  | .profile, value => d.recordProfile value
  | _, _ => d

/-- The editor's store after what is sent to one client. -/
def record (client : Client) (d : DeviceStore) : Sent → DeviceStore
  | .frame c type (.json value) => if c = client then note d type value else d
  | .frame c _ (.image bytes) => if c = client then d.recordThumbnail "__latest" bytes else d
  | _ => d

/-- The frames a handler sends: images are thumbnails, and the rest is an Ack, a profile or a
log. -/
def Kind : Sent → Prop
  | .frame _ type (.json _) => type = .ack ∨ type = .profile ∨ type = .log
  | .frame _ type (.image _) => type = .thumbnail
  | _ => True

/-- What the browser's parser reads of the frames sent, each short enough for its length
field. -/
structure Readable (json : JsonLibrary) (parse : List UInt8 → Option Json) (sent : List Sent) :
    Prop where
  short : ∀ client type payload, .frame client type payload ∈ sent →
    (payload.bytes json).length < 2^32
  parsed : ∀ client type value, .frame client type (.json value) ∈ sent →
    parse (json.dump value) = some value

def messagesTo (json : JsonLibrary) (client : Client) (sent : List Sent) : List (List UInt8) :=
  (sent.filterMap (Sent.wire json)).filterMap
    (fun m => if m.1 = client then some m.2 else none)

def receiveAll (parse : List UInt8 → Option Json) (editor : Editor)
    (messages : List (List UInt8)) : Option Editor :=
  messages.foldlM (Web.onMessage parse) editor

theorem decode_frame (type : EditorFrameType) {payload : List UInt8}
    (h : payload.length < 2^32) :
    Web.decodeEditorFrame (.buffer (encodeFrame type 0 0 payload)) =
      .ok { nodeId := 0, payload, timestampMs := 0, type := type.byte.toNat } := by
  have hlayout : (Web.Data.buffer (encodeFrame type 0 0 payload)).bytes =
      EditorFrames.layout type.byte 0 0 (UInt32.ofNat payload.length) payload :=
    EditorFrames.encodeFrame_layout type 0 0 payload
  rw [EditorFrames.decodeEditorFrame_layout hlayout, if_pos (Bytes.toNat_ofNat_lt h).symm]
  rfl

variable {parse : List UInt8 → Option Json} {client : Client}

/-- The editor takes every frame of the server as what it is. -/
theorem receive_frame (editor : Editor) {type : EditorFrameType} {payload : Payload}
    (hkind : Kind (.frame client type payload))
    (hread : Readable json parse [.frame client type payload]) :
    Web.onMessage parse editor (encodeFrame type 0 0 (payload.bytes json)) =
      some { editor with device := record client editor.device (.frame client type payload) } := by
  have hshort := hread.short client type payload List.mem_cons_self
  unfold Web.onMessage
  rw [decode_frame type hshort]
  cases payload with
  | image bytes =>
    have htype : type = .thumbnail := hkind
    subst htype
    simp [record, Payload.bytes, EditorFrameType.byte, Web.EditorFrameTypes.thumbnail]
  | json value =>
    have hparsed := hread.parsed client type value List.mem_cons_self
    rcases hkind with rfl | rfl | rfl <;>
      simp [record, note, Payload.bytes, hparsed, EditorFrameType.byte,
        Web.EditorFrameTypes.thumbnail, Web.EditorFrameTypes.ack, Web.EditorFrameTypes.profile,
        Web.EditorFrameTypes.log]

theorem Readable.sublist {sent part : List Sent} (h : Readable json parse sent)
    (hsub : ∀ x ∈ part, x ∈ sent) : Readable json parse part :=
  ⟨fun client type payload hx => h.short client type payload (hsub _ hx),
    fun client type value hx => h.parsed client type value (hsub _ hx)⟩

/-- The editor reads all that its server sends, and its store is what `record` makes of it. -/
theorem receiveAll_record {sent : List Sent} (hkind : ∀ x ∈ sent, Kind x)
    (hread : Readable json parse sent) (editor : Editor) :
    receiveAll parse editor (messagesTo json client sent) =
      some { editor with device := sent.foldl (record client) editor.device } := by
  induction sent generalizing editor with
  | nil => rfl
  | cons x sent ih =>
    have hrest := ih (fun y hy => hkind y (List.mem_cons_of_mem _ hy))
      (hread.sublist fun y hy => List.mem_cons_of_mem _ hy)
    cases x with
    | response r response => exact hrest editor
    | rerun => exact hrest editor
    | frame c type payload =>
      by_cases hc : c = client
      · subst c
        have hone : Readable json parse [.frame client type payload] :=
          hread.sublist (by simp)
        have hfirst := receive_frame editor (hkind _ List.mem_cons_self) hone
        have hmessages : messagesTo json client (.frame client type payload :: sent) =
            encodeFrame type 0 0 (payload.bytes json) :: messagesTo json client sent := by
          simp [messagesTo, Sent.wire]
        rw [hmessages, receiveAll, List.foldlM_cons, hfirst]
        exact hrest _
      · have hmessages : messagesTo json client (.frame c type payload :: sent) =
            messagesTo json client sent := by
          simp [messagesTo, Sent.wire, hc]
        have hrecord : record client editor.device (.frame c type payload) = editor.device := by
          cases payload <;> simp [record, hc]
        rw [hmessages, List.foldl_cons, hrecord]
        exact hrest editor

/-! ### What a handler tells a client -/

theorem broadcast_kind {s : EditorServer} {type : EditorFrameType} {payload : Json}
    (h : type = .ack ∨ type = .profile ∨ type = .log) :
    ∀ x ∈ broadcastJsonFrame s type payload, Kind x := by
  intro x hx
  obtain ⟨client,_,rfl⟩ := List.mem_map.mp hx
  exact h

theorem completeRun_kind {s t : EditorServer} {now : Nat} {sent : List Sent} {reply : RunReply}
    (h : completeRun encode now s = some (t,sent,reply)) : ∀ x ∈ sent, Kind x := by
  obtain ⟨thumbnails,profile,_,_,_,_,rfl⟩ := completeRun_cases h
  intro x hx
  rcases List.mem_append.mp hx with hx | hx
  · obtain ⟨p,_,rfl⟩ := List.mem_map.mp hx
    rfl
  · rcases List.mem_append.mp hx with hx | hx
    · exact broadcast_kind (by simp) x hx
    · exact broadcast_kind (by simp) x hx

theorem note_twice (d : DeviceStore) (type : EditorFrameType) (value : Json) :
    note (note d type value) type value = note d type value := by
  cases type <;> rfl

theorem record_broadcast (s : EditorServer) (type : EditorFrameType) (value : Json)
    (d : DeviceStore) : (broadcastJsonFrame s type value).foldl (record client) d =
      if client ∈ s.wsClients then note d type value else d := by
  have hall : ∀ (clients : List Client) d,
      (clients.map (fun c => sendJsonFrame c type value)).foldl (record client) d =
        if client ∈ clients then note d type value else d := by
    intro clients
    induction clients with
    | nil => simp
    | cons c clients ih =>
      intro d
      rw [List.map_cons, List.foldl_cons, ih]
      by_cases hc : c = client
      · subst c
        simp [record, sendJsonFrame, note_twice]
      · simp [record, sendJsonFrame, hc, Ne.symm hc]
  exact hall s.wsClients d

/-- Thumbnails change no note. -/
theorem record_thumbnails (client : Client) (thumbnails : List (Client × List UInt8))
    (d : DeviceStore) :
    ∃ urls, (thumbnails.map (fun p => Sent.frame p.1 .thumbnail (.image p.2))).foldl
      (record client) d = { d with thumbnailUrls := urls } := by
  induction thumbnails generalizing d with
  | nil => exact ⟨d.thumbnailUrls,rfl⟩
  | cons p thumbnails ih =>
    rw [List.map_cons, List.foldl_cons]
    by_cases hc : p.1 = client
    · obtain ⟨urls,hurls⟩ := ih (d.recordThumbnail "__latest" p.2)
      refine ⟨urls,?_⟩
      rw [record, if_pos hc, hurls]
      rfl
    · rw [record, if_neg hc]
      exact ih d

/-- A run leaves every client with its profile and its log. -/
theorem completeRun_told {s t : EditorServer} {now : Nat} {sent : List Sent} {reply : RunReply}
    (h : completeRun encode now s = some (t,sent,reply)) (hin : client ∈ s.wsClients)
    (d : DeviceStore) : ∃ urls profile, profilePayload s s.nextRunId = .ok profile ∧
      sent.foldl (record client) d =
        ⟨d.lastAck,some (logPayload s.nextRunId),some profile,urls⟩ := by
  have hclients := completeRun_clients h
  obtain ⟨thumbnails,profile,ht,_,rfl,hprofile,rfl⟩ := completeRun_cases h
  obtain ⟨urls,hurls⟩ := record_thumbnails client thumbnails d
  have hsame : profilePayload t s.createRunRecord.2.runId = profilePayload s s.nextRunId := by
    rw [ht]
    rfl
  refine ⟨urls,profile,hsame ▸ hprofile,?_⟩
  rw [List.foldl_append, List.foldl_append, hurls, record_broadcast, record_broadcast, hclients,
    if_pos hin, if_pos hin]
  rfl

/-- The JSON of a frame. -/
def frameJson : Sent → Option Json
  | .frame _ _ (.json value) => some value
  | _ => none

/-- The Ack of a message. -/
def ackOf (json : JsonLibrary) (s : Session) : LoopEvent → Option Json
  | .message client binary bytes =>
    (onMessage json s.server client binary bytes).bind fun r => r.2.getLast?.bind frameJson
  | _ => none

def isRun : LoopEvent → Bool
  | .postRun _ _ => true
  | .rerun _ => true
  | _ => false

/-- The store after one event of the loop: an Ack for a message of the client, and the profile
and log of a run. -/
structure Told (json : JsonLibrary) (client : Client) (s : Session) (e : LoopEvent)
    (d d' : DeviceStore) : Prop where
  ack : d'.lastAck = if isMessage client e then ackOf json s e else d.lastAck
  log : d'.lastLog = if isRun e then some (logPayload s.server.nextRunId) else d.lastLog
  profile : d'.lastProfile =
    if isRun e then (profilePayload s.server s.server.nextRunId).toOption else d.lastProfile

theorem completeRun_notes {s : Session} {t : EditorServer} {now : Nat} {sent : List Sent}
    {reply : RunReply} {e : LoopEvent} (h : completeRun encode now s.server = some (t,sent,reply))
    (hin : client ∈ s.server.wsClients) (hrun : isRun e = true)
    (hmessage : isMessage client e = false) (d : DeviceStore) :
    Told json client s e d (sent.foldl (record client) d) := by
  obtain ⟨urls,profile,hprofile,hfold⟩ := completeRun_told h hin d
  rw [hfold]
  exact ⟨by simp [hmessage],by simp [hrun],by simp [hrun, hprofile, Except.toOption]⟩

theorem message_notes {s : Session} {t : EditorServer} {c : Client} {binary : Bool}
    {bytes : List UInt8} {sent : List Sent}
    (h : onMessage json s.server c binary bytes = some (t,sent)) (d : DeviceStore) :
    (∀ x ∈ sent, Kind x) ∧
    Told json client s (.message c binary bytes) d (sent.foldl (record client) d) := by
  have hack : ∃ value rest, sent = rest ++ [.frame c .ack (.json value)] ∧
      rest.foldl (record client) d = d ∧ ∀ x ∈ rest, Kind x := by
    rcases onMessage_cases h with ⟨_,_,rfl⟩ | ⟨payload,_,rfl⟩
    · exact ⟨_,[],rfl,rfl,by simp⟩
    · refine ⟨_,_,rfl,?_⟩
      split
      · exact ⟨rfl,by simp [Kind]⟩
      · exact ⟨rfl,by simp⟩
  obtain ⟨value,rest,rfl,hrest,hkind⟩ := hack
  refine ⟨?_,?_,?_,?_⟩
  · intro x hx
    rcases List.mem_append.mp hx with hx | hx
    · exact hkind x hx
    · rw [List.mem_singleton.mp hx]
      exact .inl rfl
  · rw [List.foldl_append, hrest]
    by_cases hc : c = client
    · subst c
      simp [record, note, isMessage, ackOf, h, frameJson, DeviceStore.recordAck]
    · simp [record, isMessage, hc]
  · rw [List.foldl_append, hrest]
    by_cases hc : c = client
    · simp [record, note, isRun, hc, DeviceStore.recordAck]
    · simp [record, isRun, hc]
  · rw [List.foldl_append, hrest]
    by_cases hc : c = client
    · simp [record, note, isRun, hc, DeviceStore.recordAck]
    · simp [record, isRun, hc]

theorem told_nothing {s : Session} {e : LoopEvent} (hmessage : isMessage client e = false)
    (hrun : isRun e = false) (d : DeviceStore) : Told json client s e d d :=
  ⟨by simp [hmessage],by simp [hrun],by simp [hrun]⟩

/-- What one event sends keeps a connected client told. -/
theorem effect_told {s t : Session} {e : LoopEvent} (he : Effect json encode s e t)
    (hin : client ∈ s.server.wsClients) (hc : e ≠ .closed client) :
    client ∈ t.server.wsClients ∧ ∃ sent, t.sent = s.sent ++ sent ∧ (∀ x ∈ sent, Kind x) ∧
      ∀ d, Told json client s e d (sent.foldl (record client) d) := by
  cases he with
  | started => exact ⟨hin,[],(List.append_nil _).symm,by simp,told_nothing rfl rfl⟩
  | grown hp => exact ⟨hin,[],(List.append_nil _).symm,by simp,told_nothing rfl rfl⟩
  | @ended request chunk p server sent hp hh =>
    refine ⟨handle_clients hh hin (by simp),sent,rfl,?_⟩
    rcases handle_body_cases hh with ⟨_,_,_,rfl⟩ | ⟨_,rfl⟩
    · exact ⟨by simp [Kind],told_nothing rfl rfl⟩
    · exact ⟨by simp [Kind],told_nothing rfl rfl⟩
  | aborted hp => exact ⟨hin,[],(List.append_nil _).symm,by simp,told_nothing rfl rfl⟩
  | @answered e c server sent hdirect hh =>
    cases e with
    | postRun r now =>
      cases hdirect
      refine ⟨handle_clients hh hin (by simp),sent,rfl,?_⟩
      obtain ⟨⟨u,frames,reply⟩,hrun,hr⟩ := Option.map_eq_some_iff.mp hh
      cases hr
      refine ⟨?_,?_⟩
      · intro x hx
        rcases List.mem_append.mp hx with hx | hx
        · exact completeRun_kind hrun x hx
        · rw [List.mem_singleton.mp hx]
          exact trivial
      · intro d
        rw [List.foldl_append]
        exact completeRun_notes hrun hin rfl rfl d
    | getRun r url =>
      cases hdirect
      cases hh
      exact ⟨hin,_,rfl,by simp [Kind],told_nothing rfl rfl⟩
    | getActive r =>
      cases hdirect
      cases hh
      exact ⟨hin,_,rfl,by simp [Kind],told_nothing rfl rfl⟩
    | _ => cases hdirect
  | @noticed e c server sent hnotice hh =>
    cases e with
    | opened c =>
      cases hnotice
      refine ⟨handle_clients hh hin (by simp),sent,rfl,?_⟩
      simp only [handle] at hh
      split at hh
      · cases hh
      · cases hh
        exact ⟨by simp,told_nothing rfl rfl⟩
    | closed c =>
      cases hnotice
      refine ⟨handle_clients hh hin (fun h => hc (by cases h; rfl)),sent,rfl,?_⟩
      simp only [handle] at hh
      split at hh
      · cases hh
        exact ⟨by simp,told_nothing rfl rfl⟩
      · cases hh
    | message c binary bytes =>
      cases hnotice
      refine ⟨handle_clients hh hin (by simp),sent,rfl,?_⟩
      simp only [handle] at hh
      split at hh
      · have hnotes : ∀ d, (∀ x ∈ sent, Kind x) ∧ Told json client s (.message c binary bytes) d
            (sent.foldl (record client) d) := message_notes hh
        exact ⟨(hnotes {}).1,fun d => (hnotes d).2⟩
      · cases hh
    | rerun now =>
      cases hnotice
      refine ⟨handle_clients hh hin (by simp),sent,rfl,?_⟩
      obtain ⟨⟨u,frames,reply⟩,hrun,hr⟩ := Option.map_eq_some_iff.mp hh
      cases hr
      exact ⟨completeRun_kind hrun,completeRun_notes hrun hin rfl rfl⟩
    | _ => cases hnotice

/-! ### A connection -/

/-- What an editor knows after a connection: the answer to its last message, and the profile
and the log of the last run. -/
structure UpToDate (json : JsonLibrary) (encode : UInt32 → List UInt8) (client : Client)
    (s : Session) (events : List LoopEvent) (d : DeviceStore) : Prop where
  ack : d.lastAck = (Trace.lastOf (loopStep json encode) (isMessage client) s events).bind
    fun m => ackOf json m.1 m.2
  log : d.lastLog = (Trace.lastOf (loopStep json encode) isRun s events).map
    fun m => logPayload m.1.server.nextRunId
  profile : d.lastProfile = (Trace.lastOf (loopStep json encode) isRun s events).bind
    fun m => (profilePayload m.1.server m.1.server.nextRunId).toOption

theorem UpToDate.next {s m t : Session} {past : List LoopEvent} {e : LoopEvent}
    {d d' : DeviceStore} (h : UpToDate json encode client s past d)
    (hm : Trace.run (loopStep json encode) s past = some m)
    (ht : loopStep json encode m e = some t) (htold : Told json client m e d d') :
    UpToDate json encode client s (past ++ [e]) d' := by
  refine ⟨?_,?_,?_⟩
  · rw [Trace.lastOf_concat hm ht, htold.ack]
    cases isMessage client e with
    | true => rfl
    | false => exact h.ack
  · rw [Trace.lastOf_concat hm ht, htold.log]
    cases isRun e with
    | true => rfl
    | false => exact h.log
  · rw [Trace.lastOf_concat hm ht, htold.profile]
    cases isRun e with
    | true => rfl
    | false => exact h.profile

theorem run_told {s t : Session} {events : List LoopEvent} (hin : client ∈ s.server.wsClients)
    (hstays : .closed client ∉ events)
    (h : Trace.run (loopStep json encode) s events = some t) :
    ∃ sent, t.sent = s.sent ++ sent ∧ (∀ x ∈ sent, Kind x) ∧
      UpToDate json encode client s events (sent.foldl (record client) {}) := by
  have hall : client ∈ t.server.wsClients ∧ ∃ sent, t.sent = s.sent ++ sent ∧
      (∀ x ∈ sent, Kind x) ∧
      UpToDate json encode client s events (sent.foldl (record client) {}) := by
    induction events using List.reverseRecOn generalizing t with
    | nil =>
      cases h
      exact ⟨hin,[],(List.append_nil _).symm,by simp,⟨rfl,rfl,rfl⟩⟩
    | append_singleton past e ih =>
      obtain ⟨m,hm,hlast⟩ := Trace.run_append.mp h
      obtain ⟨_,hlast,hend⟩ := Trace.run_cons.mp hlast
      cases hend
      obtain ⟨hclient,sent,hsent,hkind,hdate⟩ :=
        ih (fun hmem => hstays (List.mem_append_left _ hmem)) hm
      have hne : e ≠ .closed client := by
        rintro rfl
        exact hstays (by simp)
      obtain ⟨hclient',more,hmore,hkind',htold⟩ :=
        effect_told (step_effect hlast) hclient hne
      refine ⟨hclient',sent ++ more,?_,?_,?_⟩
      · rw [hmore, hsent, List.append_assoc]
      · intro x hx
        rcases List.mem_append.mp hx with hx | hx
        · exact hkind x hx
        · exact hkind' x hx
      · rw [List.foldl_append]
        exact hdate.next hm hlast (htold _)
  exact hall.2

/-- An editor that connects and stays reads every message it is sent without an exception.
When all have arrived, its store holds the answer to its last message and the profile and the
log of the last run, both with that run's id, whatever other clients and requests did. -/
theorem editor_up_to_date {s c t : Session} {events : List LoopEvent}
    (hopen : loopStep json encode s (.opened client) = some c)
    (hstays : .closed client ∉ events)
    (h : Trace.run (loopStep json encode) c events = some t)
    (hread : Readable json parse (t.sent.drop c.sent.length)) (store : Web.PipelineStore) :
    ∃ d, receiveAll parse ⟨{},store⟩ (messagesTo json client (t.sent.drop c.sent.length)) =
        some ⟨d,store⟩ ∧
      UpToDate json encode client c events d := by
  have hin : client ∈ c.server.wsClients := by
    obtain ⟨server,sent,hh,rfl⟩ := call_ok hopen
    simp only [handle] at hh
    split at hh
    · cases hh
    · cases hh
      exact List.mem_insert_self
  obtain ⟨sent,hsent,hkind,hdate⟩ := run_told hin hstays h
  rw [hsent, List.drop_left] at hread ⊢
  exact ⟨_,receiveAll_record hkind hread ⟨{},store⟩,hdate⟩

def refusalText : List UInt8 :=
  "\x7b\"error\":\"invalid control frame\",\"ok\":false\x7d".toUTF8.toList

def profileText : List UInt8 :=
  "\x7b\"nodes\":[],\"run_id\":1,\"type\":\"pipeline.profile\"\x7d".toUTF8.toList

def logText : List UInt8 :=
  ("\x7b\"level\":\"info\",\"message\":\"event=pipeline_run status=completed\"," ++
    "\"run_id\":1\x7d").toUTF8.toList

/-- The payload of a first run's profile, of a pipeline without nodes. -/
def firstProfile : Json :=
  .object [("nodes",.array []),("run_id",runIdJson 1),("type",.string "pipeline.profile")]

/-- A library that knows three texts. -/
def threeTexts : JsonLibrary where
  parse _ := .error (some "[json.exception.parse_error.101] parse error")
  dump
    | .object (("nodes",_) :: _) => profileText
    | .object (("level",_) :: _) => logText
    | _ => refusalText
  thrown _ _ := "[json.exception.type_error.302] type must be string, but is number"

def readThree (bytes : List UInt8) : Option Json :=
  if bytes = refusalText then some (ackError "invalid control frame")
  else if bytes = profileText then some firstProfile
  else if bytes = logText then some (logPayload 1)
  else none

/-- A message that is too short for a frame, and then a run. -/
def refusedThenRun : List LoopEvent := [.message 7 true [],.postRun 0 0]

/-- What the editor is sent, and the response to the request. -/
def refusedThenRunSent : List Sent :=
  [sendJsonFrame 7 .ack (ackError "invalid control frame"),sendJsonFrame 7 .profile firstProfile,
    sendJsonFrame 7 .log (logPayload 1),.response 0 (ok (recordJson ⟨1,⟨"completed",[],0⟩⟩))]

theorem mem_refusedThenRun {client : Client} {type : EditorFrameType} {payload : Payload}
    (h : .frame client type payload ∈ refusedThenRunSent) :
    (client = 7 ∧ type = .ack ∧ payload = .json (ackError "invalid control frame")) ∨
      (client = 7 ∧ type = .profile ∧ payload = .json firstProfile) ∨
      (client = 7 ∧ type = .log ∧ payload = .json (logPayload 1)) := by
  simpa [refusedThenRunSent, sendJsonFrame] using h

theorem editor_up_to_date_run : ∃ c t,
    loopStep threeTexts (fun _ => []) {} (.opened 7) = some c ∧
    Trace.run (loopStep threeTexts (fun _ => [])) c refusedThenRun = some t ∧
    ∃ d, receiveAll readThree ⟨{},{}⟩ (messagesTo threeTexts 7 (t.sent.drop c.sent.length)) =
        some ⟨d,{}⟩ ∧
      UpToDate threeTexts (fun _ => []) 7 c refusedThenRun d := by
  refine ⟨_,_,rfl,rfl,editor_up_to_date (s := {}) rfl (by simp [refusedThenRun]) rfl ⟨?_,?_⟩ {}⟩
  · intro client type payload hx
    rcases mem_refusedThenRun hx with ⟨-,-,rfl⟩ | ⟨-,-,rfl⟩ | ⟨-,-,rfl⟩
    · decide +kernel
    · decide +kernel
    · decide +kernel
  · intro client type value hx
    rcases mem_refusedThenRun hx with ⟨-,-,h⟩ | ⟨-,-,h⟩ | ⟨-,-,h⟩
    · cases h
      exact if_pos rfl
    · cases h
      exact (if_neg (by decide +kernel)).trans (if_pos rfl)
    · cases h
      exact (if_neg (by decide +kernel)).trans ((if_neg (by decide +kernel)).trans (if_pos rfl))

end Cpipe.Proofs.EditorConnections
