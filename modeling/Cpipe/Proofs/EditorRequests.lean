import Cpipe.Library.Checked
import Cpipe.Server.EditorRequests

namespace Cpipe.Proofs.EditorRequests
open Cpipe.Server Cpipe.Server.EditorServer Cpipe.Server.EditorRequests Library

/-! ### Whole requests -/

/-- The bytes an event brings for a request. -/
def pieceOf (request : Nat) : LoopEvent → List UInt8
  | .piece r chunk _ => if r = request then chunk else []
  | _ => []

def bodyOf (request : Nat) (events : List LoopEvent) : List UInt8 :=
  events.flatMap (pieceOf request)

def startOf (request : Nat) : LoopEvent → Option BodyRoute
  | .started r route => if r = request then some route else none
  | _ => none

def routeOf (request : Nat) (events : List LoopEvent) : Option BodyRoute :=
  events.findSome? (startOf request)

/-- The call an event stands for when requests come whole: a body comes with its last piece. -/
def callOf (past : List LoopEvent) : LoopEvent → List Call
  | .started _ _ => []
  | .piece request chunk last =>
    if last then
      (routeOf request past).toList.map (fun route =>
        .body request route (bodyOf request past ++ chunk))
    else []
  | .aborted _ => []
  | .postRun request now => [.postRun request now]
  | .getRun request url => [.getRun request url]
  | .getActive request => [.getActive request]
  | .opened client => [.opened client]
  | .closed client => [.closed client]
  | .message client binary bytes => [.message client binary bytes]
  | .rerun now => [.rerun now]

def callsFrom (past : List LoopEvent) : List LoopEvent → List Call
  | [] => []
  | e :: es => callOf past e ++ callsFrom (past ++ [e]) es

def calls (events : List LoopEvent) : List Call := callsFrom [] events

/-- A server whose requests come whole, with all that it has sent. -/
structure Service where
  server : EditorServer := {}
  sent : List Sent := []

section

variable (json : JsonLibrary) (encode : UInt32 → List UInt8)

def serve (v : Service) (c : Call) : Option Service :=
  (handle json encode v.server c).map (fun r => ⟨r.1,v.sent ++ r.2⟩)

end

variable {json : JsonLibrary} {encode : UInt32 → List UInt8} {server : EditorServer}

theorem callsFrom_concat (past es : List LoopEvent) (e : LoopEvent) :
    callsFrom past (es ++ [e]) = callsFrom past es ++ callOf (past ++ es) e := by
  induction es generalizing past with
  | nil => simp [callsFrom]
  | cons x es ih => simp [callsFrom, ih]

theorem calls_concat (past : List LoopEvent) (e : LoopEvent) :
    calls (past ++ [e]) = calls past ++ callOf past e :=
  callsFrom_concat [] past e

theorem bodyOf_concat (request : Nat) (past : List LoopEvent) (e : LoopEvent) :
    bodyOf request (past ++ [e]) = bodyOf request past ++ pieceOf request e := by
  simp [bodyOf]

theorem routeOf_concat (request : Nat) (past : List LoopEvent) (e : LoopEvent) :
    routeOf request (past ++ [e]) = (routeOf request past).or (startOf request e) := by
  rw [routeOf, List.findSome?_append]
  cases hs : startOf request e with
  | none => simp [routeOf, hs]
  | some route => simp [routeOf, hs]

/-! ### What an event does -/

def serviceOf (s : Session) : Service := ⟨s.server,s.sent⟩

/-- A request that is answered at once. -/
def direct : LoopEvent → Option (Nat × Call)
  | .postRun request now => some (request,.postRun request now)
  | .getRun request url => some (request,.getRun request url)
  | .getActive request => some (request,.getActive request)
  | _ => none

/-- An event that is no request. -/
def notice : LoopEvent → Option Call
  | .opened client => some (.opened client)
  | .closed client => some (.closed client)
  | .message client binary bytes => some (.message client binary bytes)
  | .rerun now => some (.rerun now)
  | _ => none

/-- What one event does to the session. -/
inductive Effect (json : JsonLibrary) (encode : UInt32 → List UInt8) (s : Session) :
    LoopEvent → Session → Prop
  | started {route} : Effect json encode s (.started s.requests route)
      { s with
        pending := s.pending.insert s.requests ⟨route,[]⟩
        requests := s.requests+1 }
  | grown {request chunk p} (hp : s.pending.lookup request = some p) :
      Effect json encode s (.piece request chunk false)
        { s with pending := s.pending.insert request ⟨p.route,p.body ++ chunk⟩ }
  | ended {request chunk p server sent} (hp : s.pending.lookup request = some p)
      (hh : handle json encode s.server (.body request p.route (p.body ++ chunk)) =
        some (server,sent)) :
      Effect json encode s (.piece request chunk true)
        { s with
          server := server
          pending := s.pending.erase request
          sent := s.sent ++ sent }
  | aborted {request} (hp : request ∈ s.pending) : Effect json encode s (.aborted request)
      { s with pending := s.pending.erase request }
  | answered {e c server sent} (he : direct e = some (s.requests,c))
      (hh : handle json encode s.server c = some (server,sent)) :
      Effect json encode s e
        { s with server := server, requests := s.requests+1, sent := s.sent ++ sent }
  | noticed {e c server sent} (he : notice e = some c)
      (hh : handle json encode s.server c = some (server,sent)) :
      Effect json encode s e { s with server := server, sent := s.sent ++ sent }

theorem call_ok {s t : Session} {c : Call} (h : call json encode s c = some t) :
    ∃ server sent, handle json encode s.server c = some (server,sent) ∧
      t = { s with server := server, sent := s.sent ++ sent } := by
  obtain ⟨r,hr,rfl⟩ := Option.map_eq_some_iff.mp h
  exact ⟨r.1,r.2,hr,rfl⟩

theorem callNext_effect {s t : Session} {request : Nat} {e : LoopEvent} {c : Call}
    (he : direct e = some (request,c)) (h : callNext json encode s request c = some t) :
    Effect json encode s e t := by
  unfold callNext at h
  split at h
  · subst request
    obtain ⟨u,hu,rfl⟩ := Option.map_eq_some_iff.mp h
    obtain ⟨server,sent,hh,rfl⟩ := call_ok hu
    exact .answered he hh
  · cases h

theorem call_effect {s t : Session} {e : LoopEvent} {c : Call} (he : notice e = some c)
    (h : call json encode s c = some t) : Effect json encode s e t := by
  obtain ⟨server,sent,hh,rfl⟩ := call_ok h
  exact .noticed he hh

theorem step_effect {s t : Session} {e : LoopEvent} (h : loopStep json encode s e = some t) :
    Effect json encode s e t := by
  cases e with
  | started request route =>
    simp only [loopStep] at h
    split at h
    · subst request
      cases h
      exact .started
    · cases h
  | piece request chunk last =>
    simp only [loopStep] at h
    cases hp : s.pending.lookup request with
    | none => simp [hp] at h
    | some p =>
      simp only [hp] at h
      cases last with
      | false =>
        cases h
        exact .grown hp
      | true =>
        obtain ⟨server,sent,hh,rfl⟩ := call_ok h
        exact .ended hp hh
  | aborted request =>
    simp only [loopStep] at h
    split at h
    · cases h
      exact .aborted ‹_›
    · cases h
  | postRun request now => exact callNext_effect rfl h
  | getRun request url => exact callNext_effect rfl h
  | getActive request => exact callNext_effect rfl h
  | opened client => exact call_effect rfl h
  | closed client => exact call_effect rfl h
  | message client binary bytes => exact call_effect rfl h
  | rerun now => exact call_effect rfl h

theorem callOf_direct {e : LoopEvent} {request : Nat} {c : Call} (h : direct e = some (request,c))
    (past : List LoopEvent) : callOf past e = [c] := by
  cases e <;> cases h <;> rfl

theorem callOf_notice {e : LoopEvent} {c : Call} (h : notice e = some c) (past : List LoopEvent) :
    callOf past e = [c] := by
  cases e <;> cases h <;> rfl

theorem direct_brings_nothing {e : LoopEvent} {request : Nat} {c : Call}
    (h : direct e = some (request,c)) (r : Nat) : pieceOf r e = [] ∧ startOf r e = none := by
  cases e <;> cases h <;> exact ⟨rfl,rfl⟩

theorem notice_brings_nothing {e : LoopEvent} {c : Call} (h : notice e = some c) (r : Nat) :
    pieceOf r e = [] ∧ startOf r e = none := by
  cases e <;> cases h <;> exact ⟨rfl,rfl⟩

/-! ### What a handler sends -/

/-- A body is refused, or what it holds is applied. There is one response. -/
theorem onBody_cases {s t : EditorServer} {apply : Json → Except Refusal EditorServer}
    {code : String} {data : Json → Json} {request : Nat} {body : List UInt8} {sent : List Sent}
    (h : onBody json s apply code data request body = some (t,sent)) :
    (t = s ∧ ∃ code message, sent = [.response request (badRequest code message)]) ∨
    ∃ document, json.parse body = .ok document ∧ apply document = .ok t ∧
      sent = [.response request (ok (data document))] := by
  unfold onBody at h
  cases hp : json.parse body with
  | error what =>
    cases what with
    | none => simp [hp] at h
    | some what =>
      simp only [hp] at h
      cases h
      exact .inl ⟨rfl,_,_,rfl⟩
  | ok document =>
    simp only [hp] at h
    cases ha : apply document with
    | ok u =>
      simp only [ha] at h
      cases h
      exact .inr ⟨document,rfl,ha,rfl⟩
    | error e =>
      cases e with
      | status e =>
        simp only [ha] at h
        cases h
        exact .inl ⟨rfl,_,_,rfl⟩
      | thrown =>
        simp only [ha] at h
        cases h
        exact .inl ⟨rfl,_,_,rfl⟩

theorem handle_body_cases {s t : EditorServer} {route : BodyRoute} {request : Nat}
    {body : List UInt8} {sent : List Sent}
    (h : route.handle json s request body = some (t,sent)) :
    (t = s ∧ ∃ code message, sent = [.response request (badRequest code message)]) ∨
    ∃ data, sent = [.response request (ok data)] := by
  cases route with
  | putActive =>
    rcases onBody_cases h with hrefused | ⟨document,_,_,hsent⟩
    · exact .inl hrefused
    · exact .inr ⟨_,hsent⟩
  | postParams =>
    rcases onBody_cases h with hrefused | ⟨document,_,_,hsent⟩
    · exact .inl hrefused
    · exact .inr ⟨_,hsent⟩

/-- A message is refused, or the control in it is applied. There is one Ack, and a rerun is
scheduled for a parameter update that was applied. -/
theorem onMessage_cases {s t : EditorServer} {client : Client} {binary : Bool}
    {message : List UInt8} {sent : List Sent}
    (h : onMessage json s client binary message = some (t,sent)) :
    (t = s ∧ ∃ text, sent = [sendJsonFrame client .ack (ackError text)]) ∨
    ∃ payload, s.onControl client payload = .ok t ∧
      sent = (if controlType payload = "node.update_param" then [.rerun] else []) ++
        [sendJsonFrame client .ack (ackReceived (controlType payload))] := by
  simp only [onMessage] at h
  split at h
  · cases h
    exact .inl ⟨rfl,_,rfl⟩
  · split at h
    · cases h
      exact .inl ⟨rfl,_,rfl⟩
    · split at h
      · cases h
        exact .inl ⟨rfl,_,rfl⟩
      · split at h
        · cases h
        · cases h
          exact .inl ⟨rfl,_,rfl⟩
        · split at h
          · cases h
            exact .inl ⟨rfl,_,rfl⟩
          · cases h
            exact .inl ⟨rfl,_,rfl⟩
          · cases h
            exact .inr ⟨_,‹_›,rfl⟩

/-- A run makes its record, sends the thumbnails that are due, and then tells every client of
its profile and of its end. -/
theorem completeRun_cases {s t : EditorServer} {now : Nat} {sent : List Sent} {reply : RunReply}
    (h : completeRun encode now s = some (t,sent,reply)) :
    ∃ thumbnails profile, t = (pushThumbnailFrames encode now s.createRunRecord.1).1 ∧
      thumbnails = (pushThumbnailFrames encode now s.createRunRecord.1).2 ∧
      reply = s.createRunRecord.2 ∧ profilePayload t reply.runId = .ok profile ∧
      sent = thumbnails.map (fun p => .frame p.1 .thumbnail (.image p.2)) ++
        (broadcastJsonFrame t .profile profile ++
          broadcastJsonFrame t .log (logPayload reply.runId)) := by
  simp only [completeRun] at h
  split at h
  · cases h
  · cases h
    exact ⟨_,_,rfl,rfl,rfl,‹_›,rfl⟩

/-! ### Bodies in pieces -/

/-- What the session holds of every request is what has come of it. -/
structure Gathered (past : List LoopEvent) (s : Session) : Prop where
  pending : ∀ r p, s.pending.lookup r = some p →
    r < s.requests ∧ routeOf r past = some p.route ∧ bodyOf r past = p.body
  fresh : ∀ r, s.requests ≤ r → routeOf r past = none ∧ bodyOf r past = []

theorem Gathered.quiet {past : List LoopEvent} {s t : Session} {e : LoopEvent} (h : Gathered past s)
    (he : ∀ r, pieceOf r e = [] ∧ startOf r e = none) (hreq : s.requests ≤ t.requests)
    (hpending : ∀ r p, t.pending.lookup r = some p → s.pending.lookup r = some p) :
    Gathered (past ++ [e]) t where
  pending := by
    intro r p hp
    obtain ⟨hr,hroute,hbody⟩ := h.pending r p (hpending r p hp)
    rw [routeOf_concat, bodyOf_concat, (he r).1, (he r).2, hroute, hbody]
    exact ⟨by omega,by simp⟩
  fresh := by
    intro r hr
    obtain ⟨hroute,hbody⟩ := h.fresh r (by omega)
    rw [routeOf_concat, bodyOf_concat, (he r).1, (he r).2, hroute, hbody]
    exact ⟨rfl,rfl⟩

theorem lookup_erase_some {m : AList (fun _ : Nat => Pending)} {r k : Nat} {p : Pending}
    (h : (m.erase k).lookup r = some p) : r ≠ k ∧ m.lookup r = some p := by
  by_cases hk : r = k
  · subst hk
    rw [AList.lookup_erase] at h
    cases h
  · rw [AList.lookup_erase_ne hk] at h
    exact ⟨hk,h⟩

theorem lookup_insert_some {m : AList (fun _ : Nat => Pending)} {r k : Nat} {p q : Pending}
    (h : (m.insert k q).lookup r = some p) :
    (r = k ∧ p = q) ∨ (r ≠ k ∧ m.lookup r = some p) := by
  by_cases hk : r = k
  · subst hk
    rw [AList.lookup_insert] at h
    exact .inl ⟨rfl,(Option.some.inj h).symm⟩
  · rw [AList.lookup_insert_ne hk] at h
    exact .inr ⟨hk,h⟩

theorem gathered_step {past : List LoopEvent} {s t : Session} {e : LoopEvent} (h : Gathered past s)
    (he : Effect json encode s e t) : Gathered (past ++ [e]) t := by
  cases he with
  | @started route =>
    refine ⟨?_,?_⟩
    · intro r p hp
      rw [routeOf_concat, bodyOf_concat]
      rcases lookup_insert_some hp with ⟨rfl,rfl⟩ | ⟨hne,hold⟩
      · obtain ⟨hroute,hbody⟩ := h.fresh _ le_rfl
        rw [hroute, hbody]
        exact ⟨Nat.lt_succ_self _,by simp [startOf],rfl⟩
      · obtain ⟨hr,hroute,hbody⟩ := h.pending r p hold
        rw [hroute, hbody]
        exact ⟨Nat.lt_succ_of_lt hr,rfl,List.append_nil _⟩
    · intro r hr
      have hlt : s.requests < r := hr
      obtain ⟨hroute,hbody⟩ := h.fresh r hlt.le
      rw [routeOf_concat, bodyOf_concat, hroute, hbody, startOf, if_neg hlt.ne]
      exact ⟨rfl,rfl⟩
  | @grown request chunk p hp =>
    obtain ⟨hlt,hroute,hbody⟩ := h.pending request p hp
    refine ⟨?_,?_⟩
    · intro r q hq
      rw [routeOf_concat, bodyOf_concat]
      rcases lookup_insert_some hq with ⟨rfl,rfl⟩ | ⟨hne,hold⟩
      · rw [hroute, hbody, pieceOf, if_pos rfl]
        exact ⟨hlt,rfl,rfl⟩
      · obtain ⟨hr,hroute',hbody'⟩ := h.pending r q hold
        rw [hroute', hbody', pieceOf, if_neg hne.symm]
        exact ⟨hr,rfl,List.append_nil _⟩
    · intro r hr
      have hle : s.requests ≤ r := hr
      obtain ⟨hroute',hbody'⟩ := h.fresh r hle
      rw [routeOf_concat, bodyOf_concat, hroute', hbody', pieceOf, if_neg (by omega)]
      exact ⟨rfl,rfl⟩
  | @ended request chunk p server sent hp hh =>
    have hlt := (h.pending request p hp).1
    refine ⟨?_,?_⟩
    · intro r q hq
      obtain ⟨hne,hold⟩ := lookup_erase_some hq
      obtain ⟨hr,hroute,hbody⟩ := h.pending r q hold
      rw [routeOf_concat, bodyOf_concat, hroute, hbody, pieceOf, if_neg hne.symm]
      exact ⟨hr,rfl,List.append_nil _⟩
    · intro r hr
      have hle : s.requests ≤ r := hr
      obtain ⟨hroute,hbody⟩ := h.fresh r hle
      rw [routeOf_concat, bodyOf_concat, hroute, hbody, pieceOf, if_neg (by omega)]
      exact ⟨rfl,rfl⟩
  | aborted hp =>
    exact h.quiet (fun _ => ⟨rfl,rfl⟩) le_rfl (fun _ _ hq => (lookup_erase_some hq).2)
  | answered he hh =>
    exact h.quiet (direct_brings_nothing he) (Nat.le_succ _) (fun _ _ hq => hq)
  | noticed he hh => exact h.quiet (notice_brings_nothing he) le_rfl (fun _ _ hq => hq)

theorem gathered_start : Gathered [] { server } where
  pending := by
    intro r p hp
    cases hp
  fresh := fun _ _ => ⟨rfl,rfl⟩

theorem serve_of_handle {v : Service} {c : Call} {server : EditorServer} {sent : List Sent}
    (h : handle json encode v.server c = some (server,sent)) :
    Trace.run (serve json encode) v [c] = some ⟨server,v.sent ++ sent⟩ := by
  simp [Trace.run, serve, h]

/-- The calls of an event take the service where the event takes the session. -/
theorem served_step {past : List LoopEvent} {s t : Session} {e : LoopEvent} (hg : Gathered past s)
    (he : Effect json encode s e t) :
    Trace.run (serve json encode) (serviceOf s) (callOf past e) = some (serviceOf t) := by
  cases he with
  | started => rfl
  | grown => rfl
  | @ended request chunk p server sent hp hh =>
    obtain ⟨_,hroute,hbody⟩ := hg.pending request p hp
    simp only [callOf, if_true, hroute, hbody]
    exact serve_of_handle hh
  | aborted => rfl
  | answered he hh =>
    rw [callOf_direct he]
    exact serve_of_handle hh
  | noticed he hh =>
    rw [callOf_notice he]
    exact serve_of_handle hh

/-- However the bodies of requests are cut and whatever comes between their pieces, the server
does what it does when every body comes whole, in place of its last piece: its state and all
it sends are the same, and a request that is given up does nothing. -/
theorem bodies_in_pieces {events : List LoopEvent} {s : Session}
    (h : session json encode server events = some s) :
    Trace.run (serve json encode) { server } (calls events) = some (serviceOf s) := by
  have hall : Gathered events s ∧
      Trace.run (serve json encode) { server } (calls events) = some (serviceOf s) := by
    refine Trace.run_history (I := fun past s => Gathered past s ∧
      Trace.run (serve json encode) { server } (calls past) = some (serviceOf s)) ?_
      ⟨gathered_start,rfl⟩ h
    intro past s e t ⟨hg,hserved⟩ hstep
    have heff := step_effect hstep
    refine ⟨gathered_step hg heff,?_⟩
    rw [calls_concat]
    exact Trace.run_append.mpr ⟨serviceOf s,hserved,served_step hg heff⟩
  exact hall.2

/-- A library that knows the texts of an empty array and of an empty object. -/
def bracketJson : JsonLibrary where
  parse bytes :=
    if bytes = [0x5b,0x5d] then .ok (.array [])
    else if bytes = [0x7b,0x7d] then .ok (.object [])
    else .error (some "[json.exception.parse_error.101] parse error")
  dump _ := [0x5b,0x5d]
  thrown _ _ := "[json.exception.type_error.302] type must be string, but is number"

/-- Two bodies in turns, one of them given up, with two messages and a run between them. -/
def twoBodies : List LoopEvent :=
  [.started 0 .putActive,.opened 7,.started 1 .postParams,.piece 0 [0x5b] false,
    .piece 1 [0x5b] false,.message 7 true (encodeFrame .control 0 0 [0x7b,0x7d]),.getActive 2,
    .postRun 3 0,.piece 0 [0x5d] true,.message 7 false [0x7b,0x7d],.aborted 1]

theorem bodies_in_pieces_two : ∃ s, session bracketJson (fun _ => []) {} twoBodies = some s ∧
    Trace.run (serve bracketJson (fun _ => [])) {} (calls twoBodies) = some (serviceOf s) :=
  ⟨_,rfl,bodies_in_pieces rfl⟩

/-! ### Answers -/

def isResponse (request : Nat) : Sent → Bool
  | .response r _ => r = request
  | _ => false

def isAck (client : Client) : Sent → Bool
  | .frame c .ack _ => c = client
  | _ => false

/-- The last piece of a request, or a request without a body. -/
def completes (request : Nat) : LoopEvent → Bool
  | .piece r _ last => r = request ∧ last = true
  | .postRun r _ => r = request
  | .getRun r _ => r = request
  | .getActive r => r = request
  | _ => false

def givesUp (request : Nat) : LoopEvent → Bool
  | .aborted r => r = request
  | _ => false

def isMessage (client : Client) : LoopEvent → Bool
  | .message c _ _ => c = client
  | _ => false

/-- The request a call answers. -/
def requestOf : Call → Option Nat
  | .body request _ _ => some request
  | .postRun request _ => some request
  | .getRun request _ => some request
  | .getActive request => some request
  | _ => none

def senderOf : Call → Option Client
  | .message client _ _ => some client
  | _ => none

theorem broadcast_no_response (s : EditorServer) (type : EditorFrameType) (payload : Json)
    (request : Nat) : (broadcastJsonFrame s type payload).countP (isResponse request) = 0 := by
  simp [broadcastJsonFrame, sendJsonFrame, isResponse, List.countP_eq_zero]

theorem broadcast_no_ack (s : EditorServer) {type : EditorFrameType} (h : type ≠ .ack)
    (payload : Json) (client : Client) :
    (broadcastJsonFrame s type payload).countP (isAck client) = 0 := by
  cases type with
  | ack => exact absurd rfl h
  | _ => simp [broadcastJsonFrame, sendJsonFrame, isAck, List.countP_eq_zero]

/-- A run answers and acknowledges nothing by itself. -/
theorem completeRun_answers {s t : EditorServer} {now : Nat} {sent : List Sent}
    {reply : RunReply} (h : completeRun encode now s = some (t,sent,reply)) (request : Nat)
    (client : Client) :
    sent.countP (isResponse request) = 0 ∧ sent.countP (isAck client) = 0 := by
  obtain ⟨thumbnails,profile,_,_,_,_,rfl⟩ := completeRun_cases h
  simp only [List.countP_append, broadcast_no_response]
  rw [broadcast_no_ack t (by decide), broadcast_no_ack t (by decide)]
  simp [isResponse, isAck, List.countP_eq_zero]

theorem handle_answers {s t : EditorServer} {c : Call} {sent : List Sent}
    (h : handle json encode s c = some (t,sent)) (request : Nat) (client : Client) :
    sent.countP (isResponse request) = (if requestOf c = some request then 1 else 0) ∧
    sent.countP (isAck client) = if senderOf c = some client then 1 else 0 := by
  cases c with
  | body r route body =>
    rcases handle_body_cases h with ⟨_,_,_,rfl⟩ | ⟨_,rfl⟩
    · simp [requestOf, senderOf, isResponse, isAck, List.countP_singleton]
    · simp [requestOf, senderOf, isResponse, isAck, List.countP_singleton]
  | postRun r now =>
    obtain ⟨⟨u,frames,reply⟩,hrun,hr⟩ := Option.map_eq_some_iff.mp h
    cases hr
    obtain ⟨hresponse,hack⟩ := completeRun_answers hrun request client
    simp [List.countP_append, hresponse, hack, requestOf, senderOf, isResponse, isAck,
      List.countP_singleton]
  | getRun r url =>
    cases h
    simp [requestOf, senderOf, isResponse, isAck, List.countP_singleton]
  | getActive r =>
    cases h
    simp [requestOf, senderOf, isResponse, isAck, List.countP_singleton]
  | opened c =>
    simp only [handle] at h
    split at h
    · cases h
    · cases h
      simp [requestOf, senderOf]
  | closed c =>
    simp only [handle] at h
    split at h
    · cases h
      simp [requestOf, senderOf]
    · cases h
  | message c binary bytes =>
    simp only [handle] at h
    split at h
    · rcases onMessage_cases h with ⟨_,_,rfl⟩ | ⟨payload,_,rfl⟩
      · simp [requestOf, senderOf, sendJsonFrame, isResponse, isAck, List.countP_singleton]
      · split
        · simp [requestOf, senderOf, sendJsonFrame, isResponse, isAck, List.countP_cons]
        · simp [requestOf, senderOf, sendJsonFrame, isResponse, isAck, List.countP_cons]
    · cases h
  | rerun now =>
    obtain ⟨⟨u,frames,reply⟩,hrun,hr⟩ := Option.map_eq_some_iff.mp h
    cases hr
    obtain ⟨hresponse,hack⟩ := completeRun_answers hrun request client
    simp [hresponse, hack, requestOf, senderOf]

theorem direct_ends {e : LoopEvent} {request : Nat} {c : Call} (h : direct e = some (request,c))
    (r : Nat) (client : Client) : completes r e = decide (request = r) ∧ givesUp r e = false ∧
      isMessage client e = false ∧ requestOf c = some request ∧ senderOf c = none := by
  cases e <;> cases h <;> exact ⟨rfl,rfl,rfl,rfl,rfl⟩

theorem notice_ends {e : LoopEvent} {c : Call} (h : notice e = some c) (r : Nat)
    (client : Client) : completes r e = false ∧ givesUp r e = false ∧
      isMessage client e = decide (senderOf c = some client) ∧ requestOf c = none := by
  cases e <;> cases h <;> simp [completes, givesUp, isMessage, senderOf, requestOf]

theorem toNat_ite (b : Bool) : b.toNat = if b then 1 else 0 := by
  cases b <;> rfl

/-- An event answers the request it completes and acknowledges the message it is. -/
theorem effect_answers {s t : Session} {e : LoopEvent} (he : Effect json encode s e t) (r : Nat)
    (client : Client) :
    t.sent.countP (isResponse r) = s.sent.countP (isResponse r) + (completes r e).toNat ∧
    t.sent.countP (isAck client) = s.sent.countP (isAck client) + (isMessage client e).toNat := by
  cases he with
  | started => exact ⟨rfl,rfl⟩
  | grown => simp [completes, isMessage]
  | ended hp hh =>
    obtain ⟨hresponse,hack⟩ := handle_answers hh r client
    simp [List.countP_append, hresponse, hack, completes, isMessage, requestOf, senderOf,
      toNat_ite]
  | aborted => exact ⟨rfl,rfl⟩
  | answered he hh =>
    obtain ⟨hcomplete,_,hmessage,hrequest,hsender⟩ := direct_ends he r client
    obtain ⟨hresponse,hack⟩ := handle_answers hh r client
    simp [List.countP_append, hresponse, hack, hcomplete, hmessage, hrequest, hsender,
      toNat_ite]
  | noticed he hh =>
    obtain ⟨hcomplete,_,hmessage,hrequest⟩ := notice_ends he r client
    obtain ⟨hresponse,hack⟩ := handle_answers hh r client
    simp [List.countP_append, hresponse, hack, hcomplete, hmessage, hrequest, toNat_ite]

/-- How often a request has come to an end. -/
def ends (r : Nat) (events : List LoopEvent) : Nat :=
  events.countP (completes r) + events.countP (givesUp r)

/-- A request whose body is still to come, or that has not come in. -/
def Outstanding (s : Session) (r : Nat) : Prop := r ∈ s.pending ∨ s.requests ≤ r

structure Ended (past : List LoopEvent) (s : Session) : Prop where
  once : ∀ r, ends r past ≤ 1
  never : ∀ r, Outstanding s r → ends r past = 0
  below : ∀ r, r ∈ s.pending → r < s.requests

theorem ends_concat (r : Nat) (past : List LoopEvent) (e : LoopEvent) :
    ends r (past ++ [e]) = ends r past + ((completes r e).toNat + (givesUp r e).toNat) := by
  simp only [ends, List.countP_append, List.countP_singleton, toNat_ite]
  omega

/-- An event that ends no request, or one that was outstanding and is not any more. -/
theorem Ended.next {past : List LoopEvent} {s t : Session} {e : LoopEvent} (h : Ended past s)
    (hend : ∀ r, (completes r e).toNat + (givesUp r e).toNat = 0 ∨
      (completes r e).toNat + (givesUp r e).toNat = 1 ∧ Outstanding s r ∧ ¬ Outstanding t r)
    (hsub : ∀ r, Outstanding t r → Outstanding s r) (hbelow : ∀ r, r ∈ t.pending → r < t.requests) :
    Ended (past ++ [e]) t where
  once := by
    intro r
    rw [ends_concat]
    rcases hend r with hzero | ⟨hone,hout,_⟩
    · rw [hzero]
      exact h.once r
    · rw [hone, h.never r hout]
  never := by
    intro r hr
    rw [ends_concat, h.never r (hsub r hr)]
    rcases hend r with hzero | ⟨_,_,hnot⟩
    · rw [hzero]
    · exact absurd hr hnot
  below := hbelow

theorem outstanding_erase {s : Session} {r k : Nat} {server : EditorServer} {sent : List Sent}
    (h : Outstanding { s with server := server, pending := s.pending.erase k, sent := sent } r) :
    Outstanding s r :=
  h.imp_left fun hr => (AList.mem_erase.mp hr).2

/-- A request that is taken out is no longer outstanding. -/
theorem Ended.erased {past : List LoopEvent} {s : Session} {k : Nat} {server : EditorServer}
    {sent : List Sent} (h : Ended past s) (hk : k ∈ s.pending) :
    ¬ Outstanding { s with server := server, pending := s.pending.erase k, sent := sent } k := by
  rintro (hin | hge)
  · exact (AList.mem_erase.mp hin).1 rfl
  · exact absurd (h.below k hk) (Nat.not_lt.mpr hge)

theorem ended_step {past : List LoopEvent} {s t : Session} {e : LoopEvent} (h : Ended past s)
    (he : Effect json encode s e t) : Ended (past ++ [e]) t := by
  cases he with
  | @started route =>
    refine h.next (fun _ => .inl rfl) ?_ ?_
    · intro r hr
      rcases hr with hr | hr
      · rcases (AList.mem_insert _).mp hr with rfl | hr
        · exact .inr le_rfl
        · exact .inl hr
      · exact .inr (Nat.le_of_succ_le hr)
    · intro r hr
      rcases (AList.mem_insert _).mp hr with rfl | hr
      · exact Nat.lt_succ_self _
      · exact Nat.lt_succ_of_lt (h.below r hr)
  | @grown request chunk p hp =>
    have hmem : ∀ r, r ∈ s.pending.insert request ⟨p.route,p.body ++ chunk⟩ → r ∈ s.pending := by
      intro r hr
      rcases (AList.mem_insert _).mp hr with rfl | hr
      · exact AList.lookup_isSome.mp (by simp [hp])
      · exact hr
    refine h.next (fun r => .inl (by simp [completes, givesUp])) ?_ ?_
    · intro r hr
      exact hr.imp_left (hmem r)
    · intro r hr
      exact h.below r (hmem r hr)
  | @ended request chunk p server sent hp hh =>
    have hin : request ∈ s.pending := AList.lookup_isSome.mp (by simp [hp])
    refine h.next ?_ (fun r => outstanding_erase) (fun r hr => h.below r (AList.mem_erase.mp hr).2)
    intro r
    by_cases hr : request = r
    · subst hr
      exact .inr ⟨by simp [completes, givesUp],.inl hin,h.erased hin⟩
    · exact .inl (by simp [completes, givesUp, hr])
  | @aborted request hin =>
    refine h.next ?_ (fun r => outstanding_erase) (fun r hr => h.below r (AList.mem_erase.mp hr).2)
    intro r
    by_cases hr : request = r
    · subst hr
      exact .inr ⟨by simp [completes, givesUp],.inl hin,h.erased hin⟩
    · exact .inl (by simp [completes, givesUp, hr])
  | @answered _ c server sent he hh =>
    refine h.next ?_ ?_ (fun r hr => Nat.lt_succ_of_lt (h.below r hr))
    · intro r
      obtain ⟨hcomplete,hgive,_⟩ := direct_ends he r 0
      by_cases hr : s.requests = r
      · subst hr
        refine .inr ⟨by simp [hcomplete, hgive],.inr le_rfl,?_⟩
        rintro (hin | hge)
        · exact absurd (h.below _ hin) (lt_irrefl _)
        · exact absurd hge (Nat.not_succ_le_self _)
      · exact .inl (by simp [hcomplete, hgive, hr])
    · intro r hr
      exact hr.imp_right fun hge => Nat.le_of_succ_le hge
  | noticed he hh =>
    refine h.next ?_ (fun r hr => hr) h.below
    intro r
    obtain ⟨hcomplete,hgive,_⟩ := notice_ends he r 0
    exact .inl (by simp [hcomplete, hgive])

theorem ended_start : Ended [] { server } where
  once := fun _ => Nat.zero_le 1
  never := fun _ _ => rfl
  below := by
    intro r hr
    cases hr

def activeNodes (s : EditorServer) : List Json :=
  match s.activePipeline with
  | .object fields => ((Params.lookup fields "nodes").map elements).getD []
  | _ => []

/-- Each node is an object whose id, if any, is a text. -/
def Profiled (s : EditorServer) : Prop := ∀ node ∈ activeNodes s, ∃ id, textValue node "id" = .ok id

/-- What has no outcome: an exception that no handler catches, which ends the loop, and a call that
the socket library does not make, of a connection that is open already or not any more. -/
def Throws (json : JsonLibrary) (s : EditorServer) : Call → Prop
  | .body _ _ body => json.parse body = .error none
  | .postRun _ _ => ¬Profiled s
  | .getRun _ _ => False
  | .getActive _ => False
  | .opened client => client ∈ s.wsClients
  | .closed client => client ∉ s.wsClients
  | .message client binary bytes => client ∈ s.wsClients → binary = true ∧
      ∃ frame, decodeFrame bytes = some frame ∧ frame.type = .control ∧
        json.parse frame.payload = .error none
  | .rerun _ => ¬Profiled s

theorem profilePayload_exists {s : EditorServer} {runId : UInt64} :
    (∃ payload, profilePayload s runId = .ok payload) ↔ Profiled s := by
  change (∃ payload, ((activeNodes s).mapM profileNode).map _ = .ok payload) ↔ _
  rw [Checked.map_exists, Checked.mapM_exists]
  exact forall₂_congr fun node _ => Checked.map_exists

theorem completeRun_none {s : EditorServer} {now : Nat} :
    completeRun encode now s = none ↔ ¬Profiled s := by
  have hexists : (∃ payload, profilePayload (pushThumbnailFrames encode now s.createRunRecord.1).1
      s.createRunRecord.2.runId = .ok payload) ↔ Profiled s := profilePayload_exists
  rw [← hexists]
  simp only [completeRun]
  split
  · rename_i hthrown
    simp [hthrown]
  · rename_i payload hpayload
    simp [hpayload]

theorem onBody_none {s : EditorServer} {apply : Json → Except Refusal EditorServer}
    {code : String} {data : Json → Json} {request : Nat} {body : List UInt8} :
    onBody json s apply code data request body = none ↔ json.parse body = .error none := by
  unfold onBody
  split
  · rename_i hparse
    simp [hparse]
  · rename_i hparse
    simp [hparse]
  · rename_i hparse
    split <;> simp [hparse]

theorem onMessage_none {s : EditorServer} {client : Client} {binary : Bool}
    {message : List UInt8} : onMessage json s client binary message = none ↔ binary = true ∧
      ∃ frame, decodeFrame message = some frame ∧ frame.type = .control ∧
        json.parse frame.payload = .error none := by
  simp only [onMessage]
  split
  · rename_i hbinary
    simp_all
  · rename_i hbinary
    split
    · rename_i hframe
      simp [hframe]
    · rename_i frame hframe
      split
      · rename_i htype
        simp [hframe, htype]
      · rename_i htype
        split
        · rename_i hparse
          simp_all
        · rename_i hparse
          simp [hframe, hparse]
        · rename_i hparse
          split <;> simp [hframe, hparse]

theorem handle_none {s : EditorServer} {c : Call} :
    handle json encode s c = none ↔ Throws json s c := by
  cases c with
  | body request route body =>
    cases route with
    | putActive => exact onBody_none
    | postParams => exact onBody_none
  | postRun request now => simpa [handle, Throws] using completeRun_none
  | getRun request url => simp [handle, Throws]
  | getActive request => simp [handle, Throws]
  | opened client => simp [handle, Throws]
  | closed client => simp [handle, Throws]
  | message client binary bytes =>
    by_cases hin : client ∈ s.wsClients
    · simpa [handle, Throws, hin] using onMessage_none
    · simp [handle, Throws, hin]
  | rerun now => simpa [handle, Throws] using completeRun_none

/-- In every order of the loop's events, a request has one response when it is complete and
none before that or after it is given up, and a client has as many Acks as it sent messages. -/
theorem answered_once {events : List LoopEvent} {s : Session}
    (h : session json encode server events = some s) :
    (∀ r, s.sent.countP (isResponse r) = events.countP (completes r) ∧ ends r events ≤ 1) ∧
    (∀ c, s.sent.countP (isAck c) = events.countP (isMessage c)) ∧
    ∀ u c, handle json encode u c = none ↔ Throws json u c := by
  have hcount := Trace.run_history (I := fun past s =>
      (∀ r, s.sent.countP (isResponse r) = past.countP (completes r)) ∧
      ∀ c, s.sent.countP (isAck c) = past.countP (isMessage c)) (by
    intro past s e t ⟨hresponses,hacks⟩ hstep
    have heff := step_effect hstep
    refine ⟨?_,?_⟩
    · intro r
      rw [(effect_answers heff r 0).1, hresponses r, List.countP_append, List.countP_singleton,
        toNat_ite]
    · intro c
      rw [(effect_answers heff 0 c).2, hacks c, List.countP_append, List.countP_singleton,
        toNat_ite]) ⟨fun _ => rfl,fun _ => rfl⟩ h
  have hended := Trace.run_history (I := fun past s => Ended past s)
    (fun past s e t hs hstep => ended_step hs (step_effect hstep)) ended_start h
  exact ⟨fun r => ⟨hcount.1 r,hended.once r⟩,hcount.2,fun _ _ => handle_none⟩

theorem answered_once_two : ∃ s, session bracketJson (fun _ => []) {} twoBodies = some s ∧
    (∀ r, s.sent.countP (isResponse r) = twoBodies.countP (completes r) ∧
      ends r twoBodies ≤ 1) ∧
    ∀ c, s.sent.countP (isAck c) = twoBodies.countP (isMessage c) := by
  have h := answered_once (show session bracketJson (fun _ => []) {} twoBodies = some _ from rfl)
  exact ⟨_,rfl,h.1,h.2.1⟩

/-! ### Refusals -/

/-- A response of an error, or an Ack that is not ok. -/
def isRefusal : Sent → Bool
  | .response _ response => response.status ≠ "200 OK"
  | .frame _ .ack (.json (.object fields)) =>
    match Params.lookup fields "ok" with
    | some (.bool value) => !value
    | _ => false
  | _ => false

/-- The calls that were not refused where their turn came. -/
def accepted (json : JsonLibrary) (encode : UInt32 → List UInt8) (s : EditorServer) :
    List Call → List Call
  | [] => []
  | c :: cs =>
    match handle json encode s c with
    | none => []
    | some (t,sent) =>
      if sent.any isRefusal then accepted json encode t cs
      else c :: accepted json encode t cs

theorem completeRun_accepted {s t : EditorServer} {now : Nat} {sent : List Sent}
    {reply : RunReply} (h : completeRun encode now s = some (t,sent,reply)) :
    sent.any isRefusal = false := by
  obtain ⟨thumbnails,profile,_,_,_,_,rfl⟩ := completeRun_cases h
  simp [broadcastJsonFrame, sendJsonFrame, isRefusal, List.any_eq_false]

/-- A call that is refused leaves the server as it was, and its refusal is all it sends. -/
theorem handle_refused {s t : EditorServer} {c : Call} {sent : List Sent}
    (h : handle json encode s c = some (t,sent)) (hrefused : sent.any isRefusal = true) :
    t = s ∧ ∃ refusal, sent = [refusal] := by
  cases c with
  | body r route body =>
    rcases handle_body_cases h with ⟨rfl,_,_,rfl⟩ | ⟨_,rfl⟩
    · exact ⟨rfl,_,rfl⟩
    · simp [isRefusal, ok] at hrefused
  | postRun r now =>
    obtain ⟨⟨u,frames,reply⟩,hrun,hr⟩ := Option.map_eq_some_iff.mp h
    cases hr
    rw [List.any_append, completeRun_accepted hrun] at hrefused
    simp [isRefusal, ok] at hrefused
  | getRun r url =>
    cases h
    exact ⟨rfl,_,rfl⟩
  | getActive r =>
    cases h
    exact ⟨rfl,_,rfl⟩
  | opened c =>
    simp only [handle] at h
    split at h
    · cases h
    · cases h
      simp at hrefused
  | closed c =>
    simp only [handle] at h
    split at h
    · cases h
      simp at hrefused
    · cases h
  | message c binary bytes =>
    simp only [handle] at h
    split at h
    · rcases onMessage_cases h with ⟨rfl,_,rfl⟩ | ⟨payload,_,rfl⟩
      · exact ⟨rfl,_,rfl⟩
      · rw [List.any_append] at hrefused
        have hack : [sendJsonFrame c .ack (ackReceived (controlType payload))].any isRefusal =
            false := rfl
        rw [hack] at hrefused
        split at hrefused
        · simp [isRefusal] at hrefused
        · simp at hrefused
    · cases h
  | rerun now =>
    obtain ⟨⟨u,frames,reply⟩,hrun,hr⟩ := Option.map_eq_some_iff.mp h
    cases hr
    rw [completeRun_accepted hrun] at hrefused
    cases hrefused

def withoutRefusals (sent : List Sent) : List Sent := sent.filter (fun x => !isRefusal x)

theorem accepted_run {cs : List Call} {v w : Service}
    (h : Trace.run (serve json encode) v cs = some w) :
    Trace.run (serve json encode) ⟨v.server,withoutRefusals v.sent⟩
      (accepted json encode v.server cs) = some ⟨w.server,withoutRefusals w.sent⟩ := by
  induction cs generalizing v with
  | nil =>
    cases h
    rfl
  | cons c cs ih =>
    obtain ⟨m,hm,hrest⟩ := Trace.run_cons.mp h
    obtain ⟨⟨server,sent⟩,hh,rfl⟩ := Option.map_eq_some_iff.mp hm
    have hih := ih hrest
    simp only [accepted, hh]
    cases hany : sent.any isRefusal with
    | true =>
      obtain ⟨rfl,refusal,rfl⟩ := handle_refused hh hany
      have hsent : withoutRefusals (v.sent ++ [refusal]) = withoutRefusals v.sent := by
        have hrefusal : isRefusal refusal = true := by simpa using hany
        simp [withoutRefusals, hrefusal]
      rw [hsent] at hih
      exact hih
    | false =>
      have hsent : withoutRefusals (v.sent ++ sent) = withoutRefusals v.sent ++ sent := by
        have hkept : withoutRefusals sent = sent := by
          refine List.filter_eq_self.mpr ?_
          intro x hx
          simpa using List.any_eq_false.mp hany x hx
        rw [withoutRefusals, List.filter_append]
        exact congrArg (withoutRefusals v.sent ++ ·) hkept
      rw [hsent] at hih
      refine Trace.run_cons.mpr ⟨_,?_,hih⟩
      simp [serve, hh]

/-- What was refused could as well not have been asked: without it the server ends in the same
state and sends all the rest. A refusal is all that its call sends. -/
theorem refusals_vanish {events : List LoopEvent} {s : Session}
    (h : session json encode server events = some s) :
    Trace.run (serve json encode) { server } (accepted json encode server (calls events)) =
      some ⟨s.server,withoutRefusals s.sent⟩ ∧
    ∀ u t c sent, handle json encode u c = some (t,sent) → sent.any isRefusal = true →
      t = u ∧ ∃ refusal, sent = [refusal] :=
  ⟨accepted_run (bodies_in_pieces h),fun _ _ _ _ => handle_refused⟩

theorem refusals_vanish_two : ∃ s, session bracketJson (fun _ => []) {} twoBodies = some s ∧
    Trace.run (serve bracketJson (fun _ => [])) {}
        [.opened 7,.message 7 true (encodeFrame .control 0 0 [0x7b,0x7d]),.postRun 3 0] =
      some ⟨s.server,withoutRefusals s.sent⟩ :=
  ⟨_,rfl,(refusals_vanish (show session bracketJson (fun _ => []) {} twoBodies = some _ from rfl)).1⟩

end Cpipe.Proofs.EditorRequests
