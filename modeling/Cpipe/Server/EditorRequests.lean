import Cpipe.Library.Trace
import Cpipe.Server.EditorProtocol
import Cpipe.Server.EditorServer

namespace Cpipe.Server.EditorRequests
open EditorServer

/-! ### What is sent -/

/-- The JSON library. The text of an exception of `parse` may hold bytes of the request;
where they are no UTF-8 there is no text, and it cannot be written into a reply. `thrown` is
the text of a later exception. -/
structure JsonLibrary where
  parse : List UInt8 → Except (Option String) Json
  dump : Json → List UInt8
  thrown : EditorServer → Json → String

structure Response where
  status : String := "200 OK"
  body : Json

/-- The payload of a frame, before a JSON value is dumped. -/
inductive Payload where
  | json (value : Json)
  | image (bytes : List UInt8)

def Payload.bytes (json : JsonLibrary) : Payload → List UInt8
  | .json value => json.dump value
  | .image bytes => bytes

/-- What a handler gives to the socket library, and the call of `schedule_param_rerun`. -/
inductive Sent where
  | response (request : Nat) (response : Response)
  | frame (client : Client) (type : EditorFrameType) (payload : Payload)
  | rerun

/-- The message of a frame, as `send_frame` gives it to a socket. -/
def Sent.wire (json : JsonLibrary) : Sent → Option (Client × List UInt8)
  | .frame client type payload => some (client,encodeFrame type 0 0 (payload.bytes json))
  | _ => none

def ok (data : Json) : Response where
  body := .object [("data",data),("ok",.bool true)]

def errorEnvelope (code message : String) : Json :=
  .object [("error",.object [("code",.string code),("message",.string message)]),
    ("ok",.bool false)]

def badRequest (code message : String) : Response := ⟨"400 Bad Request",errorEnvelope code message⟩

def notFound (message : String) : Response :=
  ⟨"404 Not Found",errorEnvelope "not_found" message⟩

def sendJsonFrame (client : Client) (type : EditorFrameType) (payload : Json) : Sent :=
  .frame client type (.json payload)

def broadcastJsonFrame (s : EditorServer) (type : EditorFrameType) (payload : Json) : List Sent :=
  s.wsClients.map (fun client => sendJsonFrame client type payload)

/-! ### Requests with a body -/

/-- What the last piece of a body does. `code` is what an unfit document is refused with. -/
def onBody (json : JsonLibrary) (s : EditorServer)
    (apply : Json → Except Refusal EditorServer) (code : String) (data : Json → Json)
    (request : Nat) (body : List UInt8) : Option (EditorServer × List Sent) :=
  match json.parse body with
  | .error none => none
  | .error (some what) => some (s,[.response request (badRequest "bad_json" what)])
  | .ok document =>
    match apply document with
    | .ok t => some (t,[.response request (ok (data document))])
    | .error (.status e) => some (s,[.response request (badRequest code e.message)])
    | .error .thrown =>
      some (s,[.response request (badRequest "bad_json" (json.thrown s document))])

def putActive (json : JsonLibrary) (s : EditorServer) : Nat → List UInt8 →
    Option (EditorServer × List Sent) :=
  onBody json s s.replaceActivePipeline "bad_pipeline"
    (fun document => .object [("pipeline",document)])

def postParams (json : JsonLibrary) (s : EditorServer) : Nat → List UInt8 →
    Option (EditorServer × List Sent) :=
  onBody json s s.applyParamDelta "bad_param_delta" (fun _ => .object [("applied",.bool true)])

inductive BodyRoute where
  | putActive
  | postParams
deriving DecidableEq, Repr

def BodyRoute.handle (json : JsonLibrary) (s : EditorServer) : BodyRoute → Nat → List UInt8 →
    Option (EditorServer × List Sent)
  | .putActive => EditorRequests.putActive json s
  | .postParams => EditorRequests.postParams json s

/-! ### Runs -/

def runIdJson (runId : UInt64) : Json := .number runId.toNat

def recordJson (reply : RunReply) : Json :=
  .object [("output_paths",.array (reply.record.outputPaths.map .string)),
    ("run_id",runIdJson reply.runId),("status",.string reply.record.status)]

def profileNode (node : Json) : Except Refusal Json :=
  (textValue node "id").map (fun id =>
    .object [("device",.string "cpu"),("end_ms",.number 0),("mem_kb",.number 0),
      ("ms",.number 0),("node_id",.string id),("peak_mem_kb",.number 0),("start_ms",.number 0)])

/-- What a loop over a JSON value sees. -/
def elements : Json → List Json
  | .array items => items
  | .object fields => fields.map Prod.snd
  | .null => []
  | value => [value]

/-- Throws on a node that is no object and on an id that is no text. -/
def profilePayload (s : EditorServer) (runId : UInt64) : Except Refusal Json :=
  let nodes := match s.activePipeline with
    | .object fields => ((Params.lookup fields "nodes").map elements).getD []
    | _ => []
  (nodes.mapM profileNode).map (fun nodes =>
    .object [("nodes",.array nodes),("run_id",runIdJson runId),
      ("type",.string "pipeline.profile")])

def logPayload (runId : UInt64) : Json :=
  .object [("level",.string "info"),("message",.string "event=pipeline_run status=completed"),
    ("run_id",runIdJson runId)]

/-- The handler of a run request and `emit_completed_run` up to the response. No handler
catches what `profilePayload` throws. -/
def completeRun (encode : UInt32 → List UInt8) (now : Nat) (s : EditorServer) :
    Option (EditorServer × List Sent × RunReply) :=
  let created := s.createRunRecord
  let pushed := pushThumbnailFrames encode now created.1
  match profilePayload pushed.1 created.2.runId with
  | .error _ => none
  | .ok profile =>
    some (pushed.1,
      pushed.2.map (fun t => .frame t.1 .thumbnail (.image t.2)) ++
        (broadcastJsonFrame pushed.1 .profile profile ++
          broadcastJsonFrame pushed.1 .log (logPayload created.2.runId)),
      created.2)

/-! ### Run ids in a URL -/

/-- `std::isspace` in the C locale. -/
def isSpace (byte : UInt8) : Bool := byte = 0x20 ∨ (0x09 ≤ byte ∧ byte ≤ 0x0d)

def isDigit (byte : UInt8) : Bool := 0x30 ≤ byte ∧ byte ≤ 0x39

def digitsValue (digits : List UInt8) : Nat :=
  digits.foldl (fun value digit => value*10 + (digit.toNat - 0x30)) 0

/-- `input >> value` up to the end of the text. A sign is read, and a minus takes the
negative of the value in 64 bits. -/
def readUnsigned (text : List UInt8) : Option UInt64 :=
  let rest := text.dropWhile isSpace
  let signed := rest.head? = some 0x2d
  let digits := if signed ∨ rest.head? = some 0x2b then rest.tail else rest
  if digits = [] ∨ !digits.all isDigit ∨ 2^64 ≤ digitsValue digits then none
  else
    let value := UInt64.ofNat (digitsValue digits)
    some (if signed then 0 - value else value)

def runsRoute : List UInt8 := "/api/pipelines/active/runs/".toUTF8.toList

def parseRunId (url : List UInt8) : Option UInt64 :=
  if runsRoute.isPrefixOf url then readUnsigned (url.drop runsRoute.length) else none

def getRun (s : EditorServer) (url : List UInt8) : Response :=
  match parseRunId url with
  | none => badRequest "bad_run_id" "invalid run id"
  | some runId =>
    match s.runRecord runId with
    | none => notFound "run id not found"
    | some reply => ok (recordJson reply)

def getActive (s : EditorServer) : Response :=
  match s.activePipeline with
  | .null => notFound "no active pipeline"
  | pipeline => ok (.object [("pipeline",pipeline)])

/-! ### Messages of a socket -/

def ackError (message : String) : Json := .object [("error",.string message),("ok",.bool false)]

def ackReceived (type : String) : Json := .object [("ok",.bool true),("received",.string type)]

/-- `payload.value("type", "")` of a payload that has passed. -/
def controlType (payload : Json) : String :=
  match textValue payload "type" with
  | .ok type => type
  | .error _ => ""

def onMessage (json : JsonLibrary) (s : EditorServer) (client : Client) (binary : Bool)
    (message : List UInt8) : Option (EditorServer × List Sent) :=
  let ack := sendJsonFrame client .ack
  if !binary then some (s,[ack (ackError "binary frame required")])
  else
    match decodeFrame message with
    | none => some (s,[ack (ackError "invalid control frame")])
    | some frame =>
      if frame.type ≠ .control then some (s,[ack (ackError "invalid control frame")])
      else
        match json.parse frame.payload with
        | .error none => none
        | .error (some what) => some (s,[ack (ackError what)])
        | .ok payload =>
          match s.onControl client payload with
          | .error (.status e) => some (s,[ack (ackError e.message)])
          | .error .thrown => some (s,[ack (ackError (json.thrown s payload))])
          | .ok t =>
            let type := controlType payload
            some (t,(if type = "node.update_param" then [.rerun] else []) ++
              [ack (ackReceived type)])

/-! ### The loop -/

structure Pending where
  route : BodyRoute
  body : List UInt8 := []

/-- The server with the requests whose bodies are not complete. `requests` counts the requests
so far and `sent` holds all that was sent. -/
structure Session where
  server : EditorServer := {}
  pending : AList (fun _ : Nat => Pending) := ∅
  requests : Nat := 0
  sent : List Sent := []

/-- What the loop calls a handler for. Requests are numbered as they come in. The bodies of
several requests may come in turns, each in any pieces. -/
inductive LoopEvent where
  | started (request : Nat) (route : BodyRoute)
  | piece (request : Nat) (chunk : List UInt8) (last : Bool)
  | aborted (request : Nat)
  | postRun (request : Nat) (now : Nat)
  | getRun (request : Nat) (url : List UInt8)
  | getActive (request : Nat)
  | opened (client : Client)
  | closed (client : Client)
  | message (client : Client) (binary : Bool) (bytes : List UInt8)
  | rerun (now : Nat)

/-- What an event is to the handlers once a request is complete. -/
inductive Call where
  | body (request : Nat) (route : BodyRoute) (body : List UInt8)
  | postRun (request : Nat) (now : Nat)
  | getRun (request : Nat) (url : List UInt8)
  | getActive (request : Nat)
  | opened (client : Client)
  | closed (client : Client)
  | message (client : Client) (binary : Bool) (bytes : List UInt8)
  | rerun (now : Nat)

section Loop

variable (json : JsonLibrary) (encode : UInt32 → List UInt8)

/-- Nothing where the exception of a handler ends the loop. -/
def handle (s : EditorServer) : Call → Option (EditorServer × List Sent)
  | .body request route body => route.handle json s request body
  | .postRun request now =>
    (completeRun encode now s).map (fun r =>
      (r.1,r.2.1 ++ [.response request (ok (recordJson r.2.2))]))
  | .getRun request url => some (s,[.response request (EditorRequests.getRun s url)])
  | .getActive request => some (s,[.response request (EditorRequests.getActive s)])
  | .opened client => if client ∈ s.wsClients then none else some (s.openClient client,[])
  | .closed client => if client ∈ s.wsClients then some (s.closeClient client,[]) else none
  | .message client binary bytes =>
    if client ∈ s.wsClients then onMessage json s client binary bytes else none
  | .rerun now => (completeRun encode now s).map (fun r => (r.1,r.2.1))

/-- The session after a handler. -/
def call (s : Session) (c : Call) : Option Session :=
  (handle json encode s.server c).map (fun r =>
    { s with server := r.1, sent := s.sent ++ r.2 })

/-- A request that is answered at once. -/
def callNext (s : Session) (request : Nat) (c : Call) : Option Session :=
  if request = s.requests then
    (call json encode s c).map (fun t => { t with requests := t.requests+1 })
  else none

/-- The pieces of a request stop with its last one and when the client gives up. -/
def loopStep (s : Session) : LoopEvent → Option Session
  | .started request route =>
    if request = s.requests then
      some { s with pending := s.pending.insert request ⟨route,[]⟩, requests := s.requests+1 }
    else none
  | .piece request chunk last =>
    match s.pending.lookup request with
    | none => none
    | some p =>
      let body := p.body ++ chunk
      if last then
        call json encode { s with pending := s.pending.erase request }
          (.body request p.route body)
      else some { s with pending := s.pending.insert request ⟨p.route,body⟩ }
  | .aborted request =>
    if request ∈ s.pending then some { s with pending := s.pending.erase request } else none
  | .postRun request now => callNext json encode s request (.postRun request now)
  | .getRun request url => callNext json encode s request (.getRun request url)
  | .getActive request => callNext json encode s request (.getActive request)
  | .opened client => call json encode s (.opened client)
  | .closed client => call json encode s (.closed client)
  | .message client binary bytes => call json encode s (.message client binary bytes)
  | .rerun now => call json encode s (.rerun now)

/-- Runs of the loop of a server that may have been given a pipeline before. -/
def session (server : EditorServer) (events : List LoopEvent) : Option Session :=
  Library.Trace.run (loopStep json encode) { server } events

end Loop

end Cpipe.Server.EditorRequests
