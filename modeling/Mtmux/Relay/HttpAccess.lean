import Mtmux.Relay.Connections
import Mtmux.Relay.Policy

/-! Files and recordings over plain HTTP: the token and the gate once more, beside the websocket's. -/
namespace Mtmux.Relay
open Protocol

inductive HttpRoute where
  | file (path queryToken : Option String) (download : Bool)
  | recording (id : Option String)

structure HttpRequest where
  route : HttpRoute
  authorization : Option String
  range : Option String

def bearerToken (authorization : Option String) : Option String :=
  authorization.bind fun header =>
    if "Bearer ".toList.isPrefixOf header.toList then
      some (String.ofList (header.toList.drop "Bearer ".length))
    else none

def HttpRequest.token (req : HttpRequest) : Option String :=
  match req.route with
  | .file _ queryToken _ => (bearerToken req.authorization).orElse fun _ => queryToken
  | .recording _ => bearerToken req.authorization

/-- What the machine answers about paths and names. -/
structure HttpHost where
  isPathAllowed : String → Bool
  resolve : String → String
  basename : String → String
  getMimeType : String → String
  encodeURIComponent : String → String
  recordingPath : (filename : String) → String

structure FileStat where
  isFile : Bool
  size : Nat

/-- A stream whose range ends before it begins cannot be opened, and its response is never finished. -/
inductive HttpBody where
  | text (body : String)
  | stream (path : String) (start length : Nat)
  | unfinished

structure HttpResponse where
  status : Nat
  headers : List (String × String)
  body : HttpBody

namespace HttpResponse

def plain (status : Nat) (body : String) : HttpResponse := ⟨status, [], .text body⟩
def unauthorized : HttpResponse := plain 401 "Unauthorized"
def unapproved : HttpResponse := plain 403 "Not approved on the machine"

/-- Does it carry bytes of a file? -/
def streams (res : HttpResponse) : Bool :=
  match res.body with
  | .stream .. => true
  | _ => false

end HttpResponse

def decimal (digits : List Char) : Nat := digits.foldl (fun n c => 10 * n + (c.toNat - '0'.toNat)) 0

/-- The range that begins here, its end left out or not. -/
def rangeAt (text : List Char) : Option (Nat × Option Nat) :=
  if "bytes=".toList.isPrefixOf text then
    let rest := text.drop 6
    match rest.takeWhile Char.isDigit, rest.dropWhile Char.isDigit with
    | d :: ds, '-' :: after =>
      let last := after.takeWhile Char.isDigit
      some (decimal (d :: ds), if last = [] then none else some (decimal last))
    | _, _ => none
  else none

/-- The first range that the header names. -/
def parseRange : List Char → Option (Nat × Option Nat)
  | [] => none
  | c :: cs => (rangeAt (c :: cs)).orElse fun _ => parseRange cs

/-- What may not stand in a quoted header value. -/
def isUnsafeHeaderChar (c : Char) : Bool :=
  decide (c.toNat ≤ 0x1f) || decide (c.toNat = 0x7f) || c = '"' || c = '\\'

def safeName (fileName : String) : String :=
  String.ofList (fileName.toList.map fun c => if isUnsafeHeaderChar c then '_' else c)

section
variable (host : HttpHost)

def contentDisposition (fileName : String) : String × String :=
  ("Content-Disposition", "attachment; filename=\"" ++ safeName fileName ++ "\"; filename*=UTF-8''" ++
    host.encodeURIComponent fileName)

/-- The answer to a request for a file once the file has been found. -/
def serveFile (resolved : String) (download : Bool) (range : Option String) (stat : FileStat) :
    HttpResponse :=
  if !stat.isFile then .plain 404 "Not a file"
  else
    let headers := [("Content-Type", host.getMimeType resolved), ("Cache-Control", "private, max-age=60")] ++
      if download then [contentDisposition host (host.basename resolved)] else []
    match range.bind fun header => parseRange header.toList with
    | none =>
      ⟨200, headers ++ [("Content-Length", toString stat.size), ("Accept-Ranges", "bytes")],
        .stream resolved 0 stat.size⟩
    | some (start, stop) =>
      if stat.size ≤ start then ⟨416, [("Content-Range", "bytes */" ++ toString stat.size)], .text ""⟩
      else
        let clampedEnd := min (stop.getD (stat.size - 1)) (stat.size - 1)
        ⟨206, headers ++
            [("Content-Range",
              "bytes " ++ toString start ++ "-" ++ toString clampedEnd ++ "/" ++ toString stat.size),
            ("Content-Length", toString ((clampedEnd : Int) - start + 1)), ("Accept-Ranges", "bytes")],
          if clampedEnd < start then .unfinished else .stream resolved start (clampedEnd - start + 1)⟩

def serveRecording (recording : RecordingInfo) (stat : FileStat) : HttpResponse :=
  ⟨200,
    [("Content-Type", "application/x-asciicast"), ("Content-Length", toString stat.size),
      ("Cache-Control", "private, no-store"),
      ("Content-Disposition", "attachment; filename=\"" ++ recording.id ++ ".cast\"")],
    .stream (host.recordingPath recording.filename) 0 stat.size⟩

/-- What an unanswered request waits for, with the grant it was let in with. -/
inductive HttpPhase where
  | admitting (grant : GrantRecord)
  | statting (grant : GrantRecord) (path resolved : String)
  | finding (grant : GrantRecord) (id : String)
  | measuring (grant : GrantRecord) (id : String) (recording : RecordingInfo)

/-- `token` is the one that was presented. -/
structure PendingRequest where
  req : HttpRequest
  token : String
  phase : HttpPhase

structure HttpServer where
  gateway : Gateway
  requests : OrderedMap Nat PendingRequest

/-- The answers to what a request waits for come at any later moment; `gateway` is all that happens to tokens and
sockets meanwhile. -/
inductive HttpEvent where
  | gateway (e : GatewayEvent)
  | request (id : Nat) (req : HttpRequest)
  | admission (id : Nat) (admitted : Bool)
  | index (id : Nat) (recordings : List RecordingInfo)
  | stat (id : Nat) (stat : Option FileStat)

inductive HttpOutput where
  | gateway (o : GatewayOutput)
  | used (deviceId : String)
  | ask (request : Nat) (tokenId deviceId label : Option String)
  | respond (request : Nat) (response : HttpResponse)

namespace HttpServer

def respond (s : HttpServer) (id : Nat) (response : HttpResponse) : HttpServer × List HttpOutput :=
  ({ s with requests := s.requests.delete id }, [.respond id response])

def wait (s : HttpServer) (id : Nat) (pending : PendingRequest) (phase : HttpPhase) :
    HttpServer × List HttpOutput :=
  ({ s with requests := s.requests.set id { pending with phase := phase } }, [])

/-- The first half of `admitHttpRequest`: whose token is it? -/
def admitHttpRequest (s : HttpServer) (cfg : GatewayConfig) (id : Nat) (req : HttpRequest) :
    HttpServer × List HttpOutput :=
  match req.token with
  | none => s.respond id .unauthorized
  | some token =>
    let isMachineToken := decide (token = cfg.authToken)
    let found := if isMachineToken then ⟨s.gateway.sessions, some fullGrant, none⟩
      else s.gateway.sessions.grantForToken token s.gateway.now
    let s : HttpServer := { s with gateway := { s.gateway with sessions := found.sessions } }
    match found.grant with
    | none => s.respond id .unauthorized
    | some grant =>
      let tokenId := if isMachineToken then none else some token
      ({ s with requests := s.requests.set id ⟨req, token, .admitting grant⟩ },
        found.used.toList.map .used ++
          [.ask id tokenId (tokenId.bind s.gateway.sessions.deviceIdForTokenId)
            (if isMachineToken then none else s.gateway.sessions.labelForToken token s.gateway.now)])

/-- What a request that has been let in goes on to. -/
def admitted (s : HttpServer) (id : Nat) (pending : PendingRequest) (grant : GrantRecord) :
    HttpServer × List HttpOutput :=
  match pending.req.route with
  | .file path _ _ =>
    if grant.files = .none then s.respond id (.plain 403 "File access is not part of this share")
    else
      match path.filter (· ≠ "") with
      | none => s.respond id (.plain 400 "Missing path parameter")
      | some path =>
        if !host.isPathAllowed path then s.respond id (.plain 403 "Access denied")
        else s.wait id pending (.statting grant path (host.resolve path))
  | .recording name =>
    match name.filter fun name => name ≠ "" && allowsRecording grant name with
    | none => s.respond id (.plain 404 "Recording not found")
    | some name => s.wait id pending (.finding grant name)

def answer (s : HttpServer) (id : Nat) (pending : PendingRequest) : HttpEvent → HttpServer × List HttpOutput
  | .admission _ admitted =>
    match pending.phase with
    | .admitting grant =>
      if admitted then s.admitted host id pending grant else s.respond id .unapproved
    | _ => (s, [])
  | .index _ recordings =>
    match pending.phase with
    | .finding grant name =>
      match recordings.find? fun r => r.id = name with
      | none => s.respond id (.plain 404 "Recording not found")
      | some recording => s.wait id pending (.measuring grant name recording)
    | _ => (s, [])
  | .stat _ stat =>
    match pending.phase, pending.req.route with
    | .statting _ _ resolved, .file _ _ download =>
      match stat with
      | none => s.respond id (.plain 404 "File not found")
      | some stat => s.respond id (serveFile host resolved download pending.req.range stat)
    | .measuring _ _ recording, _ =>
      match stat with
      | none => s.respond id (.plain 404 "Recording not found")
      | some stat => s.respond id (serveRecording host recording stat)
    | _, _ => (s, [])
  | _ => (s, [])

def subject : HttpEvent → Option Nat
  | .admission id _ | .index id _ | .stat id _ => some id
  | .gateway _ | .request .. => none

def step (cfg : GatewayConfig) (s : HttpServer) (e : HttpEvent) : HttpServer × List HttpOutput :=
  match e with
  | .gateway e => ({ s with gateway := (Gateway.step cfg s.gateway e).1 },
      (Gateway.step cfg s.gateway e).2.map .gateway)
  | .request id req => if s.requests.has id then (s, []) else s.admitHttpRequest cfg id req
  | e =>
    match subject e with
    | none => (s, [])
    | some id =>
      match s.requests.get id with
      | none => (s, [])
      | some pending => s.answer host id pending e

end HttpServer

def httpMachine (cfg : GatewayConfig) : Machine HttpServer HttpEvent HttpOutput where
  init := ⟨.start, .empty⟩
  step := HttpServer.step host cfg

end

end Mtmux.Relay
