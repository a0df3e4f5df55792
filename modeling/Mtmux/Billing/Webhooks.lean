import Mtmux.Base.AsyncRuns
import Mtmux.Base.Text

/-! Webhook deliveries: the claim on a delivery's id, the handler behind the signature check, and the release
of the claim when that did not succeed. -/
namespace Mtmux.Billing

/-- A request at the webhook's path. `raw` is the body, or nothing where it is too large, and of the body the
type it names; the signature is one over this id and this body. -/
structure WebhookRequest where
  webhookId : Option String
  raw : Option (Option String)
  signed : Bool

/-- An empty id is no better than a header that is not there. -/
def WebhookRequest.deliveryId (req : WebhookRequest) : Option String :=
  req.webhookId.filter fun id => decide (id ≠ "")

inductive WebhookCall where
  | readRawBody (raw : Option (Option String))
  | insertEvent (id type : String)
  | deleteEvent (id : String)
  | authHandler (id : String) (signed : Bool)
  | arrayBuffer
  | respond (status : Nat)

/-- The number of rows an insertion changes, and the status of the plugin's response. -/
abbrev WebhookAnswer : WebhookCall → Type
  | .readRawBody _ => Option (Option String)
  | .insertEvent _ _ => Nat
  | .authHandler _ _ => Nat
  | .deleteEvent _ | .arrayBuffer | .respond _ => Unit

/-- The table of claims, and the deliveries whose handler has completed, in this order. -/
structure WebhookStore where
  webhookEvents : OrderedMap String String
  handled : List String

abbrev WebhookTask (α : Type) : Type := Async WebhookStore Empty Unit WebhookAnswer α

def call (c : WebhookCall) : WebhookTask (WebhookAnswer c) := Async.call c

inductive ClaimResult where
  | claimed
  | duplicate

def claimDelivery (id type : String) : WebhookTask ClaimResult := do
  let changes ← call (.insertEvent id type)
  return if changes = 0 then .duplicate else .claimed

def releaseDelivery (id : String) : WebhookTask Unit := call (.deleteEvent id)

def sendJson (status : Nat) : WebhookTask Unit := call (.respond status)

/-- The headers are written before the body is there: where it never comes, the status goes out all the same. -/
def writeWebResponse (status : Nat) : WebhookTask Unit := do
  (call .arrayBuffer).catching fun _ => return ()
  call (.respond status)

def isOk (status : Nat) : Bool := decide (200 ≤ status ∧ status < 300)

/-- Only a label for the stored row. -/
def eventType (body : Option String) : String :=
  match body with
  | some type => sliced 64 type
  | none => "unknown"

/-- The plugin checks the signature and runs the handler. -/
def handle (deliveryId : String) (signed : Bool) : WebhookTask Unit := do
  let response ← (call (.authHandler deliveryId signed)).catching fun err => do
    releaseDelivery deliveryId
    .throw err
  if isOk response then writeWebResponse response
  else do
    releaseDelivery deliveryId
    writeWebResponse response

def handleWebhook (req : WebhookRequest) : WebhookTask Unit := do
  let raw ← call (.readRawBody req.raw)
  match raw, req.deliveryId with
  | none, _ => sendJson 413
  | some _, none => sendJson 400
  | some body, some deliveryId => do
    let claim ← claimDelivery deliveryId (eventType body)
    match claim with
    | .duplicate => sendJson 200
    | .claimed => handle deliveryId req.signed

/-- A request that throws is answered with an error. -/
def serveWebhook (req : WebhookRequest) : WebhookTask Unit :=
  (handleWebhook req).catching fun _ => sendJson 500

/-- What the surroundings decide of a call: it works, it throws, or the plugin turns the request down. -/
inductive WebhookFate where
  | works
  | throws
  | refuses (status : { status : Nat // isOk status = false })

/-- Each statement is one step. A signed request whose handler completes is answered 200. -/
def WebhookStore.exec (s : WebhookStore) : (c : WebhookCall) → WebhookFate →
    WebhookStore × Except Unit (WebhookAnswer c)
  | _, .throws => (s, .error ())
  | .readRawBody raw, _ => (s, .ok raw)
  | .insertEvent id type, _ =>
    if s.webhookEvents.has id then (s, .ok (0 : Nat))
    else ({ s with webhookEvents := s.webhookEvents.set id type }, .ok (1 : Nat))
  | .deleteEvent id, _ => ({ s with webhookEvents := s.webhookEvents.delete id }, .ok ())
  | .authHandler id signed, .works =>
    if signed then ({ s with handled := s.handled ++ [id] }, .ok (200 : Nat)) else (s, .ok (401 : Nat))
  | .authHandler _ _, .refuses status => (s, .ok status.1)
  | .arrayBuffer, _ => (s, .ok ())
  | .respond _, _ => (s, .ok ())

/-- Any number of requests, served at once; the process may crash and start again on the same database. -/
def webhookHost : Async.Host WebhookStore Empty Unit WebhookAnswer Unit WebhookRequest WebhookFate Empty where
  program := serveWebhook
  exec := WebhookStore.exec
  other _ e := nomatch e

abbrev WebhookEvent : Type := Async.Happening WebhookRequest WebhookFate Empty
abbrev WebhookWorld : Type := Async.World WebhookStore Empty Unit WebhookAnswer Unit WebhookRequest
abbrev WebhookLog : Type := List (Async.Exchange Unit WebhookAnswer)

def webhookMachine : Machine WebhookWorld WebhookEvent (Nat × Empty) :=
  webhookHost.machine ⟨.empty, []⟩

end Mtmux.Billing
