import Mtmux.Browser.TransportDelivery
import Mtmux.Tunnel.StreamPosts

/-! One stream from the relay's loopback socket to the browser: the agent, a broker that forwards what it is
told in order, and the browser's transport. -/
namespace Mtmux.Tunnel
open Crypto Protocol Agent Browser

structure TunnelConfig where
  agent : StreamConfig
  streamId : String
  keys : SessionKeys
  salt : Bytes

def TunnelConfig.browser (cfg : TunnelConfig) : TransportConfig :=
  ⟨cfg.agent.P, cfg.agent.G, cfg.keys, cfg.salt, cfg.agent.decode⟩

structure TunnelState where
  table : StreamTable
  pipe : List TunnelServerMessage
  browser : SealedTransport

/-- Whatever happens at the agent; the broker hands on its next message; the turns of the browser's
transport. -/
inductive TunnelEvent where
  | agent (event : TableEvent)
  | forwards
  | opens
  | begins
  | settles
  | sends (text : String)
  | seals

inductive TunnelOut where
  | agent (out : TableOut)
  | browser (out : TransportOutput)

namespace TunnelState
variable (cfg : TunnelConfig)

def init : TunnelState :=
  ⟨StreamTable.create, [], (SealedTransport.connect cfg.browser true).1⟩

def turn (t : TunnelState) (e : TransportEvent) : TunnelState × List TunnelOut :=
  let (browser, out) := t.browser.step cfg.browser e
  ({ t with browser := browser }, out.map .browser)

/-- The broker sends over a socket that is open. -/
def forward (t : TunnelState) : TunnelState × List TunnelOut :=
  if t.browser.ws = some .connecting then (t, [])
  else
    match t.pipe with
    | [] => (t, [])
    | msg :: pipe => turn cfg { t with pipe := pipe } (.receives msg)

def step (t : TunnelState) : TunnelEvent → TunnelState × List TunnelOut
  | .agent event =>
    let (table, out) := t.table.step cfg.agent event
    ({ t with table := table, pipe := t.pipe ++ posts cfg.streamId event out }, out.map .agent)
  | .forwards => t.forward cfg
  | .opens => t.turn cfg .opens
  | .begins => t.turn cfg .begins
  | .settles => t.turn cfg (.settles false false)
  | .sends text => t.turn cfg (.send text)
  | .seals => t.turn cfg .seals

end TunnelState

def machine (cfg : TunnelConfig) : Machine TunnelState TunnelEvent TunnelOut := ⟨.init cfg, TunnelState.step cfg⟩

/-- What happens at the agent in a run, and what the owner of the browser's transport sees. -/
def agentEvents (es : List TunnelEvent) : List TableEvent :=
  es.filterMap fun | .agent event => some event | _ => none

def browserOutputs (cfg : TunnelConfig) (es : List TunnelEvent) : List TransportOutput :=
  ((machine cfg).outputs es).filterMap fun | .browser out => some out | _ => none

def SealsFor (cfg : TunnelConfig) (k : Nat) (s : Stream) : Prop :=
  ∃ sealer, FrameSealer.create cfg.agent.P cfg.keys.s2c .s2c (cfg.agent.salt k) .frame = some sealer ∧
    s.sealer.map (·.key) = some sealer.key

def said (cfg : TunnelConfig) (es : List TunnelEvent) (k : Nat) : List String :=
  (StreamTable.history cfg.agent (agentEvents es) k).relayed.map fun line =>
    cfg.agent.decode (utf8ToBytes line)

/-- When the relay closes the socket of an admitted stream: what is handed to its browser are the lines that
it said before, in order, all of them before `onClose`, which comes once the broker and the transport have
nothing left to do. -/
def LosesNothing (cfg : TunnelConfig) (es : List TunnelEvent) : Prop :=
  ∀ before k after s, es = before ++ .agent (.stream k .localClose) :: after →
    ((machine cfg).run before).table.objects[k]? = some s → s.streamId = cfg.streamId → s.closed = false →
    (StreamTable.history cfg.agent (agentEvents before) k).bound ≠ [] → SealsFor cfg k s →
    textsOf (browserOutputs cfg es) <+: said cfg before k ∧
    (.onClose ∈ browserOutputs cfg es →
      textsOf ((browserOutputs cfg es).takeWhile (· ≠ .onClose)) = said cfg before k) ∧
    (((machine cfg).run es).pipe = [] → ((machine cfg).run es).browser.Idle →
      .onClose ∈ browserOutputs cfg es)

def sealsNothing : Awaiting → Bool
  | .flushSeal _ _ | .sealed _ | .caught _ => false
  | .flush held => held.isEmpty
  | _ => true

/-- The relay closes a socket when every line on it has been sealed and sent; a close reaches the browser
when every frame before it has been opened. -/
def Unhurried (cfg : TunnelConfig) (t : TunnelState) : TunnelEvent → Prop
  | .agent (.stream k .localClose) => ∀ s ∈ t.table.objects[k]?,
      s.streamId = cfg.streamId → s.closed = false → s.opener ≠ none → s.awaiting.Late →
      linesIn s.chain = [] ∧ sealsNothing s.awaiting = true
  | .forwards => ∀ msg ∈ t.pipe.head?, isClose msg = true → t.browser.Idle
  | _ => True

instance (awaiting : Awaiting) : Decidable awaiting.Late := by
  cases awaiting with
  | bind bytes index entry => exact isFalse id
  | admitStream entry line => exact isFalse id
  | _ => exact isTrue trivial

instance (cfg : TunnelConfig) (t : TunnelState) (e : TunnelEvent) : Decidable (Unhurried cfg t e) := by
  cases e with
  | agent event =>
    cases event with
    | stream k event =>
      cases event with
      | localClose => exact inferInstanceAs (Decidable (∀ s ∈ t.table.objects[k]?, _))
      | _ => exact isTrue trivial
    | _ => exact isTrue trivial
  | forwards => exact inferInstanceAs (Decidable (∀ msg ∈ t.pipe.head?, _))
  | _ => exact isTrue trivial

end Mtmux.Tunnel
