import Mtmux.Agent.OneKey
import Mtmux.Broker.RequestedAccess

/-! For which request a socket speaks. A commitment goes out under the socket's own
id; a reveal is forwarded as it came, so what it names is up to the browser. -/
namespace Mtmux.Broker
open Protocol OrderedMap Machine List

def requestNamed : TunnelServerMessage → Option String
  | .request requestId _ _ _ => some requestId
  | .reveal requestId _ => some requestId
  | _ => none

namespace Link
variable {cfg : LinkConfig} {now : Nat} {l l' l'' : Link} {e : LinkEvent}

def KeepsBrowsers (l l' : Link) : Prop :=
  ∀ id request', l'.requests.get id = some request' →
    ∃ request, l.requests.get id = some request ∧ request'.browser = request.browser

theorem KeepsBrowsers.same (h : l'.requests = l.requests) : KeepsBrowsers l l' :=
  fun _ request' hid => ⟨request', h ▸ hid, rfl⟩

theorem KeepsBrowsers.trans (h : KeepsBrowsers l l') (h' : KeepsBrowsers l' l'') : KeepsBrowsers l l'' := by
  intro id request'' hid
  obtain ⟨request', hid', hb'⟩ := h' id request'' hid
  obtain ⟨request, hid, hb⟩ := h id request' hid'
  exact ⟨request, hid, hb'.trans hb⟩

theorem KeepsBrowsers.drop (l : Link) (id : String) : KeepsBrowsers l (l.dropRequest id) := by
  intro i request' hi
  rw [dropRequest_get] at hi
  split at hi
  · cases hi
  · exact ⟨request', hi, rfl⟩

theorem KeepsBrowsers.live (now : Nat) (l : Link) (id : String) : KeepsBrowsers l (liveRequest now l id).1 := by
  unfold liveRequest
  split
  · exact .same rfl
  · split
    · exact .drop l id
    · exact .same rfl

theorem KeepsBrowsers.put {id : String} {request request' : AccessRequest}
    (hid : l.requests.get id = some request) (hb : request'.browser = request.browser) :
    KeepsBrowsers l { l with requests := l.requests.set id request' } := by
  intro i found hi
  dsimp only at hi
  rw [get_set] at hi
  split at hi
  · next he =>
    cases hi
    exact ⟨request, he ▸ hid, hb⟩
  · exact ⟨found, hi, rfl⟩

theorem toBrowser_keeps {request : AccessRequest} (hreq : l.requests.get request.id = some request)
    (message : RequestServerMessage) : KeepsBrowsers l (toBrowser l request message).1 := by
  unfold toBrowser
  split
  · exact .same rfl
  · next hb =>
    dsimp only
    split
    · exact .put hreq rfl
    · exact .same rfl

variable {said : String → RequestServerMessage → Prop} {outs : List LinkOut}

theorem agentReply_keeps (h : Access cfg said outs l) (tunnel : Tunnel) (message : RequestServerMessage) :
    KeepsBrowsers l (agentReply now l tunnel message).1 := by
  have hlive := KeepsBrowsers.live now l message.requestId
  unfold agentReply
  split
  · next he =>
    rw [he] at hlive
    exact hlive
  · next l₁ request he =>
    obtain ⟨rfl, hreq, -⟩ := liveRequest_some he
    split
    · exact .same rfl
    · have hreq' : l₁.requests.get request.id = some request := by
        rw [(h.keyed hreq).1]
        exact hreq
      have htold := toBrowser_keeps hreq' message
      dsimp only
      split
      · exact htold.trans (.drop _ _)
      · exact htold

theorem requestMessage_keeps (k : Nat) (requestId : String) (raw : LinkFrame) :
    KeepsBrowsers l (requestMessage now l k requestId raw).1 := by
  have hlive := KeepsBrowsers.live now l requestId
  unfold requestMessage
  split
  · next msg =>
    split
    · next he =>
      rw [he] at hlive
      exact hlive
    · next l₁ live he =>
      obtain ⟨rfl, hreq, -⟩ := liveRequest_some he
      rcases l₁.registry.byDevice live.deviceId now with ⟨reg, _ | ⟨r, tunnel⟩, out⟩
      · exact KeepsBrowsers.trans (.same rfl) (.drop _ _)
      · dsimp only
        unfold requestForward
        cases msg with
        | commit named commitment =>
          dsimp only
          split
          · exact .same rfl
          · exact KeepsBrowsers.trans (.same rfl) (.put hreq rfl)
        | reveal named key =>
          dsimp only
          split <;> exact .same rfl
  · exact .same rfl

theorem agentServe_keeps (h : Access cfg said outs l) (k : Nat) (t : String) (msg : TunnelClientMessage) :
    KeepsBrowsers l (agentServe cfg now l k t msg).1 := by
  unfold agentServe
  rcases hg : l.registry.get t now with ⟨reg, _ | ⟨r, tunnel⟩, out⟩
  · exact .same rfl
  · obtain ⟨rfl, -⟩ := TunnelRegistry.get_some hg
    cases msg with
    | streamClose sid reason => exact .same rfl
    | streamFrame sid data =>
      dsimp only
      rcases l.registry.charge cfg.quotas r data.length with ⟨reg', _ | _, out'⟩ <;> exact .same rfl
    | reply message => exact agentReply_keeps h tunnel message
    | register deviceId publicKey answered signature => exact .same rfl

variable {id : String} {request' : AccessRequest}

theorem pairRequest_browsers (deviceId deviceLabel accountEmail : String)

    (hid : (pairRequest cfg now l deviceId deviceLabel accountEmail).1.requests.get id = some request') :
    (∃ request, l.requests.get id = some request ∧ request'.browser = request.browser) ∨
      id = "req-" ++ cfg.rnd l.drawn := by
  have hopen : ∀ {l₁ : Link}, KeepsBrowsers l l₁ → l₁.drawn = l.drawn →
      (openRequest cfg now l₁ deviceId deviceLabel accountEmail).1.requests.get id = some request' →
      (∃ request, l.requests.get id = some request ∧ request'.browser = request.browser) ∨
        id = "req-" ++ cfg.rnd l.drawn := by
    intro l₁ hk hd hi
    simp only [openRequest, get_set] at hi
    split at hi
    · next he => exact Or.inr (by rw [he, hd])
    · exact Or.inl (hk id request' hi)
  unfold pairRequest at hid
  generalize l.registry.byDevice deviceId now = found at hid
  obtain ⟨reg, _ | found, out⟩ := found
  · exact Or.inl ⟨request', hid, rfl⟩
  · dsimp only at hid
    split at hid
    · exact hopen (.same rfl) rfl hid
    · next existing hidx =>
      have hlive := KeepsBrowsers.live now { l with registry := reg } existing
      have hdrawn := (liveRequest_same now { l with registry := reg } existing).drawn
      rcases hl : liveRequest now { l with registry := reg } existing with ⟨l₂, _ | request⟩
      · rw [hl] at hid hlive hdrawn
        exact hopen (KeepsBrowsers.trans (.same rfl) hlive) hdrawn hid
      · rw [hl] at hid hlive
        exact Or.inl (KeepsBrowsers.trans (.same rfl) hlive id request' hid)

theorem attachRequest_browsers (requestId : String)
    (hid : (attachRequestSocket now l requestId).1.requests.get id = some request') :
    (∃ request, l.requests.get id = some request ∧ request'.browser = request.browser) ∨
    (∃ request, l.requests.get id = some request ∧ request.browser = none ∧
      request'.browser = some l.nextSocket ∧ id = requestId) := by
  have hlive := KeepsBrowsers.live now { l with nextSocket := l.nextSocket + 1 } requestId
  unfold attachRequestSocket at hid
  dsimp only at hid
  split at hid
  · next he =>
    rw [he] at hlive
    exact Or.inl (hlive id request' hid)
  · next l₁ request he =>
    obtain ⟨rfl, hreq, -⟩ := liveRequest_some he
    split at hid
    · exact Or.inl ⟨request', hid, rfl⟩
    · next hfree =>
      dsimp only at hid
      rw [get_set] at hid
      split at hid
      · next heq =>
        cases hid
        exact Or.inr ⟨request, by rw [heq]; exact hreq, not_not.1 hfree, rfl, heq⟩
      · exact Or.inl ⟨request', hid, rfl⟩

theorem step_browsers
    (h : Access cfg said outs l) (e : LinkEvent) (hid : (step cfg now l e).1.requests.get id = some request') :
    (∃ request, l.requests.get id = some request ∧ request'.browser = request.browser) ∨
    (∃ request, l.requests.get id = some request ∧ request.browser = none ∧
      request'.browser = some l.nextSocket ∧ e = .attachRequest id) ∨ id = "req-" ++ cfg.rnd l.drawn := by
  have hkeep : KeepsBrowsers l (step cfg now l e).1 →
      ∃ request, l.requests.get id = some request ∧ request'.browser = request.browser :=
    fun hk => hk id request' hid
  cases e with
  | pairRequest deviceId deviceLabel accountEmail =>
    rcases pairRequest_browsers deviceId deviceLabel accountEmail hid with hk | he
    · exact Or.inl hk
    · exact Or.inr (Or.inr he)
  | attachRequest requestId =>
    rcases attachRequest_browsers requestId hid with hk | ⟨request, hreq, hb, hb', rfl⟩
    · exact Or.inl hk
    · exact Or.inr (Or.inl ⟨request, hreq, hb, hb', rfl⟩)
  | attachTunnel t =>
    refine Or.inl (hkeep (.same ?_))
    simp only [step]
    unfold attachTunnelSocket
    rcases l.registry.get t now with ⟨reg, _ | ⟨r, tunnel⟩, out⟩
    · rfl
    · dsimp only
      rcases reg.openStream cfg.quotas r ("str-" ++ cfg.rnd l.drawn) l.nextSocket now with
        ⟨reg', _ | _, out'⟩ <;> rfl
  | message k raw =>
    refine Or.inl (hkeep ?_)
    simp only [step]
    split
    · exact .same rfl
    · next challenge t hk =>
      unfold agentMessage
      split
      · next msg =>
        rcases agentRegister_cases cfg now l k challenge msg with ⟨why, he⟩ |
          ⟨d, pk, ans, sig, reg₀, tunnel, out, -, -, -, -, -, -, -, -, -, -, -, -, -, -, he⟩
        · rw [he]
          exact .same rfl
        · rw [he]
          exact .same rfl
      · next msg t => exact agentServe_keeps h k t msg
      · exact .same rfl
    · next requestId _ => exact requestMessage_keeps k requestId raw
    · next t r sid _ =>
      unfold browserMessage
      split
      · split <;> exact .same rfl
      · next data =>
        split
        · exact .same rfl
        · rcases l.registry.charge cfg.quotas r data.length with ⟨reg', _ | _, out'⟩ <;>
            exact .same rfl
      · exact .same rfl
      · exact .same rfl
  | close k =>
    refine Or.inl (hkeep ?_)
    simp only [step]
    split
    · exact .same rfl
    · next t _ => cases t <;> exact .same rfl
    · next requestId _ =>
      have hsame : KeepsBrowsers l { l with sockets := l.sockets.delete k } := .same rfl
      exact hsame.trans (.drop _ requestId)
    · next t r sid _ =>
      unfold browserGone
      rcases l.registry.get t now with ⟨reg, _ | ⟨i, tunnel⟩, out⟩ <;> exact .same rfl
  | ownerAnswer r owner =>
    refine Or.inl (hkeep ?_)
    simp only [step]
    unfold ownerAnswer
    split <;> exact .same rfl
  | checkAnswer r allowed reason =>
    refine Or.inl (hkeep ?_)
    simp only [step]
    unfold checkAnswer
    split
    · dsimp only
      split
      · exact .same rfl
      · unfold block
        split <;> exact .same rfl
    · exact .same rfl
  | _ => exact Or.inl (hkeep (.same rfl))

theorem step_drawn (cfg : LinkConfig) (now : Nat) (l : Link) (e : LinkEvent) :
    l.drawn ≤ (step cfg now l e).1.drawn := by
  have hturn := step_turn cfg now l e
  generalize (step cfg now l e).1 = l' at hturn ⊢
  cases hturn with
  | framed frame => exact frame.drawn
  | gone frame => exact frame.drawn
  | attached valid sockets nextSocket meters drawn => exact drawn
  | registered => exact Nat.le_refl _
  | metered registry sockets nextSocket drawn => exact drawn

theorem turn_handles {e : LinkEvent} {k : Nat} (hturn : Turn cfg l e l') (he : ∀ requestId, e ≠ .attachRequest requestId)
    (hk : l'.sockets.get k = some (.request id)) : l.sockets.get k = some (.request id) := by
  cases hturn with
  | framed frame =>
    rw [frame.sockets] at hk
    exact hk
  | gone frame =>
    rw [frame.sockets, get_delete] at hk
    split at hk
    · cases hk
    · exact hk
  | attached valid sockets nextSocket meters drawn agent request =>
    rcases sockets with hs | hs
    · rw [hs] at hk
      exact hk
    · rw [hs, get_set] at hk
      split at hk
      · exact absurd (request id (Option.some.inj hk)) (he id)
      · exact hk
  | registered =>
    dsimp only at hk
    rw [get_set] at hk
    split at hk
    · cases hk
    · exact hk
  | metered registry sockets =>
    rw [sockets] at hk
    exact hk

theorem step_handles (e : LinkEvent) {k : Nat} (hk : (step cfg now l e).1.sockets.get k = some (.request id)) :
    l.sockets.get k = some (.request id) ∨
    (k = l.nextSocket ∧ (∃ request, l.requests.get id = some request ∧ request.browser = none) ∧
      ∃ request', (step cfg now l e).1.requests.get id = some request' ∧ request'.browser = some k) := by
  cases e with
  | attachRequest requestId =>
    have hlive := liveRequest_same now { l with nextSocket := l.nextSocket + 1 } requestId
    simp only [step] at hk ⊢
    unfold attachRequestSocket at hk ⊢
    dsimp only at hk ⊢
    split at hk
    · next he =>
      rw [he] at hlive
      exact Or.inl (by rw [← hlive.sockets]; exact hk)
    · next l₁ request he =>
      obtain ⟨rfl, hreq, -⟩ := liveRequest_some he
      split at hk
      · exact Or.inl hk
      · next hfree =>
        dsimp only at hk
        rw [get_set] at hk
        split at hk
        · next heq =>
          cases hk
          refine Or.inr ⟨heq, ⟨request, hreq, not_not.1 hfree⟩, ?_⟩
          rw [if_neg hfree]
          refine ⟨_, get_set .. |>.trans (if_pos rfl), ?_⟩
          rw [heq]
        · exact Or.inl hk
  | _ => exact Or.inl (turn_handles (step_turn cfg now l _) (by simp) hk)

/-- Sockets and the requests they speak or spoke for. -/
structure Held (cfg : LinkConfig) (log : List (Nat × String)) (l : Link) : Prop where
  owner : ∀ {k id}, l.sockets.get k = some (.request id) ∨ (k, id) ∈ log →
    (∃ n, n < l.drawn ∧ id = "req-" ++ cfg.rnd n) ∧
    ∀ {request}, l.requests.get id = some request → request.browser = some k
  unique : ∀ {k k' id}, (k, id) ∈ log → (k', id) ∈ log → k = k'

theorem create_held : Held cfg [] create := by
  constructor <;> intros <;> simp_all [create]

variable {log : List (Nat × String)}

theorem Held.spoke (h : Held cfg log l) {k : Nat} {live : AccessRequest} (hk : l.sockets.get k = some (.request id))
    (hreq : l.requests.get id = some live) : Held cfg (log ++ [(k, id)]) l := by
  have hmem : ∀ {i d}, (i, d) ∈ log ++ [(k, id)] → (i, d) ∈ log ∨ (i = k ∧ d = id) := by
    intro i d hm
    rcases mem_append.1 hm with hm | hm
    · exact Or.inl hm
    · exact Or.inr (Prod.mk.inj (mem_singleton.1 hm))
  have hlive : ∀ {i}, (i, id) ∈ log → i = k := by
    intro i hm
    have h1 := (h.owner (Or.inr hm)).2 hreq
    have h2 := (h.owner (Or.inl hk)).2 hreq
    exact Option.some.inj (h1.symm.trans h2)
  constructor
  case owner =>
    rintro i d (hs | hm)
    · exact h.owner (Or.inl hs)
    · rcases hmem hm with hm | ⟨rfl, rfl⟩
      · exact h.owner (Or.inr hm)
      · exact h.owner (Or.inl hk)
  case unique =>
    intro i i' d hm hm'
    rcases hmem hm with hin | ⟨rfl, rfl⟩
    · rcases hmem hm' with hin' | ⟨rfl, rfl⟩
      · exact h.unique hin hin'
      · exact hlive hin
    · rcases hmem hm' with hin' | ⟨rfl, -⟩
      · exact (hlive hin').symm
      · rfl

theorem step_held (hrnd : Function.Injective cfg.rnd) (hacc : Access cfg said outs l) (h : Held cfg log l)
    (e : LinkEvent) : Held cfg log (step cfg now l e).1 := by
  refine ⟨fun {k id} hk => ?_, h.unique⟩
  have hdrawn := step_drawn cfg now l e
  have hold : l.sockets.get k = some (.request id) ∨ (k, id) ∈ log ∨
      (k = l.nextSocket ∧ (∃ request, l.requests.get id = some request ∧ request.browser = none) ∧
        ∃ request', (step cfg now l e).1.requests.get id = some request' ∧
          request'.browser = some k) := by
    rcases hk with hk | hk
    · rcases step_handles e hk with hk | hk
      · exact Or.inl hk
      · exact Or.inr (Or.inr hk)
    · exact Or.inr (Or.inl hk)
  have hkept : l.sockets.get k = some (.request id) ∨ (k, id) ∈ log →
      (∃ n, n < (step cfg now l e).1.drawn ∧ id = "req-" ++ cfg.rnd n) ∧
      ∀ {request}, (step cfg now l e).1.requests.get id = some request →
        request.browser = some k := by
    intro hclaim
    obtain ⟨⟨n, hn, hid⟩, hb⟩ := h.owner hclaim
    refine ⟨⟨n, Nat.lt_of_lt_of_le hn hdrawn, hid⟩, fun {request'} hreq' => ?_⟩
    rcases step_browsers hacc e hreq' with ⟨request, hreq, he⟩ | ⟨request, hreq, hnone, -⟩ | hnew
    · rw [he]
      exact hb hreq
    · rw [hb hreq] at hnone
      cases hnone
    · have := hrnd ((String.append_right_inj _).1 (hid.symm.trans hnew))
      omega
  rcases hold with hk | hk | ⟨rfl, ⟨request, hreq, hnone⟩, request', hreq', hb'⟩
  · exact hkept (Or.inl hk)
  · exact hkept (Or.inr hk)
  · obtain ⟨n, hn, hid⟩ := hacc.drawn hreq
    refine ⟨⟨n, Nat.lt_of_lt_of_le hn hdrawn, hid⟩, fun {found} hfound => ?_⟩
    rw [hreq'] at hfound
    cases hfound
    exact hb'

theorem sweep_held (h : Held cfg log l) (now : Nat) : Held cfg log (sweepTunnels now (sweepRequests now l)).1 := by
  have hkeep : ∀ l : Link, KeepsBrowsers l (sweepRequests now l) ∧
      (sweepRequests now l).drawn = l.drawn := by
    intro l
    unfold sweepRequests
    generalize l.requests.keys = ids
    induction ids generalizing l with
    | nil => exact ⟨.same rfl, rfl⟩
    | cons id ids ih =>
      have hlive := KeepsBrowsers.live now l id
      obtain ⟨hrest, hd⟩ := ih (liveRequest now l id).1
      exact ⟨hlive.trans hrest, hd.trans (liveRequest_same now l id).drawn⟩
  obtain ⟨hk, hd⟩ := hkeep l
  refine ⟨fun {k id} hclaim => ?_, h.unique⟩
  have hclaim' : l.sockets.get k = some (.request id) ∨ (k, id) ∈ log := by
    rw [← (sweepRequests_same now l).sockets]
    exact hclaim
  obtain ⟨⟨n, hn, hid⟩, hb⟩ := h.owner hclaim'
  refine ⟨⟨n, Nat.lt_of_lt_of_eq hn hd.symm, hid⟩, fun {request'} hreq' => ?_⟩
  obtain ⟨request, hreq, he⟩ := hk id request' hreq'
  rw [he]
  exact hb hreq

def ForeignReveal (now : Nat) (l : Link) (e : LinkEvent) : Prop :=
  ∃ (k r : Nat) (id named key : String) (live : AccessRequest) (tunnel : Tunnel),
    e = .message k (.request (.reveal named key)) ∧ l.sockets.get k = some (.request id) ∧
    l.requests.get id = some live ∧ now < live.expiresAt ∧ live.forwarded = true ∧
    l.registry.byDevice live.deviceId now = (l.registry, some (r, tunnel), []) ∧ named ≠ id

theorem named_by_socket {e : LinkEvent} {r sock : Nat} {m : TunnelServerMessage} {named : String}
    (ho : .toAgent r sock m ∈ (step cfg now l e).2) (hm : requestNamed m = some named) :
    ∃ (k : Nat) (id : String) (live : AccessRequest) (msg : RequestClientMessage),
      e = .message k (.request msg) ∧ l.sockets.get k = some (.request id) ∧
      l.requests.get id = some live ∧ (named = id ∨ ForeignReveal now l e) := by
  have hs : LinkOut.isSalient (.toAgent r sock m) = true := by
    cases m <;> first | rfl | cases hm
  obtain ⟨out, hmem, hem⟩ := emits_of_mem ho hs
  cases hem with
  | nothing => cases hmem
  | browserFrame =>
    cases mem_singleton.1 hmem
    cases hm
  | flushed =>
    obtain ⟨message, -, he⟩ := mem_map.1 hmem
    cases he
  | @request k r id wrote commitment tunnel live socket stored unexpired first obj online =>
    cases mem_singleton.1 hmem
    cases hm
    exact ⟨k, _, live, _, rfl, socket, stored, Or.inl rfl⟩
  | @reveal k r id wrote key tunnel live socket stored unexpired after obj online =>
    cases mem_singleton.1 hmem
    cases hm
    refine ⟨k, id, live, _, rfl, socket, stored, ?_⟩
    by_cases he : named = id
    · exact Or.inl he
    · exact Or.inr ⟨k, r, id, named, key, live, tunnel, rfl, socket, stored, unexpired, after,
        online, he⟩
  | _ => cases mem_singleton.1 hmem

theorem foreignReveal_forwarded {e : LinkEvent} (h : ForeignReveal now l e) :
    ∃ (k : Nat) (id named : String) (raw : LinkFrame) (r sock : Nat) (m : TunnelServerMessage),
      e = .message k raw ∧ l.sockets.get k = some (.request id) ∧
      .toAgent r sock m ∈ (step cfg now l e).2 ∧ requestNamed m = some named ∧ named ≠ id := by
  obtain ⟨k, r, id, named, key, live, tunnel, rfl, hk, hreq, hx, hf, hon, hne⟩ := h
  refine ⟨k, id, named, _, r, tunnel.agent, .reveal named key, rfl, hk, ?_, rfl, hne⟩
  have hlive : liveRequest now l id = (l, some live) := by
    unfold liveRequest
    rw [hreq]
    dsimp only
    rw [if_neg (by simpa [expired] using hx)]
  simp [step, hk, requestMessage, hlive, hon, requestForward, hf]

end Link

namespace System
variable {cfg : BrokerConfig}

/-- A message to a machine about a request, with the socket that caused it. -/
abbrev Spoken : Type := Nat × TunnelServerMessage

def LinkOut.toMachine (k : Nat) : LinkOut → Option Spoken
  | .toAgent _ _ m => if (requestNamed m).isSome then some (k, m) else none
  | _ => none

/-- What a step says to machines about requests. -/
def spokenIn (x : Machine.Entry System BrokerEvent BrokerOut) : List Spoken :=
  match x.event with
  | .link (.message k _) => (linkOuts x.out).filterMap (LinkOut.toMachine k)
  | _ => []

/-- What a run says to machines about requests, in order. -/
def spoken (cfg : BrokerConfig) (es : List BrokerEvent) : List Spoken :=
  ((machine cfg).trace es).flatMap spokenIn

def SpeaksOwn (x : Machine.Entry System BrokerEvent BrokerOut) : Prop :=
  ∀ k id raw, x.event = .link (.message k raw) → x.pre.link.sockets.get k = some (.request id) →
    ∀ r sock m named, .link (.toAgent r sock m) ∈ x.out → requestNamed m = some named → named = id

def machineTable (acfg : Agent.AccessConfig) (ms : List Spoken) : Agent.AccessTable :=
  (Agent.AccessTable.machine acfg).run (ms.map fun x => .message x.2)

/-- `ms` put the entry of `id` there by a commitment that came over socket `k`. -/
def CommittedOn (ms : List Spoken) (k : Nat) (id : String) (pending : Agent.PendingAccess) : Prop :=
  ∃ (earlier later : List Spoken) (commitment deviceLabel accountEmail : String),
    ms = earlier ++ (k, .request id commitment deviceLabel accountEmail) :: later ∧
    Crypto.hexToBytes commitment = some pending.commitment ∧
    ∀ x ∈ later, Agent.AccessTable.asksFor id (.message x.2) = false

/-- Own ids on the wire; and whichever of the messages reach a machine, the entry that
a reveal consumes there was committed on the reveal's socket. -/
structure SpeaksForOwn (cfg : BrokerConfig) (es : List BrokerEvent) : Prop where
  named : ∀ x ∈ (machine cfg).trace es, SpeaksOwn x
  consumed : ∀ (acfg : Agent.AccessConfig) {earlier later : List Spoken} {k : Nat}
    {id key : String} {pending : Agent.PendingAccess},
    (earlier ++ (k, .reveal id key) :: later).Sublist (spoken cfg es) →
    (machineTable acfg earlier).accessRequests.get id = some pending →
    CommittedOn earlier k id pending

theorem committed_on_some (acfg : Agent.AccessConfig) (ms : List Spoken) {id : String} {pending : Agent.PendingAccess}
    (h : (machineTable acfg ms).accessRequests.get id = some pending) : ∃ k, CommittedOn ms k id pending := by
  induction ms using List.reverseRecOn generalizing pending with
  | nil => cases h
  | append_singleton ms x ih =>
    have hlater : ∀ {k}, CommittedOn ms k id pending →
        Agent.AccessTable.asksFor id (.message x.2) = false → CommittedOn (ms ++ [x]) k id pending := by
      rintro k ⟨earlier, later, c, dl, ae, rfl, hc, hno⟩ hx
      refine ⟨earlier, later ++ [x], c, dl, ae, by simp, hc, fun y hy => ?_⟩
      rcases mem_append.1 hy with hy | hy
      · exact hno y hy
      · rw [mem_singleton.1 hy]
        exact hx
    obtain ⟨k, m⟩ := x
    have hstep : machineTable acfg (ms ++ [(k, m)]) =
        (Agent.AccessTable.step acfg (machineTable acfg ms) (.message m)).1 := by
      rw [machineTable, map_append, map_singleton, run_snoc]
      rfl
    rw [hstep] at h
    rcases Agent.AccessTable.step_cases acfg (machineTable acfg ms) (.message m) with
      ⟨i, p, ⟨c, dl, ae, he, hc⟩, has, -, hs, -⟩ | ⟨i, p, has, -, hs, -⟩ | ⟨has, hs, -⟩
    · rw [hs, get_set] at h
      split at h
      · next hid =>
        cases h
        cases he
        exact ⟨k, ms, [], c, dl, ae, by rw [hid], hc, by simp⟩
      · next hid =>
        obtain ⟨k', hk'⟩ := ih h
        exact ⟨k', hlater hk' (by rw [has id]; simpa using fun h => hid h.symm)⟩
    · rw [hs, get_delete] at h
      split at h
      · cases h
      · obtain ⟨k', hk'⟩ := ih h
        exact ⟨k', hlater hk' (has id)⟩
    · rw [hs] at h
      obtain ⟨k', hk'⟩ := ih h
      exact ⟨k', hlater hk' (has id)⟩

def speakers (ms : List Spoken) : List (Nat × String) :=
  ms.filterMap fun x => (requestNamed x.2).map fun id => (x.1, id)

theorem mem_speakers {ms : List Spoken} {k : Nat} {m : TunnelServerMessage} {id : String}
    (hm : (k, m) ∈ ms) (hid : requestNamed m = some id) : (k, id) ∈ speakers ms :=
  mem_filterMap.2 ⟨(k, m), hm, by rw [hid]; rfl⟩

theorem toMachine_filter (k : Nat) (out : List LinkOut) :
    (out.filter LinkOut.isSalient).filterMap (LinkOut.toMachine k) = out.filterMap (LinkOut.toMachine k) := by
  induction out with
  | nil => rfl
  | cons o out ih =>
    cases hs : o.isSalient with
    | true => rw [filter_cons_of_pos hs, filterMap_cons, filterMap_cons, ih]
    | false =>
      have hnone : LinkOut.toMachine k o = none := by
        cases o with
        | toAgent r sock m => cases m <;> first | rfl | cases hs
        | _ => rfl
      rw [filter_cons_of_neg (by simp [hs]), filterMap_cons_none hnone, ih]

theorem spokenIn_cases (b : System) (e : BrokerEvent) (hown : SpeaksOwn ((machine cfg).entry b e)) :
    speakers (spokenIn ((machine cfg).entry b e)) = [] ∨
    ∃ k id live, b.link.sockets.get k = some (.request id) ∧ b.link.requests.get id = some live ∧
      speakers (spokenIn ((machine cfg).entry b e)) = [(k, id)] := by
  cases e with
  | link event =>
    cases event with
    | message k raw =>
      have hspoken : spokenIn ((machine cfg).entry b (.link (.message k raw))) =
          ((b.link.step cfg.link b.now (.message k raw)).2.filter LinkOut.isSalient).filterMap
            (LinkOut.toMachine k) := by
        rw [toMachine_filter]
        exact congrArg (List.filterMap (LinkOut.toMachine k)) (linkOuts_link _)
      have hem := Link.step_emits cfg.link b.now b.link (.message k raw)
      rw [hspoken]
      have hmem : ∀ o, o ∈ (b.link.step cfg.link b.now (.message k raw)).2.filter LinkOut.isSalient →
          .link o ∈ ((machine cfg).entry b (.link (.message k raw))).out :=
        fun o ho => mem_map_of_mem (mem_filter.1 ho).1
      generalize (b.link.step cfg.link b.now (.message k raw)).2.filter LinkOut.isSalient = out
        at hem hmem
      cases hem with
      | nothing | browserFrame | agentFrame | reply => exact Or.inl rfl
      | @request k r id wrote commitment tunnel live socket stored unexpired first obj online =>
        exact Or.inr ⟨k, id, live, socket, stored, rfl⟩
      | @reveal k r id wrote key tunnel live socket stored unexpired after obj online =>
        have hid : wrote = id := hown k id _ rfl socket r tunnel.agent _ wrote
          (hmem _ (mem_singleton_self _)) rfl
        subst hid
        exact Or.inr ⟨k, wrote, live, socket, stored, rfl⟩
    | _ => exact Or.inl rfl
  | _ => exact Or.inl rfl

theorem run_held (hrnd : Function.Injective cfg.link.rnd) (es : List BrokerEvent)
    (hown : ∀ x ∈ (machine cfg).trace es, SpeaksOwn x) :
    Link.Held cfg.link (speakers (spoken cfg es)) ((machine cfg).run es).link := by
  induction es using List.reverseRecOn with
  | nil => exact Link.create_held
  | append_singleton es e ih =>
    obtain ⟨hpast, hlast⟩ := forall_trace_snoc hown
    have hacc := @run_access_of cfg hrnd (fun _ _ _ => True) (fun _ _ => trivial)
      (fun _ {_ _ _ _ _ _} _ _ _ => trivial) es
    have h := ih hpast
    have hlog : speakers (spoken cfg (es ++ [e])) = speakers (spoken cfg es) ++
        speakers (spokenIn ((machine cfg).entry ((machine cfg).run es) e)) := by
      simp [speakers, spoken, trace_snoc]
    rw [hlog, run_snoc]
    have hnew : Link.Held cfg.link (speakers (spoken cfg es) ++
        speakers (spokenIn ((machine cfg).entry ((machine cfg).run es) e)))
        ((machine cfg).run es).link := by
      rcases spokenIn_cases ((machine cfg).run es) e hlast with hno | ⟨k, id, live, hk, hreq, hone⟩
      · rw [hno, append_nil]
        exact h
      · rw [hone]
        exact h.spoke hk hreq
    cases e with
    | tick _ | pairing _ => exact hnew
    | link event => exact Link.step_held hrnd hacc hnew event
    | sweep => exact Link.sweep_held hnew _

/-- The broker's request sockets speak for their own requests exactly when no browser
reveals another one. -/
theorem own_request_iff (cfg : BrokerConfig) (hrnd : Function.Injective cfg.link.rnd) (es : List BrokerEvent) :
    SpeaksForOwn cfg es ↔ ∀ x ∈ (machine cfg).trace es, ∀ e, x.event = .link e →
      ¬ Link.ForeignReveal x.pre.now x.pre.link e := by
  constructor
  · intro h x hx e he hforeign
    obtain ⟨before, a, after, -, rfl⟩ := ((machine cfg).mem_trace es x).1 hx
    have ha : a = .link e := he
    subst ha
    obtain ⟨k, id, named, raw, r, sock, m, rfl, hk, ho, hm, hne⟩ :=
      @Link.foreignReveal_forwarded cfg.link _ _ _ hforeign
    exact hne (h.named _ hx k id raw rfl hk r sock m named (mem_map_of_mem ho) hm)
  · intro hno
    have hown : ∀ x ∈ (machine cfg).trace es, SpeaksOwn x := by
      intro x hx k id raw he hk r sock m named ho hm
      obtain ⟨before, a, after, -, rfl⟩ := ((machine cfg).mem_trace es x).1 hx
      have ha : a = .link (.message k raw) := he
      subst ha
      obtain ⟨o, hin, hlink⟩ := mem_map.1 ho
      cases hlink
      have hstep : .toAgent r sock m ∈ (((machine cfg).run before).link.step cfg.link
          ((machine cfg).run before).now (.message k raw)).2 := hin
      obtain ⟨i, id', live, msg, he', hi, -, hid | hforeign⟩ := Link.named_by_socket hstep hm
      · cases he'
        have hk' : ((machine cfg).run before).link.sockets.get k = some (.request id) := hk
        rw [hk'] at hi
        cases hi
        exact hid
      · exact absurd hforeign (hno _ hx _ rfl)
    refine ⟨hown, fun acfg {earlier later k id key pending} hsub hpend => ?_⟩
    have hheld := run_held hrnd es hown
    obtain ⟨k', hk'⟩ := committed_on_some acfg earlier hpend
    obtain ⟨a, b, c, dl, ae, rfl, hc, hb⟩ := hk'
    have hreveal : (k, id) ∈ speakers (spoken cfg es) :=
      mem_speakers (m := .reveal id key) (hsub.subset (by simp)) rfl
    have hcommit : (k', id) ∈ speakers (spoken cfg es) :=
      mem_speakers (m := .request id c dl ae) (hsub.subset (by simp)) rfl
    rw [hheld.unique hreveal hcommit]
    exact ⟨a, b, c, dl, ae, rfl, hc, hb⟩

theorem own_request_iff_committed : SpeaksForOwn sample committed := by
  refine (own_request_iff sample numbered_injective committed).2 fun x hx e he hforeign => ?_
  obtain ⟨before, a, after, hes, rfl⟩ := ((machine sample).mem_trace committed x).1 hx
  obtain ⟨k, r, id, named, key, live, tunnel, rfl, -⟩ := hforeign
  have ha : a = .link (.message k (.request (.reveal named key))) := he
  have hmem : a ∈ committed := by rw [hes]; simp
  rw [ha] at hmem
  simp [committed] at hmem

/-- The browser of `req-ii` reveals `req-other`, and the machine is sent just that. -/
theorem other_request_revealed :
    ¬ SpeaksForOwn sample (committed ++ [.link (.message 1 (.request (.reveal "req-other" "b")))]) := by
  intro h
  have hmem := ((machine sample).mem_trace _ _).2
    ⟨committed, .link (.message 1 (.request (.reveal "req-other" "b"))), [], rfl, rfl⟩
  have hid := h.named _ hmem 1 "req-ii" _ rfl (by decide +kernel) 0 0 (.reveal "req-other" "b")
    "req-other" (by decide +kernel) rfl
  exact absurd hid (by decide)

end System
end Mtmux.Broker
