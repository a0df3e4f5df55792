import Mtmux.Broker.LinkInvariant

/-! What the tunnel half says, and on what grounds. Closing notices and a handler's
own answers are plain; the other outputs are salient, and every event emits at most
one of them, or the answers a request had buffered. -/
namespace Mtmux.Broker
open Protocol TunnelRegistry List

def LinkOut.isSalient : LinkOut → Bool
  | .toAgent _ _ (.streamFrame _ _) | .toAgent _ _ (.request _ _ _ _) |
    .toAgent _ _ (.reveal _ _) | .toBrowser _ _ (.streamFrame _ _) => true
  | .reply _ _ _ | .flushed _ _ _ | .recordUsage _ _ _ _ => true
  | _ => false

/-- Outputs none of which is salient. -/
def Plain (out : List LinkOut) : Prop := ∀ o ∈ out, o.isSalient = false

theorem plain_nil : Plain [] := by
  intro o ho
  cases ho

variable {o : LinkOut}

theorem plain_singleton (h : o.isSalient = false) : Plain [o] := by
  intro o' ho'
  rw [mem_singleton.1 ho']
  exact h

theorem Plain.append {out out' : List LinkOut} (h : Plain out) (h' : Plain out') : Plain (out ++ out') := by
  intro o ho
  rcases mem_append.1 ho with ho | ho
  · exact h o ho
  · exact h' o ho

variable {out : List LinkOut}

theorem Plain.filter (h : Plain out) : out.filter LinkOut.isSalient = [] :=
  filter_eq_nil_iff.2 fun o ho => by simp [h o ho]

namespace TunnelRegistry
variable {reg : TunnelRegistry} {now : Nat}

theorem mem_drop {t : String} {reason : TunnelClosedReason} (h : o ∈ (reg.drop t reason).2) :
    ∃ r k, o = .toBrowser r k (.closed reason) ∨ o = .toAgent r k (.closed reason) := by
  unfold drop at h
  split at h
  · cases h
  · next r tunnel _ =>
    rcases mem_append.1 h with h | h
    · obtain ⟨stream, -, hs⟩ := mem_filterMap.1 h
      obtain ⟨k, -, rfl⟩ := Option.map_eq_some_iff.1 hs
      exact ⟨r, k, Or.inl rfl⟩
    · exact ⟨r, tunnel.agent, Or.inr (mem_singleton.1 h)⟩

theorem drop_plain (reg : TunnelRegistry) (t : String) (reason : TunnelClosedReason) : Plain (reg.drop t reason).2 := by
  intro o ho
  obtain ⟨r, k, rfl | rfl⟩ := mem_drop ho <;> rfl

theorem get_plain (reg : TunnelRegistry) (t : String) (now : Nat) : Plain (reg.get t now).2.2 := by
  unfold get
  split
  · exact plain_nil
  · split
    · exact drop_plain reg t .expired
    · exact plain_nil

theorem byDevice_plain (reg : TunnelRegistry) (d : String) (now : Nat) : Plain (reg.byDevice d now).2.2 := by
  unfold byDevice
  split
  · exact plain_nil
  · exact get_plain reg _ now

variable {r : Nat}

theorem mem_closeStream {sid : String} {reason : Option String}
    (h : o ∈ (reg.closeStream r sid reason).2) :
    ∃ (tunnel : Tunnel) (k : Nat), reg.objs[r]? = some tunnel ∧ (tunnel.streams.get sid).isSome ∧
      (o = .toBrowser r k (.streamClose sid reason) ∨ o = .toAgent r k (.streamClose sid reason)) := by
  unfold closeStream at h
  split at h
  · cases h
  · next tunnel hobj =>
    split at h
    · cases h
    · next stream hstream =>
      have hsome : (tunnel.streams.get sid).isSome := by rw [hstream]; rfl
      rcases mem_append.1 h with h | h
      · obtain ⟨k, -, rfl⟩ := mem_map.1 h
        exact ⟨tunnel, k, hobj, hsome, Or.inl rfl⟩
      · exact ⟨tunnel, tunnel.agent, hobj, hsome, Or.inr (mem_singleton.1 h)⟩

theorem closeStream_plain (reg : TunnelRegistry) (r : Nat) (sid : String)
    (reason : Option String) : Plain (reg.closeStream r sid reason).2 := by
  intro o ho
  obtain ⟨tunnel, k, -, -, rfl | rfl⟩ := mem_closeStream ho <;> rfl

variable {quotas : Quotas} {bytes : Nat} {reg' : TunnelRegistry} {out : List LinkOut}

theorem charge_true (h : reg.charge quotas r bytes = (reg', true, out)) :
    out = [] ∧ ∃ tunnel, reg.objs[r]? = some tunnel ∧ tunnel.bytes + bytes ≤ quotas.maxBytes := by
  unfold charge at h
  split at h
  · cases h
  · next tunnel hobj =>
    split at h
    · cases h
    · next hle =>
      cases h
      exact ⟨rfl, tunnel, hobj, by omega⟩

theorem charge_false (h : reg.charge quotas r bytes = (reg', false, out)) (o : LinkOut) (ho : o ∈ out) :
    ∃ i k, o = .toBrowser i k (.closed .quotaExceeded) ∨ o = .toAgent i k (.closed .quotaExceeded) := by
  unfold charge at h
  split at h
  · cases h
    cases ho
  · split at h
    · cases h
      exact mem_drop ho
    · cases h

theorem charge_plain (h : reg.charge quotas r bytes = (reg', false, out)) : Plain out := by
  intro o ho
  obtain ⟨i, k, rfl | rfl⟩ := charge_false h o ho <;> rfl

variable {tunnel : Tunnel}

theorem charge_of_room
    (hobj : reg.objs[r]? = some tunnel) (hle : tunnel.bytes + bytes ≤ quotas.maxBytes) :
    reg.charge quotas r bytes = (reg.addBytes r bytes, true, []) := by
  unfold charge
  rw [hobj]
  dsimp only
  rw [if_neg (by omega)]

theorem openStream_plain (quotas : Quotas) (reg : TunnelRegistry) (r : Nat) (id : String)
    (browser now : Nat) : Plain (reg.openStream quotas r id browser now).2.2 := by
  unfold openStream
  split
  · exact plain_nil
  · split
    · exact plain_nil
    · split
      · exact plain_nil
      · exact plain_singleton rfl

theorem sweepIds_plain (now : Nat) (ids : List String) (reg : TunnelRegistry) : Plain (reg.sweepIds now ids).2 := by
  induction ids generalizing reg with
  | nil => exact plain_nil
  | cons t ids ih => exact (get_plain reg t now).append (ih _)

end TunnelRegistry

namespace Link
variable {cfg : LinkConfig} {now : Nat} {l : Link}

/-- The salient outputs of an event, with what held before it. -/
inductive Emits (cfg : LinkConfig) (now : Nat) (l : Link) : LinkEvent → List LinkOut → Prop where
  | nothing (e : LinkEvent) : Emits cfg now l e []
  | browserFrame {k r : Nat} {t sid data : String} {tunnel : Tunnel}
      (socket : l.sockets.get k = some (.browser t r sid)) (obj : l.registry.objs[r]? = some tunnel)
      (room : tunnel.bytes + data.length ≤ cfg.quotas.maxBytes) :
    Emits cfg now l (.message k (.tunnel (.streamFrame sid data)))
      [.toAgent r tunnel.agent (.streamFrame sid data)]
  | agentFrame {k r i : Nat} {challenge t sid data : String} {tunnel : Tunnel} {stream : Stream}
      (socket : l.sockets.get k = some (.agent challenge (some t)))
      (current : l.registry.tunnels.get t = some r) (obj : l.registry.objs[r]? = some tunnel)
      (live : now < tunnel.expiresAt) (opened : tunnel.streams.get sid = some stream)
      (browser : stream.browser = some i) :
    Emits cfg now l (.message k (.tunnel (.streamFrame sid data)))
      [.toBrowser r i (.streamFrame sid data)]
  | usage {k r : Nat} {challenge t userId : String} {tunnel : Tunnel} (seconds : Nat)
      (socket : l.sockets.get k = some (.agent challenge (some t)))
      (current : l.registry.tunnels.get t = some r) (obj : l.registry.objs[r]? = some tunnel)
      (live : now < tunnel.expiresAt) (owner : tunnel.owner = some userId) :
    Emits cfg now l (.close k) [.recordUsage r userId tunnel.bytes seconds]
  | reply {k r : Nat} {challenge t : String} {tunnel : Tunnel} {message : RequestServerMessage}
      {request : AccessRequest} (socket : l.sockets.get k = some (.agent challenge (some t)))
      (current : l.registry.tunnels.get t = some r) (obj : l.registry.objs[r]? = some tunnel)
      (stored : l.requests.get message.requestId = some request) (live : now < request.expiresAt)
      (device : request.deviceId = tunnel.deviceId) :
    Emits cfg now l (.message k (.tunnel (.reply message)))
      [.reply request.id request.browser message]
  | flushed {requestId : String} {request : AccessRequest}
      (stored : l.requests.get requestId = some request) (live : now < request.expiresAt)
      (free : request.browser = none) :
    Emits cfg now l (.attachRequest requestId)
      (request.pending.map fun message => .flushed requestId l.nextSocket message)
  | request {k r : Nat} {requestId named commitment : String} {tunnel : Tunnel}
      {live : AccessRequest} (socket : l.sockets.get k = some (.request requestId))
      (stored : l.requests.get requestId = some live) (unexpired : now < live.expiresAt)
      (first : live.forwarded = false) (obj : l.registry.objs[r]? = some tunnel)
      (online : l.registry.byDevice live.deviceId now = (l.registry, some (r, tunnel), [])) :
    Emits cfg now l (.message k (.request (.commit named commitment)))
      [.toAgent r tunnel.agent (.request requestId commitment live.deviceLabel live.accountEmail)]
  | reveal {k r : Nat} {requestId named key : String} {tunnel : Tunnel}
      {live : AccessRequest} (socket : l.sockets.get k = some (.request requestId))
      (stored : l.requests.get requestId = some live) (unexpired : now < live.expiresAt)
      (after : live.forwarded = true) (obj : l.registry.objs[r]? = some tunnel)
      (online : l.registry.byDevice live.deviceId now = (l.registry, some (r, tunnel), [])) :
    Emits cfg now l (.message k (.request (.reveal named key)))
      [.toAgent r tunnel.agent (.reveal named key)]

theorem Emits.plain {e : LinkEvent} (h : Plain out) :
    Emits cfg now l e (out.filter LinkOut.isSalient) := by
  rw [h.filter]
  exact .nothing e

theorem liveRequest_some {requestId : String} {l' : Link} {request : AccessRequest}
    (h : liveRequest now l requestId = (l', some request)) :
    l' = l ∧ l.requests.get requestId = some request ∧ now < request.expiresAt := by
  unfold liveRequest at h
  split at h
  · cases h
  · next found hreq =>
    split at h
    · cases h
    · next hx =>
      cases h
      exact ⟨rfl, hreq, by simpa [expired] using hx⟩

theorem byDevice_some {reg reg' : TunnelRegistry} {d : String} {r : Nat}
    (h : reg.byDevice d now = (reg', some (r, tunnel), out)) :
    reg' = reg ∧ out = [] ∧ ∃ t, reg.byDeviceId.get d = some t ∧ reg.tunnels.get t = some r ∧
      reg.objs[r]? = some tunnel ∧ now < tunnel.expiresAt := by
  unfold TunnelRegistry.byDevice at h
  split at h
  · cases h
  · next t hd =>
    obtain ⟨h1, h2, h3⟩ := get_some h
    exact ⟨h1, h2, t, hd, h3⟩

variable {k : Nat} {challenge : String}

/-- A machine's answer goes to the browser of a live request for its own device. -/
theorem agentReply_emits {r : Nat} {t : String}
    {message : RequestServerMessage} (hk : l.sockets.get k = some (.agent challenge (some t)))
    (hcur : l.registry.tunnels.get t = some r) (hobj : l.registry.objs[r]? = some tunnel) :
    Emits cfg now l (.message k (.tunnel (.reply message)))
      ((agentReply now l tunnel message).2.filter LinkOut.isSalient) := by
  unfold agentReply
  split
  · exact .nothing _
  · next l₁ request he =>
    obtain ⟨rfl, hreq, hx⟩ := liveRequest_some he
    split
    · exact .nothing _
    · next hd =>
      have hreply : Emits cfg now l₁ _ _ := .reply hk hcur hobj hreq hx (not_not.1 hd)
      unfold toBrowser
      cases hb : request.browser with
      | some sock =>
        rw [hb] at hreply
        exact hreply
      | none =>
        rw [hb] at hreply
        dsimp only
        split
        · exact hreply
        · exact .nothing _

theorem agentServe_emits {t : String} {msg : TunnelClientMessage}
    (hk : l.sockets.get k = some (.agent challenge (some t))) : Emits cfg now l (.message k (.tunnel msg))
      ((agentServe cfg now l k t msg).2.filter LinkOut.isSalient) := by
  have hget := l.registry.get_plain t now
  unfold agentServe
  rcases hg : l.registry.get t now with ⟨reg, _ | ⟨r, tunnel⟩, out⟩
  · rw [hg] at hget
    exact .plain (hget.append (plain_singleton rfl))
  · obtain ⟨rfl, rfl, hcur, hobj, hx⟩ := get_some hg
    cases msg with
    | streamClose sid reason => exact .plain (l.registry.closeStream_plain r sid reason)
    | streamFrame sid data =>
      dsimp only
      rcases hc : l.registry.charge cfg.quotas r data.length with ⟨reg', _ | _, out'⟩
      · exact .plain ((charge_plain hc).append (plain_singleton rfl))
      · dsimp only
        cases hs : tunnel.streams.get sid with
        | none => exact .nothing _
        | some stream =>
          cases hb : stream.browser with
          | none =>
            rw [Option.bind_some, hb]
            exact .nothing _
          | some i =>
            rw [Option.bind_some, hb]
            exact .agentFrame hk hcur hobj hx hs hb
    | reply message => exact agentReply_emits hk hcur hobj
    | register deviceId publicKey answered signature => exact .plain (plain_singleton rfl)

theorem browserMessage_emits {r : Nat} {t sid : String} {raw : LinkFrame}
    (hk : l.sockets.get k = some (.browser t r sid)) : Emits cfg now l (.message k raw)
      ((browserMessage cfg l k r sid raw).2.filter LinkOut.isSalient) := by
  unfold browserMessage
  split
  · split
    · exact .plain (plain_singleton rfl)
    · next reason _ =>
      exact .plain ((l.registry.closeStream_plain r sid reason).append (plain_singleton rfl))
  · next named data =>
    split
    · exact .plain (plain_singleton rfl)
    · next hnamed =>
      have hsid : named = sid := not_not.1 hnamed
      subst hsid
      rcases hc : l.registry.charge cfg.quotas r data.length with ⟨reg', _ | _, out'⟩
      · exact .plain ((charge_plain hc).append (plain_singleton rfl))
      · obtain ⟨-, tunnel, hobj, hle⟩ := charge_true hc
        dsimp only
        rw [hobj]
        exact .browserFrame hk hobj hle
  · exact .plain (plain_singleton rfl)
  · exact .plain (plain_singleton rfl)

theorem pairRequest_plain (cfg : LinkConfig) (now : Nat) (l : Link) (deviceId deviceLabel accountEmail : String) :
    Plain (pairRequest cfg now l deviceId deviceLabel accountEmail).2 := by
  have hby := l.registry.byDevice_plain deviceId now
  unfold pairRequest
  rcases hd : l.registry.byDevice deviceId now with ⟨reg, _ | found, out⟩
  · rw [hd] at hby
    exact hby.append (plain_singleton rfl)
  · rw [hd] at hby
    dsimp only
    split
    · exact hby.append (plain_singleton rfl)
    · split
      · exact hby.append (plain_singleton rfl)
      · exact hby.append (plain_singleton rfl)

theorem attachRequestSocket_emits (now : Nat) (l : Link) (requestId : String) :
    Emits cfg now l (.attachRequest requestId) ((attachRequestSocket now l requestId).2.filter LinkOut.isSalient) := by
  unfold attachRequestSocket
  dsimp only
  split
  · exact .plain ((plain_singleton rfl).append (plain_singleton rfl))
  · next l₁ request he =>
    obtain ⟨-, hreq, hx⟩ := liveRequest_some he
    split
    · exact .plain (plain_singleton rfl)
    · next hfree =>
      rw [filter_eq_self.2]
      · exact .flushed hreq hx (not_not.1 hfree)
      · intro o ho
        obtain ⟨message, -, rfl⟩ := mem_map.1 ho
        rfl

theorem attachTunnelSocket_plain (cfg : LinkConfig) (now : Nat) (l : Link) (t : String) :
    Plain (attachTunnelSocket cfg now l t).2 := by
  have hget := l.registry.get_plain t now
  unfold attachTunnelSocket
  rcases hg : l.registry.get t now with ⟨reg, _ | ⟨r, tunnel⟩, out⟩
  · rw [hg] at hget
    exact hget.append ((plain_singleton rfl).append (plain_singleton rfl))
  · have hopen := reg.openStream_plain cfg.quotas r ("str-" ++ cfg.rnd l.drawn) l.nextSocket now
    dsimp only
    rcases hop : reg.openStream cfg.quotas r ("str-" ++ cfg.rnd l.drawn) l.nextSocket now with
      ⟨reg', _ | _, out'⟩
    · exact (plain_singleton rfl).append (plain_singleton rfl)
    · rw [hop] at hopen
      exact hopen.append (plain_singleton rfl)

theorem requestMessage_emits {requestId : String} {raw : LinkFrame} (hk : l.sockets.get k = some (.request requestId)) :
    Emits cfg now l (.message k raw) ((requestMessage now l k requestId raw).2.filter LinkOut.isSalient) := by
  unfold requestMessage
  split
  · next msg =>
    split
    · exact .plain ((plain_singleton rfl).append (plain_singleton rfl))
    · next l₁ live he =>
      obtain ⟨rfl, hreq, hx⟩ := liveRequest_some he
      have hby := l₁.registry.byDevice_plain live.deviceId now
      rcases hd : l₁.registry.byDevice live.deviceId now with ⟨reg, _ | ⟨r, tunnel⟩, out⟩
      · rw [hd] at hby
        exact .plain (hby.append (plain_singleton rfl))
      · obtain ⟨rfl, rfl, t, -, -, hobj, -⟩ := byDevice_some hd
        dsimp only
        unfold requestForward
        cases msg with
        | commit named commitment =>
          cases hf : live.forwarded with
          | true => exact .nothing _
          | false => exact .request hk hreq hx hf hobj hd
        | reveal named key =>
          cases hf : live.forwarded with
          | true => exact .reveal hk hreq hx hf hobj hd
          | false => exact .nothing _
  · exact .plain (plain_singleton rfl)

theorem agentGone_salient (cfg : LinkConfig) (now : Nat) (l : Link) (k : Nat) (t : String) :
    (agentGone cfg now l k (some t)).2.filter LinkOut.isSalient =
      (l.registry.get t now).2.1.elim [] fun (r, tunnel) => settle cfg now r tunnel := by
  have hget := l.registry.get_plain t now
  unfold agentGone
  dsimp only
  rcases hg : l.registry.get t now with ⟨reg, _ | ⟨r, tunnel⟩, out⟩
  · rw [hg] at hget
    simp [hget.filter, (reg.drop_plain t .agentGone).filter]
  · rw [hg] at hget
    have hsettle : (settle cfg now r tunnel).filter LinkOut.isSalient = settle cfg now r tunnel := by
      unfold settle
      split
      · rfl
      · split <;> rfl
    simp [hget.filter, (reg.drop_plain t .agentGone).filter, hsettle]

theorem agentGone_emits {t : Option String} (hk : l.sockets.get k = some (.agent challenge t)) :
    Emits cfg now l (.close k) ((agentGone cfg now l k t).2.filter LinkOut.isSalient) := by
  cases t with
  | none => exact .nothing _
  | some t =>
    rw [agentGone_salient]
    rcases hg : l.registry.get t now with ⟨reg, _ | ⟨r, tunnel⟩, out⟩
    · exact .nothing _
    · obtain ⟨-, -, hcur, hobj, hx⟩ := get_some hg
      dsimp only [Option.elim_some]
      unfold settle
      split
      · exact .nothing _
      · next userId howner =>
        split
        · exact .usage _ hk hcur hobj hx howner
        · exact .nothing _

theorem agentRegister_plain (cfg : LinkConfig) (now : Nat) (l : Link) (k : Nat)
    (challenge : String) (msg : TunnelClientMessage) : Plain (agentRegister cfg now l k challenge msg).2 := by
  rcases agentRegister_cases cfg now l k challenge msg with ⟨why, he⟩ |
    ⟨d, pk, ans, sig, reg₀, tunnel, out, -, -, -, -, -, -, hout, -, -, -, -, -, -, -, he⟩
  · rw [he]
    exact plain_singleton rfl
  · rw [he]
    refine Plain.append (fun o ho => ?_) (plain_singleton rfl)
    obtain ⟨existing, hmem⟩ := hout o ho
    exact l.registry.drop_plain existing .agentGone o hmem

theorem browserGone_plain (now : Nat) (l : Link) (k : Nat) (t sid : String) : Plain (browserGone now l k t sid).2 := by
  have hget := l.registry.get_plain t now
  unfold browserGone
  rcases hg : l.registry.get t now with ⟨reg, _ | ⟨r, tunnel⟩, out⟩
  · rw [hg] at hget
    exact hget
  · exact reg.closeStream_plain r sid _

theorem checkAnswer_plain (l : Link) (r : Nat) (allowed : Bool) (reason : Option String) :
    Plain (checkAnswer l r allowed reason).2 := by
  unfold checkAnswer
  split
  · dsimp only
    split
    · exact plain_nil
    · unfold block
      split
      · exact plain_nil
      · exact drop_plain _ _ _
  · exact plain_nil

/-- What an event says that is salient is said on one of those grounds. -/
theorem step_emits (cfg : LinkConfig) (now : Nat) (l : Link) (e : LinkEvent) :
    Emits cfg now l e ((step cfg now l e).2.filter LinkOut.isSalient) := by
  cases e with
  | pairRequest deviceId deviceLabel accountEmail =>
    exact .plain (pairRequest_plain cfg now l deviceId deviceLabel accountEmail)
  | attachRequest requestId => exact attachRequestSocket_emits now l requestId
  | attachTunnel t => exact .plain (attachTunnelSocket_plain cfg now l t)
  | message k raw =>
    simp only [step]
    split
    · exact .nothing _
    · next challenge t hk =>
      unfold agentMessage
      split
      · next msg => exact .plain (agentRegister_plain cfg now l k challenge msg)
      · exact agentServe_emits hk
      · exact .nothing _
    · next requestId hk => exact requestMessage_emits hk
    · next t r sid hk => exact browserMessage_emits hk
  | close k =>
    simp only [step]
    split
    · exact .nothing _
    · next t hk => exact agentGone_emits hk
    · exact .nothing _
    · next t r sid _ => exact .plain (browserGone_plain now l k t sid)
  | checkAnswer r allowed reason => exact .plain (checkAnswer_plain l r allowed reason)
  | revoke t => exact .plain (l.registry.drop_plain t .revoked)
  | _ => exact .nothing _

theorem emits_of_mem {e : LinkEvent} (ho : o ∈ (step cfg now l e).2)
    (hs : o.isSalient = true) : ∃ out, o ∈ out ∧ Emits cfg now l e out :=
  ⟨_, mem_filter.2 ⟨ho, hs⟩, step_emits cfg now l e⟩

end Link
end Mtmux.Broker
