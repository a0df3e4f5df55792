import Mtmux.Broker.System
import Mtmux.Broker.LinkOutputs

/-! Requested access: one open request for a device, asked once, decided once, and
answered by its own machine only. -/
namespace Mtmux.Broker
open Protocol OrderedMap Machine TunnelRegistry List

def LinkOut.asks (id : String) : LinkOut → Bool
  | .toAgent _ _ (.request requestId _ _ _) => requestId = id
  | _ => false

/-- A machine's approval or refusal handed on for request `id`. -/
def LinkOut.decides (id : String) : LinkOut → Bool
  | .reply requestId _ message => requestId = id && message.isDecision
  | .flushed requestId _ message => requestId = id && message.isDecision
  | _ => false

def Dull (out : List LinkOut) : Prop := ∀ o ∈ out, ∀ id, o.asks id = false ∧ o.decides id = false

theorem dull_nil : Dull [] := by
  intro o ho
  cases ho

theorem dull_singleton {o : LinkOut} (h : ∀ id, o.asks id = false ∧ o.decides id = false) : Dull [o] := by
  intro o' ho'
  rw [mem_singleton.1 ho']
  exact h

variable {out : List LinkOut}

theorem Plain.dull (h : Plain out) : Dull out := by
  intro o ho id
  have hs := h o ho
  unfold LinkOut.isSalient at hs
  unfold LinkOut.asks LinkOut.decides
  constructor
  · split
    · cases hs
    · rfl
  · split
    · cases hs
    · cases hs
    · rfl

theorem dull_of_filter (h : Dull (out.filter LinkOut.isSalient)) : Dull out := by
  intro o ho
  cases hs : o.isSalient with
  | true => exact h o (mem_filter.2 ⟨ho, hs⟩)
  | false => exact Plain.dull (plain_singleton hs) o (mem_singleton_self o)

theorem Dull.counts (h : Dull out) (id : String) :
    out.countP (LinkOut.asks id) = 0 ∧ out.countP (LinkOut.decides id) = 0 := by
  constructor
  · exact countP_eq_zero.2 fun o ho => by simp [(h o ho id).1]
  · exact countP_eq_zero.2 fun o ho => by simp [(h o ho id).2]

namespace Link
variable {cfg : LinkConfig} {now : Nat} {l l' : Link} {e : LinkEvent}

theorem step_dull (hattach : ∀ id, e ≠ .attachRequest id)
    (hreply : ∀ k message, e ≠ .message k (.tunnel (.reply message)))
    (hrequest : ∀ k msg, e ≠ .message k (.request msg)) : Dull (step cfg now l e).2 := by
  have hem := step_emits cfg now l e
  refine dull_of_filter ?_
  generalize (step cfg now l e).2.filter LinkOut.isSalient = out at hem
  cases hem with
  | nothing => exact dull_nil
  | reply => exact absurd rfl (hreply _ _)
  | flushed => exact absurd rfl (hattach _)
  | request | reveal => exact absurd rfl (hrequest _ _)
  | _ => exact dull_singleton fun _ => ⟨rfl, rfl⟩

/-- The stored requests against what was said so far. `said d m` tells that an agent
of device `d` sent `m`. -/
structure Access (cfg : LinkConfig) (said : String → RequestServerMessage → Prop)
    (outs : List LinkOut) (l : Link) : Prop where
  keyed : ∀ {id request}, l.requests.get id = some request →
    request.id = id ∧ l.pendingByDevice.get request.deviceId = some id
  drawn : ∀ {id request}, l.requests.get id = some request →
    ∃ n, n < l.drawn ∧ id = "req-" ++ cfg.rnd n
  asked : ∀ {id request}, l.requests.get id = some request →
    outs.countP (LinkOut.asks id) = request.forwarded.toNat
  undecided : ∀ {id request}, l.requests.get id = some request →
    outs.countP (LinkOut.decides id) = 0
  buffered : ∀ {id request}, l.requests.get id = some request →
    ∀ message ∈ request.pending, message.isDecision = false ∧ said request.deviceId message
  asks_le : ∀ id, outs.countP (LinkOut.asks id) ≤ 1
  decides_le : ∀ id, outs.countP (LinkOut.decides id) ≤ 1
  counted : ∀ {id}, 0 < outs.countP (LinkOut.asks id) + outs.countP (LinkOut.decides id) →
    ∃ n, n < l.drawn ∧ id = "req-" ++ cfg.rnd n

variable {said said' : String → RequestServerMessage → Prop} {outs out : List LinkOut}

theorem create_access : Access cfg said [] create := by
  constructor <;> intros <;> simp_all [create]

variable {id : String} {request request' : AccessRequest}

section
variable (h : Access cfg said outs l)
include h

theorem Access.unique {id' : String}
    (hid : l.requests.get id = some request) (hid' : l.requests.get id' = some request')
    (hd : request.deviceId = request'.deviceId) : id = id' := by
  have hp := (h.keyed hid).2
  rw [hd, (h.keyed hid').2] at hp
  exact (Option.some.inj hp).symm

theorem Access.mono (hs : ∀ d m, said d m → said' d m) : Access cfg said' outs l where
  __ := h
  buffered := fun hid m hm => ⟨(h.buffered hid m hm).1, hs _ _ (h.buffered hid m hm).2⟩

theorem Access.dull (hout : Dull out) : Access cfg said (outs ++ out) l where
  __ := h
  asked := fun {id _} hid => by
    rw [countP_append, (hout.counts id).1]
    exact h.asked hid
  undecided := fun {id _} hid => by
    rw [countP_append, (hout.counts id).2]
    exact h.undecided hid
  asks_le := fun id => by
    rw [countP_append, (hout.counts id).1]
    exact h.asks_le id
  decides_le := fun id => by
    rw [countP_append, (hout.counts id).2]
    exact h.decides_le id
  counted := fun {id} hpos => by
    rw [countP_append, countP_append, (hout.counts id).1, (hout.counts id).2] at hpos
    exact h.counted hpos

/-- Whatever else changes. -/
theorem Access.same (hr : l'.requests = l.requests)
    (hp : l'.pendingByDevice = l.pendingByDevice) (hd : l.drawn ≤ l'.drawn) : Access cfg said outs l' := by
  constructor
  case keyed =>
    intro id request hid
    rw [hp]
    exact h.keyed (hr ▸ hid)
  case drawn =>
    intro id request hid
    obtain ⟨n, hn, he⟩ := h.drawn (hr ▸ hid)
    exact ⟨n, Nat.lt_of_lt_of_le hn hd, he⟩
  case asked => exact fun hid => h.asked (hr ▸ hid)
  case undecided => exact fun hid => h.undecided (hr ▸ hid)
  case buffered => exact fun hid => h.buffered (hr ▸ hid)
  case asks_le => exact h.asks_le
  case decides_le => exact h.decides_le
  case counted =>
    intro id hpos
    obtain ⟨n, hn, he⟩ := h.counted hpos
    exact ⟨n, Nat.lt_of_lt_of_le hn hd, he⟩

end

theorem dropRequest_get (l : Link) (id i : String) :
    (l.dropRequest id).requests.get i = if i = id then none else l.requests.get i := by
  unfold dropRequest
  split
  · next hnone =>
    split
    · next he => rw [he, hnone]
    · rfl
  · exact get_delete _ _ _

theorem Access.dropped_index (h : Access cfg said outs l) {i : String}
    (hne : i ≠ id) (hi : l.requests.get i = some request) :
    (l.dropRequest id).pendingByDevice.get request.deviceId = some i := by
  have hp := (h.keyed hi).2
  unfold dropRequest
  split
  · exact hp
  · next gone hgone =>
    dsimp only
    split
    · next hg =>
      rw [get_delete, if_neg]
      · exact hp
      · intro hd
        rw [hd, hg] at hp
        exact hne (Option.some.inj hp).symm
    · exact hp

theorem dropRequest_drawn (l : Link) (id : String) : (l.dropRequest id).drawn = l.drawn := by
  unfold dropRequest
  split <;> rfl

section
variable (h : Access cfg said outs l)
include h

/-- A request goes, and the others keep their place in the index. -/
theorem Access.remove
    (hreq : ∀ i, l'.requests.get i = if i = id then none else l.requests.get i)
    (hidx : ∀ {i request}, i ≠ id → l.requests.get i = some request →
      l'.pendingByDevice.get request.deviceId = some i)
    (hdrawn : l'.drawn = l.drawn) : Access cfg said outs l' := by
  have hold : ∀ {i : String} {request : AccessRequest}, l'.requests.get i = some request →
      i ≠ id ∧ l.requests.get i = some request := by
    intro i request hi
    rw [hreq] at hi
    split at hi
    · cases hi
    · next hne => exact ⟨hne, hi⟩
  constructor
  case keyed =>
    intro i request hi
    obtain ⟨hne, hi⟩ := hold hi
    exact ⟨(h.keyed hi).1, hidx hne hi⟩
  case drawn =>
    intro i request hi
    rw [hdrawn]
    exact h.drawn (hold hi).2
  case asked => exact fun hi => h.asked (hold hi).2
  case undecided => exact fun hi => h.undecided (hold hi).2
  case buffered => exact fun hi => h.buffered (hold hi).2
  case asks_le => exact h.asks_le
  case decides_le => exact h.decides_le
  case counted =>
    intro i hpos
    rw [hdrawn]
    exact h.counted hpos

theorem Access.drop (id : String) : Access cfg said outs (l.dropRequest id) :=
  h.remove (dropRequest_get l id) h.dropped_index (dropRequest_drawn l id)

theorem Access.live (now : Nat) (id : String) :
    Access cfg said outs (liveRequest now l id).1 := by
  unfold liveRequest
  split
  · exact h
  · split
    · exact h.drop id
    · exact h

/-- A stored request is rewritten, and asked if the rewriting says so. -/
theorem Access.put {id : String} {request request' : AccessRequest}
    (hid : l.requests.get id = some request) (hkey : request'.id = id) (hdev : request'.deviceId = request.deviceId)
    (hasks : out.countP (LinkOut.asks id) + request.forwarded.toNat = request'.forwarded.toNat)
    (hothers : ∀ i, i ≠ id → out.countP (LinkOut.asks i) = 0) (hdecides : ∀ i, out.countP (LinkOut.decides i) = 0)
    (hbuf : ∀ message ∈ request'.pending, message.isDecision = false ∧ said request.deviceId message) :
    Access cfg said (outs ++ out) { l with requests := l.requests.set id request' } := by
  have hnew : ∀ {i : String} {found : AccessRequest},
      (l.requests.set id request').get i = some found →
      (i = id ∧ found = request') ∨ (i ≠ id ∧ l.requests.get i = some found) := by
    intro i found hi
    rw [get_set] at hi
    split at hi
    · next he =>
      cases hi
      exact Or.inl ⟨he, rfl⟩
    · next hne => exact Or.inr ⟨hne, hi⟩
  have hasked := h.asked hid
  constructor
  case keyed =>
    intro i found hi
    rcases hnew hi with ⟨rfl, rfl⟩ | ⟨-, hi⟩
    · refine ⟨hkey, ?_⟩
      rw [hdev]
      exact (h.keyed hid).2
    · exact h.keyed hi
  case drawn =>
    intro i found hi
    rcases hnew hi with ⟨rfl, -⟩ | ⟨-, hi⟩
    · exact h.drawn hid
    · exact h.drawn hi
  case asked =>
    intro i found hi
    rw [countP_append]
    rcases hnew hi with ⟨rfl, rfl⟩ | ⟨hne, hi⟩
    · omega
    · rw [hothers i hne]
      exact h.asked hi
  case undecided =>
    intro i found hi
    rw [countP_append, hdecides]
    rcases hnew hi with ⟨rfl, -⟩ | ⟨-, hi⟩
    · exact h.undecided hid
    · exact h.undecided hi
  case buffered =>
    intro i found hi
    rcases hnew hi with ⟨-, rfl⟩ | ⟨-, hi⟩
    · rw [hdev]
      exact hbuf
    · exact h.buffered hi
  case asks_le =>
    intro i
    rw [countP_append]
    rcases eq_or_ne i id with rfl | hne
    · have hle := request'.forwarded.toNat_le
      omega
    · rw [hothers i hne]
      exact h.asks_le i
  case decides_le =>
    intro i
    rw [countP_append, hdecides]
    exact h.decides_le i
  case counted =>
    intro i hpos
    rw [countP_append, countP_append, hdecides] at hpos
    rcases eq_or_ne i id with rfl | hne
    · exact h.drawn hid
    · rw [hothers i hne] at hpos
      exact h.counted hpos

/-- A decision is handed on for a request that is no longer stored. -/
theorem Access.decide
    (hgone : l.requests.get id = none) (hnone : outs.countP (LinkOut.decides id) = 0)
    (hdrawn : ∃ n, n < l.drawn ∧ id = "req-" ++ cfg.rnd n) (via : Option Nat) (message : RequestServerMessage) :
    Access cfg said (outs ++ [.reply id via message]) l := by
  have hasks : ∀ i, [LinkOut.reply id via message].countP (LinkOut.asks i) = 0 := fun _ => rfl
  have hothers : ∀ {i}, i ≠ id → [LinkOut.reply id via message].countP (LinkOut.decides i) = 0 := by
    intro i hne
    simp [LinkOut.decides, hne.symm]
  have hle : [LinkOut.reply id via message].countP (LinkOut.decides id) ≤ 1 :=
    countP_le_length
  have hne : ∀ {i request}, l.requests.get i = some request → i ≠ id := by
    rintro i request hi rfl
    rw [hgone] at hi
    cases hi
  constructor
  case keyed => exact h.keyed
  case drawn => exact h.drawn
  case asked =>
    intro i request hi
    rw [countP_append, hasks]
    exact h.asked hi
  case undecided =>
    intro i request hi
    rw [countP_append, hothers (hne hi)]
    exact h.undecided hi
  case buffered => exact h.buffered
  case asks_le =>
    intro i
    rw [countP_append, hasks]
    exact h.asks_le i
  case decides_le =>
    intro i
    rw [countP_append]
    rcases eq_or_ne i id with rfl | hi
    · omega
    · rw [hothers hi]
      exact h.decides_le i
  case counted =>
    intro i hpos
    rcases eq_or_ne i id with rfl | hi
    · exact hdrawn
    · rw [countP_append, countP_append, hasks, hothers hi] at hpos
      exact h.counted hpos

end

variable {deviceId : String}

theorem Access.opened (hrnd : Function.Injective cfg.rnd) (h : Access cfg said outs l)
    (hfree : ∀ {i request}, l.requests.get i = some request →
      request.deviceId ≠ deviceId) (deviceLabel accountEmail : String) :
    Access cfg said outs (openRequest cfg now l deviceId deviceLabel accountEmail).1 := by
  have hfresh : ∀ n, n < l.drawn → "req-" ++ cfg.rnd l.drawn ≠ "req-" ++ cfg.rnd n := by
    intro n hn he
    have := hrnd ((String.append_right_inj _).1 he)
    omega
  have hcount : outs.countP (LinkOut.asks ("req-" ++ cfg.rnd l.drawn)) +
      outs.countP (LinkOut.decides ("req-" ++ cfg.rnd l.drawn)) = 0 := by
    by_contra hne
    obtain ⟨n, hn, he⟩ := h.counted (Nat.pos_of_ne_zero hne)
    exact hfresh n hn he
  have hnew : ∀ {i : String} {found : AccessRequest},
      (openRequest cfg now l deviceId deviceLabel accountEmail).1.requests.get i = some found →
      (i = "req-" ++ cfg.rnd l.drawn ∧ found = ⟨"req-" ++ cfg.rnd l.drawn, deviceId,
        now + requestTtlMs, deviceLabel, accountEmail, false, none, []⟩) ∨
      l.requests.get i = some found := by
    intro i found hi
    simp only [openRequest, get_set] at hi
    split at hi
    · next he => exact Or.inl ⟨he, (Option.some.inj hi).symm⟩
    · exact Or.inr hi
  constructor
  case keyed =>
    intro i found hi
    simp only [openRequest, get_set]
    rcases hnew hi with ⟨rfl, rfl⟩ | hi
    · exact ⟨rfl, if_pos rfl⟩
    · rw [if_neg (hfree hi)]
      exact h.keyed hi
  case drawn =>
    intro i found hi
    rcases hnew hi with ⟨rfl, -⟩ | hi
    · exact ⟨l.drawn, Nat.lt_succ_self _, rfl⟩
    · obtain ⟨n, hn, he⟩ := h.drawn hi
      exact ⟨n, Nat.lt_succ_of_lt hn, he⟩
  case asked =>
    intro i found hi
    rcases hnew hi with ⟨rfl, rfl⟩ | hi
    · simp only [Bool.toNat_false]
      omega
    · exact h.asked hi
  case undecided =>
    intro i found hi
    rcases hnew hi with ⟨rfl, -⟩ | hi
    · omega
    · exact h.undecided hi
  case buffered =>
    intro i found hi
    rcases hnew hi with ⟨-, rfl⟩ | hi
    · simp
    · exact h.buffered hi
  case asks_le => exact h.asks_le
  case decides_le => exact h.decides_le
  case counted =>
    intro i hpos
    obtain ⟨n, hn, he⟩ := h.counted hpos
    exact ⟨n, Nat.lt_succ_of_lt hn, he⟩

theorem liveRequest_none (h : liveRequest now l id = (l', none)) (i : String) :
    l'.requests.get i = if i = id then none else l.requests.get i := by
  unfold liveRequest at h
  split at h
  · next hnone =>
    cases h
    split
    · next he => rw [he, hnone]
    · rfl
  · split at h
    · cases h
      exact dropRequest_get l id i
    · cases h

theorem Access.free_of_index (h : Access cfg said outs l) (hnone : l.pendingByDevice.get deviceId = none) {i : String}
    (hi : l.requests.get i = some request) : request.deviceId ≠ deviceId := by
  rintro rfl
  rw [(h.keyed hi).2] at hnone
  cases hnone

theorem Access.free_of_stale (h : Access cfg said outs l) {existing : String}
    (hidx : l.pendingByDevice.get deviceId = some existing)
    (hdead : liveRequest now l existing = (l', none)) {i : String}
    (hi : l'.requests.get i = some request) : request.deviceId ≠ deviceId := by
  rintro rfl
  rw [liveRequest_none hdead] at hi
  split at hi
  · cases hi
  · next hne =>
    rw [(h.keyed hi).2] at hidx
    exact hne (Option.some.inj hidx)

theorem pairRequest_access (hrnd : Function.Injective cfg.rnd) (h : Access cfg said outs l)
    (deviceId deviceLabel accountEmail : String) :
    Access cfg said (outs ++ (pairRequest cfg now l deviceId deviceLabel accountEmail).2)
      (pairRequest cfg now l deviceId deviceLabel accountEmail).1 := by
  refine Access.dull ?_ (pairRequest_plain cfg now l deviceId deviceLabel accountEmail).dull
  unfold pairRequest
  rcases l.registry.byDevice deviceId now with ⟨reg, _ | found, out⟩
  · exact h.same rfl rfl (Nat.le_refl _)
  · have h₁ : Access cfg said outs { l with registry := reg } := h.same rfl rfl (Nat.le_refl _)
    dsimp only
    cases hidx : l.pendingByDevice.get deviceId with
    | none => exact h₁.opened hrnd (fun hi => h₁.free_of_index hidx hi) deviceLabel accountEmail
    | some existing =>
      have hlive := h₁.live now existing
      rcases hl : liveRequest now { l with registry := reg } existing with ⟨l₂, _ | request⟩
      · rw [hl] at hlive
        dsimp only
        rw [hl]
        exact hlive.opened hrnd (fun hi => h₁.free_of_stale hidx hl hi) deviceLabel accountEmail
      · rw [hl] at hlive
        dsimp only
        rw [hl]
        exact hlive

section
variable (h : Access cfg said outs l)
include h

theorem attachRequestSocket_access (requestId : String) :
    Access cfg said (outs ++ (attachRequestSocket now l requestId).2) (attachRequestSocket now l requestId).1 := by
  have h₁ : Access cfg said outs { l with nextSocket := l.nextSocket + 1 } :=
    h.same rfl rfl (Nat.le_refl _)
  have hlive := h₁.live now requestId
  unfold attachRequestSocket
  dsimp only
  split
  · next he =>
    rw [he] at hlive
    exact hlive.dull (((plain_singleton rfl).append (plain_singleton rfl)).dull)
  · next l₂ request he =>
    rw [he] at hlive
    obtain ⟨rfl, hreq, -⟩ := liveRequest_some he
    split
    · exact hlive.dull (plain_singleton rfl).dull
    · have hdull : Dull (request.pending.map fun message =>
          LinkOut.flushed requestId l.nextSocket message) := by
        intro o ho id
        obtain ⟨message, hm, rfl⟩ := mem_map.1 ho
        refine ⟨rfl, ?_⟩
        simp [LinkOut.decides, (h₁.buffered hreq message hm).1]
      have hput : Access cfg said _ { l with
          nextSocket := l.nextSocket + 1
          requests := l.requests.set requestId
            { request with browser := some l.nextSocket, pending := [] } } :=
        h₁.put hreq (h₁.keyed hreq).1 rfl (by rw [(hdull.counts _).1]; exact Nat.zero_add _)
          (fun i _ => (hdull.counts i).1) (fun i => (hdull.counts i).2) (by simp)
      exact hput.same rfl rfl (Nat.le_refl _)

theorem Access.put_drop
    (hid : l.requests.get id = some request) (hdev : request'.deviceId = request.deviceId) : Access cfg said outs
      (Link.dropRequest { l with requests := l.requests.set id request' } id) := by
  have hset : (l.requests.set id request').get id = some request' := by
    rw [get_set, if_pos rfl]
  refine h.remove (fun i => ?_) (fun {i found} (hne : i ≠ id) hi => ?_) ?_
  · rw [dropRequest_get]
    split
    · rfl
    · next hne => exact (get_set ..).trans (if_neg hne)
  · have hidx := h.dropped_index hne hi
    simp only [dropRequest, hid] at hidx
    simp only [dropRequest, hset, hdev]
    exact hidx
  · rw [dropRequest_drawn]

variable {tunnel : Tunnel}

/-- A machine's answer: buffered or handed on, and the end of the request when it
decides. -/
theorem agentReply_access
    {message : RequestServerMessage} (hsaid : said tunnel.deviceId message) :
    Access cfg said (outs ++ (agentReply now l tunnel message).2) (agentReply now l tunnel message).1 := by
  have hlive := h.live now message.requestId
  unfold agentReply
  split
  · next he =>
    rw [he] at hlive
    exact hlive.dull dull_nil
  · next l₂ request he =>
    obtain ⟨rfl, hreq, -⟩ := liveRequest_some he
    split
    · exact h.dull dull_nil
    · next hsame =>
      have hdev : request.deviceId = tunnel.deviceId := not_not.1 hsame
      have hkey := (h.keyed hreq).1
      have hgone : (l₂.dropRequest message.requestId).requests.get message.requestId = none := by
        rw [dropRequest_get, if_pos rfl]
      have hdrawn : ∃ n, n < (l₂.dropRequest message.requestId).drawn ∧
          message.requestId = "req-" ++ cfg.rnd n := by
        rw [dropRequest_drawn]
        exact h.drawn hreq
      have hdull : ∀ via, message.isDecision = false →
          Dull [.reply message.requestId via message] := by
        intro via hm
        exact dull_singleton fun id => ⟨rfl, by simp [LinkOut.decides, hm]⟩
      obtain ⟨rid, deviceId, expiresAt, label, email, forwarded, browser, pending⟩ := request
      dsimp only at hkey hdev
      subst hkey
      unfold toBrowser
      cases browser with
      | some sock =>
        dsimp only
        cases hm : message.isDecision with
        | true => exact (h.drop _).decide hgone (h.undecided hreq) hdrawn _ _
        | false => exact h.dull (hdull _ hm)
      | none =>
        dsimp only
        split
        · cases hm : message.isDecision with
          | true =>
            have hbuf : Access cfg said outs (Link.dropRequest { l₂ with
                requests := l₂.requests.set message.requestId ⟨message.requestId, deviceId,
                  expiresAt, label, email, forwarded, none, pending ++ [message]⟩ }
                message.requestId) := h.put_drop hreq rfl
            refine hbuf.decide ?_ (h.undecided hreq) ?_ _ _
            · rw [dropRequest_get, if_pos rfl]
            · rw [dropRequest_drawn]
              exact h.drawn hreq
          | false =>
            refine h.put hreq rfl rfl ?_ (fun i _ => ((hdull none hm).counts i).1)
              (fun i => ((hdull none hm).counts i).2) fun other ho => ?_
            · rw [((hdull none hm).counts _).1]
              exact Nat.zero_add _
            · rcases mem_append.1 ho with ho | ho
              · exact h.buffered hreq other ho
              · rw [mem_singleton.1 ho, hdev]
                exact ⟨hm, hsaid⟩
        · cases hm : message.isDecision with
          | true => exact (h.drop _).dull dull_nil
          | false => exact h.dull dull_nil

theorem requestForward_access {requestId : String}
    {live : AccessRequest} (hreq : l.requests.get requestId = some live) (r : Nat)
    (tunnel : Tunnel) (msg : RequestClientMessage) :
    Access cfg said (outs ++ (requestForward l requestId live r tunnel msg).2)
      (requestForward l requestId live r tunnel msg).1 := by
  unfold requestForward
  cases msg with
  | commit named commitment =>
    cases hf : live.forwarded with
    | true => exact h.dull dull_nil
    | false =>
      have hbuf := h.buffered hreq
      refine h.put hreq (h.keyed hreq).1 rfl ?_ (fun i hne => ?_) (fun i => rfl) hbuf
      · simp [LinkOut.asks, hf]
      · simp [LinkOut.asks, hne.symm]
  | reveal named key =>
    dsimp only
    split
    · exact h.dull (dull_singleton fun _ => ⟨rfl, rfl⟩)
    · exact h.dull dull_nil

theorem requestMessage_access (k : Nat) (requestId : String) (raw : LinkFrame) :
    Access cfg said (outs ++ (requestMessage now l k requestId raw).2) (requestMessage now l k requestId raw).1 := by
  unfold requestMessage
  split
  · next msg =>
    have hlive := h.live now requestId
    split
    · next he =>
      rw [he] at hlive
      exact hlive.dull ((plain_singleton rfl).append (plain_singleton rfl)).dull
    · next l₁ live he =>
      obtain ⟨rfl, hreq, -⟩ := liveRequest_some he
      have hby := l₁.registry.byDevice_plain live.deviceId now
      rcases hd : l₁.registry.byDevice live.deviceId now with ⟨reg, _ | ⟨r, tunnel⟩, out⟩
      · rw [hd] at hby
        have h₂ : Access cfg said outs { l₁ with registry := reg } := h.same rfl rfl (Nat.le_refl _)
        exact (h₂.drop requestId).dull (hby.append (plain_singleton rfl)).dull
      · have h₂ : Access cfg said outs { l₁ with registry := reg } := h.same rfl rfl (Nat.le_refl _)
        exact requestForward_access h₂ hreq r tunnel msg
  · exact h.dull (plain_singleton rfl).dull

/-- Serving an agent leaves the requests alone, unless it answers one. -/
theorem agentServe_access {k : Nat} {t : String}
    {msg : TunnelClientMessage} (hsaid : ∀ {r : Nat} {tunnel : Tunnel} {message},
      msg = .reply message → l.registry.tunnels.get t = some r →
      l.registry.objs[r]? = some tunnel → said tunnel.deviceId message)
    (hdull : (∀ message, msg ≠ .reply message) → Dull (agentServe cfg now l k t msg).2) :
    Access cfg said (outs ++ (agentServe cfg now l k t msg).2) (agentServe cfg now l k t msg).1 := by
  have hplain := l.registry.get_plain t now
  cases msg with
  | reply message =>
    unfold agentServe
    rcases hg : l.registry.get t now with ⟨reg, _ | ⟨r, tunnel⟩, out⟩
    · rw [hg] at hplain
      have h₁ : Access cfg said outs { l with registry := reg } := h.same rfl rfl (Nat.le_refl _)
      exact h₁.dull (hplain.append (plain_singleton rfl)).dull
    · obtain ⟨rfl, -, hcur, hobj, -⟩ := get_some hg
      exact agentReply_access h (hsaid rfl hcur hobj)
  | streamClose sid reason =>
    refine Access.dull ?_ (hdull (by simp))
    unfold agentServe
    rcases l.registry.get t now with ⟨reg, _ | ⟨r, tunnel⟩, out⟩ <;>
      exact h.same rfl rfl (Nat.le_refl _)
  | streamFrame sid data =>
    refine Access.dull ?_ (hdull (by simp))
    unfold agentServe
    rcases l.registry.get t now with ⟨reg, _ | ⟨r, tunnel⟩, out⟩
    · exact h.same rfl rfl (Nat.le_refl _)
    · dsimp only
      rcases reg.charge cfg.quotas r data.length with ⟨reg', _ | _, out'⟩ <;>
        exact h.same rfl rfl (Nat.le_refl _)
  | register deviceId publicKey answered signature =>
    refine Access.dull ?_ (hdull (by simp))
    unfold agentServe
    rcases l.registry.get t now with ⟨reg, _ | ⟨r, tunnel⟩, out⟩ <;>
      exact h.same rfl rfl (Nat.le_refl _)

end

variable {k r : Nat}

theorem browserMessage_dull (now : Nat) {t sid : String} {raw : LinkFrame}
    (hk : l.sockets.get k = some (.browser t r sid)) : Dull (browserMessage cfg l k r sid raw).2 := by
  have hem : Emits cfg now l (.message k raw) _ := browserMessage_emits hk
  refine dull_of_filter ?_
  generalize (browserMessage cfg l k r sid raw).2.filter LinkOut.isSalient = out at hem
  cases hem with
  | nothing => exact dull_nil
  | reply socket =>
    rw [hk] at socket
    cases socket
  | request socket =>
    rw [hk] at socket
    cases socket
  | _ => exact dull_singleton fun _ => ⟨rfl, rfl⟩

/-- One event keeps the requests in step, when `said` knows of what it says. -/
theorem step_access (hrnd : Function.Injective cfg.rnd) (h : Access cfg said outs l)
    (hsaid : ∀ {k r : Nat} {challenge t : String} {tunnel : Tunnel} {message},
      e = .message k (.tunnel (.reply message)) →
      l.sockets.get k = some (.agent challenge (some t)) → l.registry.tunnels.get t = some r →
      l.registry.objs[r]? = some tunnel → said tunnel.deviceId message) :
    Access cfg said (outs ++ (step cfg now l e).2) (step cfg now l e).1 := by
  cases e with
  | pairRequest deviceId deviceLabel accountEmail =>
    exact pairRequest_access hrnd h deviceId deviceLabel accountEmail
  | attachAgent =>
    refine Access.dull ?_ (plain_singleton rfl).dull
    exact h.same rfl rfl (Nat.le_succ _)
  | attachRequest requestId => exact attachRequestSocket_access h requestId
  | attachTunnel t =>
    refine Access.dull ?_ (attachTunnelSocket_plain cfg now l t).dull
    simp only [step]
    unfold attachTunnelSocket
    rcases l.registry.get t now with ⟨reg, _ | ⟨r, tunnel⟩, out⟩
    · exact h.same rfl rfl (Nat.le_refl _)
    · dsimp only
      rcases reg.openStream cfg.quotas r ("str-" ++ cfg.rnd l.drawn) l.nextSocket now with
        ⟨reg', _ | _, out'⟩
      · exact h.same rfl rfl (Nat.le_refl _)
      · exact h.same rfl rfl (Nat.le_succ _)
  | message k raw =>
    cases hk : l.sockets.get k with
    | none =>
      simp only [step, hk]
      exact h.dull dull_nil
    | some handle =>
      cases handle with
      | agent challenge t =>
        simp only [step, hk]
        unfold agentMessage
        split
        · next msg =>
          refine Access.dull ?_ (agentRegister_plain cfg now l k challenge msg).dull
          rcases agentRegister_cases cfg now l k challenge msg with ⟨why, he⟩ |
            ⟨d, pk, ans, sig, reg₀, tunnel, out, -, -, -, -, -, -, -, -, -, -, -, -, -, -, he⟩
          · rw [he]
            exact h
          · rw [he]
            exact h.same rfl rfl (Nat.le_refl _)
        · next msg t =>
          refine agentServe_access h (fun {r tunnel message} hmsg hcur hobj => ?_) fun hno => ?_
          · subst hmsg
            exact hsaid rfl hk hcur hobj
          · have hdull : Dull (step cfg now l (.message k (.tunnel msg))).2 :=
              step_dull (by simp) (fun i message he => hno message (by cases he; rfl)) (by simp)
            simp only [step, hk, agentMessage] at hdull
            exact hdull
        · exact h.dull (plain_singleton rfl).dull
      | request requestId =>
        simp only [step, hk]
        exact requestMessage_access h k requestId raw
      | browser t r sid =>
        simp only [step, hk]
        refine Access.dull ?_ (browserMessage_dull now hk)
        unfold browserMessage
        split
        · split <;> exact h.same rfl rfl (Nat.le_refl _)
        · next data =>
          split
          · exact h
          · rcases l.registry.charge cfg.quotas r data.length with ⟨reg', _ | _, out'⟩ <;>
              exact h.same rfl rfl (Nat.le_refl _)
        · exact h
        · exact h
  | close k =>
    refine Access.dull ?_ (step_dull (by simp) (by simp) (by simp))
    simp only [step]
    split
    · exact h
    · next t _ =>
      cases t with
      | none | some _ => exact h.same rfl rfl (Nat.le_refl _)
    · next requestId _ =>
      have h₁ : Access cfg said outs { l with sockets := l.sockets.delete k } :=
        h.same rfl rfl (Nat.le_refl _)
      exact h₁.drop requestId
    · next t r sid _ =>
      unfold browserGone
      rcases l.registry.get t now with ⟨reg, _ | ⟨i, tunnel⟩, out⟩ <;>
        exact h.same rfl rfl (Nat.le_refl _)
  | ownerAnswer r owner =>
    refine Access.dull ?_ dull_nil
    simp only [step]
    unfold ownerAnswer
    split <;> exact h.same rfl rfl (Nat.le_refl _)
  | checkAnswer r allowed reason =>
    refine Access.dull ?_ (checkAnswer_plain l r allowed reason).dull
    simp only [step]
    unfold checkAnswer
    split
    · dsimp only
      split
      · exact h.same rfl rfl (Nat.le_refl _)
      · unfold block
        split <;> exact h.same rfl rfl (Nat.le_refl _)
    · exact h
  | meterFailed r =>
    refine Access.dull ?_ dull_nil
    exact h.same rfl rfl (Nat.le_refl _)
  | revoke t =>
    refine Access.dull ?_ (l.registry.drop_plain t .revoked).dull
    exact h.same rfl rfl (Nat.le_refl _)

theorem Access.swept (h : Access cfg said outs l) (now : Nat) :
    Access cfg said outs (sweepTunnels now (sweepRequests now l)).1 := by
  have hreq : Access cfg said outs (sweepRequests now l) := by
    unfold sweepRequests
    generalize l.requests.keys = ids
    induction ids generalizing l with
    | nil => exact h
    | cons id ids ih => exact ih (h.live now id)
  exact hreq.same rfl rfl (Nat.le_refl _)

end Link

def BrokerOut.link? : BrokerOut → Option LinkOut
  | .link o => some o
  | .pairing _ => none

/-- What the tunnel half said in a run. -/
def linkOuts (out : List BrokerOut) : List LinkOut := out.filterMap BrokerOut.link?

theorem linkOuts_append (out out' : List BrokerOut) : linkOuts (out ++ out') = linkOuts out ++ linkOuts out' :=
  filterMap_append

theorem linkOuts_link (out : List LinkOut) : linkOuts (out.map .link) = out := by
  rw [linkOuts, filterMap_map]
  exact filterMap_some

namespace System
variable {cfg : BrokerConfig}

def SaidBy (cfg : BrokerConfig) (es : List BrokerEvent) (d : String)
    (message : RequestServerMessage) : Prop :=
  ∃ (before after : List BrokerEvent) (k r : Nat) (challenge t : String) (tunnel : Tunnel),
    es = before ++ .link (.message k (.tunnel (.reply message))) :: after ∧
    ((machine cfg).run before).link.sockets.get k = some (.agent challenge (some t)) ∧
    ((machine cfg).run before).link.registry.objs[r]? = some tunnel ∧ tunnel.agent = k ∧
    tunnel.deviceId = d

variable {message : RequestServerMessage}

theorem SaidBy.snoc {es : List BrokerEvent} {d : String}
    (h : SaidBy cfg es d message) (e : BrokerEvent) : SaidBy cfg (es ++ [e]) d message := by
  obtain ⟨before, after, k, r, ch, t, tunnel, rfl, h⟩ := h
  exact ⟨before, after ++ [e], k, r, ch, t, tunnel, by simp, h⟩

variable {challenge t : String}

theorem saidBy_last (hmac : Function.Injective cfg.link.mac) (es : List BrokerEvent)
    (hk : ((machine cfg).run es).link.sockets.get k = some (.agent challenge (some t)))
    (hcur : ((machine cfg).run es).link.registry.tunnels.get t = some r)
    (hobj : ((machine cfg).run es).link.registry.objs[r]? = some tunnel) :
    SaidBy cfg (es ++ [.link (.message k (.tunnel (.reply message)))]) tunnel.deviceId message := by
  have hinv := run_link_inv cfg es
  have hwf := run_link_wf hmac es
  obtain ⟨i, own, hown, ha, hid⟩ := hinv.registered hk
  obtain ⟨tunnel', hobj', hid'⟩ := hinv.mapped hcur
  rw [hobj] at hobj'
  cases hobj'
  obtain ⟨n, hn⟩ := hwf.derived hown
  obtain ⟨m, hm⟩ := hwf.derived hobj
  have hdev : own.deviceId = tunnel.deviceId :=
    deriveTunnelId_device hmac (hn.symm.trans (hid.trans (hid'.symm.trans hm)))
  exact ⟨es, [], k, i, challenge, t, own, rfl, hk, hown, ha, hdev⟩

theorem run_access_of (hrnd : Function.Injective cfg.link.rnd)
    {said : List BrokerEvent → String → RequestServerMessage → Prop}
    (hsnoc : ∀ {es d m}, said es d m → ∀ e, said (es ++ [e]) d m)
    (hlast : ∀ (es : List BrokerEvent) {k r : Nat} {challenge t : String} {tunnel : Tunnel}
      {message : RequestServerMessage}, ((machine cfg).run es).link.sockets.get k = some (.agent challenge (some t)) →
      ((machine cfg).run es).link.registry.tunnels.get t = some r →
      ((machine cfg).run es).link.registry.objs[r]? = some tunnel →
      said (es ++ [.link (.message k (.tunnel (.reply message)))]) tunnel.deviceId message) (es : List BrokerEvent) :
    Link.Access cfg.link (said es) (linkOuts ((machine cfg).outputs es)) ((machine cfg).run es).link := by
  refine run_induction (P := fun es => Link.Access cfg.link (said es)
    (linkOuts ((machine cfg).outputs es)) ((machine cfg).run es).link) Link.create_access ?_ es
  intro es e ih
  rw [outputs_snoc, linkOuts_append, run_snoc]
  have h := ih.mono fun d m hs => hsnoc hs e
  cases e with
  | tick ms => exact h.dull dull_nil
  | pairing event =>
    refine h.dull ?_
    have hno : linkOuts ((machine cfg).step ((machine cfg).run es) (.pairing event)).2 = [] := by
      refine filterMap_eq_nil_iff.2 fun o ho => ?_
      obtain ⟨o', -, rfl⟩ := mem_map.1 ho
      rfl
    rw [hno]
    exact dull_nil
  | link event =>
    have hout : linkOuts ((machine cfg).step ((machine cfg).run es) (.link event)).2 =
        (((machine cfg).run es).link.step cfg.link ((machine cfg).run es).now event).2 :=
      linkOuts_link _
    rw [hout]
    refine Link.step_access hrnd h fun {k r challenge t tunnel message} he hk hcur hobj => ?_
    subst he
    exact hlast es hk hcur hobj
  | sweep =>
    have hout : linkOuts ((machine cfg).step ((machine cfg).run es) .sweep).2 =
        (((((machine cfg).run es).link.sweepRequests ((machine cfg).run es).now)).sweepTunnels
          ((machine cfg).run es).now).2 :=
      linkOuts_link _
    rw [hout]
    exact (h.swept _).dull (sweepIds_plain _ _ _).dull

theorem run_access (hrnd : Function.Injective cfg.link.rnd) (hmac : Function.Injective cfg.link.mac)
    (es : List BrokerEvent) : Link.Access cfg.link (SaidBy cfg es) (linkOuts ((machine cfg).outputs es))
      ((machine cfg).run es).link :=
  run_access_of hrnd (fun hs e => hs.snoc e)
    (fun es {_ _ _ _ _ _} hk hcur hobj => saidBy_last hmac es hk hcur hobj) es

structure OneShot (cfg : BrokerConfig) (es : List BrokerEvent) : Prop where
  stored : ∀ {id id' : String} {request request' : AccessRequest},
    ((machine cfg).run es).link.requests.get id = some request →
    ((machine cfg).run es).link.requests.get id' = some request' →
    request.deviceId = request'.deviceId → id = id'
  asked : ∀ id, (linkOuts ((machine cfg).outputs es)).countP (LinkOut.asks id) ≤ 1
  revealed : ∀ {before after : List BrokerEvent} {k r sock : Nat} {id named key : String}
    {raw : LinkFrame}, es = before ++ .link (.message k raw) :: after →
    ((machine cfg).run before).link.sockets.get k = some (.request id) →
    .link (.toAgent r sock (.reveal named key)) ∈
      ((machine cfg).step ((machine cfg).run before) (.link (.message k raw))).2 →
    ∃ o ∈ linkOuts ((machine cfg).outputs before), o.asks id = true
  addressed : ∀ {before after : List BrokerEvent} {e : BrokerEvent} {id : String}
    {message : RequestServerMessage}, es = before ++ e :: after →
    (∃ via, .link (.reply id via message) ∈ ((machine cfg).step ((machine cfg).run before) e).2) ∨
      (∃ sock, .link (.flushed id sock message) ∈
        ((machine cfg).step ((machine cfg).run before) e).2) →
    ∃ request, ((machine cfg).run before).link.requests.get id = some request ∧
      SaidBy cfg (before ++ [e]) request.deviceId message
  decided : ∀ id, (linkOuts ((machine cfg).outputs es)).countP (LinkOut.decides id) ≤ 1

theorem emits_of_mem {b : System} {e : BrokerEvent} {o : LinkOut}
    (ho : .link o ∈ (step cfg b e).2) (hs : o.isSalient = true) :
    ∃ event out, e = .link event ∧ o ∈ out ∧ Link.Emits cfg.link b.now b.link event out := by
  rcases mem_step_link ho with ⟨event, rfl, hmem⟩ | ⟨-, hmem⟩
  · obtain ⟨out, hin, hem⟩ := Link.emits_of_mem hmem hs
    exact ⟨event, out, rfl, hin, hem⟩
  · rw [sweepIds_plain _ _ _ o hmem] at hs
    cases hs

variable {before : List BrokerEvent}

theorem revealed_after (hrnd : Function.Injective cfg.link.rnd)
    (hmac : Function.Injective cfg.link.mac) {k r sock : Nat} {id named key : String} {raw : LinkFrame}
    (hk : ((machine cfg).run before).link.sockets.get k = some (.request id))
    (ho : .link (.toAgent r sock (.reveal named key)) ∈
      (step cfg ((machine cfg).run before) (.link (.message k raw))).2) :
    ∃ o ∈ linkOuts ((machine cfg).outputs before), o.asks id = true := by
  have hacc := run_access hrnd hmac before
  obtain ⟨event, out, he, hmem, hem⟩ := emits_of_mem ho rfl
  cases he
  cases hem with
  | nothing => cases hmem
  | reveal socket stored unexpired after obj online =>
    rw [hk] at socket
    cases socket
    have hcount := hacc.asked stored
    rw [after] at hcount
    obtain ⟨o, hin, hasks⟩ := countP_pos_iff.1 (Nat.lt_of_lt_of_eq Nat.zero_lt_one hcount.symm)
    exact ⟨o, hin, hasks⟩
  | _ => cases mem_singleton.1 hmem

theorem addressed_to_machine (hrnd : Function.Injective cfg.link.rnd)
    (hmac : Function.Injective cfg.link.mac) {e : BrokerEvent} {id : String}
    (ho : (∃ via, .link (.reply id via message) ∈ (step cfg ((machine cfg).run before) e).2) ∨
      ∃ sock, .link (.flushed id sock message) ∈ (step cfg ((machine cfg).run before) e).2) :
    ∃ request, ((machine cfg).run before).link.requests.get id = some request ∧
      SaidBy cfg (before ++ [e]) request.deviceId message := by
  have hacc := run_access hrnd hmac before
  rcases ho with ⟨via, ho⟩ | ⟨sock, ho⟩
  · obtain ⟨event, out, rfl, hmem, hem⟩ := emits_of_mem ho rfl
    cases hem with
    | nothing => cases hmem
    | @reply k r challenge t tunnel message request socket current obj stored live device =>
      cases mem_singleton.1 hmem
      rw [(hacc.keyed stored).1]
      refine ⟨request, stored, ?_⟩
      rw [device]
      exact saidBy_last hmac before socket current obj
    | flushed =>
      obtain ⟨m, -, hm⟩ := mem_map.1 hmem
      cases hm
    | request | reveal | _ => cases mem_singleton.1 hmem
  · obtain ⟨event, out, rfl, hmem, hem⟩ := emits_of_mem ho rfl
    cases hem with
    | nothing => cases hmem
    | @flushed requestId request stored live free =>
      obtain ⟨m, hin, hm⟩ := mem_map.1 hmem
      cases hm
      exact ⟨request, stored, (hacc.buffered stored message hin).2.snoc _⟩
    | request | reveal | _ => cases mem_singleton.1 hmem

theorem requested_access_one_shot (cfg : BrokerConfig) (hrnd : Function.Injective cfg.link.rnd)
    (hmac : Function.Injective cfg.link.mac) (es : List BrokerEvent) : OneShot cfg es := by
  have hacc := run_access hrnd hmac es
  exact {
    stored := fun hid hid' hd => hacc.unique hid hid' hd
    asked := hacc.asks_le
    revealed := fun _ hk ho => revealed_after hrnd hmac hk ho
    addressed := fun _ ho => addressed_to_machine hrnd hmac ho
    decided := hacc.decides_le }

/-- Request `req-ii` for device `d`, committed on socket 1. -/
def committed : List BrokerEvent :=
  [.link .attachAgent,
    .link (.message 0 (.tunnel (.register "d" "d" "i" "di"))),
    .link (.pairRequest "d" "phone" "a@b"),
    .link (.attachRequest "req-ii"),
    .link (.message 1 (.request (.commit "req-ii" "c")))]

/-- The device approves it. -/
def requested : List BrokerEvent :=
  committed ++ [.link (.message 0 (.tunnel (.reply (.requestAck "req-ii" "k")))),
    .link (.message 1 (.request (.reveal "req-ii" "b"))),
    .link (.message 0 (.tunnel (.reply (.approved "req-ii" "s"))))]

theorem requested_access_one_shot_requested : OneShot sample requested ∧
      (linkOuts ((machine sample).outputs requested)).countP (LinkOut.asks "req-ii") = 1 ∧
      (linkOuts ((machine sample).outputs requested)).countP (LinkOut.decides "req-ii") = 1 :=
  ⟨requested_access_one_shot sample numbered_injective (fun _ _ h => h) requested,
    by decide +kernel, by decide +kernel⟩

end System
end Mtmux.Broker
