import Mtmux.Agent.Ordering
import Mtmux.Protocol.PairingMessages

/-! What the agent has the broker tell the browser of one stream: the frames of that stream in the order
they were sent, and its close behind them. -/
namespace Mtmux.Agent
open Crypto Protocol Machine List

def toBrowser (sid : String) : TableOut → Option TunnelServerMessage
  | .stream _ (.frame streamId data) => if streamId = sid then some (.streamFrame streamId data) else none
  | .streamClose streamId reason => if streamId = sid then some (.streamClose streamId (some reason)) else none
  | _ => none

/-- The broker opens a stream at both ends. -/
def posts (sid : String) (e : TableEvent) (out : List TableOut) : List TunnelServerMessage :=
  match e with
  | .streamOpen streamId => if streamId = sid then [.streamOpen streamId] else []
  | _ => out.filterMap (toBrowser sid)

def framesOf (out : List StreamOut) : List String :=
  out.filterMap fun | .frame _ data => some data | _ => none

namespace StreamTable

def FreshId (t : StreamTable) : TableEvent → Prop
  | .streamOpen streamId => ∀ s ∈ t.objects, s.streamId ≠ streamId
  | _ => True

instance (t : StreamTable) (e : TableEvent) : Decidable (t.FreshId e) :=
  match e with
  | .streamOpen _ => inferInstanceAs (Decidable (∀ s ∈ t.objects, _))
  | .streamFrame .. | .streamClose _ | .stream .. | .addSessionKeys .. | .removeSessionKeys _ | .teardownStreams =>
    isTrue trivial

def Distinct (t : StreamTable) : Prop :=
  ∀ (j k : Nat) (s s' : Stream), t.objects[j]? = some s → t.objects[k]? = some s' → s.streamId = s'.streamId → j = k

variable (cfg : StreamConfig)

def NewIds (es : List TableEvent) : Prop := ∀ x ∈ (machine cfg).trace es, x.pre.FreshId x.event

/-- Everything the broker has had for the browser of stream `sid`. -/
def posted (sid : String) (es : List TableEvent) : List TunnelServerMessage :=
  ((machine cfg).trace es).flatMap fun x => posts sid x.event x.out

end StreamTable

namespace Stream
variable {cfg : StreamConfig} {keyring : List KeyringEntry}

variable {data : String}

theorem frame_sendFrame {s : Stream} {frame : Bytes} {id : String}
    (h : .frame id data ∈ s.sendFrame frame) : id = s.streamId := by
  unfold sendFrame at h
  split at h
  · cases h
  · cases mem_singleton.1 h
    rfl

theorem frame_turn {s : Stream} {salt : Bytes} {event : StreamEvent} {id : String}
    (h : .frame id data ∈ (s.turn cfg keyring salt event).out) : id = s.streamId := by
  have hturns := @turn_turns cfg keyring s salt event
  generalize s.turn cfg keyring salt event = turn at h hturns
  cases hturns with
  | sends => exact frame_sendFrame h
  | passes | admits | writes =>
    dsimp only at h
    split at h <;> simp at h
  | _ => simp at h

end Stream

namespace StreamTable
variable {cfg : StreamConfig} {t : StreamTable} {sid : String} {k : Nat}

variable {e : TableEvent} {id : String}

theorem frame_of_step (ht : t.Mapped) {j : Nat} {data : String} (h : .stream j (.frame id data) ∈ (t.step cfg e).2) :
    ∃ s, t.objects[j]? = some s ∧ s.streamId = id := by
  have hout := mem_outOf.2 h
  have heff := @step_effect cfg t ht e j
  generalize (t.step cfg e).1.objects[j]? = obj at heff
  generalize outOf j (t.step cfg e).2 = out at heff hout
  cases heff with
  | ran was stays => exact ⟨_, was, (Stream.frame_turn hout).symm⟩
  | ended was registered drops => exact ⟨_, was, (Stream.frame_turn hout).symm⟩
  | _ => cases hout

variable {reason : String}

theorem close_dropStream {id' reason' : String} {tell : Bool}
    (h : .streamClose id reason ∈ (t.dropStream id' reason' tell).2) :
    id = id' ∧ tell = true ∧ ∃ k, t.streams.get id' = some k := by
  unfold dropStream at h
  split at h
  · cases h
  · rename_i k hget
    split at h
    · cases h
    · split at h
      · cases h
      · cases tell with
        | false => simp at h
        | true =>
          have hboth : id = id' ∧ reason = reason' := by simpa using h
          exact ⟨hboth.1, rfl, k, hget⟩

theorem close_dropStreams (ht : t.Mapped) {reason' : String} {tell : Bool} {ids : List String}
    (h : .streamClose id reason ∈ (t.dropStreams reason' tell ids).2) :
    tell = true ∧ id ∈ ids ∧ ∃ k, t.streams.get id = some k := by
  induction ids generalizing t with
  | nil => cases h
  | cons id' ids ih =>
    rw [dropStreams] at h
    cases mem_append.1 h with
    | inl hfirst =>
      obtain ⟨rfl, htell, k, hget⟩ := close_dropStream hfirst
      exact ⟨htell, mem_cons_self, k, hget⟩
    | inr hrest =>
      obtain ⟨htell, hmem, k, hget⟩ := ih (dropStream_mapped ht id' reason' tell) hrest
      rw [dropStream_streams ht, OrderedMap.get_delete] at hget
      split at hget
      · cases hget
      · exact ⟨htell, mem_cons_of_mem _ hmem, k, hget⟩

theorem close_of_step (ht : t.Mapped) (h : .streamClose id reason ∈ (t.step cfg e).2) :
    ∃ k s, t.streams.get id = some k ∧ (t.step cfg e).1.objects[k]? = some s ∧ s.closed = true := by
  cases e with
  | streamClose streamId =>
    obtain ⟨-, htell, -⟩ := close_dropStream h
    cases htell
  | stream j event =>
    simp only [step] at h ⊢
    split at h
    · cases h
    · rename_i s hs
      have hkeep := @Stream.keeps_turn cfg t.keyring s (cfg.salt j) event
      have hset := set_mapped ht hs hkeep.streamId hkeep.closed
      unfold drive at h ⊢
      split at h
      · simp at h
      · rename_i reason' hdrop
        have hclose : .streamClose id reason ∈ (StreamTable.dropStream
            { t with objects := t.objects.set j (s.turn cfg t.keyring (cfg.salt j) event).stream }
            (s.turn cfg t.keyring (cfg.salt j) event).stream.streamId reason' true).2 := by
          cases mem_append.1 h with
          | inl hout => simp at hout
          | inr hclose => exact hclose
        obtain ⟨hid, -, k, hget⟩ := close_dropStream hclose
        obtain ⟨s', hs', -, -⟩ := hset _ k hget
        refine ⟨k, { s' with closed := true }, ?_, ?_, rfl⟩
        · rw [hid]
          exact hget
        · simp only [dropStream_object hset, if_pos hget, hs', Option.map_some]
  | removeSessionKeys deviceId =>
    have hring : Mapped { t with
        keyring := t.keyring.filter fun entry => entry.deviceId ≠ some deviceId } := ht
    obtain ⟨-, hmem, k, hget⟩ := close_dropStreams hring h
    obtain ⟨s, hs, -, -⟩ := ht id k hget
    refine ⟨k, { s with closed := true }, hget, ?_, rfl⟩
    have hobject := dropStreams_object hring "revoked" true
      (streamsOf { t with keyring := t.keyring.filter fun entry => entry.deviceId ≠ some deviceId }
        deviceId) k
    rw [if_pos ⟨id, hmem, hget⟩] at hobject
    simp only [step, removeSessionKeys, hobject, hs, Option.map_some]
  | teardownStreams =>
    obtain ⟨htell, -, -⟩ := close_dropStreams ht h
    cases htell
  | _ => cases h

/-- Where an object of the table comes from. -/
theorem object_step (ht : t.Mapped) {s' : Stream} (hs' : (t.step cfg e).1.objects[k]? = some s') :
    (∃ s, t.objects[k]? = some s ∧ s'.streamId = s.streamId ∧ (s.closed = true → s'.closed = true)) ∨
      (e = .streamOpen s'.streamId ∧ k = t.objects.length) := by
  have heff := @step_effect cfg t ht e k
  rw [hs'] at heff
  generalize outOf k (t.step cfg e).2 = out at heff
  generalize hobj : some s' = obj at heff
  cases heff with
  | kept hidle => exact Or.inl ⟨s', hobj.symm, rfl, id⟩
  | closed hidle was =>
    cases hobj
    exact Or.inl ⟨_, was, rfl, fun _ => rfl⟩
  | created hk =>
    cases hobj
    exact Or.inr ⟨rfl, hk⟩
  | arrived routed was isOpen =>
    cases hobj
    exact Or.inl ⟨_, was, rfl, id⟩
  | @ran event s was stays =>
    cases hobj
    have hkeep := @Stream.keeps_turn cfg t.keyring s (cfg.salt k) event
    exact Or.inl ⟨_, was, hkeep.streamId, fun hclosed => hkeep.closed.trans hclosed⟩
  | @ended event s reason was registered drops =>
    cases hobj
    have hkeep := @Stream.keeps_turn cfg t.keyring s (cfg.salt k) event
    exact Or.inl ⟨_, was, hkeep.streamId, fun _ => rfl⟩

/-- The broker hears nothing of a stream that no open object of the table has. -/
theorem posts_silent (ht : t.Mapped) (hnew : ∀ id, e = .streamOpen id → id ≠ sid)
    (hframe : ∀ j data, .stream j (.frame sid data) ∉ (t.step cfg e).2)
    (hclosed : ∀ (k : Nat) (s : Stream), t.objects[k]? = some s → s.streamId = sid → s.closed = true) :
    posts sid e (t.step cfg e).2 = [] := by
  have hquiet : (t.step cfg e).2.filterMap (toBrowser sid) = [] := by
    rw [filterMap_eq_nil_iff]
    intro o ho
    cases o with
    | localClose j => rfl
    | streamClose id reason =>
      by_cases hid : id = sid
      · subst hid
        obtain ⟨k, -, hget, -⟩ := close_of_step ht ho
        obtain ⟨s, hs, hname, hopen⟩ := ht id k hget
        rw [hclosed k s hs hname] at hopen
        cases hopen
      · simp [toBrowser, hid]
    | stream j o =>
      cases o with
      | frame id data =>
        by_cases hid : id = sid
        · subst hid
          exact absurd ho (hframe j data)
        · simp [toBrowser, hid]
      | _ => rfl
  cases e with
  | streamOpen id => simp [posts, hnew id rfl]
  | _ => exact hquiet

variable {s : Stream}

/-- While the stream of an id stays open, the broker hears its frames and nothing else. -/
theorem posts_open (ht : t.Mapped) (hd : t.Distinct) (hnew : t.FreshId e) {s' : Stream}
    (hs : t.objects[k]? = some s) (hid : s.streamId = sid) (hw : t.streams.get sid = some k)
    (hs' : (t.step cfg e).1.objects[k]? = some s') (hopen : s'.closed = false) : posts sid e (t.step cfg e).2 =
      (framesOf (outOf k (t.step cfg e).2)).map (TunnelServerMessage.streamFrame sid) := by
  have hsame : (t.step cfg e).2.filterMap (toBrowser sid) =
      (framesOf (outOf k (t.step cfg e).2)).map (TunnelServerMessage.streamFrame sid) := by
    have hall : ∀ out : List TableOut, (∀ o ∈ out, o ∈ (t.step cfg e).2) →
        out.filterMap (toBrowser sid) =
          (framesOf (outOf k out)).map (TunnelServerMessage.streamFrame sid) := by
      intro out
      induction out with
      | nil => intro _; rfl
      | cons o out ih =>
        intro hmem
        have hrest := ih fun o' ho' => hmem o' (mem_cons_of_mem _ ho')
        have ho := hmem o mem_cons_self
        cases o with
        | localClose j => exact hrest
        | streamClose id reason =>
          have hne : id ≠ sid := by
            rintro rfl
            obtain ⟨k', s'', hget, hs'', hclosed⟩ := close_of_step ht ho
            rw [hw] at hget
            cases hget
            rw [hs'] at hs''
            cases hs''
            rw [hopen] at hclosed
            cases hclosed
          simpa [toBrowser, hne, outOf, framesOf] using hrest
        | stream j o =>
          by_cases hjk : j = k
          · subst hjk
            cases o with
            | frame id data =>
              obtain ⟨s'', hs'', hname⟩ := frame_of_step ht ho
              rw [hs] at hs''
              cases hs''
              have hsid : id = sid := hname.symm.trans hid
              simpa [toBrowser, hsid, outOf, framesOf] using hrest
            | _ =>
              rw [filterMap_cons_none rfl]
              simpa [outOf, framesOf] using hrest
          · cases o with
            | frame id data =>
              have hne : id ≠ sid := by
                rintro rfl
                obtain ⟨s'', hs'', hname⟩ := frame_of_step ht ho
                exact hjk (hd j k s'' s hs'' hs (hname.trans hid.symm))
              simpa [toBrowser, hne, hjk, outOf, framesOf] using hrest
            | _ =>
              rw [filterMap_cons_none rfl]
              simpa [hjk, outOf, framesOf] using hrest
    exact hall _ fun _ ho => ho
  cases e with
  | streamOpen id =>
    have hne : id ≠ sid := by
      rintro rfl
      exact hnew s (mem_of_getElem? hs) hid
    simp [posts, hne, step, outOf, framesOf]
  | _ => exact hsame

theorem distinct_step (ht : t.Mapped) (hd : t.Distinct) (hnew : t.FreshId e) : (t.step cfg e).1.Distinct := by
  intro j k s s' hs hs' hsame
  cases object_step ht hs with
  | inl hold =>
    obtain ⟨r, hr, hname, -⟩ := hold
    cases object_step ht hs' with
    | inl hold' =>
      obtain ⟨r', hr', hname', -⟩ := hold'
      exact hd j k r r' hr hr' (by rw [← hname, ← hname', hsame])
    | inr hmade =>
      obtain ⟨rfl, -⟩ := hmade
      exact absurd (hname.symm.trans hsame) (hnew r (mem_of_getElem? hr))
  | inr hmade =>
    obtain ⟨rfl, hj⟩ := hmade
    cases object_step ht hs' with
    | inl hold' =>
      obtain ⟨r', hr', hname', -⟩ := hold'
      exact absurd (hname'.symm.trans hsame.symm) (hnew r' (mem_of_getElem? hr'))
    | inr hmade' => exact hj.trans hmade'.2.symm

variable {es : List TableEvent}

theorem NewIds.init (h : NewIds cfg (es ++ [e])) : NewIds cfg es ∧ ((machine cfg).run es).FreshId e := by
  unfold NewIds at h
  exact forall_trace_snoc h

theorem NewIds.opensOnce (h : NewIds cfg es) : OpensOnce cfg es := by
  intro x hx
  rintro ⟨id, he, hget⟩
  obtain ⟨before, e, after, -, rfl⟩ := ((machine cfg).mem_trace es x).1 hx
  have hfresh := h _ hx
  obtain ⟨k, hk⟩ := Option.ne_none_iff_exists'.1 hget
  obtain ⟨s, hs, hname, -⟩ := run_mapped cfg before id k hk
  change (((machine cfg).run before).FreshId e) at hfresh
  have he' : e = .streamOpen id := he
  rw [he'] at hfresh
  exact hfresh s (mem_of_getElem? hs) hname

theorem run_distinct (h : NewIds cfg es) : ((machine cfg).run es).Distinct := by
  induction es using List.reverseRecOn with
  | nil =>
    intro j k s s' hs
    cases hs
  | append_singleton es e ih =>
    obtain ⟨hes, hnew⟩ := h.init
    rw [run_snoc]
    exact distinct_step (run_mapped cfg es) (ih hes) hnew

theorem posted_snoc (es : List TableEvent) (e : TableEvent) : posted cfg sid (es ++ [e]) =
      posted cfg sid es ++ posts sid e (((machine cfg).run es).step cfg e).2 := by
  unfold posted
  rw [trace_snoc, flatMap_append, flatMap_singleton]
  rfl

theorem sent_snoc (es : List TableEvent) (e : TableEvent) (k : Nat) : (history cfg (es ++ [e]) k).sent =
      (history cfg es k).sent ++ framesOf (outOf k (((machine cfg).run es).step cfg e).2) := by
  rw [history_snoc]
  rfl

/-- Before a stream is opened there is nothing to tell its browser. -/
theorem posted_none (h : ∀ s ∈ ((machine cfg).run es).objects, s.streamId ≠ sid) : posted cfg sid es = [] := by
  induction es using List.reverseRecOn with
  | nil => rfl
  | append_singleton es e ih =>
    have ht := run_mapped cfg es
    have hrun : (machine cfg).run (es ++ [e]) = (((machine cfg).run es).step cfg e).1 :=
      run_snoc _ _ _
    rw [hrun] at h
    have hbefore : ∀ s ∈ ((machine cfg).run es).objects, s.streamId ≠ sid := by
      intro s hs
      obtain ⟨k, hlt, hk⟩ := mem_iff_getElem.1 hs
      have hget := List.getElem?_eq_some_iff.2 ⟨hlt, hk⟩
      have heff := @step_effect cfg _ ht e k
      obtain ⟨s', hs', hname⟩ : ∃ s', (((machine cfg).run es).step cfg e).1.objects[k]? = some s' ∧
          s'.streamId = s.streamId := by
        generalize (((machine cfg).run es).step cfg e).1.objects[k]? = obj at heff ⊢
        generalize outOf k (((machine cfg).run es).step cfg e).2 = out at heff
        cases heff with
        | kept hidle => exact ⟨s, hget, rfl⟩
        | closed hidle was =>
          rw [hget] at was
          cases was
          exact ⟨_, rfl, rfl⟩
        | created hk => omega
        | arrived routed was isOpen =>
          rw [hget] at was
          cases was
          exact ⟨_, rfl, rfl⟩
        | ran was stays =>
          rw [hget] at was
          cases was
          exact ⟨_, rfl, (Stream.keeps_turn _ _ _).streamId⟩
        | ended was registered drops =>
          rw [hget] at was
          cases was
          exact ⟨_, rfl, (Stream.keeps_turn _ _ _).streamId⟩
      rw [← hname]
      exact h s' (mem_of_getElem? hs')
    rw [posted_snoc, ih hbefore, nil_append]
    refine posts_silent ht ?_ ?_ ?_
    · rintro id rfl rfl
      have hmade := getElem_open ((machine cfg).run es) id ((machine cfg).run es).objects.length
      rw [if_pos rfl] at hmade
      exact h _ (mem_of_getElem? hmade) rfl
    · intro j data hframe
      obtain ⟨s, hs, hname⟩ := frame_of_step ht hframe
      exact hbefore s (mem_of_getElem? hs) hname
    · intro k s hs hname
      exact absurd hname (hbefore s (mem_of_getElem? hs))

theorem posted_open (hes : NewIds cfg es)
    (hs : ((machine cfg).run es).objects[k]? = some s) (hopen : s.closed = false) : posted cfg s.streamId es =
      .streamOpen s.streamId :: (history cfg es k).sent.map (TunnelServerMessage.streamFrame s.streamId) := by
  induction es using List.reverseRecOn generalizing s with
  | nil => cases hs
  | append_singleton es e ih =>
    obtain ⟨hinit, hnew⟩ := hes.init
    have ht := run_mapped cfg es
    have hrun : (machine cfg).run (es ++ [e]) = (((machine cfg).run es).step cfg e).1 :=
      run_snoc _ _ _
    rw [hrun] at hs
    cases object_step ht hs with
    | inl hold =>
      obtain ⟨r, hr, hname, hstays⟩ := hold
      have hropen : r.closed = false := by
        cases hclosed : r.closed with
        | false => rfl
        | true =>
          rw [hstays hclosed] at hopen
          cases hopen
      have hget := run_wired hinit.opensOnce k r hr hropen
      rw [hname, posted_snoc, sent_snoc, ih hinit hr hropen,
        posts_open ht (run_distinct hinit) hnew hr rfl hget hs hopen, cons_append, map_append]
    | inr hmade =>
      obtain ⟨he, hk⟩ := hmade
      have hnone : posted cfg s.streamId es = [] := by
        apply posted_none
        rw [he] at hnew
        exact hnew
      have hempty := (run_flow hinit.opensOnce k).1 (List.getElem?_eq_none (by omega))
      rw [posted_snoc, sent_snoc, hnone, hempty, he]
      simp [posts, History.empty, step, outOf, framesOf]

/-- Its close comes last. -/
theorem posted_local (hes : NewIds cfg es)
    (hs : ((machine cfg).run es).objects[k]? = some s) (hopen : s.closed = false) :
    posted cfg s.streamId (es ++ [.stream k .localClose]) =
        posted cfg s.streamId es ++ [.streamClose s.streamId (some "local closed")] ∧
      ((machine cfg).run (es ++ [.stream k .localClose])).objects[k]? = some { s with closed := true } := by
  have ht := run_mapped cfg es
  have hget := run_wired hes.opensOnce k s hs hopen
  have hsame : { (machine cfg).run es with objects := ((machine cfg).run es).objects.set k s } =
      (machine cfg).run es := by
    obtain ⟨hlt, rfl⟩ := List.getElem?_eq_some_iff.1 hs
    rw [set_getElem_self]
  have hstep : ((machine cfg).run es).step cfg (.stream k .localClose) =
      ((machine cfg).run es).dropStream s.streamId "local closed" true := by
    simp only [step, hs, drive, Stream.turn, hopen, Bool.false_eq_true, if_false, map_nil,
      nil_append, hsame]
  rw [posted_snoc, run_snoc]
  change posted cfg s.streamId es ++ posts _ _ (((machine cfg).run es).step cfg _).2 = _ ∧
    (((machine cfg).run es).step cfg _).1.objects[k]? = _
  rw [hstep, dropStream_some hget hs hopen]
  refine ⟨?_, ?_⟩
  · simp only [posts, if_true]
    rw [filterMap_cons_none rfl]
    simp [toBrowser]
  · simp [getElem_set hs]

/-- Nothing is told after it. -/
theorem posted_gone (hes : NewIds cfg (es ++ [e]))
    (hs : ((machine cfg).run es).objects[k]? = some s) (hclosed : s.closed = true) :
    posted cfg s.streamId (es ++ [e]) = posted cfg s.streamId es ∧
      ∃ s', ((machine cfg).run (es ++ [e])).objects[k]? = some s' ∧ s'.closed = true ∧ s'.streamId = s.streamId := by
  obtain ⟨hinit, hnew⟩ := hes.init
  have ht := run_mapped cfg es
  obtain ⟨⟨s', hs', hclosed'⟩, hout⟩ := closed_snoc e hs hclosed
  have hout' : outOf k (((machine cfg).run es).step cfg e).2 = [] := hout
  have hd := run_distinct hinit
  refine ⟨?_, s', hs', hclosed', ?_⟩
  · rw [posted_snoc, posts_silent ht, append_nil]
    · rintro id rfl rfl
      exact hnew s (mem_of_getElem? hs) rfl
    · intro j data hframe
      obtain ⟨r, hr, hname⟩ := frame_of_step ht hframe
      have hjk := hd j k r s hr hs hname
      subst hjk
      have hmem := mem_outOf.2 hframe
      rw [hout'] at hmem
      cases hmem
    · intro j r hr hname
      have hjk := hd j k r s hr hs hname
      subst hjk
      rw [hs] at hr
      cases hr
      exact hclosed
  · have hrun : (machine cfg).run (es ++ [e]) = (((machine cfg).run es).step cfg e).1 :=
      run_snoc _ _ _
    rw [hrun] at hs'
    cases object_step ht hs' with
    | inl hold =>
      obtain ⟨r, hr, hname, -⟩ := hold
      rw [hs] at hr
      cases hr
      exact hname
    | inr hmade =>
      have hlt := (List.getElem?_eq_some_iff.1 hs).1
      omega

end StreamTable
end Mtmux.Agent
