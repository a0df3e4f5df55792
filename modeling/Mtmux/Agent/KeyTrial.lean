import Mtmux.Base.LiveScan
import Mtmux.Agent.Admission

/-! Trial decryption of a stream's first frame while the keyring changes. The loop of
`openFromBroker` goes over the live array by index; pairings are added and devices removed
during its awaits. -/
namespace Mtmux.Agent
open Crypto LiveScan List

/-- A keyring entry with the number of entries added before it, which tells equal ones
apart. -/
abbrev RingEntry := Nat × KeyringEntry

structure Ring where
  entries : List RingEntry
  added : Nat
  sorted : entries.Pairwise fun x y => x.1 < y.1
  below : ∀ x ∈ entries, x.1 < added
  capped : entries.length ≤ maxKeyring

/-- What others call on the keyring during an `await` of the loop. -/
inductive RingCall where
  | addSessionKeys (keys : SessionKeys) (peer : Option PeerIdentity)
  | removeSessionKeys (deviceId : String)

def RingCall.event : RingCall → TableEvent
  | .addSessionKeys keys peer => .addSessionKeys keys peer
  | .removeSessionKeys deviceId => .removeSessionKeys deviceId

namespace Ring

def keyring (r : Ring) : List KeyringEntry := r.entries.map Prod.snd

def pushed (r : Ring) (entry : KeyringEntry) : List RingEntry := r.entries ++ [(r.added, entry)]

theorem sorted_pushed (r : Ring) (entry : KeyringEntry) : (r.pushed entry).Pairwise fun x y => x.1 < y.1 := by
  refine pairwise_append.2 ⟨r.sorted, pairwise_singleton _ _, ?_⟩
  intro x hx y hy
  rw [mem_singleton.1 hy]
  exact r.below x hx

theorem below_pushed (r : Ring) (entry : KeyringEntry) : ∀ x ∈ r.pushed entry, x.1 < r.added + 1 := by
  intro x hx
  rcases mem_append.1 hx with hold | hnew
  · have := r.below x hold
    omega
  · rw [mem_singleton.1 hnew]
    exact Nat.lt_succ_self _

theorem length_pushed (r : Ring) (entry : KeyringEntry) : (r.pushed entry).length = r.entries.length + 1 := by
  rw [pushed, length_append, length_singleton]

/-- The new entry goes to the end, and the oldest goes when there are too many. -/
def addSessionKeys (r : Ring) (keys : SessionKeys) (peer : Option PeerIdentity) : Ring :=
  if h : maxKeyring < (r.pushed ⟨keys, peer⟩).length then
    { entries := (r.pushed ⟨keys, peer⟩).tail
      added := r.added + 1
      sorted := (r.sorted_pushed _).sublist (tail_sublist _)
      below := fun x hx => r.below_pushed _ x (mem_of_mem_tail hx)
      capped := (by
        have := r.capped
        rw [length_tail, length_pushed]
        omega) }
  else
    { entries := r.pushed ⟨keys, peer⟩
      added := r.added + 1
      sorted := r.sorted_pushed _
      below := r.below_pushed _
      capped := Nat.le_of_not_lt h }

def removeSessionKeys (r : Ring) (deviceId : String) : Ring where
  entries := r.entries.filter fun x => x.2.deviceId ≠ some deviceId
  added := r.added
  sorted := r.sorted.sublist filter_sublist
  below x hx := r.below x (mem_of_mem_filter hx)
  capped := (length_filter_le _ _).trans r.capped

def call (r : Ring) : RingCall → Ring
  | .addSessionKeys keys peer => r.addSessionKeys keys peer
  | .removeSessionKeys deviceId => r.removeSessionKeys deviceId

def calls (r : Ring) (cs : List RingCall) : Ring := cs.foldl call r

/-- The keyring at the loop's `j`-th look. -/
def look (r : Ring) (awaits : List (List RingCall)) (j : Nat) : List RingEntry :=
  (r.calls (awaits.take j).flatten).entries

theorem look_succ (r : Ring) (cs : List RingCall) (awaits : List (List RingCall)) (j : Nat) :
    r.look (cs :: awaits) (j + 1) = (r.calls cs).look awaits j := by
  simp [look, calls]

theorem nodup (r : Ring) : r.entries.Nodup :=
  r.sorted.imp fun hlt heq => absurd hlt (by rw [heq]; exact Nat.lt_irrefl _)

structure Later (r r' : Ring) : Prop where
  added : r.added ≤ r'.added
  entries : ∃ kept fresh, List.Sublist kept r.entries ∧ r'.entries = kept ++ fresh ∧
    ∀ x ∈ fresh, r.added ≤ x.1

theorem Later.refl (r : Ring) : Later r r :=
  ⟨Nat.le_refl _, r.entries, [], List.Sublist.refl _, (append_nil _).symm, by simp⟩

theorem Later.trans {a b c : Ring} (hab : Later a b) (hbc : Later b c) : Later a c := by
  obtain ⟨kept, fresh, hsub, heq, hfresh⟩ := hab.entries
  obtain ⟨kept₂, fresh₂, hsub₂, heq₂, hfresh₂⟩ := hbc.entries
  rw [heq] at hsub₂
  obtain ⟨u, v, rfl, hu, hv⟩ := sublist_append_iff.1 hsub₂
  refine ⟨hab.added.trans hbc.added, u, v ++ fresh₂, hu.trans hsub, ?_, ?_⟩
  · rw [heq₂, append_assoc]
  · intro x hx
    rcases mem_append.1 hx with hold | hnew
    · exact hfresh x (hv.subset hold)
    · exact hab.added.trans (hfresh₂ x hnew)

theorem later_call (r : Ring) (c : RingCall) : Later r (r.call c) := by
  cases c with
  | removeSessionKeys deviceId =>
    exact ⟨Nat.le_refl _, _, [], filter_sublist, (append_nil _).symm, by simp⟩
  | addSessionKeys keys peer =>
    rw [call, addSessionKeys]
    split
    · refine ⟨Nat.le_succ _, ?_⟩
      refine ⟨r.entries.drop 1, ((r.pushed ⟨keys, peer⟩).tail).drop (r.entries.length - 1),
        drop_sublist _ _, ?_, ?_⟩
      · cases hr : r.entries with
        | nil | cons _ _ => simp [pushed, hr]
      · intro x hx
        cases hr : r.entries with
        | nil => simp [pushed, hr] at hx
        | cons y rest =>
          have heq : x = (r.added, ⟨keys, peer⟩) := by simpa [pushed, hr] using hx
          rw [heq]
    · exact ⟨Nat.le_succ _, r.entries, [(r.added, ⟨keys, peer⟩)], List.Sublist.refl _, rfl, by simp⟩

theorem later_calls (r : Ring) (cs : List RingCall) : Later r (r.calls cs) := by
  induction cs generalizing r with
  | nil => exact Later.refl r
  | cons c cs ih => exact (r.later_call c).trans (ih (r.call c))

theorem Later.evolves {r r' : Ring} (h : Later r r') : Evolves r.entries r'.entries := by
  obtain ⟨kept, fresh, hsub, heq, hfresh⟩ := h.entries
  refine ⟨kept, fresh, hsub, heq, fun x hx hmem => ?_⟩
  have hold := r.below x hmem
  have hnew := hfresh x hx
  omega

theorem look_evolves (r : Ring) (awaits : List (List RingCall)) (j : Nat) :
    Evolves (r.look awaits j) (r.look awaits (j + 1)) := by
  have hsplit : r.calls (awaits.take (j + 1)).flatten =
      (r.calls (awaits.take j).flatten).calls (awaits[j]?.toList.flatten) := by
    rw [take_add_one, flatten_append, calls, calls, foldl_append]
    rfl
  rw [look, look, hsplit]
  exact (later_calls _ _).evolves

theorem look_nodup (r : Ring) (awaits : List (List RingCall)) (j : Nat) :
    (r.look awaits j).Nodup := (r.calls _).nodup

end Ring

def trialLoop (opens : KeyringEntry → Bool) (index : Nat) (ring : Ring) :
    List (List RingCall) → Option (Outcome RingEntry)
  | [] =>
    match ring.entries[index]? with
    | none => some .missed
    | some _ => none
  | cs :: awaits =>
    match ring.entries[index]? with
    | none => none
    | some x =>
      if opens x.2 then if awaits.isEmpty then some (.hit x) else none
      else trialLoop opens (index + 1) (ring.calls cs) awaits

section Loop
variable {opens : KeyringEntry → Bool}

theorem trialLoop_ends {s : Nat → List RingEntry} {o : Outcome RingEntry}
    (awaits : List (List RingCall)) (index : Nat) (ring : Ring) (hs : ∀ j, s (index + j) = ring.look awaits j)
    (hrun : Passes (fun x => opens x.2) s index) (h : trialLoop opens index ring awaits = some o) :
    Ends (fun x => opens x.2) s (index + awaits.length) o := by
  induction awaits generalizing index ring with
  | nil =>
    have hnow : s index = ring.entries := hs 0
    rw [trialLoop] at h
    split at h
    · rename_i hnone
      cases h
      exact ⟨hrun, by rw [length_nil, Nat.add_zero, hnow, hnone]⟩
    · cases h
  | cons cs awaits ih =>
    have hnow : s index = ring.entries := hs 0
    rw [trialLoop] at h
    split at h
    · cases h
    · rename_i x hx
      split at h
      · rename_i hopens
        split at h
        · rename_i hlast
          cases h
          rw [isEmpty_iff.1 hlast]
          exact ⟨index, rfl, hrun, by rw [hnow, hx], hopens⟩
        · cases h
      · rename_i hfails
        have hend := ih (index + 1) (ring.calls cs) (fun j => ?_) (fun j hj => ?_) h
        · rw [show index + (cs :: awaits).length = index + 1 + awaits.length by
            rw [length_cons]; omega]
          exact hend
        · rw [show index + 1 + j = index + (j + 1) by omega, hs, Ring.look_succ]
        · rcases Nat.lt_or_ge j index with hlt | hge
          · exact hrun j hlt
          · rw [show j = index by omega]
            exact ⟨x, by rw [hnow, hx], by simpa using hfails⟩

theorem trialLoop_total (awaits : List (List RingCall)) (index : Nat) (ring : Ring)
    (hlong : maxKeyring ≤ index + awaits.length) :
    ∃ n ≤ awaits.length, (trialLoop opens index ring (awaits.take n)).isSome := by
  have hcap := ring.capped
  cases hx : ring.entries[index]? with
  | none => exact ⟨0, Nat.zero_le _, by rw [take_zero, trialLoop, hx]; rfl⟩
  | some x =>
    have hlt := (List.getElem?_eq_some_iff.1 hx).1
    induction awaits generalizing index ring x with
    | nil =>
      rw [length_nil] at hlong
      omega
    | cons cs awaits ih =>
      by_cases hopens : opens x.2 = true
      · exact ⟨1, by simp, by simp [trialLoop, hx, hopens]⟩
      · have hcap₂ := (ring.calls cs).capped
        cases hx₂ : (ring.calls cs).entries[index + 1]? with
        | none => exact ⟨1, by simp, by simp [trialLoop, hx, hopens, hx₂]⟩
        | some x₂ =>
          have hlt₂ := (List.getElem?_eq_some_iff.1 hx₂).1
          rw [length_cons] at hlong
          obtain ⟨n, hn, hsome⟩ := ih (index + 1) (ring.calls cs) (by omega) hcap₂ x₂ hx₂ hlt₂
          refine ⟨n + 1, by rw [length_cons]; omega, ?_⟩
          rw [take_succ_cons, trialLoop, hx]
          simpa [hopens] using hsome

end Loop

namespace StreamTable
variable {cfg : StreamConfig}

def after (cfg : StreamConfig) (t : StreamTable) (es : List TableEvent) : StreamTable :=
  es.foldl (fun t e => (t.step cfg e).1) t

def outsFrom (cfg : StreamConfig) (t : StreamTable) (es : List TableEvent) : List TableOut :=
  ((machine cfg).traceFrom t es).flatMap Machine.Entry.out

theorem outsFrom_cons (t : StreamTable) (e : TableEvent) (es : List TableEvent) :
    outsFrom cfg t (e :: es) = (t.step cfg e).2 ++ outsFrom cfg (t.step cfg e).1 es := rfl

structure FirstFrame (cfg : StreamConfig) where
  table : StreamTable
  k : Nat
  stream : Stream
  data : String
  bytes : Bytes
  later : List ChainTask
  ring : Ring
  mapped : table.Mapped
  wired : table.Wired
  keyring : table.keyring = ring.keyring
  object : table.objects[k]? = some stream
  isOpen : stream.closed = false
  unbound : stream.opener = none
  noPeer : stream.peer = none
  idle : stream.awaiting = .nothing
  chain : stream.chain = .openFromBroker data :: later
  decoded : base64UrlToBytes data = some bytes

namespace FirstFrame
variable (f : FirstFrame cfg)

def opens (entry : KeyringEntry) : Bool :=
  (StreamOpener.bind cfg.P cfg.G entry.keys.c2s .c2s f.bytes .frame).isSome

/-- The task starts, and after the calls of each `await` its promise settles. -/
def events (awaits : List (List RingCall)) : List TableEvent :=
  .stream f.k .resume ::
    awaits.flatMap fun cs => cs.map RingCall.event ++ [.stream f.k .resume]

def loop (awaits : List (List RingCall)) : Option (Outcome RingEntry) :=
  trialLoop f.opens 0 f.ring awaits

def trying (awaiting : Awaiting) : Stream :=
  { f.stream with chain := f.later, awaiting := awaiting }

def unmatched : TableOut := .streamClose f.stream.streamId "no matching pairing"

/-- What a run of the events does with the stream. -/
inductive Ended (t : StreamTable) (out : List TableOut) : Outcome RingEntry → Prop where
  | bound {index : Nat} {x : RingEntry} {opener : FrameOpener} {plaintext : Bytes}
      (opens : StreamOpener.bind cfg.P cfg.G x.2.keys.c2s .c2s f.bytes .frame =
        some (opener, plaintext))
      (object : t.objects[f.k]? = some ((f.trying (.bind f.bytes index x.2)).bound cfg
        (cfg.salt f.k) x.2 opener (cfg.decode plaintext)).stream)
      (kept : f.unmatched ∉ out) : Ended t out (.hit x)
  | dropped (object : t.objects[f.k]? = some { f.trying .nothing with closed := true })
      (told : f.unmatched ∈ out) : Ended t out .missed

/-- The table in the middle of the loop. -/
structure Trying (t : StreamTable) (ring : Ring) (awaiting : Awaiting) : Prop where
  keyring : t.keyring = ring.keyring
  mapped : t.Mapped
  wired : t.Wired
  object : t.objects[f.k]? = some (f.trying awaiting)

end FirstFrame

theorem mem_dropStreams {t : StreamTable} {reason id why : String} {tell : Bool}
    {ids : List String} (h : TableOut.streamClose id why ∈ (t.dropStreams reason tell ids).2) : why = reason := by
  induction ids generalizing t with
  | nil => cases h
  | cons a ids ih =>
    rw [dropStreams] at h
    rcases mem_append.1 h with hnow | hrest
    · rw [dropStream] at hnow
      split at hnow
      · cases hnow
      · split at hnow
        · cases hnow
        · split at hnow
          · cases hnow
          · cases tell <;> simp at hnow
            exact hnow.2
    · exact ih hrest

theorem removeSessionKeys_object {t : StreamTable} (ht : t.Mapped) {k : Nat} {s : Stream}
    (hs : t.objects[k]? = some s) (hpeer : s.peer = none) (deviceId : String) :
    (t.removeSessionKeys deviceId).1.objects[k]? = some s := by
  have hfilter : Mapped { t with
      keyring := t.keyring.filter fun entry => entry.deviceId ≠ some deviceId } := ht
  rw [removeSessionKeys, dropStreams_object hfilter, if_neg ?_]
  · exact hs
  · rintro ⟨id, hid, hget⟩
    obtain ⟨⟨id₂, j⟩, hin, rfl⟩ := mem_map.1 hid
    obtain ⟨hin, hany⟩ := mem_filter.1 hin
    have hj : t.streams.get id₂ = some j := (t.streams.get_eq_some _ _).2 hin
    have hget₂ : t.streams.get id₂ = some k := hget
    rw [hj] at hget₂
    cases Option.some.inj hget₂
    simp [hs, hpeer] at hany

namespace FirstFrame
variable (f : FirstFrame cfg) {t : StreamTable} {ring : Ring} {awaiting : Awaiting}

theorem call_keyring (h : t.keyring = ring.keyring) (c : RingCall) :
    (t.step cfg c.event).1.keyring = (ring.call c).keyring := by
  cases c with
  | addSessionKeys keys peer =>
    have hlen : (t.keyring ++ [(⟨keys, peer⟩ : KeyringEntry)]).length =
        (ring.pushed ⟨keys, peer⟩).length := by
      simp [h, Ring.keyring, Ring.pushed]
    have hmap : t.keyring ++ [(⟨keys, peer⟩ : KeyringEntry)] = (ring.pushed ⟨keys, peer⟩).map Prod.snd := by
      simp [h, Ring.keyring, Ring.pushed]
    simp only [RingCall.event, step, addSessionKeys, Ring.call, Ring.addSessionKeys]
    rw [hlen]
    split
    · rw [hmap]
      simp [Ring.keyring]
    · exact hmap
  | removeSessionKeys deviceId =>
    simp only [RingCall.event, step, removeSessionKeys, dropStreams_keyring]
    rw [h, Ring.keyring, filter_map]
    rfl

theorem Trying.call (h : f.Trying t ring awaiting) (c : RingCall) :
    f.Trying (t.step cfg c.event).1 (ring.call c) awaiting where
  keyring := call_keyring h.keyring c
  mapped := step_mapped h.mapped _
  wired := step_wired h.mapped h.wired (by cases c <;> simp [RingCall.event, Reopens])
  object := by
    cases c with
    | addSessionKeys keys peer => exact h.object
    | removeSessionKeys deviceId =>
      exact removeSessionKeys_object h.mapped h.object f.noPeer deviceId

theorem call_silent (c : RingCall) : f.unmatched ∉ (t.step cfg c.event).2 := by
  intro hmem
  cases c with
  | addSessionKeys keys peer => cases hmem
  | removeSessionKeys deviceId =>
    exact absurd (mem_dropStreams hmem) (by decide)

theorem Trying.calls (h : f.Trying t ring awaiting) (cs : List RingCall) (rest : List TableEvent) :
    ∃ t₂, f.Trying t₂ (ring.calls cs) awaiting ∧ t.after cfg (cs.map RingCall.event ++ rest) = t₂.after cfg rest ∧
      (f.unmatched ∈ outsFrom cfg t (cs.map RingCall.event ++ rest) ↔ f.unmatched ∈ outsFrom cfg t₂ rest) := by
  induction cs generalizing t ring with
  | nil => exact ⟨t, h, rfl, Iff.rfl⟩
  | cons c cs ih =>
    obtain ⟨t₂, hlast, hafter, hout⟩ := ih (h.call f c)
    refine ⟨t₂, hlast, hafter, ?_⟩
    rw [map_cons, cons_append, outsFrom_cons, mem_append, hout]
    exact or_iff_right (f.call_silent c)

theorem step_stream (h : f.Trying t ring awaiting) : t.step cfg (.stream f.k .resume) =
      t.drive f.k ((f.trying awaiting).resume cfg t.keyring (cfg.salt f.k)) := by
  simp only [step, h.object, Stream.turn]

theorem drive_tryEntry (h : f.Trying t ring awaiting) (index : Nat) :
    match ring.entries[index]? with
    | some x =>
      f.Trying (t.drive f.k ((f.trying awaiting).tryEntry t.keyring f.bytes index)).1 ring
          (.bind f.bytes index x.2) ∧
        (t.drive f.k ((f.trying awaiting).tryEntry t.keyring f.bytes index)).2 = []
    | none =>
      (t.drive f.k ((f.trying awaiting).tryEntry t.keyring f.bytes index)).1.objects[f.k]? =
          some { f.trying .nothing with closed := true } ∧
        f.unmatched ∈ (t.drive f.k ((f.trying awaiting).tryEntry t.keyring f.bytes index)).2 := by
  have hentry : t.keyring[index]? = ring.entries[index]?.map Prod.snd := by
    rw [h.keyring, Ring.keyring, List.getElem?_map]
  have hkeeps : (f.trying awaiting).Keeps
      ((f.trying awaiting).tryEntry t.keyring f.bytes index) := Stream.keeps_tryEntry _ _ _
  cases hx : ring.entries[index]? with
  | some x =>
    rw [hx] at hentry
    refine ⟨⟨?_, drive_mapped h.mapped h.object hkeeps, drive_wired h.mapped h.wired h.object hkeeps,
      ?_⟩, ?_⟩
    · rw [drive_keyring, h.keyring]
    · simp only [Stream.tryEntry, hentry, Option.map_some, drive, Stream.await]
      rw [getElem_set h.object, if_pos rfl]
      rfl
    · simp only [Stream.tryEntry, hentry, Option.map_some, drive, Stream.await, map_nil]
  | none =>
    rw [hx] at hentry
    have hget := h.wired f.k _ h.object f.isOpen
    have hset : (t.objects.set f.k (f.trying .nothing))[f.k]? = some (f.trying .nothing) := by
      rw [getElem_set h.object, if_pos rfl]
    have hdrop := dropStream_some (t := { t with objects := t.objects.set f.k (f.trying .nothing) })
      hget hset f.isOpen "no matching pairing" true
    have hturn : (f.trying awaiting).tryEntry t.keyring f.bytes index =
        ⟨f.trying .nothing, [], some "no matching pairing"⟩ := by
      simp only [Stream.tryEntry, hentry, Option.map_none]
      rfl
    rw [hturn]
    simp only [drive]
    have hid : (f.trying .nothing).streamId = (f.trying awaiting).streamId := rfl
    rw [hid, hdrop]
    constructor
    · simp only
      rw [getElem_set hset, if_pos rfl]
      rfl
    · simp [unmatched, trying]

/-- The promise of an entry that authenticates settles. -/
theorem resume_bound {index : Nat} {x : RingEntry} {opener : FrameOpener} {plaintext : Bytes}
    (h : f.Trying t ring (.bind f.bytes index x.2))
    (hopens : StreamOpener.bind cfg.P cfg.G x.2.keys.c2s .c2s f.bytes .frame = some (opener, plaintext)) :
    f.Ended (t.step cfg (.stream f.k .resume)).1 (t.step cfg (.stream f.k .resume)).2 (.hit x) := by
  have hturn : (f.trying (.bind f.bytes index x.2)).resume cfg t.keyring (cfg.salt f.k) =
      (f.trying (.bind f.bytes index x.2)).bound cfg (cfg.salt f.k) x.2 opener
        (cfg.decode plaintext) := by
    simp only [Stream.resume, trying, hopens]
  have hstays : ((f.trying (.bind f.bytes index x.2)).bound cfg (cfg.salt f.k) x.2 opener
      (cfg.decode plaintext)).drop = none := by
    rw [Stream.bound]
    split
    · rfl
    · split
      · rfl
      · split
        · rfl
        · exact Stream.drop_admitted _ _ _
  have hstep : t.step cfg (.stream f.k .resume) =
      ({ t with objects := t.objects.set f.k ((f.trying (.bind f.bytes index x.2)).bound cfg
          (cfg.salt f.k) x.2 opener (cfg.decode plaintext)).stream },
        ((f.trying (.bind f.bytes index x.2)).bound cfg (cfg.salt f.k) x.2 opener
          (cfg.decode plaintext)).out.map (TableOut.stream f.k)) := by
    rw [f.step_stream h, hturn, drive, hstays]
  rw [hstep]
  have hobject : (t.objects.set f.k ((f.trying (.bind f.bytes index x.2)).bound cfg
      (cfg.salt f.k) x.2 opener (cfg.decode plaintext)).stream)[f.k]? =
      some ((f.trying (.bind f.bytes index x.2)).bound cfg (cfg.salt f.k) x.2 opener
        (cfg.decode plaintext)).stream := by
    rw [getElem_set h.object, if_pos rfl]
  exact .bound hopens hobject (by simp [unmatched])

theorem resume_tryEntry {index : Nat} {entry : KeyringEntry}
    (h : f.Trying t ring (.bind f.bytes index entry)) (hfails : f.opens entry = false) :
    t.step cfg (.stream f.k .resume) = t.drive f.k ((f.trying (.bind f.bytes index entry)).tryEntry t.keyring f.bytes
        (index + 1)) := by
  have hnone : StreamOpener.bind cfg.P cfg.G entry.keys.c2s .c2s f.bytes .frame = none := by
    rw [opens] at hfails
    exact Option.isSome_eq_false_iff.1 hfails |> Option.isNone_iff_eq_none.1
  rw [f.step_stream h]
  simp only [Stream.resume, trying, hnone]

theorem start (f : FirstFrame cfg) : f.table.step cfg (.stream f.k .resume) =
      f.table.drive f.k ((f.trying .nothing).tryEntry f.table.keyring f.bytes 0) := by
  have hopener : (f.trying .nothing).opener = none := f.unbound
  have hopen : (f.trying .nothing).openFromBroker f.table.keyring f.data =
      (f.trying .nothing).tryEntry f.table.keyring f.bytes 0 := by
    rw [Stream.openFromBroker, f.decoded, hopener]
  rw [← hopen]
  simp only [step, f.object, Stream.turn, Stream.resume, f.idle, f.chain]
  rfl

variable {o : Outcome RingEntry}

theorem Ended.congr {out out₂ : List TableOut} (h : f.Ended t out o)
    (hout : f.unmatched ∈ out₂ ↔ f.unmatched ∈ out) : f.Ended t out₂ o := by
  cases h with
  | bound opens object kept => exact .bound opens object (fun hmem => kept (hout.1 hmem))
  | dropped object told => exact .dropped object (hout.2 told)

theorem run_from (awaits : List (List RingCall)) {index : Nat} {x : RingEntry}
    (h : f.Trying t ring (.bind f.bytes index x.2))
    (hx : ring.entries[index]? = some x) (hloop : trialLoop f.opens index ring awaits = some o) :
    f.Ended (t.after cfg (awaits.flatMap fun cs => cs.map RingCall.event ++ [.stream f.k .resume]))
      (outsFrom cfg t (awaits.flatMap fun cs => cs.map RingCall.event ++ [.stream f.k .resume])) o := by
  induction awaits generalizing t ring index x with
  | nil => simp [trialLoop, hx] at hloop
  | cons cs awaits ih =>
    rw [flatMap_cons, append_assoc]
    obtain ⟨t₂, hat, hafter, hout⟩ := h.calls f cs ([.stream f.k .resume] ++ awaits.flatMap
      fun cs => cs.map RingCall.event ++ [.stream f.k .resume])
    rw [hafter]
    refine Ended.congr f ?_ hout
    rw [singleton_append, outsFrom_cons]
    simp only [trialLoop, hx] at hloop
    split at hloop
    · rename_i hopens
      split at hloop
      · rename_i hlast
        cases hloop
        rw [isEmpty_iff.1 hlast]
        obtain ⟨⟨opener, plaintext⟩, hbind⟩ := Option.isSome_iff_exists.1 hopens
        refine Ended.congr f (f.resume_bound hat hbind) ?_
        rw [flatMap_nil, mem_append]
        exact or_iff_left (by simp [outsFrom, Machine.traceFrom])
      · cases hloop
    · rename_i hfails
      have hstep := f.resume_tryEntry hat (by simpa using hfails)
      have hnext := f.drive_tryEntry hat (index + 1)
      rw [← hstep] at hnext
      cases hx₂ : (ring.calls cs).entries[index + 1]? with
      | some x₂ =>
        rw [hx₂] at hnext
        obtain ⟨hat₂, hsilent⟩ := hnext
        refine Ended.congr f (ih hat₂ hx₂ hloop) ?_
        rw [hsilent, nil_append]
      | none =>
        rw [hx₂] at hnext
        cases awaits with
        | cons cs₂ awaits => simp [trialLoop, hx₂] at hloop
        | nil =>
          simp only [trialLoop, hx₂, Option.some.injEq] at hloop
          subst hloop
          exact .dropped hnext.1 (mem_append_left _ hnext.2)

theorem run_ends (awaits : List (List RingCall)) (hloop : f.loop awaits = some o) :
    f.Ended (f.table.after cfg (f.events awaits)) (outsFrom cfg f.table (f.events awaits)) o := by
  have hid : (f.trying .nothing).streamId = f.stream.streamId := rfl
  have hat : f.Trying { f.table with objects := f.table.objects.set f.k (f.trying .nothing) }
      f.ring .nothing :=
    { keyring := f.keyring
      mapped := set_mapped f.mapped f.object hid rfl
      wired := set_wired f.wired f.object hid rfl
      object := by rw [getElem_set f.object, if_pos rfl] }
  have hstart : f.table.step cfg (.stream f.k .resume) =
      drive { f.table with objects := f.table.objects.set f.k (f.trying .nothing) } f.k
        ((f.trying .nothing).tryEntry f.table.keyring f.bytes 0) := by
    rw [f.start, drive, drive]
    simp only [set_set]
  have hnext := f.drive_tryEntry hat 0
  rw [← hstart] at hnext
  rw [events, outsFrom_cons]
  cases hx : f.ring.entries[0]? with
  | some x =>
    rw [hx] at hnext
    obtain ⟨htrying, hsilent⟩ := hnext
    refine Ended.congr f (f.run_from awaits htrying hx hloop) ?_
    rw [hsilent, nil_append]
  | none =>
    rw [hx] at hnext
    cases awaits with
    | cons cs awaits => simp [loop, trialLoop, hx] at hloop
    | nil =>
      simp only [loop, trialLoop, hx, Option.some.injEq] at hloop
      subst hloop
      exact .dropped hnext.1 (mem_append_left _ hnext.2)

theorem loop_total (awaits : List (List RingCall)) (hlong : maxKeyring ≤ awaits.length) :
    ∃ n ≤ awaits.length, (f.loop (awaits.take n)).isSome :=
  trialLoop_total awaits 0 f.ring (by omega)

/-- An entry that is in the keyring from the start of the loop to its end authenticates the
frame. -/
def StayingKey (awaits : List (List RingCall)) : Prop :=
  ∃ x, Stays (f.ring.look awaits) awaits.length x ∧ f.opens x.2 = true

def TriesStaying (awaits : List (List RingCall)) (o : Outcome RingEntry) : Prop :=
  f.StayingKey awaits →
    HitsStaying (fun x => f.opens x.2) (f.ring.look awaits) awaits.length o

/-- Some such entry is never jumped over, and no key that authenticates is taken away
during its own trial, ahead of it. -/
def Undisturbed (awaits : List (List RingCall)) : Prop :=
  f.StayingKey awaits → Fair (fun x => f.opens x.2) (f.ring.look awaits) awaits.length

/-- For every keyring and every calls during the awaits of a whole trial loop: the table does
what the loop says, and a key that stays is found if and only if the loop is not disturbed. -/
theorem trial_iff (awaits : List (List RingCall)) {o : Outcome RingEntry} (hloop : f.loop awaits = some o) :
    f.Ended (f.table.after cfg (f.events awaits)) (outsFrom cfg f.table (f.events awaits)) o ∧
      (f.TriesStaying awaits o ↔ f.Undisturbed awaits) := by
  refine ⟨f.run_ends awaits hloop, ?_⟩
  have hend : Ends (fun x => f.opens x.2) (f.ring.look awaits) awaits.length o := by
    have hfrom := trialLoop_ends (s := f.ring.look awaits) awaits 0 f.ring
      (fun j => by rw [Nat.zero_add]) (fun j hj => absurd hj (Nat.not_lt_zero j)) hloop
    rwa [Nat.zero_add] at hfrom
  have hiff := hits_iff_fair (f.ring.look_evolves awaits) (f.ring.look_nodup awaits) hend
  exact ⟨fun htries hkey => hiff.1 (htries hkey), fun hfair hkey => hiff.2 (hfair hkey)⟩

end FirstFrame

/-- Another device, whose pairing does not open the frame of `d`. -/
def otherEntry : KeyringEntry :=
  ⟨⟨List.replicate 32 3, List.replicate 32 4, [], ""⟩, some ⟨"e", "tablet", false⟩⟩

def twoKeys : Ring where
  entries := [(0, otherEntry), (1, ⟨sampleKeys, some samplePeer⟩)]
  added := 2
  sorted := by decide
  below := by decide
  capped := by decide

/-- Both devices are paired, and `d` has sent the first frame of a stream. -/
def arrivedFrame : List TableEvent :=
  [.addSessionKeys otherEntry.keys otherEntry.peer, .addSessionKeys sampleKeys (some samplePeer),
    .streamOpen "a", .streamFrame "a" (sampleFrame 0 104)]

def firstFrame : FirstFrame sample where
  table := (machine sample).run arrivedFrame
  k := 0
  stream := (Stream.create "a").enqueue (.openFromBroker (sampleFrame 0 104))
  data := sampleFrame 0 104
  bytes := sampleBytes 0 104
  later := []
  ring := twoKeys
  mapped := run_mapped sample arrivedFrame
  wired := run_wired (by decide +kernel)
  keyring := by decide +kernel
  object := by decide +kernel
  isOpen := rfl
  unbound := rfl
  noPeer := rfl
  idle := rfl
  chain := rfl
  decoded := base64UrlToBytes_bytesToBase64Url _

theorem loop_total_removing : ∃ n ≤ (List.replicate maxKeyring [RingCall.removeSessionKeys "e"]).length,
    (firstFrame.loop ((List.replicate maxKeyring [RingCall.removeSessionKeys "e"]).take n)).isSome :=
  firstFrame.loop_total _ (by simp)

/-- A third device is added during the first trial and removed during the second, which finds its key. -/
def comesAndGoes : List (List RingCall) :=
  [[.addSessionKeys ⟨List.replicate 32 5, List.replicate 32 6, [], ""⟩ (some ⟨"f", "phone", false⟩)],
    [.removeSessionKeys "f"]]

theorem undisturbed_trial : firstFrame.TriesStaying comesAndGoes (.hit (1, ⟨sampleKeys, some samplePeer⟩)) ↔
      firstFrame.Undisturbed comesAndGoes :=
  (firstFrame.trial_iff comesAndGoes (by decide +kernel)).2

/-- The first device is removed while its key is tried: the second takes its place, which the
loop has left behind. -/
theorem removal_skips_key : firstFrame.loop [[.removeSessionKeys "e"]] = some .missed ∧ firstFrame.unmatched ∈
        outsFrom sample firstFrame.table (firstFrame.events [[.removeSessionKeys "e"]]) ∧
      firstFrame.StayingKey [[.removeSessionKeys "e"]] ∧
      ¬ firstFrame.TriesStaying [[.removeSessionKeys "e"]] .missed := by
  have hkey : firstFrame.StayingKey [[.removeSessionKeys "e"]] := by
    refine ⟨(1, ⟨sampleKeys, some samplePeer⟩), ?_, by decide +kernel⟩
    have hall : ∀ j < 2, (1, (⟨sampleKeys, some samplePeer⟩ : KeyringEntry)) ∈
        firstFrame.ring.look [[.removeSessionKeys "e"]] j := by decide +kernel
    exact fun j hj => hall j (Nat.lt_succ_of_le hj)
  refine ⟨by decide +kernel, by decide +kernel, hkey, fun htries => ?_⟩
  obtain ⟨x, hx, -⟩ := htries hkey
  cases hx

end StreamTable
end Mtmux.Agent
