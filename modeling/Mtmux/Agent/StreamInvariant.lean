import Mtmux.Agent.Streams

/-! What a step of the agent does to one stream, and the map from ids to streams. -/
namespace Mtmux.Agent
open Crypto OrderedMap Machine List

/-- Whether an output carries a line over the tunnel. -/
def StreamOut.crosses : StreamOut → Bool
  | .localSend _ => true
  | .frame _ _ => true
  | _ => false

/-- Whether an output shows that the stream is through the gate. -/
def StreamOut.speaks : StreamOut → Bool
  | .admitStream _ => false
  | _ => true

theorem StreamOut.speaks_of_crosses {o : StreamOut} (h : o.crosses = true) : o.speaks = true := by
  cases o with
  | localSend _ | frame _ _ => rfl
  | admitStream peer => cases h
  | streamBound peer => rfl

/-- Not in trial decryption and not at the gate. -/
def Awaiting.Late : Awaiting → Prop
  | .bind _ _ _ => False
  | .admitStream _ _ => False
  | _ => True

namespace Stream
variable {cfg : StreamConfig} {keyring : List KeyringEntry}

structure Keeps (s : Stream) (turn : Turn) : Prop where
  streamId : turn.stream.streamId = s.streamId
  closed : turn.stream.closed = s.closed

theorem writeLocal_eq (s : Stream) (line : String) :
    s.writeLocal line =
      ({ s with toLocal := if s.localOpen then s.toLocal else s.toLocal ++ [line] },
        if s.localOpen then [.localSend line] else []) := by
  unfold writeLocal
  split <;> rfl

theorem keeps_tryEntry (s : Stream) (bytes : Bytes) (index : Nat) : s.Keeps (s.tryEntry keyring bytes index) := by
  unfold tryEntry
  split <;> exact ⟨rfl, rfl⟩

theorem beginSeal_eq (s : Stream) (line reason : String) (whenSealed : Bytes → Awaiting) (whenHeld : Awaiting)
    (hsealed : ∀ frame, (whenSealed frame).Late) (hheld : whenHeld.Late) : ∃ sealer toBroker awaiting, awaiting.Late ∧
      s.beginSeal cfg line reason whenSealed whenHeld =
        ⟨{ s with sealer := sealer, toBroker := toBroker, awaiting := awaiting }, [], none⟩ := by
  unfold beginSeal
  split
  · exact ⟨_, _, _, hheld, rfl⟩
  · split
    · exact ⟨s.sealer, s.toBroker, .caught reason, trivial, rfl⟩
    · exact ⟨_, s.toBroker, _, hsealed _, rfl⟩

theorem flush_eq (s : Stream) (held : List String) : ∃ sealer toBroker awaiting, awaiting.Late ∧
    s.flush cfg held = ⟨{ s with sealer := sealer, toBroker := toBroker, awaiting := awaiting }, [], none⟩ := by
  cases held with
  | nil => exact ⟨s.sealer, s.toBroker, .nothing, trivial, rfl⟩
  | cons line held => exact s.beginSeal_eq line _ (.flushSeal · held) (.flush held) (fun _ => trivial) trivial

theorem out_flush (s : Stream) (held : List String) : (s.flush cfg held).out = [] := by
  obtain ⟨_, _, _, -, heq⟩ := s.flush_eq held
  rw [heq]

theorem admitted_eq (s : Stream) (entry : KeyringEntry) (line : String) : ∃ sealer toLocal toBroker awaiting,
    awaiting.Late ∧ s.admitted cfg entry line =
      ⟨{ s with sealer := sealer, toLocal := toLocal, toBroker := toBroker, awaiting := awaiting },
        .streamBound entry.peer :: if s.localOpen then [.localSend line] else [], none⟩ := by
  rw [admitted, writeLocal_eq]
  obtain ⟨sealer, toBroker, awaiting, hlate, heq⟩ :=
    flush_eq { s with toLocal := if s.localOpen then s.toLocal else s.toLocal ++ [line], toBroker := [] } s.toBroker
  rw [heq]
  exact ⟨sealer, _, toBroker, awaiting, hlate, rfl⟩

theorem drop_admitted (s : Stream) (entry : KeyringEntry) (line : String) : (s.admitted cfg entry line).drop = none := by
  obtain ⟨_, _, _, _, -, heq⟩ := s.admitted_eq entry line
  rw [heq]

/-- What one turn of a stream does. -/
inductive Turns (cfg : StreamConfig) (keyring : List KeyringEntry) (s : Stream) : StreamEvent → Turn → Prop
  | same (event : StreamEvent) : Turns cfg keyring s event ⟨s, [], none⟩
  | line (text : String) : Turns cfg keyring s (.line text) ⟨s.enqueue (.sealToBroker text), [], none⟩
  | opens (isOpen : s.closed = false) : Turns cfg keyring s .localOpen
      ⟨{ s with localOpen := true, toLocal := [] }, s.toLocal.map .localSend, none⟩
  | hangs (reason : String) : Turns cfg keyring s .localClose ⟨s, [], some reason⟩
  | ends (event : StreamEvent) (chain : List ChainTask) (reason : String) :
      Turns cfg keyring s event ⟨{ s with chain := chain, awaiting := .nothing }, [], some reason⟩
  | tries {entry : KeyringEntry} (chain : List ChainTask) (bytes : Bytes) (index : Nat) (ring : entry ∈ keyring)
      (early : s.opener = none ∨ ∃ bytes index entry, s.awaiting = .bind bytes index entry) :
      Turns cfg keyring s .resume ⟨{ s with chain := chain, awaiting := .bind bytes index entry }, [], none⟩
  | rests {event : StreamEvent} {opener : Option FrameOpener} (sealer : Option FrameSealer) (chain : List ChainTask)
      {awaiting : Awaiting} (toBroker : List String) (late : awaiting.Late) (bound : s.opener ≠ none → opener ≠ none) :
      Turns cfg keyring s event
        ⟨{ s with opener := opener, sealer := sealer, chain := chain, awaiting := awaiting, toBroker := toBroker },
          [], none⟩
  | asks {bytes : Bytes} {index : Nat} {entry : KeyringEntry} {found : FrameOpener × Bytes} (sealer : FrameSealer)
      (line : String) (isOpen : s.closed = false) (trying : s.awaiting = .bind bytes index entry)
      (authentic : StreamOpener.bind cfg.P cfg.G entry.keys.c2s .c2s bytes .frame = some found) :
      Turns cfg keyring s .resume
        ⟨{ s with
            opener := some found.1, sealer := some sealer, peer := entry.peer
            awaiting := .admitStream entry line }, [.admitStream entry.peer], none⟩
  | passes {bytes : Bytes} {index : Nat} {entry : KeyringEntry} {found : FrameOpener × Bytes}
      {sealer : Option FrameSealer} {toLocal toBroker : List String} {awaiting : Awaiting} (line : String)
      (isOpen : s.closed = false) (trying : s.awaiting = .bind bytes index entry)
      (authentic : StreamOpener.bind cfg.P cfg.G entry.keys.c2s .c2s bytes .frame = some found) (late : awaiting.Late) :
      Turns cfg keyring s .resume
        ⟨{ s with
            opener := some found.1, sealer := sealer, peer := entry.peer, awaiting := awaiting, toLocal := toLocal
            toBroker := toBroker }, .streamBound entry.peer :: if s.localOpen then [.localSend line] else [], none⟩
  | admits {entry : KeyringEntry} {sealer : Option FrameSealer} {toLocal toBroker : List String} {awaiting : Awaiting}
      {line : String} (isOpen : s.closed = false) (asking : s.awaiting = .admitStream entry line)
      (late : awaiting.Late) : Turns cfg keyring s (.answer (some true))
        ⟨{ s with sealer := sealer, awaiting := awaiting, toLocal := toLocal, toBroker := toBroker },
          .streamBound entry.peer :: if s.localOpen then [.localSend line] else [], none⟩
  | sends {awaiting : Awaiting} (frame : Bytes) (late : awaiting.Late) :
      Turns cfg keyring s .resume ⟨{ s with awaiting := awaiting }, s.sendFrame frame, none⟩
  | writes (opener : FrameOpener) (line : String) (isOpen : s.closed = false) : Turns cfg keyring s .resume
      ⟨{ s with
          opener := some opener, awaiting := .nothing
          toLocal := if s.localOpen then s.toLocal else s.toLocal ++ [line] },
        if s.localOpen then [.localSend line] else [], none⟩

theorem turns_tryEntry {s : Stream} (chain : List ChainTask) (bytes : Bytes) (index : Nat)
    (hearly : s.opener = none ∨ ∃ bytes index entry, s.awaiting = .bind bytes index entry) :
    Turns cfg keyring s .resume (tryEntry keyring { s with chain := chain } bytes index) := by
  unfold tryEntry
  split
  · rename_i entry hentry
    exact .tries chain bytes index (mem_of_getElem? hentry) hearly
  · exact .ends _ chain _

theorem resume_turns (s : Stream) (salt : Bytes) : Turns cfg keyring s .resume (s.resume cfg keyring salt) := by
  unfold resume
  split
  · split
    · exact .rests s.sealer s.chain s.toBroker trivial id
    · rename_i data chain _
      unfold openFromBroker
      split
      · exact .ends _ chain _
      · split
        · rename_i hnone
          exact turns_tryEntry chain _ 0 (.inl hnone)
        · exact .rests s.sealer chain s.toBroker trivial id
    · rename_i line chain _
      obtain ⟨sealer, toBroker, awaiting, hlate, heq⟩ := beginSeal_eq { s with chain := chain } line
        "seal failed" .sealed .nothing (fun _ => trivial) trivial
      rw [sealToBroker, heq]
      exact .rests sealer chain toBroker hlate id
  · rename_i bytes index entry htry
    split
    · exact turns_tryEntry s.chain bytes _ (.inr ⟨_, _, _, htry⟩)
    · rename_i opener plaintext hbind
      unfold bound
      split
      · exact .rests s.sealer s.chain s.toBroker trivial id
      · rename_i hopen
        have hopen' : s.closed = false := by simpa using hopen
        split
        · exact .rests s.sealer s.chain s.toBroker trivial fun _ => by simp
        · rename_i sealer _
          split
          · exact .asks sealer _ hopen' htry hbind
          · obtain ⟨_, _, _, _, hlate, heq⟩ := admitted_eq
              { s with opener := some opener, sealer := some sealer, peer := entry.peer } entry (cfg.decode plaintext)
            rw [heq]
            exact .passes _ hopen' htry hbind hlate
  · rename_i hawait
    exact hawait ▸ .same _
  · exact .sends _ trivial
  · rename_i held _
    obtain ⟨sealer, toBroker, awaiting, hlate, heq⟩ := s.flush_eq held
    rw [heq]
    exact .rests sealer s.chain toBroker hlate id
  · exact .sends _ trivial
  · unfold opened
    split
    · exact .ends _ s.chain _
    · split
      · exact .rests s.sealer s.chain s.toBroker trivial fun _ => by simp
      · rename_i hopen
        rw [writeLocal_eq]
        exact .writes _ _ (by simpa using hopen)
  · exact .ends _ s.chain _

theorem turn_turns (s : Stream) (salt : Bytes) (event : StreamEvent) :
    Turns cfg keyring s event (s.turn cfg keyring salt event) := by
  cases event with
  | line text => exact .line text
  | localOpen =>
    rw [turn, opens]
    split
    · exact .same _
    · rename_i hopen
      exact .opens (by simpa using hopen)
  | localClose =>
    rw [turn]
    split
    · exact .same _
    · exact .hangs _
  | resume => exact s.resume_turns salt
  | answer verdict =>
    rw [turn]
    unfold answered
    split
    · rename_i entry line hask
      split
      · exact .rests s.sealer s.chain s.toBroker trivial id
      · split
        · exact .rests s.sealer s.chain s.toBroker trivial id
        · exact .ends _ s.chain _
      · split
        · exact .rests s.sealer s.chain s.toBroker trivial id
        · rename_i hopen
          obtain ⟨_, _, _, _, hlate, heq⟩ := s.admitted_eq entry line
          rw [heq]
          exact .admits (by simpa using hopen) hask hlate
    · exact .same _

variable {s : Stream} {event : StreamEvent} {turn : Turn}

theorem Turns.keeps (h : Turns cfg keyring s event turn) : s.Keeps turn := by
  cases h <;> exact ⟨rfl, rfl⟩

theorem keeps_turn (s : Stream) (salt : Bytes) (event : StreamEvent) : s.Keeps (s.turn cfg keyring salt event) :=
  (s.turn_turns salt event).keeps

/-- The flag is read after every `await`, so a closed stream writes nothing more. -/
theorem Turns.out_closed (h : Turns cfg keyring s event turn) (hclosed : s.closed = true) : turn.out = [] := by
  cases h with
  | sends frame late =>
    dsimp only
    rw [sendFrame, if_pos hclosed]
  | opens hopen | asks _ _ hopen | passes _ hopen | admits hopen | writes _ _ hopen =>
    rw [hclosed] at hopen
    cases hopen
  | _ => rfl

theorem out_turn_closed (h : s.closed = true) (salt : Bytes) (event : StreamEvent) :
    (s.turn cfg keyring salt event).out = [] := (s.turn_turns salt event).out_closed h

variable {reason : String}

theorem Turns.out_dropped (h : Turns cfg keyring s event turn) (hdrop : turn.drop = some reason) :
    turn.out = [] := by
  cases h with
  | hangs | ends => rfl
  | _ => cases hdrop

theorem out_turn_dropped {salt : Bytes} (h : (s.turn cfg keyring salt event).drop = some reason) :
    (s.turn cfg keyring salt event).out = [] := (s.turn_turns salt event).out_dropped h

end Stream

def outOf (k : Nat) (out : List TableOut) : List StreamOut :=
  out.filterMap fun
    | .stream j o => if j = k then some o else none
    | _ => none

theorem outOf_append (k : Nat) (a b : List TableOut) : outOf k (a ++ b) = outOf k a ++ outOf k b :=
  filterMap_append

theorem outOf_stream (k j : Nat) (out : List StreamOut) :
    outOf k (out.map (TableOut.stream j)) = if j = k then out else [] := by
  unfold outOf
  rw [filterMap_map]
  by_cases hj : j = k
  · simp [hj]
  · simp [hj]

variable {k : Nat}

theorem mem_outOf {o : StreamOut} {out : List TableOut} : o ∈ outOf k out ↔ .stream k o ∈ out := by
  unfold outOf
  rw [mem_filterMap]
  constructor
  · rintro ⟨x, hx, he⟩
    cases x with
    | stream j o' =>
      by_cases hj : j = k
      · simp only [hj, if_true, Option.some.injEq] at he
        rw [← hj] at *
        exact he ▸ hx
      · simp [hj] at he
    | localClose _ | streamClose _ _ => cases he
  · intro h
    exact ⟨_, h, by simp⟩

namespace StreamTable
variable {cfg : StreamConfig}

/-- Every id in the map finds the open stream that has it. -/
def Mapped (t : StreamTable) : Prop :=
  ∀ id k, t.streams.get id = some k →
    ∃ s, t.objects[k]? = some s ∧ s.streamId = id ∧ s.closed = false

def Wired (t : StreamTable) : Prop :=
  ∀ k s, t.objects[k]? = some s → s.closed = false → t.streams.get s.streamId = some k

def Concerns (t : StreamTable) (k : Nat) (e : TableEvent) : Prop :=
  (k < t.objects.length ∧ ∃ event, e = .stream k event) ∨
    ∃ id data, e = .streamFrame id data ∧ t.streams.get id = some k

/-- What a step may do to stream `k`: the stream it leaves, and what `k` emits. -/
inductive Effect (cfg : StreamConfig) (t : StreamTable) (k : Nat) :
    TableEvent → Option Stream → List StreamOut → Prop where
  | kept {e : TableEvent} (idle : ¬ t.Concerns k e) : Effect cfg t k e t.objects[k]? []
  | closed {e : TableEvent} {s : Stream} (idle : ¬ t.Concerns k e) (was : t.objects[k]? = some s) :
      Effect cfg t k e (some { s with closed := true }) []
  | created {id : String} (new : k = t.objects.length) :
      Effect cfg t k (.streamOpen id) (some (Stream.create id)) []
  | arrived {id data : String} {s : Stream} (routed : t.streams.get id = some k)
      (was : t.objects[k]? = some s) (isOpen : s.closed = false) :
      Effect cfg t k (.streamFrame id data) (some (s.enqueue (.openFromBroker data))) []
  | ran {event : StreamEvent} {s : Stream} (was : t.objects[k]? = some s)
      (stays : t.streams.get s.streamId = some k →
        (s.turn cfg t.keyring (cfg.salt k) event).drop = none) :
      Effect cfg t k (.stream k event) (some (s.turn cfg t.keyring (cfg.salt k) event).stream)
        (s.turn cfg t.keyring (cfg.salt k) event).out
  | ended {event : StreamEvent} {s : Stream} {reason : String} (was : t.objects[k]? = some s)
      (registered : t.streams.get s.streamId = some k)
      (drops : (s.turn cfg t.keyring (cfg.salt k) event).drop = some reason) :
      Effect cfg t k (.stream k event)
        (some { (s.turn cfg t.keyring (cfg.salt k) event).stream with closed := true })
        (s.turn cfg t.keyring (cfg.salt k) event).out

/- `dropStream`, for a map whose entries are right. -/

variable {t : StreamTable}

theorem dropStream_none {id : String} (h : t.streams.get id = none)
    (reason : String) (tell : Bool) : t.dropStream id reason tell = (t, []) := by
  rw [dropStream, h]

theorem dropStream_some {id : String} {s : Stream}
    (h : t.streams.get id = some k) (hs : t.objects[k]? = some s) (hopen : s.closed = false)
    (reason : String) (tell : Bool) :
    t.dropStream id reason tell =
      ({ t with
          streams := t.streams.delete id
          objects := t.objects.set k { s with closed := true } },
        .localClose k :: if tell then [.streamClose id reason] else []) := by
  rw [dropStream, h]
  simp [hs, hopen]

theorem outOf_dropStream (t : StreamTable) (id reason : String) (tell : Bool) (k : Nat) :
    outOf k (t.dropStream id reason tell).2 = [] := by
  unfold dropStream
  split
  · rfl
  · split
    · rfl
    · split
      · rfl
      · cases tell <;> rfl

theorem getElem_set {l : List Stream} {j k : Nat} {s new : Stream} (hs : l[j]? = some s) :
    (l.set j new)[k]? = if j = k then some new else l[k]? := by
  rw [List.getElem?_set]
  have hlt := (List.getElem?_eq_some_iff.1 hs).1
  by_cases hj : j = k
  · simp [hj, hj ▸ hlt]
  · simp [hj]

theorem dropStream_object (ht : t.Mapped) (id reason : String) (tell : Bool)
    (k : Nat) :
    (t.dropStream id reason tell).1.objects[k]? =
      if t.streams.get id = some k then t.objects[k]?.map fun s => { s with closed := true }
      else t.objects[k]? := by
  cases hid : t.streams.get id with
  | none => rw [dropStream_none hid]; simp
  | some j =>
    obtain ⟨s, hs, -, hopen⟩ := ht id j hid
    rw [dropStream_some hid hs hopen]
    simp only [getElem_set hs, Option.some.injEq]
    by_cases hj : j = k
    · subst hj
      simp [hs]
    · simp [hj]

theorem dropStream_streams (ht : t.Mapped) (id reason : String) (tell : Bool) :
    (t.dropStream id reason tell).1.streams.get = (t.streams.delete id).get := by
  cases hid : t.streams.get id with
  | none =>
    rw [dropStream_none hid]
    funext a
    by_cases ha : a = id
    · simp [ha, hid]
    · simp [ha]
  | some j =>
    obtain ⟨s, hs, -, hopen⟩ := ht id j hid
    rw [dropStream_some hid hs hopen]

theorem dropStream_keyring (t : StreamTable) (id reason : String) (tell : Bool) :
    (t.dropStream id reason tell).1.keyring = t.keyring := by
  unfold dropStream
  split
  · rfl
  · split
    · rfl
    · split <;> rfl

theorem dropStream_mapped (ht : t.Mapped) (id reason : String) (tell : Bool) :
    (t.dropStream id reason tell).1.Mapped := by
  intro a k ha
  rw [dropStream_streams ht, get_delete] at ha
  rw [dropStream_object ht]
  by_cases hid : a = id
  · simp [hid] at ha
  · rw [if_neg hid] at ha
    obtain ⟨s, hs, hsid, hopen⟩ := ht a k ha
    have hother : t.streams.get id ≠ some k := by
      intro hk
      obtain ⟨s', hs', hsid', -⟩ := ht id k hk
      rw [hs] at hs'
      cases hs'
      exact hid (hsid.symm.trans hsid')
    rw [if_neg hother]
    exact ⟨s, hs, hsid, hopen⟩

theorem dropStream_wired (ht : t.Mapped) (hw : t.Wired) (id reason : String)
    (tell : Bool) : (t.dropStream id reason tell).1.Wired := by
  intro k s hs hopen
  rw [dropStream_object ht] at hs
  rw [dropStream_streams ht, get_delete]
  by_cases hk : t.streams.get id = some k
  · rw [if_pos hk] at hs
    obtain ⟨s', -, rfl⟩ := Option.map_eq_some_iff.1 hs
    cases hopen
  · rw [if_neg hk] at hs
    have hget := hw k s hs hopen
    by_cases hid : s.streamId = id
    · exact absurd (hid ▸ hget) hk
    · rw [if_neg hid, hget]

theorem dropStreams_mapped (ht : t.Mapped) (reason : String) (tell : Bool)
    (ids : List String) : (t.dropStreams reason tell ids).1.Mapped := by
  induction ids generalizing t with
  | nil => exact ht
  | cons id ids ih => exact ih (dropStream_mapped ht id reason tell)

theorem dropStreams_wired (ht : t.Mapped) (hw : t.Wired) (reason : String)
    (tell : Bool) (ids : List String) : (t.dropStreams reason tell ids).1.Wired := by
  induction ids generalizing t with
  | nil => exact hw
  | cons id ids ih => exact ih (dropStream_mapped ht id reason tell) (dropStream_wired ht hw id reason tell)

theorem dropStreams_keyring (t : StreamTable) (reason : String) (tell : Bool) (ids : List String) :
    (t.dropStreams reason tell ids).1.keyring = t.keyring := by
  induction ids generalizing t with
  | nil => rfl
  | cons id ids ih => exact (ih _).trans (dropStream_keyring t id reason tell)

theorem outOf_dropStreams (t : StreamTable) (reason : String) (tell : Bool) (ids : List String)
    (k : Nat) : outOf k (t.dropStreams reason tell ids).2 = [] := by
  induction ids generalizing t with
  | nil => rfl
  | cons id ids ih =>
    rw [dropStreams, outOf_append, outOf_dropStream, ih]
    rfl

theorem dropStreams_object (ht : t.Mapped) (reason : String) (tell : Bool)
    (ids : List String) (k : Nat) :
    (t.dropStreams reason tell ids).1.objects[k]? =
      if ∃ id ∈ ids, t.streams.get id = some k then
        t.objects[k]?.map fun s => { s with closed := true }
      else t.objects[k]? := by
  induction ids generalizing t with
  | nil => simp [dropStreams]
  | cons id ids ih =>
    rw [dropStreams, ih (dropStream_mapped ht id reason tell), dropStream_object ht,
      dropStream_streams ht]
    by_cases hk : t.streams.get id = some k
    · have hex : ∃ a ∈ id :: ids, t.streams.get a = some k := ⟨id, mem_cons_self, hk⟩
      rw [if_pos hk, if_pos hex, Option.map_map]
      exact ite_self _
    · rw [if_neg hk]
      have hiff : (∃ a ∈ ids, (t.streams.delete id).get a = some k) ↔
          ∃ a ∈ id :: ids, t.streams.get a = some k := by
        constructor
        · rintro ⟨a, ha, hget⟩
          rw [get_delete] at hget
          by_cases hid : a = id
          · simp [hid] at hget
          · rw [if_neg hid] at hget
            exact ⟨a, mem_cons_of_mem _ ha, hget⟩
        · rintro ⟨a, ha, hget⟩
          have hid : a ≠ id := by
            rintro rfl
            exact hk hget
          refine ⟨a, (mem_cons.1 ha).resolve_left hid, ?_⟩
          rw [get_delete, if_neg hid, hget]
      simp only [hiff]

theorem teardownStreams_closed (ht : t.Mapped) (hw : t.Wired)
    {s : Stream} (h : t.teardownStreams.1.objects[k]? = some s) : s.closed = true := by
  have hobj : t.teardownStreams.1.objects[k]? = _ :=
    dropStreams_object ht "agent shutting down" false t.streams.keys k
  rw [hobj] at h
  by_cases hk : ∃ id ∈ t.streams.keys, t.streams.get id = some k
  · rw [if_pos hk] at h
    obtain ⟨s', -, rfl⟩ := Option.map_eq_some_iff.1 h
    rfl
  · rw [if_neg hk] at h
    by_contra hopen
    have hget := hw k s h (by simpa using hopen)
    exact hk ⟨s.streamId, (t.streams.mem_keys _).2 ⟨k, hget⟩, hget⟩

theorem drive_keyring (t : StreamTable) (k : Nat) (turn : Turn) : (t.drive k turn).1.keyring = t.keyring := by
  unfold drive
  split
  · rfl
  · exact dropStream_keyring _ _ _ _

theorem set_mapped (ht : t.Mapped) {s new : Stream}
    (hs : t.objects[k]? = some s) (hid : new.streamId = s.streamId) (hclosed : new.closed = s.closed) :
    Mapped { t with objects := t.objects.set k new } := by
  intro id j hj
  obtain ⟨s', hs', hsid, hopen⟩ := ht id j hj
  simp only [getElem_set hs]
  by_cases hkj : k = j
  · subst hkj
    rw [hs] at hs'
    cases hs'
    exact ⟨new, by simp, by rw [hid, hsid], by rw [hclosed, hopen]⟩
  · rw [if_neg hkj]
    exact ⟨s', hs', hsid, hopen⟩

theorem set_wired (hw : t.Wired) {s new : Stream}
    (hs : t.objects[k]? = some s) (hid : new.streamId = s.streamId) (hclosed : new.closed = s.closed) :
    Wired { t with objects := t.objects.set k new } := by
  intro j s' hs' hopen
  simp only [getElem_set hs] at hs'
  by_cases hkj : k = j
  · subst hkj
    rw [if_pos rfl] at hs'
    cases hs'
    rw [hid]
    exact hw k s hs (by rw [← hclosed, hopen])
  · rw [if_neg hkj] at hs'
    exact hw j s' hs' hopen

theorem drive_mapped (ht : t.Mapped) {s : Stream} {turn : Turn}
    (hs : t.objects[k]? = some s) (hkeep : s.Keeps turn) : (t.drive k turn).1.Mapped := by
  have hset := set_mapped ht hs hkeep.streamId hkeep.closed
  unfold drive
  split
  · exact hset
  · exact dropStream_mapped hset _ _ _

theorem drive_wired (ht : t.Mapped) (hw : t.Wired) {s : Stream}
    {turn : Turn} (hs : t.objects[k]? = some s) (hkeep : s.Keeps turn) : (t.drive k turn).1.Wired := by
  have hset := set_wired hw hs hkeep.streamId hkeep.closed
  unfold drive
  split
  · exact hset
  · exact dropStream_wired (set_mapped ht hs hkeep.streamId hkeep.closed) hset _ _ _

def Reopens (t : StreamTable) (e : TableEvent) : Prop :=
  ∃ id, e = .streamOpen id ∧ t.streams.get id ≠ none

instance (t : StreamTable) (e : TableEvent) : Decidable (t.Reopens e) :=
  match e with
  | .streamOpen id => decidable_of_iff (t.streams.get id ≠ none) (by simp [Reopens])
  | .streamFrame _ _ => isFalse (by simp [Reopens])
  | .streamClose _ => isFalse (by simp [Reopens])
  | .stream _ _ => isFalse (by simp [Reopens])
  | .addSessionKeys _ _ => isFalse (by simp [Reopens])
  | .removeSessionKeys _ => isFalse (by simp [Reopens])
  | .teardownStreams => isFalse (by simp [Reopens])

theorem getElem_open (t : StreamTable) (id : String) (k : Nat) :
    (t.openStream id).objects[k]? =
      if k = t.objects.length then some (Stream.create id) else t.objects[k]? := by
  simp only [openStream]
  by_cases hk : k = t.objects.length
  · rw [if_pos hk, hk]
    simp
  · rw [if_neg hk]
    rcases Nat.lt_or_gt_of_ne hk with hlt | hgt
    · rw [List.getElem?_append_left hlt]
    · rw [List.getElem?_eq_none (by simp; omega), List.getElem?_eq_none (by omega)]

theorem streamFrame_some {id data : String} {s : Stream}
    (h : t.streams.get id = some k) (hs : t.objects[k]? = some s) (hopen : s.closed = false) : t.streamFrame id data =
      { t with objects := t.objects.set k (s.enqueue (.openFromBroker data)) } := by
  rw [streamFrame, h]
  simp [hs, hopen]

theorem streamFrame_none {id data : String} (h : t.streams.get id = none) :
    t.streamFrame id data = t := by
  rw [streamFrame, h]

theorem step_mapped (ht : t.Mapped) (e : TableEvent) : (t.step cfg e).1.Mapped := by
  cases e with
  | streamOpen id =>
    intro a k ha
    simp only [step] at ha ⊢
    rw [getElem_open]
    simp only [openStream, get_set] at ha
    by_cases hid : a = id
    · rw [if_pos hid] at ha
      cases ha
      exact ⟨Stream.create id, by simp, hid.symm, rfl⟩
    · rw [if_neg hid] at ha
      obtain ⟨s, hs, hsid, hopen⟩ := ht a k ha
      have hlt := (List.getElem?_eq_some_iff.1 hs).1
      rw [if_neg (by omega)]
      exact ⟨s, hs, hsid, hopen⟩
  | streamFrame id data =>
    simp only [step]
    cases hid : t.streams.get id with
    | none =>
      rw [streamFrame_none hid]
      exact ht
    | some k =>
      obtain ⟨s, hs, -, hopen⟩ := ht id k hid
      rw [streamFrame_some hid hs hopen]
      exact set_mapped ht hs rfl rfl
  | streamClose id => exact dropStream_mapped ht _ _ _
  | stream k event =>
    simp only [step]
    split
    · exact ht
    · rename_i s hs
      exact drive_mapped ht hs (Stream.keeps_turn s _ event)
  | addSessionKeys keys peer => exact ht
  | removeSessionKeys deviceId =>
    have hfilter : Mapped { t with
        keyring := t.keyring.filter fun entry => entry.deviceId ≠ some deviceId } := ht
    exact dropStreams_mapped hfilter _ _ _
  | teardownStreams =>
    intro a k ha
    cases ha

theorem step_wired (ht : t.Mapped) (hw : t.Wired) {e : TableEvent}
    (hnew : ¬ t.Reopens e) : (t.step cfg e).1.Wired := by
  cases e with
  | streamOpen id =>
    intro k s hs hopen
    simp only [step] at hs ⊢
    rw [getElem_open] at hs
    simp only [openStream, get_set]
    by_cases hk : k = t.objects.length
    · rw [if_pos hk] at hs
      cases hs
      have hid : (Stream.create id).streamId = id := rfl
      rw [if_pos hid, hk]
    · rw [if_neg hk] at hs
      have hget := hw k s hs hopen
      have hne : s.streamId ≠ id := by
        intro hid
        exact hnew ⟨id, rfl, by rw [← hid, hget]; simp⟩
      rw [if_neg hne, hget]
  | streamFrame id data =>
    simp only [step]
    cases hid : t.streams.get id with
    | none =>
      rw [streamFrame_none hid]
      exact hw
    | some k =>
      obtain ⟨s, hs, -, hopen⟩ := ht id k hid
      rw [streamFrame_some hid hs hopen]
      exact set_wired hw hs rfl rfl
  | streamClose id => exact dropStream_wired ht hw _ _ _
  | stream k event =>
    simp only [step]
    split
    · exact hw
    · rename_i s hs
      exact drive_wired ht hw hs (Stream.keeps_turn s _ event)
  | addSessionKeys keys peer => exact hw
  | removeSessionKeys deviceId =>
    have hfilter : Mapped { t with
        keyring := t.keyring.filter fun entry => entry.deviceId ≠ some deviceId } := ht
    exact dropStreams_wired hfilter hw _ _ _
  | teardownStreams =>
    intro k s hs hopen
    have hclosed := teardownStreams_closed ht hw hs
    rw [hclosed] at hopen
    cases hopen

theorem drive_effect (ht : t.Mapped) {j : Nat} {s : Stream}
    (hs : t.objects[j]? = some s) (event : StreamEvent) (k : Nat) : Effect cfg t k (.stream j event)
      (t.drive j (s.turn cfg t.keyring (cfg.salt j) event)).1.objects[k]?
      (outOf k (t.drive j (s.turn cfg t.keyring (cfg.salt j) event)).2) := by
  have hkeep := @Stream.keeps_turn cfg t.keyring s (cfg.salt j) event
  have hset := set_mapped ht hs hkeep.streamId hkeep.closed
  have hidle : j ≠ k → ¬ t.Concerns k (.stream j event) := by
    rintro hjk (⟨-, ev, he⟩ | ⟨id, data, he, -⟩)
    · exact hjk (TableEvent.stream.inj he).1
    · cases he
  unfold drive
  split
  · rename_i hdrop
    simp only [getElem_set hs, outOf_stream]
    by_cases hjk : j = k
    · subst hjk
      simp only [if_true]
      exact Effect.ran hs fun _ => hdrop
    · simp only [if_neg hjk]
      exact Effect.kept (hidle hjk)
  · rename_i reason hdrop
    simp only [outOf_append, outOf_dropStream, append_nil, outOf_stream,
      dropStream_object hset, getElem_set hs, hkeep.streamId]
    by_cases hjk : j = k
    · subst hjk
      simp only [if_true, Option.map_some]
      by_cases hreg : t.streams.get s.streamId = some j
      · rw [if_pos hreg]
        exact Effect.ended hs hreg hdrop
      · rw [if_neg hreg]
        exact Effect.ran hs fun h => absurd h hreg
    · simp only [if_neg hjk]
      by_cases hreg : t.streams.get s.streamId = some k
      · obtain ⟨s', hs', -, -⟩ := ht _ k hreg
        rw [if_pos hreg, hs']
        exact Effect.closed (hidle hjk) hs'
      · rw [if_neg hreg]
        exact Effect.kept (hidle hjk)

theorem drive_ended (ht : t.Mapped) {s : Stream}
    (hs : t.objects[k]? = some s) (event : StreamEvent)
    (hreg : t.streams.get s.streamId = some k)
    (hdrop : (s.turn cfg t.keyring (cfg.salt k) event).drop = some reason) :
    (t.drive k (s.turn cfg t.keyring (cfg.salt k) event)).1.objects[k]? =
        some { (s.turn cfg t.keyring (cfg.salt k) event).stream with closed := true } ∧
      outOf k (t.drive k (s.turn cfg t.keyring (cfg.salt k) event)).2 = [] := by
  have heff := @drive_effect cfg t ht k s hs event k
  generalize (t.drive k (s.turn cfg t.keyring (cfg.salt k) event)).1.objects[k]? = obj at heff ⊢
  generalize outOf k (t.drive k (s.turn cfg t.keyring (cfg.salt k) event)).2 = out at heff ⊢
  have hlt := (List.getElem?_eq_some_iff.1 hs).1
  cases heff with
  | kept hidle => exact absurd (Or.inl ⟨hlt, event, rfl⟩) hidle
  | closed hidle was => exact absurd (Or.inl ⟨hlt, event, rfl⟩) hidle
  | ran was stays =>
    rw [hs] at was
    cases was
    rw [stays hreg] at hdrop
    cases hdrop
  | ended was registered drops =>
    rw [hs] at was
    cases was
    exact ⟨rfl, Stream.out_turn_dropped drops⟩

theorem closing_effect {e : TableEvent} {p : Prop} [Decidable p]
    (hidle : ¬ t.Concerns k e) :
    Effect cfg t k e (if p then t.objects[k]?.map fun s => { s with closed := true }
      else t.objects[k]?) [] := by
  split
  · cases hs : t.objects[k]? with
    | none =>
      have h : Effect cfg t k e t.objects[k]? [] := Effect.kept hidle
      rwa [hs] at h
    | some s => exact Effect.closed hidle hs
  · exact Effect.kept hidle

theorem step_effect (ht : t.Mapped) (e : TableEvent) (k : Nat) :
    Effect cfg t k e (t.step cfg e).1.objects[k]? (outOf k (t.step cfg e).2) := by
  cases e with
  | streamOpen id =>
    simp only [step, getElem_open]
    split
    · exact Effect.created (by assumption)
    · exact Effect.kept (by simp [Concerns])
  | streamFrame id data =>
    simp only [step]
    cases hid : t.streams.get id with
    | none =>
      rw [streamFrame_none hid]
      exact Effect.kept (by simp [Concerns, hid])
    | some j =>
      obtain ⟨s, hs, -, hopen⟩ := ht id j hid
      rw [streamFrame_some hid hs hopen]
      simp only [getElem_set hs]
      by_cases hjk : j = k
      · subst hjk
        rw [if_pos rfl]
        exact Effect.arrived hid hs hopen
      · rw [if_neg hjk]
        exact Effect.kept (by simp [Concerns, hid, hjk])
  | streamClose id =>
    simp only [step]
    rw [dropStream_object ht, outOf_dropStream]
    exact closing_effect (by simp [Concerns])
  | stream j event =>
    simp only [step]
    split
    · rename_i hnone
      refine Effect.kept ?_
      rintro (⟨hlt, ev, he⟩ | ⟨id, data, he, -⟩)
      · cases he
        rw [List.getElem?_eq_none_iff] at hnone
        omega
      · cases he
    · rename_i s hs
      exact drive_effect ht hs event k
  | addSessionKeys keys peer => exact Effect.kept (by simp [Concerns])
  | removeSessionKeys deviceId =>
    have hfilter : Mapped { t with
        keyring := t.keyring.filter fun entry => entry.deviceId ≠ some deviceId } := ht
    simp only [step, removeSessionKeys]
    rw [dropStreams_object hfilter, outOf_dropStreams]
    exact closing_effect (by simp [Concerns])
  | teardownStreams =>
    simp only [step, teardownStreams]
    rw [dropStreams_object ht, outOf_dropStreams]
    exact closing_effect (by simp [Concerns])

theorem run_mapped (cfg : StreamConfig) (es : List TableEvent) : ((machine cfg).run es).Mapped :=
  (machine cfg).run_invariant (I := Mapped) (fun _ _ h => by cases h)
    (fun _ e h => step_mapped h e) es

/-- No step of the run opens an id that is open. -/
def OpensOnce (cfg : StreamConfig) (es : List TableEvent) : Prop :=
  ∀ x ∈ (machine cfg).trace es, ¬ x.pre.Reopens x.event

instance (cfg : StreamConfig) (es : List TableEvent) : Decidable (OpensOnce cfg es) :=
  inferInstanceAs (Decidable (∀ x ∈ (machine cfg).trace es, ¬ x.pre.Reopens x.event))

theorem OpensOnce.init {es : List TableEvent} {e : TableEvent} (h : OpensOnce cfg (es ++ [e])) :
    OpensOnce cfg es ∧ ¬ ((machine cfg).run es).Reopens e := by
  unfold OpensOnce at h
  exact forall_trace_snoc h

theorem run_wired {es : List TableEvent} (h : OpensOnce cfg es) : ((machine cfg).run es).Wired := by
  induction es using List.reverseRecOn with
  | nil =>
    intro k s hs
    cases hs
  | append_singleton es e ih =>
    obtain ⟨hes, he⟩ := h.init
    rw [run_snoc]
    exact step_wired (run_mapped cfg es) (ih hes) he

end StreamTable
end Mtmux.Agent
